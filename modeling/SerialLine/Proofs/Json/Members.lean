import SerialLine.Proofs.Json.Objects
import SerialLine.Proofs.Json.Skipping
/-!
# Objects with members in any order

A record reader goes through the members of an object: it stores the value of a known field that
was not given before, and passes over what is unknown (`Fills`). It takes an object if its fields
take the members that they know, however keys are written, whatever blanks there are, and whatever
the unknown members hold (`record_fills`). What stands in the object is not a matter of how it is
looked at, as every text has at most one list of members (`IsObject.unique`).
-/

set_option autoImplicit false

namespace SerialLine.Json

variable {σ : Type} {key : String} {label t items : List Char} {ms : List (String × List Char)}

/-- A key shows its opening quote after the blanks, and a colon follows its text. -/
theorem IsKey.dropWhile_append (h : IsKey key label) :
    ∃ cs after, Spells cs key.toList ∧ Blank after ∧ ∀ t, (label ++ t).dropWhile isBlank =
      '"' :: (cs ++ '"' :: (after ++ ':' :: t)) := by
  obtain ⟨before, _, after, ⟨cs, hcs, rfl⟩, hbefore, hafter, rfl⟩ := h
  exact ⟨cs, after, hcs, hafter, dropWhile_label_append hbefore⟩

/-- The members of an object show the opening quote of the first key. -/
theorem Members.dropWhile_append (h : Members ms items) (rest : List Char) :
    ∃ cs, (items ++ rest).dropWhile isBlank = '"' :: cs := by
  cases h with
  | last isKey _ _ _ =>
    obtain ⟨cs, after, -, -, hlabel⟩ := isKey.dropWhile_append
    rw [List.append_assoc]
    exact ⟨_, hlabel _⟩
  | more isKey _ _ _ _ =>
    obtain ⟨cs, after, -, -, hlabel⟩ := isKey.dropWhile_append
    rw [List.append_assoc]
    exact ⟨_, hlabel _⟩

namespace Reader

/-- Members of an object change a record, one after another. What a value has to do with the record
before and after it is left open. -/
inductive Fills (Stored : Field σ → σ → List Char → σ → Prop) (fields : List (Field σ)) :
    List String → σ → List (String × List Char) → σ → Prop
  | nil (given : List String) (s : σ) : Fills Stored fields given s [] s
  | unknown {given : List String} {s s' : σ} {key : String} {v : List Char}
      {ms : List (String × List Char)} (isUnknown : fields.find? (·.name = key) = none)
      (later : Fills Stored fields given s ms s') : Fills Stored fields given s ((key, v) :: ms) s'
  | known {given : List String} {s s' s'' : σ} {key : String} {v : List Char}
      {ms : List (String × List Char)} {field : Field σ}
      (isKnown : fields.find? (·.name = key) = some field) (isNew : key ∉ given)
      (stored : Stored field s v s') (later : Fills Stored fields (key :: given) s' ms s'') :
      Fills Stored fields given s ((key, v) :: ms) s''

/-- A field takes a value in an object, wherever it stands. -/
def Field.TakesMember (field : Field σ) (s : σ) (v : List Char) (s' : σ) : Prop :=
  (field.store .inObject s).Takes v s'

variable {fields : List (Field σ)} {given : List String} {s s' : σ}

theorem colon_append {gap : List Char} (h : Blank gap) (rest : List Char) :
    colon (gap ++ ':' :: rest) = .ok ((), rest) := by
  rw [colon, bind_of_ok (peekPastBlank_of_start h (by decide) _)]
  rfl

/-- An unknown member is passed over. -/
theorem member_unknown {cs gap before v rest : List Char} (hkey : Spells cs key.toList)
    (isUnknown : fields.find? (·.name = key) = none) (hgap : Blank gap) (hvalue : IsValue v)
    (hbefore : Blank before) (hrest : Ends rest) :
    member fields given s ('"' :: (cs ++ '"' :: (gap ++ ':' :: (before ++ (v ++ rest))))) =
      .ok ((given, s), rest) := by
  rw [member, advance_bind, bind_of_ok (text_spells hkey _), String.ofList_toList]
  simp only [isUnknown]
  rw [bind_of_ok (colon_append hgap _), bind_of_ok (skipValue_isValue hvalue hbefore hrest)]
  rfl

/-- The value of a known member goes to its field, if it was not given before. -/
theorem member_known {field : Field σ} {cs gap : List Char} (hkey : Spells cs key.toList)
    (isKnown : fields.find? (·.name = key) = some field) (isNew : key ∉ given) (hgap : Blank gap)
    (rest : List Char) :
    member fields given s ('"' :: (cs ++ '"' :: (gap ++ ':' :: rest))) =
      (do
        let record ← field.store .inObject s
        pure (key :: given, record) : Reader (List String × σ)) rest := by
  rw [member, advance_bind, bind_of_ok (text_spells hkey _), String.ofList_toList]
  simp only [isKnown, if_neg isNew]
  exact bind_of_ok (colon_append hgap rest)

/-- The first member is taken, and the later ones go on with the record that it leaves. -/
theorem Fills.member {v : List Char} (h : Fills Field.TakesMember fields given s ((key, v) :: ms) s')
    {cs gap before rest : List Char} (hkey : Spells cs key.toList) (hgap : Blank gap)
    (hvalue : IsValue v) (hbefore : Blank before) (hrest : Ends rest) :
    ∃ given₁ s₁ left, Reader.member fields given s
        ('"' :: (cs ++ '"' :: (gap ++ ':' :: (before ++ (v ++ rest))))) =
          .ok ((given₁, s₁), left) ∧
      left.dropWhile isBlank = rest.dropWhile isBlank ∧
        Fills Field.TakesMember fields given₁ s₁ ms s' := by
  cases h with
  | unknown isUnknown later =>
    exact ⟨given, s, rest, member_unknown hkey isUnknown hgap hvalue hbefore hrest, rfl, later⟩
  | @known _ _ s₁ _ _ _ _ field isKnown isNew stored later =>
    obtain ⟨left, hstored, hleft⟩ := stored hbefore hrest
    refine ⟨key :: given, s₁, left, ?_, hleft, later⟩
    rw [member_known hkey isKnown isNew hgap, bind_of_ok hstored]
    rfl

/-- After a value there is the closing brace, or the key of the next member behind a comma. -/
theorem nextKey_closing {left after rest : List Char} (hafter : Blank after)
    (h : left.dropWhile isBlank = (after ++ '}' :: rest).dropWhile isBlank) :
    nextKey false left = .ok (false, '}' :: rest) := by
  rw [hafter.dropWhile_append, List.dropWhile_cons_of_neg (by decide)] at h
  exact nextKey_end h false

theorem nextKey_comma {left after rest : List Char} (hafter : Blank after)
    (h : left.dropWhile isBlank = (after ++ ',' :: rest).dropWhile isBlank)
    (hrest : ∃ cs, rest.dropWhile isBlank = '"' :: cs) :
    nextKey false left = .ok (true, rest.dropWhile isBlank) := by
  obtain ⟨cs, hcs⟩ := hrest
  rw [hafter.dropWhile_append, List.dropWhile_cons_of_neg (by decide)] at h
  rw [nextKey_later h hcs, hcs]

/-- Behind the last member there are no more. -/
theorem members_closing (fields : List (Field σ)) (given : List String) (s : σ) (n : ℕ)
    {left after rest : List Char} (hafter : Blank after)
    (h : left.dropWhile isBlank = (after ++ '}' :: rest).dropWhile isBlank) :
    members fields (n + 1) false given s left = .ok (s, '}' :: rest) := by
  rw [members, bind_of_ok (nextKey_closing hafter h)]
  rfl

/-- A count above the length of a member lasts for it and for the end of the object. -/
theorem count_of_last {label t : List Char} (h : IsLabel .object label) {count : ℕ}
    (hcount : (label ++ t).length < count) : ∃ n, count = n + 2 := by
  have hpos := h.length_pos
  rw [List.length_append] at hcount
  exact Nat.exists_eq_add_of_le' (by omega)

/-- What is left of a count above the length of the members is above that of the later ones. -/
theorem count_of_more {label before v after items : List Char} {count : ℕ}
    (hcount : (label ++ (before ++ (v ++ (after ++ ',' :: items)))).length < count) :
    ∃ n, count = n + 1 ∧ items.length < n := by
  obtain ⟨n, rfl⟩ : ∃ n, count = n + 1 := Nat.exists_eq_add_of_le' (Nat.zero_lt_of_lt hcount)
  refine ⟨n, rfl, ?_⟩
  simp only [List.length_append, List.length_cons] at hcount
  omega

/-- The members are taken up to the closing brace, once the reader has found the first key. By
induction on them. -/
theorem members_fill (h : Members ms items) {count : Nat} (hcount : items.length < count)
    (hfills : Fills Field.TakesMember fields given s ms s') {first : Bool}
    {left rest : List Char}
    (hnext : nextKey first left = .ok (true, (items ++ '}' :: rest).dropWhile isBlank)) :
    members fields count first given s left = .ok (s', '}' :: rest) := by
  induction h generalizing count given s first left with
  | @last key label before v after isKey blank value blank' =>
    obtain ⟨n, rfl⟩ := count_of_last isKey.isLabel hcount
    obtain ⟨cs, gap, hcs, hgap, hlabel⟩ := isKey.dropWhile_append
    have hends : Ends (after ++ '}' :: rest) := ends_of_blank blank' (by decide) rest
    obtain ⟨given₁, s₁, left₁, hmember, hleft, hlater⟩ := hfills.member hcs hgap value blank hends
    simp only [List.append_assoc, hlabel] at hnext
    cases hlater
    rw [members, bind_of_ok hnext]
    simp only [if_true]
    exact (bind_of_ok hmember).trans (members_closing _ _ _ n blank' hleft)
  | @more key label before v after ms items isKey blank value blank' later ih =>
    obtain ⟨n, rfl, hn⟩ := count_of_more hcount
    obtain ⟨cs, gap, hcs, hgap, hlabel⟩ := isKey.dropWhile_append
    have hends : Ends (after ++ ',' :: (items ++ '}' :: rest)) :=
      ends_of_blank blank' (by decide) _
    obtain ⟨given₁, s₁, left₁, hmember, hleft, hlater⟩ := hfills.member hcs hgap value blank hends
    simp only [List.append_assoc, List.cons_append, hlabel] at hnext
    rw [members, bind_of_ok hnext]
    simp only [if_true]
    rw [bind_of_ok hmember]
    exact ih hn hlater (nextKey_comma blank' hleft (later.dropWhile_append _))

theorem record_brace (expected : String) {start : σ} {before cs rest : List Char}
    (hbefore : Blank before)
    (h : members fields (cs.length + 1) true [] start cs = .ok (s', '}' :: rest)) :
    record expected fields start (before ++ '{' :: cs) = .ok (s', rest) := by
  rw [record, bind_of_ok (peekPastBlank_of_start hbefore (by decide) cs)]
  show (do
    advance
    let r ← fun cs ↦ members fields (cs.length + 1) true [] start cs
    advance
    pure r : Reader σ) _ = _
  rw [advance_bind]
  exact (bind_of_ok (r := fun cs ↦ members fields (cs.length + 1) true [] start cs) h).trans rfl

/-- A record is read off an object if the members fill it. -/
theorem record_fills {expected : String} {start : σ} (h : IsObject ms t)
    (hfills : Fills Field.TakesMember fields [] start ms s') :
    (record expected fields start).Takes t s' := by
  intro before rest hbefore _
  refine ⟨rest, ?_, rfl⟩
  cases h with
  | @empty gap blank =>
    cases hfills
    rw [List.cons_append, List.append_assoc]
    refine record_brace expected hbefore ?_
    have hdrop : (gap ++ '}' :: rest).dropWhile isBlank = '}' :: rest := by
      rw [blank.dropWhile_append, List.dropWhile_cons_of_neg (by decide)]
    rw [members]
    exact bind_of_ok (nextKey_end hdrop true)
  | @members _ items inner =>
    rw [List.cons_append, List.append_assoc]
    refine record_brace expected hbefore ?_
    obtain ⟨cs, hcs⟩ := inner.dropWhile_append ('}' :: rest)
    refine members_fill inner ?_ hfills (hcs ▸ nextKey_first hcs)
    simp only [List.length_append]
    omega

/-! ### Words -/

theorem null_takes : null.Takes ['n', 'u', 'l', 'l'] () :=
  Takes.of_start (by decide) fun rest ↦ word_append ['u', 'l', 'l'] rest

theorem variantName_spells {α : Type} {variants : List (String × α)} {a : α} {cs : List Char}
    (hkey : Spells cs key.toList) (h : variants.find? (·.1 = key) = some (key, a))
    (rest : List Char) : variantName variants ('"' :: (cs ++ '"' :: rest)) = .ok (a, rest) := by
  rw [variantName, advance_bind, bind_of_ok (text_spells hkey rest), String.ofList_toList, h]
  rfl

/-- A word is taken however it is written. -/
theorem variant_takes_text {α : Type} {variants : List (String × α)} {a : α}
    (h : variants.find? (·.1 = key) = some (key, a)) (ht : IsText key t) :
    (variant variants).Takes t a := by
  obtain ⟨cs, hcs, rfl⟩ := ht
  refine Takes.of_start (by decide) fun rest ↦ ?_
  rw [List.append_assoc]
  exact variantName_spells hcs h rest

/-- It may also be the only key of an object, with the value null. -/
theorem variant_takes_object {α : Type} {variants : List (String × α)} {a : α}
    (h : variants.find? (·.1 = key) = some (key, a))
    (ht : IsObject [(key, ['n', 'u', 'l', 'l'])] t) : (variant variants).Takes t a := by
  obtain ⟨⟩ | ⟨hitems⟩ := ht
  cases hitems with
  | more _ _ _ _ later => cases later
  | @last _ label before _ after isKey blank _ blank' =>
    refine Takes.of_start (by decide) fun rest ↦ ?_
    obtain ⟨cs, gap, hcs, hgap, hlabel⟩ := isKey.dropWhile_append
    obtain ⟨left, hnull, hleft⟩ :=
      @null_takes before (after ++ '}' :: rest) blank (ends_of_blank blank' (by decide) rest)
    rw [blank'.dropWhile_append, List.dropWhile_cons_of_neg (by decide)] at hleft
    have hkey : ∀ items, onlyKey (label ++ items) = .ok ((), '"' :: (cs ++ '"' ::
        (gap ++ ':' :: items))) := by
      intro items
      rw [onlyKey, bind_of_ok (peekPastBlank_eq _), hlabel]
      rfl
    simp only [List.append_assoc, List.singleton_append, advance_bind]
    rw [bind_of_ok (hkey _), bind_of_ok (variantName_spells hcs h _),
      bind_of_ok (colon_append hgap _)]
    rw [bind_of_ok hnull, bind_of_ok (peekPastBlank_eq left), hleft]
    rfl

end Reader

/-! ### One list of members -/

theorem IsValue.dropWhile_append {v : List Char} (h : IsValue v) {before : List Char}
    (hbefore : Blank before) (rest : List Char) :
    (before ++ (v ++ rest)).dropWhile isBlank = v ++ rest := by
  obtain ⟨c, cs, rfl, hc⟩ := Reader.start_of_isValue h
  rw [hbefore.dropWhile_append, List.cons_append, List.dropWhile_cons_of_neg hc.not_blank]

/-- A member is the same however it is looked at: the readers of its key and of its value each stop
at one place. -/
theorem member_unique {key' : String} {label' before before' v v' rest rest' : List Char}
    (hkey : IsKey key label) (hbefore : Blank before) (hv : IsValue v) (hrest : Ends rest)
    (hkey' : IsKey key' label') (hbefore' : Blank before') (hv' : IsValue v') (hrest' : Ends rest')
    (h : label ++ (before ++ (v ++ rest)) = label' ++ (before' ++ (v' ++ rest'))) :
    key = key' ∧ v = v' ∧ rest = rest' := by
  obtain ⟨cs, gap, hcs, hgap, hlabel⟩ := hkey.dropWhile_append
  obtain ⟨cs', gap', hcs', hgap', hlabel'⟩ := hkey'.dropWhile_append
  have htext := congrArg (List.dropWhile isBlank) h
  rw [hlabel, hlabel'] at htext
  have hread := Reader.text_spells hcs (gap ++ ':' :: (before ++ (v ++ rest)))
  rw [List.tail_eq_of_cons_eq htext, Reader.text_spells hcs'] at hread
  have hkeys : key' = key := by
    simpa only [String.ofList_toList] using congrArg Prod.fst (Except.ok.inj hread)
  have hcolon := Reader.colon_append hgap (before ++ (v ++ rest))
  rw [← (Prod.mk.inj (Except.ok.inj hread)).2, Reader.colon_append hgap'] at hcolon
  have hvalues := (Prod.mk.inj (Except.ok.inj hcolon)).2
  have hskip := Reader.skipValue_isValue hv hbefore hrest
  rw [← hvalues, Reader.skipValue_isValue hv' hbefore' hrest'] at hskip
  obtain rfl := (Prod.mk.inj (Except.ok.inj hskip)).2
  have hdrop := congrArg (List.dropWhile isBlank) hvalues
  rw [hv.dropWhile_append hbefore, hv'.dropWhile_append hbefore'] at hdrop
  exact ⟨hkeys.symm, (List.append_cancel_right hdrop).symm, rfl⟩

theorem ends_blank {gap : List Char} (h : Blank gap) : Ends gap := by
  intro c hc hnumber
  have hblank := h c (List.mem_of_mem_head? hc)
  simp only [isBlank, decide_eq_true_eq] at hblank
  rcases hblank with rfl | rfl | rfl | rfl <;> exact absurd hnumber (by decide)

/-- By induction on the members of one of the two lists. -/
theorem Members.unique {ms' : List (String × List Char)} (h : Members ms items)
    (h' : Members ms' items) : ms = ms' := by
  have hcomma : ∀ {after after' rest : List Char}, Blank after →
      after ≠ after' ++ ',' :: rest := by
    rintro _ after' rest hafter rfl
    exact absurd (hafter ',' (List.mem_append_right _ List.mem_cons_self)) (by decide)
  generalize hitems : items = items' at h'
  induction h generalizing ms' items' with
  | @last key label before v after isKey blank value blank' =>
    cases h' with
    | last isKey₁ blank₁ value₁ blank₁' =>
      obtain ⟨rfl, rfl, -⟩ := member_unique isKey blank value (ends_blank blank') isKey₁ blank₁
        value₁ (ends_blank blank₁') hitems
      rfl
    | more isKey₁ blank₁ value₁ blank₁' _ =>
      obtain ⟨-, -, hrest⟩ := member_unique isKey blank value (ends_blank blank') isKey₁ blank₁
        value₁ (ends_of_blank blank₁' (by decide) _) hitems
      exact absurd hrest (hcomma blank')
  | @more key label before v after ms items isKey blank value blank' later ih =>
    cases h' with
    | last isKey₁ blank₁ value₁ blank₁' =>
      obtain ⟨-, -, hrest⟩ := member_unique isKey blank value
        (ends_of_blank blank' (by decide) _) isKey₁ blank₁ value₁ (ends_blank blank₁') hitems
      exact absurd hrest.symm (hcomma blank₁')
    | more isKey₁ blank₁ value₁ blank₁' later₁ =>
      obtain ⟨rfl, rfl, hrest⟩ := member_unique isKey blank value
        (ends_of_blank blank' (by decide) _) isKey₁ blank₁ value₁
        (ends_of_blank blank₁' (by decide) _) hitems
      have hdrop := congrArg (List.dropWhile isBlank) hrest
      rw [blank'.dropWhile_append, blank₁'.dropWhile_append,
        List.dropWhile_cons_of_neg (by decide), List.dropWhile_cons_of_neg (by decide)] at hdrop
      rw [ih _ (List.tail_eq_of_cons_eq hdrop) later₁]

/-- An object has one list of members. -/
theorem IsObject.unique {ms' : List (String × List Char)} (h : IsObject ms t)
    (h' : IsObject ms' t) : ms = ms' := by
  have hempty : ∀ {gap items : List Char} {ms : List (String × List Char)}, Blank gap →
      Members ms items → gap ++ ['}'] ≠ items ++ ['}'] := by
    intro gap items ms hgap hms hitems
    obtain ⟨cs, hcs⟩ := hms.dropWhile_append ['}']
    rw [← hitems, hgap.dropWhile_append] at hcs
    exact absurd hcs (by simp [isBlank])
  generalize ht : t = t' at h'
  cases h with
  | empty blank =>
    cases h' with
    | empty _ => rfl
    | members inner => exact absurd (List.tail_eq_of_cons_eq ht) (hempty blank inner)
  | members inner =>
    cases h' with
    | empty blank => exact absurd (List.tail_eq_of_cons_eq ht).symm (hempty blank inner)
    | members inner₁ =>
      exact (List.append_cancel_right (List.tail_eq_of_cons_eq ht) ▸ inner).unique inner₁

end SerialLine.Json

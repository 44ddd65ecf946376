import SerialLine.Proofs.Json.Whole
/-!
# No member of an object is missed

If the fields of a record do not stop inside values, neither does the reader of the record, be the
value an object or a list (`record_whole`). What it yields of an object is therefore the work of all
the members (`fills_of_record`), so no known key occurs twice among them (`Fills.count_le_one`). This
holds for members of any form, also where the fields do not take them.
-/

set_option autoImplicit false

namespace SerialLine.Json.Reader

variable {σ : Type} {fields : List (Field σ)} {given : List String} {s s' : σ}

/-- The fields of a record do not stop inside values. -/
def WholeFields (fields : List (Field σ)) : Prop :=
  ∀ field ∈ fields, ∀ place s, (field.store place s).Whole

/-- A field yields a record for a value somewhere in an object. -/
def Field.Yields (field : Field σ) (s : σ) (v : List Char) (s' : σ) : Prop :=
  ∃ before rest left, Blank before ∧ Ends rest ∧
    field.store .inObject s (before ++ (v ++ rest)) = .ok (s', left)

/-- A member is read to its end. -/
theorem member_inside (hfields : WholeFields fields) {cs gap before v rest left : List Char}
    {p : List String × σ} (hkey : Inside cs) (hgap : Blank gap) (hbefore : Blank before)
    (hv : IsValue v) (hrest : Ends rest)
    (hdone : member fields given s ('"' :: (cs ++ '"' :: (gap ++ ':' :: (before ++ (v ++ rest))))) =
      .ok (p, left)) : left.dropWhile isBlank = rest.dropWhile isBlank := by
  rw [member, advance_bind] at hdone
  obtain ⟨key, mid, htext, hdone⟩ := exists_of_bind hdone
  obtain rfl := text_inside hkey htext
  cases hfind : fields.find? (·.name = key) with
  | none =>
    simp only [hfind] at hdone
    rw [bind_of_ok (colon_append hgap _), bind_of_ok (skipValue_isValue hv hbefore hrest)] at hdone
    cases hdone
    rfl
  | some field =>
    simp only [hfind] at hdone
    split at hdone
    · cases hdone
    · rw [bind_of_ok (colon_append hgap _)] at hdone
      obtain ⟨r, mid, hstored, hdone⟩ := exists_of_bind hdone
      cases hdone
      rw [← List.append_assoc] at hstored
      exact hfields field (List.mem_of_find?_eq_some hfind) _ _ hbefore hv hrest hstored

/-- The items of an object show the opening quote of the first key. -/
theorem items_dropWhile_append {items : List Char} (h : WellFormed (some .object) items)
    (rest : List Char) : ∃ cs, (items ++ '}' :: rest).dropWhile isBlank = '"' :: cs := by
  obtain ⟨label, before, v, after, next, hlabel, -, -, -, hitems, -⟩ := uncons_items h rest
  obtain ⟨cs, gap, -, -, hlabel⟩ := label_dropWhile_append hlabel
  replace hitems : items ++ '}' :: rest = _ := hitems
  exact ⟨_, (congrArg _ hitems).trans (hlabel _)⟩

/-- What is yielded of the members is yielded of the first and then of the later ones, which start
where its value ends. -/
theorem members_cons (hfields : WholeFields fields) {n : ℕ} {first : Bool}
    {start cs gap before v rest left : List Char} (hkey : Inside cs) (hgap : Blank gap)
    (hbefore : Blank before) (hv : IsValue v) (hrest : Ends rest)
    (hnext : nextKey first start =
      .ok (true, '"' :: (cs ++ '"' :: (gap ++ ':' :: (before ++ (v ++ rest))))))
    (hdone : members fields (n + 1) first given s start = .ok (s', left)) :
    ∃ given₁ s₁ mid,
      member fields given s ('"' :: (cs ++ '"' :: (gap ++ ':' :: (before ++ (v ++ rest))))) =
          .ok ((given₁, s₁), mid) ∧
        mid.dropWhile isBlank = rest.dropWhile isBlank ∧
          members fields n false given₁ s₁ mid = .ok (s', left) := by
  rw [members, bind_of_ok hnext] at hdone
  obtain ⟨⟨given₁, s₁⟩, mid, hmember, hlater⟩ := exists_of_bind hdone
  exact ⟨given₁, s₁, mid, hmember, member_inside hfields hkey hgap hbefore hv hrest hmember, hlater⟩

/-- The members are read up to the closing brace. By induction on the items of the object. -/
theorem members_inside (hfields : WholeFields fields) {b? : Option Bracket} {items : List Char}
    (h : WellFormed b? items) (hb : b? = some .object) {count : Nat} (hcount : items.length < count)
    {first : Bool} {start left rest : List Char}
    (hnext : nextKey first start = .ok (true, (items ++ '}' :: rest).dropWhile isBlank))
    (hdone : members fields count first given s start = .ok (s', left)) : left = '}' :: rest := by
  induction h generalizing count given s first start with
  | scalar => cases hb
  | empty => cases hb
  | bracket => cases hb
  | @last b label before v after isLabel blank value blank' =>
    obtain rfl := Option.some.inj hb
    obtain ⟨n, rfl⟩ := count_of_last isLabel hcount
    obtain ⟨cs, gap, hcs, hgap, hlabel⟩ := label_dropWhile_append isLabel
    simp only [List.append_assoc, hlabel] at hnext
    obtain ⟨given₁, s₁, mid, -, hmid, hlater⟩ :=
      members_cons hfields hcs hgap blank value (ends_of_blank blank' (by decide) _) hnext hdone
    rw [members_closing _ _ _ n blank' hmid] at hlater
    cases hlater
    rfl
  | @more b label before v after items isLabel blank value blank' later _ ih =>
    obtain rfl := Option.some.inj hb
    obtain ⟨n, rfl, hn⟩ := count_of_more hcount
    obtain ⟨cs, gap, hcs, hgap, hlabel⟩ := label_dropWhile_append isLabel
    simp only [List.append_assoc, List.cons_append, hlabel] at hnext
    obtain ⟨given₁, s₁, mid, -, hmid, hlater⟩ :=
      members_cons hfields hcs hgap blank value (ends_of_blank blank' (by decide) _) hnext hdone
    exact ih rfl hn (nextKey_comma blank' hmid (items_dropWhile_append later rest)) hlater

/-- A list ends with its closing bracket. -/
theorem endOfList_eq_ok {cs left : List Char} {u : Unit} (h : endOfList cs = .ok (u, left)) :
    cs.dropWhile isBlank = ']' :: left := by
  rw [endOfList, bind_of_ok (peekPastBlank_eq cs)] at h
  rcases hcs : cs.dropWhile isBlank with _ | ⟨c, mid⟩ <;> rw [hcs] at h
  · cases h
  · by_cases hc : c = ']'
    · subst hc
      cases h
      rfl
    · by_cases hc' : c = ','
      · subst hc'
        simp only [List.head?_cons, advance_bind] at h
        refine absurd h (Fails.bind (fun next ↦ ?_) peekPastBlank mid u left)
        split <;> exact fail_fails _ _
      · simp only [List.head?_cons] at h
        cases h

theorem nextElement_closing {first : Bool} {cs rest : List Char}
    (h : cs.dropWhile isBlank = ']' :: rest) : nextElement first cs = .ok (false, ']' :: rest) := by
  rw [nextElement, bind_of_ok (peekPastBlank_eq cs), h]
  rfl

theorem nextElement_first {c : Char} {cs rest : List Char} (h : cs.dropWhile isBlank = c :: rest)
    (hc : c ≠ ']') : nextElement true cs = .ok (true, c :: rest) := by
  rw [nextElement, bind_of_ok (peekPastBlank_eq cs), h]
  simp only [List.head?_cons, if_true]
  rfl

theorem nextElement_comma {c : Char} {cs mid rest : List Char}
    (h : cs.dropWhile isBlank = ',' :: mid) (hmid : mid.dropWhile isBlank = c :: rest)
    (hc : c ≠ ']') : nextElement false cs = .ok (true, c :: rest) := by
  have hpeek : peekPastBlank mid = .ok (some c, c :: rest) := by
    rw [peekPastBlank_eq, hmid]
    rfl
  rw [nextElement, bind_of_ok (peekPastBlank_eq cs), h]
  simp only [List.head?_cons, Char.reduceEq, imp_self, Bool.false_eq_true, if_false, if_true,
    advance_bind, bind_of_ok hpeek]
  rfl

/-- The items of a list show the first character of a value. -/
theorem elements_dropWhile_append {items : List Char} (h : WellFormed (some .list) items)
    (rest : List Char) : ∃ c cs, (items ++ ']' :: rest).dropWhile isBlank = c :: cs ∧ c ≠ ']' := by
  obtain ⟨label, before, v, after, next, hlabel, hbefore, hv, -, hitems, -⟩ := uncons_items h rest
  obtain ⟨⟩ | _ := hlabel
  replace hitems : items ++ ']' :: rest = before ++ (v ++ (after ++ next)) := hitems
  obtain ⟨c, cs, rfl, hc⟩ := start_of_isValue hv
  rw [hitems, hv.dropWhile_append hbefore]
  exact ⟨c, _, rfl, hc.not_closing .list⟩

/-- Where the list goes on, there is a field for the next element. -/
theorem elements_cons {first : Bool} {start mid left : List Char}
    (hnext : nextElement first start = .ok (true, mid))
    (hdone : (do
      let r ← elements fields first s
      endOfList
      pure r : Reader σ) start = .ok (s', left)) :
    ∃ field later r next, fields = field :: later ∧ field.store .inList s mid = .ok (r, next) ∧
      (do
        let r ← elements later false r
        endOfList
        pure r : Reader σ) next = .ok (s', left) := by
  cases fields with
  | nil =>
    obtain ⟨r, mid', hnone, hdone⟩ := exists_of_bind hdone
    cases hnone
    obtain ⟨u, mid', hend, -⟩ := exists_of_bind hdone
    rw [nextElement_closing (endOfList_eq_ok hend)] at hnext
    cases hnext
  | cons field later =>
    obtain ⟨r, mid', hdone, hend⟩ := exists_of_bind hdone
    rw [elements, bind_of_ok hnext] at hdone
    obtain ⟨r₁, next, hstored, hlater⟩ := exists_of_bind hdone
    exact ⟨field, later, r₁, next, rfl, hstored, (bind_of_ok hlater).trans hend⟩

/-- Where the list ends, so do the elements. -/
theorem elements_closing {first : Bool} {start left rest : List Char}
    (h : start.dropWhile isBlank = ']' :: rest)
    (hdone : (do
      let r ← elements fields first s
      endOfList
      pure r : Reader σ) start = .ok (s', left)) : left = rest := by
  have hend : ∀ {cs : List Char} {r : σ}, cs.dropWhile isBlank = ']' :: rest →
      (do endOfList; pure r : Reader σ) cs = .ok (s', left) → left = rest := by
    intro cs r hcs hdone
    obtain ⟨u, mid, hend, hpure⟩ := exists_of_bind hdone
    cases hpure
    exact List.tail_eq_of_cons_eq ((endOfList_eq_ok hend).symm.trans hcs)
  obtain ⟨r, mid, hdone, hlast⟩ := exists_of_bind hdone
  cases fields with
  | nil =>
    cases hdone
    exact hend h hlast
  | cons field later =>
    rw [elements, bind_of_ok (nextElement_closing h)] at hdone
    cases hdone
    exact hend (by rw [List.dropWhile_cons_of_neg (by decide)]) hlast

/-- The elements are read up to the end of the list, if there are fields for all of them. By
induction on the items of the list. -/
theorem elements_inside (hfields : WholeFields fields) {b? : Option Bracket} {items : List Char}
    (h : WellFormed b? items) (hb : b? = some .list) {first : Bool} {start left rest : List Char}
    (hnext : nextElement first start = .ok (true, (items ++ ']' :: rest).dropWhile isBlank))
    (hdone : (do
      let r ← elements fields first s
      endOfList
      pure r : Reader σ) start = .ok (s', left)) : left = rest := by
  have hinside : ∀ {field : Field σ} {later : List (Field σ)} {v next mid : List Char} {s r : σ},
      WholeFields (field :: later) → IsValue v → Ends next →
        field.store .inList s (v ++ next) = .ok (r, mid) →
          mid.dropWhile isBlank = next.dropWhile isBlank := by
    intro field later v next mid s r hfields hv hnext hstored
    exact hfields field List.mem_cons_self _ _ (fun _ h ↦ absurd h List.not_mem_nil) hv hnext
      hstored
  induction h generalizing fields s first start with
  | scalar => cases hb
  | empty => cases hb
  | bracket => cases hb
  | @last b label before v after isLabel blank value blank' =>
    obtain rfl := Option.some.inj hb
    obtain ⟨⟩ | _ := isLabel
    have hitems : ([] ++ (before ++ (v ++ after)) ++ ']' :: rest).dropWhile isBlank =
        v ++ (after ++ ']' :: rest) := by
      simp only [List.nil_append, List.append_assoc]
      exact IsValue.dropWhile_append value blank _
    rw [hitems] at hnext
    obtain ⟨field, later, r, next, rfl, hstored, hlater⟩ := elements_cons hnext hdone
    have hmid := hinside hfields value (ends_of_blank blank' (by decide) _) hstored
    rw [blank'.dropWhile_append, List.dropWhile_cons_of_neg (by decide)] at hmid
    exact elements_closing hmid hlater
  | @more b label before v after items isLabel blank value blank' later _ ih =>
    obtain rfl := Option.some.inj hb
    obtain ⟨⟩ | _ := isLabel
    have hitems : ([] ++ (before ++ (v ++ (after ++ ',' :: items))) ++ ']' :: rest).dropWhile
        isBlank = v ++ (after ++ ',' :: (items ++ ']' :: rest)) := by
      simp only [List.nil_append, List.append_assoc, List.cons_append]
      exact IsValue.dropWhile_append value blank _
    rw [hitems] at hnext
    obtain ⟨field, fields', r, next, rfl, hstored, hlater⟩ := elements_cons hnext hdone
    have hmid := hinside hfields value (ends_of_blank blank' (by decide) _) hstored
    rw [blank'.dropWhile_append, List.dropWhile_cons_of_neg (by decide)] at hmid
    obtain ⟨c, cs, hcs, hc⟩ := elements_dropWhile_append later rest
    exact ih (fun f hf ↦ hfields f (List.mem_cons_of_mem _ hf)) rfl
      (hcs ▸ nextElement_comma hmid hcs hc) hlater

/-- Of an object, the record is what comes of its members. -/
theorem members_of_record {start : σ} (cs : List Char) {left : List Char}
    (hdone : (do
      let r ← fun cs ↦ members fields (cs.length + 1) true [] start cs
      advance
      pure r : Reader σ) cs = .ok (s', left)) :
    ∃ mid, members fields (cs.length + 1) true [] start cs = .ok (s', mid) ∧ left = mid.tail := by
  obtain ⟨r, mid, hmembers, hdone⟩ := exists_of_bind hdone
  cases hdone
  exact ⟨mid, hmembers, rfl⟩

/-- The members of an object are not left inside it. -/
theorem members_wholeAt (hfields : WholeFields fields) (start : σ) {inner : List Char}
    (h : Blank inner ∨ WellFormed (some .object) inner) :
    (do
      let r ← fun cs ↦ members fields (cs.length + 1) true [] start cs
      advance
      pure r : Reader σ).WholeAt (inner ++ ['}']) := by
  intro rest r left _ hdone
  rw [List.append_assoc] at hdone
  obtain ⟨mid, hmembers, rfl⟩ := members_of_record (inner ++ '}' :: rest) hdone
  rcases h with hblank | hitems
  · have hdrop : (inner ++ '}' :: rest).dropWhile isBlank = '}' :: rest := by
      rw [hblank.dropWhile_append, List.dropWhile_cons_of_neg (by decide)]
    rw [members, bind_of_ok (nextKey_end hdrop true)] at hmembers
    cases hmembers
    rfl
  · obtain ⟨cs, hcs⟩ := items_dropWhile_append hitems rest
    have hcount : inner.length < (inner ++ '}' :: rest).length + 1 := by
      rw [List.length_append]
      omega
    rw [members_inside hfields hitems rfl hcount (hcs ▸ nextKey_first hcs) hmembers]
    rfl

/-- Nor are the elements of a list. -/
theorem elements_wholeAt (hfields : WholeFields fields) (start : σ) {inner : List Char}
    (h : Blank inner ∨ WellFormed (some .list) inner) :
    (do
      let r ← elements fields true start
      endOfList
      pure r : Reader σ).WholeAt (inner ++ [']']) := by
  intro rest r left _ hdone
  rw [List.append_assoc, List.singleton_append] at hdone
  rcases h with hblank | hitems
  · have hdrop : (inner ++ ']' :: rest).dropWhile isBlank = ']' :: rest := by
      rw [hblank.dropWhile_append, List.dropWhile_cons_of_neg (by decide)]
    rw [elements_closing hdrop hdone]
  · obtain ⟨c, cs, hcs, hc⟩ := elements_dropWhile_append hitems rest
    rw [elements_inside hfields hitems rfl (hcs ▸ nextElement_first hcs hc) hdone]

/-- A record is not left inside a value. -/
theorem record_whole (expected : String) (hfields : WholeFields fields) (start : σ) :
    (record expected fields start).Whole := by
  refine whole_of_start fun c cs hv ↦ ?_
  split
  · exact (fail_fails _ _).wholeAt _
  · next hc =>
    obtain rfl := Option.some.inj hc
    obtain ⟨inner, rfl, hinner⟩ := bracket_of_start (b := .object) hv
    exact members_wholeAt hfields start hinner
  · next hc =>
    obtain rfl := Option.some.inj hc
    obtain ⟨inner, rfl, hinner⟩ := bracket_of_start (b := .list) hv
    exact elements_wholeAt hfields start hinner
  · exact (wrongType_fails _).wholeAt _

/-! ### Known keys that are given twice -/

/-- What comes of a member: nothing if it is unknown, and if its key is new, what its field yields
of the value. -/
theorem member_yields {key : String} {cs gap before v rest left : List Char} {given₁ : List String}
    {s₁ : σ} (hkey : Spells cs key.toList) (hgap : Blank gap) (hbefore : Blank before)
    (hv : IsValue v) (hrest : Ends rest)
    (hdone : member fields given s ('"' :: (cs ++ '"' :: (gap ++ ':' :: (before ++ (v ++ rest))))) =
      .ok ((given₁, s₁), left)) {ms : List (String × List Char)}
    (hlater : Fills Field.Yields fields given₁ s₁ ms s') :
    Fills Field.Yields fields given s ((key, v) :: ms) s' := by
  cases hfind : fields.find? (·.name = key) with
  | none =>
    rw [member_unknown hkey hfind hgap hv hbefore hrest] at hdone
    cases hdone
    exact .unknown hfind hlater
  | some field =>
    by_cases hgiven : key ∈ given
    · rw [member, advance_bind, bind_of_ok (text_spells hkey _), String.ofList_toList] at hdone
      simp only [hfind, if_pos hgiven] at hdone
      cases hdone
    · rw [member_known hkey hfind hgiven hgap] at hdone
      obtain ⟨r, mid, hstored, hdone⟩ := exists_of_bind hdone
      cases hdone
      exact .known hfind hgiven ⟨before, rest, _, hbefore, hrest, hstored⟩ hlater

/-- What is yielded of the members is the work of all of them. By induction on them. -/
theorem fills_of_members (hfields : WholeFields fields) {ms : List (String × List Char)}
    {items : List Char} (h : Members ms items) {count : Nat} (hcount : items.length < count)
    {first : Bool} {start left rest : List Char}
    (hnext : nextKey first start = .ok (true, (items ++ '}' :: rest).dropWhile isBlank))
    (hdone : members fields count first given s start = .ok (s', left)) :
    Fills Field.Yields fields given s ms s' := by
  induction h generalizing count given s first start with
  | @last key label before v after isKey blank value blank' =>
    obtain ⟨n, rfl⟩ := count_of_last isKey.isLabel hcount
    obtain ⟨cs, gap, hcs, hgap, hlabel⟩ := isKey.dropWhile_append
    have hends : Ends (after ++ '}' :: rest) := ends_of_blank blank' (by decide) _
    simp only [List.append_assoc, hlabel] at hnext
    obtain ⟨given₁, s₁, mid, hmember, hmid, hlater⟩ :=
      members_cons hfields hcs.inside hgap blank value hends hnext hdone
    rw [members_closing _ _ _ n blank' hmid] at hlater
    cases hlater
    exact member_yields hcs hgap blank value hends hmember (.nil _ _)
  | @more key label before v after ms items isKey blank value blank' later ih =>
    obtain ⟨n, rfl, hn⟩ := count_of_more hcount
    obtain ⟨cs, gap, hcs, hgap, hlabel⟩ := isKey.dropWhile_append
    have hends : Ends (after ++ ',' :: (items ++ '}' :: rest)) :=
      ends_of_blank blank' (by decide) _
    simp only [List.append_assoc, List.cons_append, hlabel] at hnext
    obtain ⟨given₁, s₁, mid, hmember, hmid, hlater⟩ :=
      members_cons hfields hcs.inside hgap blank value hends hnext hdone
    exact member_yields hcs hgap blank value hends hmember
      (ih hn (nextKey_comma blank' hmid (later.dropWhile_append _)) hlater)

/-- A record that is read off an object has been filled by its members. -/
theorem fills_of_record (hfields : WholeFields fields) {expected : String} {start : σ}
    {ms : List (String × List Char)} {t before rest left : List Char} (h : IsObject ms t)
    (hbefore : Blank before)
    (hdone : record expected fields start (before ++ (t ++ rest)) = .ok (s', left)) :
    Fills Field.Yields fields [] start ms s' := by
  cases h with
  | @empty gap blank =>
    rw [List.cons_append, List.append_assoc, record,
      bind_of_ok (peekPastBlank_of_start hbefore (by decide) _)] at hdone
    have hdrop : (gap ++ (['}'] ++ rest)).dropWhile isBlank = '}' :: rest := by
      rw [blank.dropWhile_append]
      exact List.dropWhile_cons_of_neg (by decide)
    obtain ⟨mid, hmembers, -⟩ := members_of_record (gap ++ (['}'] ++ rest)) hdone
    rw [members, bind_of_ok (nextKey_end hdrop true)] at hmembers
    cases hmembers
    exact .nil _ _
  | @members _ items inner =>
    rw [List.cons_append, List.append_assoc, record,
      bind_of_ok (peekPastBlank_of_start hbefore (by decide) _)] at hdone
    obtain ⟨mid, hmembers, -⟩ := members_of_record (items ++ '}' :: rest) hdone
    obtain ⟨cs, hcs⟩ := inner.dropWhile_append ('}' :: rest)
    have hcount : items.length < (items ++ '}' :: rest).length + 1 := by
      rw [List.length_append]
      omega
    exact fills_of_members hfields inner hcount (hcs ▸ nextKey_first hcs) hmembers

variable {Stored : Field σ → σ → List Char → σ → Prop} {ms : List (String × List Char)}

/-- A known key occurs once at most, and not at all if it was given before. -/
theorem Fills.count_le_one (h : Fills Stored fields given s ms s') {key : String} {field : Field σ}
    (hknown : fields.find? (·.name = key) = some field) :
    (key ∈ given → ms.countP (·.1 = key) = 0) ∧ ms.countP (·.1 = key) ≤ 1 := by
  induction h with
  | nil => exact ⟨fun _ ↦ rfl, Nat.zero_le 1⟩
  | @unknown given s s' key' v ms isUnknown _ ih =>
    have hne : ¬ key' = key := by
      rintro rfl
      rw [hknown] at isUnknown
      cases isUnknown
    simpa only [List.countP_cons, hne, decide_false, Bool.false_eq_true, if_false, Nat.add_zero]
      using ih
  | @known given s s' s'' key' v ms field' isKnown isNew _ _ ih =>
    by_cases hkey : key' = key
    · subst hkey
      rw [List.countP_cons, ih.1 List.mem_cons_self]
      exact ⟨fun hgiven ↦ absurd hgiven isNew, by simp⟩
    · simp only [List.countP_cons, hkey, decide_false, Bool.false_eq_true, if_false, Nat.add_zero]
      exact ⟨fun hgiven ↦ ih.1 (List.mem_cons_of_mem _ hgiven), ih.2⟩

/-- The value of a known key has been stored. -/
theorem Fills.stored (h : Fills Stored fields given s ms s') {key : String} {field : Field σ}
    {v : List Char} (hmem : (key, v) ∈ ms) (hknown : fields.find? (·.name = key) = some field) :
    ∃ s₁ s₂, Stored field s₁ v s₂ := by
  induction h with
  | nil => cases hmem
  | @unknown given s s' key' v' ms isUnknown _ ih =>
    rcases List.mem_cons.mp hmem with heq | hlater
    · cases heq
      rw [hknown] at isUnknown
      cases isUnknown
    · exact ih hlater
  | @known given s s' s'' key' v' ms field' isKnown isNew stored _ ih =>
    rcases List.mem_cons.mp hmem with heq | hlater
    · cases heq
      rw [hknown] at isKnown
      cases isKnown
      exact ⟨_, _, stored⟩
    · exact ih hlater

end SerialLine.Json.Reader

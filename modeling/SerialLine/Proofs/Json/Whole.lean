import SerialLine.Proofs.Json.Members
/-!
# Values are read whole or not at all

A reader that yields something of a well-formed value has read it to its end: it never stops inside
(`Reader.Whole`). What starts with a character of a value is a value of the form that the character
shows (`shape_of_start`), so each reader has few cases: numbers, texts, the texts of options, and
words that are given alone or as the only key of an object (`Reader.variant_whole`). It does not
matter whether the value is what the reader expects.
-/

set_option autoImplicit false

namespace SerialLine.Json

open Reader

variable {c : Char} {cs : List Char}

/-! ### What a value starts with -/

/-- The first character of a value shows what it is. -/
theorem shape_of_start (h : IsValue (c :: cs)) :
    ((c = '-' ∨ c.isDigit) ∧ ∃ l, IsNumber l (c :: cs)) ∨
      (c = 'n' ∧ cs = ['u', 'l', 'l'] ∨ c = 't' ∧ cs = ['r', 'u', 'e'] ∨
        c = 'f' ∧ cs = ['a', 'l', 's', 'e']) ∨
      (c = '"' ∧ ∃ inner, Inside inner ∧ cs = inner ++ ['"']) ∨
      ∃ b : Bracket, c = b.opening ∧ ∃ inner, cs = inner ++ [b.closing] ∧
        (Blank inner ∨ WellFormed (some b) inner) := by
  generalize hv : c :: cs = v at h
  cases h with
  | scalar isScalar =>
    cases isScalar with
    | number isNumber =>
      obtain ⟨d, ds, rfl, hd⟩ := isNumber.start
      obtain ⟨rfl, rfl⟩ := List.cons.inj hv
      exact .inl ⟨hd, _, isNumber⟩
    | null => exact .inr (.inl (.inl (List.cons.inj hv)))
    | true => exact .inr (.inl (.inr (.inl (List.cons.inj hv))))
    | false => exact .inr (.inl (.inr (.inr (List.cons.inj hv))))
    | text inside => exact .inr (.inr (.inl ⟨(List.cons.inj hv).1, _, inside, (List.cons.inj hv).2⟩))
  | @empty b gap blank =>
    exact .inr (.inr (.inr ⟨b, (List.cons.inj hv).1, gap, (List.cons.inj hv).2, .inl blank⟩))
  | @bracket b items inner =>
    exact .inr (.inr (.inr ⟨b, (List.cons.inj hv).1, items, (List.cons.inj hv).2, .inr inner⟩))

theorem number_of_start (h : IsValue (c :: cs)) (hc : c = '-' ∨ c.isDigit) :
    ∃ l, IsNumber l (c :: cs) := by
  rcases shape_of_start h with
    ⟨-, hl⟩ | (⟨rfl, -⟩ | ⟨rfl, -⟩ | ⟨rfl, -⟩) | ⟨rfl, -⟩ | ⟨b, rfl, -⟩
  case inl => exact hl
  case inr.inr.inr => exact absurd hc (by cases b <;> decide)
  all_goals exact absurd hc (by decide)

theorem null_of_start (h : IsValue ('n' :: cs)) : cs = ['u', 'l', 'l'] := by
  rcases shape_of_start h with
    ⟨hc, -⟩ | (⟨-, hcs⟩ | ⟨hc, -⟩ | ⟨hc, -⟩) | ⟨hc, -⟩ | ⟨b, hc, -⟩
  case inr.inl.inl => exact hcs
  case inr.inr.inr => exact absurd hc (by cases b <;> decide)
  all_goals exact absurd hc (by decide)

theorem text_of_start (h : IsValue ('"' :: cs)) : ∃ inner, Inside inner ∧ cs = inner ++ ['"'] := by
  rcases shape_of_start h with
    ⟨hc, -⟩ | (⟨hc, -⟩ | ⟨hc, -⟩ | ⟨hc, -⟩) | ⟨-, hinner⟩ | ⟨b, hc, -⟩
  case inr.inr.inl => exact hinner
  case inr.inr.inr => exact absurd hc (by cases b <;> decide)
  all_goals exact absurd hc (by decide)

theorem bracket_of_start {b : Bracket} (h : IsValue (b.opening :: cs)) :
    ∃ inner, cs = inner ++ [b.closing] ∧ (Blank inner ∨ WellFormed (some b) inner) := by
  rcases shape_of_start h with
    ⟨hc, -⟩ | (⟨hc, -⟩ | ⟨hc, -⟩ | ⟨hc, -⟩) | ⟨hc, -⟩ | ⟨b', hc, hinner⟩
  case inr.inr.inr =>
    have hb : b = b' := by
      cases b <;> cases b' <;> first | rfl | exact absurd hc (by decide)
    exact hb ▸ hinner
  all_goals exact absurd hc (by cases b <;> decide)

namespace Reader

variable {α β σ : Type}

/-! ### Readers that do not stop inside a value -/

/-- The reader does not stop inside a text. -/
def WholeAt (r : Reader α) (t : List Char) : Prop :=
  ∀ ⦃rest : List Char⦄ ⦃a : α⦄ ⦃left : List Char⦄, Ends rest → r (t ++ rest) = .ok (a, left) →
    left.dropWhile isBlank = rest.dropWhile isBlank

/-- The reader does not stop inside any value. -/
def Whole (r : Reader α) : Prop := ∀ ⦃before v : List Char⦄, Blank before → IsValue v →
  r.WholeAt (before ++ v)

/-- The reader takes nothing. -/
def Still (r : Reader α) : Prop := ∀ ⦃cs : List Char⦄ ⦃a : α⦄ ⦃left : List Char⦄,
  r cs = .ok (a, left) → left = cs

theorem still_pure (a : α) : (pure a : Reader α).Still := by
  intro cs b left h
  cases h
  rfl

theorem Fails.still {r : Reader α} (h : r.Fails) : r.Still :=
  fun _ _ _ hdone ↦ absurd hdone (h _ _ _)

theorem Fails.wholeAt {r : Reader α} (h : r.Fails) (t : List Char) : r.WholeAt t :=
  fun _ _ _ _ hdone ↦ absurd hdone (h _ _ _)

theorem WholeAt.bind {r : Reader α} {f : α → Reader β} {t : List Char} (hr : r.WholeAt t)
    (hf : ∀ a, (f a).Still) : (r >>= f).WholeAt t := by
  intro rest b left hrest hdone
  obtain ⟨a, mid, hvalue, hthen⟩ := exists_of_bind hdone
  rw [hf a hthen]
  exact hr hrest hvalue

theorem Whole.bind {r : Reader α} {f : α → Reader β} (hr : r.Whole) (hf : ∀ a, (f a).Still) :
    (r >>= f).Whole := fun _ _ hbefore hv ↦ (hr hbefore hv).bind hf

/-- What a reader does after the blanks depends on the first character of the value. -/
theorem whole_of_start {f : Option Char → Reader α}
    (h : ∀ c cs, IsValue (c :: cs) → (f (some c)).WholeAt (c :: cs)) :
    (peekPastBlank >>= f).Whole := by
  intro before v hbefore hv rest a left hrest hdone
  obtain ⟨c, cs, rfl, hc⟩ := start_of_isValue hv
  rw [List.append_assoc, List.cons_append,
    bind_of_ok (peekPastBlank_of_start hbefore hc.not_blank _)] at hdone
  exact h c cs hv hrest hdone

/-! ### Numbers, null, and texts -/

theorem number_wholeAt (h : IsValue (c :: cs)) (hc : c = '-' ∨ c.isDigit) :
    number.WholeAt (c :: cs) := by
  obtain ⟨l, hl⟩ := number_of_start h hc
  intro rest n left hrest hdone
  rw [number, bind_of_ok (literal_isNumber .endOfValue hl hrest)] at hdone
  cases hvalue : l.value with
  | ok n =>
    rw [hvalue] at hdone
    cases hdone
    rfl
  | error unread =>
    rw [hvalue] at hdone
    cases hdone

theorem anyNumber_whole (expected : String) : (anyNumber expected).Whole := by
  refine whole_of_start fun c cs hv ↦ ?_
  simp only
  split
  · next hc => exact number_wholeAt hv hc
  · exact (wrongType_fails _).wholeAt _

theorem natural_whole (expected : String) (limit : Nat) : (natural expected limit).Whole := by
  refine (anyNumber_whole expected).bind fun n ↦ ?_
  split
  · split
    · exact still_pure _
    · exact (fail_fails _ _).still
  · exact (fail_fails _ _).still

theorem binary64_whole : binary64.Whole := (anyNumber_whole _).bind fun _ ↦ still_pure _

theorem word_wholeAt (h : IsValue ('n' :: cs)) :
    (do advance; word ['u', 'l', 'l'] : Reader Unit).WholeAt ('n' :: cs) := by
  intro rest u left _ hdone
  rw [List.cons_append, advance_bind, null_of_start h, word_append] at hdone
  cases hdone
  rfl

theorem null_whole : null.Whole := by
  refine whole_of_start fun c cs hv ↦ ?_
  split
  · next hc => cases hc
  · next hc =>
    obtain rfl := Option.some.inj hc
    exact word_wholeAt hv
  · exact (wrongType_fails _).wholeAt _

theorem betweenSurrogates_eq_ok {c d : Char} {cs left : List Char} {u : Unit}
    (h : betweenSurrogates c (d :: cs) = .ok (u, left)) : d = c ∧ left = cs := by
  by_cases hd : d = c
  · rw [betweenSurrogates, peek_bind (if_pos hd)] at h
    cases h
    exact ⟨hd, rfl⟩
  · rw [betweenSurrogates, peek_bind (if_neg hd)] at h
    cases h

/-- Behind the first of two surrogates stands the other one, if anything is read at all. -/
theorem secondSurrogate_inside {cs rest left : List Char} {m : Nat} {c : Char} (h : Inside cs)
    (hdone : (do
      betweenSurrogates '\\'
      betweenSurrogates 'u'
      let second ← hexQuad
      if IsLowSurrogate second then
        pure (Char.ofNat (0x10000 + (m - 0xD800) * 0x400 + (second - 0xDC00)))
      else fail .loneSurrogate 0 : Reader Char) (cs ++ '"' :: rest) = .ok (c, left)) :
    ∃ cs', Inside cs' ∧ cs'.length ≤ cs.length ∧ left = cs' ++ '"' :: rest := by
  obtain ⟨_, mid, hslash, hdone⟩ := exists_of_bind hdone
  obtain ⟨_, mid', hletter, hdone⟩ := exists_of_bind hdone
  cases h with
  | nil => exact absurd (betweenSurrogates_eq_ok hslash).1 (by decide)
  | plain _ notEscape _ _ => exact absurd (betweenSurrogates_eq_ok hslash).1 notEscape
  | short stands _ =>
    obtain ⟨-, rfl⟩ := betweenSurrogates_eq_ok hslash
    obtain ⟨rfl, -⟩ := betweenSurrogates_eq_ok hletter
    cases stands
  | @numbered digits cs n four stands later =>
    obtain ⟨-, rfl⟩ := betweenSurrogates_eq_ok hslash
    obtain ⟨-, rfl⟩ := betweenSurrogates_eq_ok hletter
    replace hdone := (congrArg _ (List.append_assoc digits cs ('"' :: rest))).symm.trans hdone
    rw [bind_of_ok (hexQuad_digits four stands _)] at hdone
    split at hdone
    · obtain ⟨-, rfl⟩ := Prod.mk.inj (Except.ok.inj hdone)
      refine ⟨cs, later, ?_, rfl⟩
      simp only [List.length_cons, List.length_append]
      omega
    · cases hdone

/-- An escape is taken whole, and what follows it is still the inside of a text. Of two surrogates,
the second is an escape of its own as far as the form goes. -/
theorem numberedEscape_inside {digits cs rest left : List Char} {n : Nat} {c : Char}
    (four : digits.length = 4) (stands : hexNumber? digits = some n) (h : Inside cs)
    (hdone : numberedEscape (digits ++ (cs ++ '"' :: rest)) = .ok (c, left)) :
    ∃ cs', Inside cs' ∧ cs'.length ≤ cs.length ∧ left = cs' ++ '"' :: rest := by
  rw [numberedEscape, bind_of_ok (hexQuad_digits four stands _)] at hdone
  by_cases hlow : IsLowSurrogate n
  · rw [if_pos hlow] at hdone
    cases hdone
  · rw [if_neg hlow] at hdone
    by_cases hhigh : IsHighSurrogate n
    · rw [if_pos hhigh] at hdone
      exact secondSurrogate_inside h hdone
    · rw [if_neg hhigh] at hdone
      cases hdone
      exact ⟨cs, h, Nat.le_refl _, rfl⟩

/-- By induction on how much stands between the quotes, as an escape may take two of its parts. -/
theorem textLoop_inside_eq {cs : List Char} (h : Inside cs) {looked steps : Nat}
    {taken out rest left : List Char}
    (hdone : textLoop numberedEscape looked steps taken (cs ++ '"' :: rest) = .ok (out, left)) :
    left = rest := by
  induction hn : cs.length using Nat.strongRecOn generalizing cs steps taken with
  | ind n ih =>
    cases steps with
    | zero => cases hdone
    | succ steps =>
      cases h with
      | nil =>
        cases hdone
        rfl
      | plain notQuote notEscape notControl later =>
        rw [List.cons_append, textLoop_plain _ notQuote notEscape notControl] at hdone
        exact ih _ (by rw [← hn, List.length_cons]; omega) later hdone rfl
      | short stands later =>
        rw [List.cons_append, List.cons_append, textLoop_escape (escape_short stands _ _)] at hdone
        exact ih _ (by simp only [← hn, List.length_cons]; omega) later hdone rfl
      | @numbered digits cs k four stands later =>
        have hescape := escape_numbered numberedEscape (digits ++ (cs ++ '"' :: rest))
        rw [List.cons_append, List.cons_append, List.append_assoc] at hdone
        cases hchar : numberedEscape (digits ++ (cs ++ '"' :: rest)) with
        | error failure =>
          rw [hchar] at hescape
          simp only [textLoop, hescape] at hdone
          cases hdone
        | ok p =>
          obtain ⟨cs', hinside, hlength, hleft⟩ := numberedEscape_inside four stands later hchar
          rw [textLoop_escape (hescape.trans hchar), hleft] at hdone
          exact ih _ (by simp only [← hn, List.length_cons, List.length_append]; omega) hinside
            hdone rfl

theorem text_inside {cs rest left : List Char} {s : String} (h : Inside cs)
    (hdone : text (cs ++ '"' :: rest) = .ok (s, left)) : left = rest := by
  rw [text] at hdone
  split at hdone
  · next hloop =>
    cases hdone
    exact textLoop_inside_eq h hloop
  · cases hdone

theorem text_wholeAt {cs : List Char} (h : Inside cs) : text.WholeAt (cs ++ ['"']) := by
  intro rest s left _ hdone
  rw [List.append_assoc] at hdone
  rw [text_inside h hdone]
  rfl

theorem quoted_whole (expected : String) : (quoted expected).Whole := by
  refine whole_of_start fun c cs hv ↦ ?_
  split
  · next hc => cases hc
  · next hc =>
    obtain rfl := Option.some.inj hc
    obtain ⟨inner, hinner, rfl⟩ := text_of_start hv
    exact text_wholeAt hinner
  · exact (wrongType_fails _).wholeAt _

theorem optionalText_whole : optionalText.Whole := by
  refine whole_of_start fun c cs hv ↦ ?_
  split
  · next hc =>
    obtain rfl := Option.some.inj hc
    exact (word_wholeAt hv).bind fun _ ↦ still_pure _
  · exact ((quoted_whole _).bind fun _ ↦ still_pure _) (fun _ h ↦ absurd h List.not_mem_nil) hv

/-! ### Words -/

theorem variantName_inside {variants : List (String × α)} {cs rest left : List Char} {a : α}
    (h : Inside cs) (hdone : variantName variants ('"' :: (cs ++ '"' :: rest)) = .ok (a, left)) :
    left = rest := by
  rw [variantName, advance_bind] at hdone
  obtain ⟨s, mid, htext, hfind⟩ := exists_of_bind hdone
  obtain rfl := text_inside h htext
  cases hv : variants.find? (·.1 = s) with
  | none =>
    rw [hv] at hfind
    cases hfind
  | some v =>
    rw [hv] at hfind
    cases hfind
    rfl

/-- The first item of a bracket, and what follows it: the end of the bracket, or a comma and more
items. -/
theorem uncons_items {b : Bracket} {items : List Char} (h : WellFormed (some b) items)
    (rest : List Char) :
    ∃ label before v after next, IsLabel b label ∧ Blank before ∧ IsValue v ∧ Blank after ∧
      items ++ b.closing :: rest = label ++ (before ++ (v ++ (after ++ next))) ∧
        (next = b.closing :: rest ∨ ∃ later, next = ',' :: later) := by
  cases h with
  | @last _ label before v after isLabel blank value blank' =>
    exact ⟨label, before, v, after, _, isLabel, blank, value, blank', by simp, .inl rfl⟩
  | @more _ label before v after items isLabel blank value blank' later =>
    refine ⟨label, before, v, after, ',' :: (items ++ b.closing :: rest), isLabel, blank, value,
      blank', ?_, .inr ⟨_, rfl⟩⟩
    simp

/-- A key without regard to what it stands for. -/
theorem label_dropWhile_append {label : List Char} (h : IsLabel .object label) :
    ∃ cs gap, Inside cs ∧ Blank gap ∧ ∀ t, (label ++ t).dropWhile isBlank =
      '"' :: (cs ++ '"' :: (gap ++ ':' :: t)) := by
  obtain ⟨⟩ | ⟨hbefore, inside, hgap⟩ := h
  exact ⟨_, _, inside, hgap, dropWhile_label_append hbefore⟩

/-- A word that is the only key of an object is taken with the whole object. -/
theorem onlyMember_wholeAt (variants : List (String × α)) {inner : List Char}
    (h : Blank inner ∨ WellFormed (some .object) inner) :
    (do
      onlyKey
      let v ← variantName variants
      colon
      null
      match ← peekPastBlank with
      | some '}' => do advance; pure v
      | some _ => fail .expectedValue 0
      | none => fail .endOfObject 0 : Reader α).WholeAt (inner ++ ['}']) := by
  intro rest a left _ hdone
  rw [List.append_assoc] at hdone
  obtain ⟨_, mid, hkey, hdone⟩ := exists_of_bind hdone
  rw [onlyKey, bind_of_ok (peekPastBlank_eq _)] at hkey
  rcases h with hblank | hitems
  · rw [hblank.dropWhile_append] at hkey
    cases hkey
  · obtain ⟨label, before, v, after, next, hlabel, hbefore, hv, hafter, hitems, hnext⟩ :=
      uncons_items hitems rest
    obtain ⟨cs, gap, hcs, hgap, hlabel⟩ := label_dropWhile_append hlabel
    replace hitems : inner ++ (['}'] ++ rest) = _ := hitems
    rw [hitems, hlabel] at hkey
    cases hkey
    obtain ⟨word, mid, hname, hdone⟩ := exists_of_bind hdone
    rw [variantName_inside hcs hname, bind_of_ok (colon_append hgap _)] at hdone
    obtain ⟨_, mid, hnull, hdone⟩ := exists_of_bind hdone
    have hends : Ends (after ++ next) := by
      rcases hnext with rfl | ⟨later, rfl⟩ <;> exact ends_of_blank hafter (by decide) _
    rw [← List.append_assoc] at hnull
    have hmid := null_whole hbefore hv hends hnull
    rw [hafter.dropWhile_append] at hmid
    rw [bind_of_ok (peekPastBlank_eq _), hmid] at hdone
    rcases hnext with rfl | ⟨later, rfl⟩
    · cases hdone
      rfl
    · cases hdone

theorem variant_whole (variants : List (String × α)) : (variant variants).Whole := by
  refine whole_of_start fun c cs hv ↦ ?_
  split
  · exact (fail_fails _ _).wholeAt _
  · next hc =>
    obtain rfl := Option.some.inj hc
    obtain ⟨inner, hinner, rfl⟩ := text_of_start hv
    intro rest a left _ hdone
    rw [List.cons_append, List.append_assoc] at hdone
    rw [variantName_inside hinner hdone]
    rfl
  · next hc =>
    obtain rfl := Option.some.inj hc
    obtain ⟨inner, rfl, hinner⟩ := bracket_of_start (b := .object) hv
    exact onlyMember_wholeAt variants hinner
  · exact (fail_fails _ _).wholeAt _

end Reader

end SerialLine.Json

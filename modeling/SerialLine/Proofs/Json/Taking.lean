import Mathlib.Data.List.TakeWhile
import SerialLine.Json.Printer
import SerialLine.Json.Record
/-!
# Readers take what is printed

A printed value stands somewhere in a text. `Takes` says that a reader takes it there and yields a
value, with blanks in front, and whatever follows. Only numbers do not show where they end, so what
follows must not start with a character that a number may have (`Ends`).

Texts between quotes are taken character by character (`textLoop_escaped`), which holds for every
character there is: the printer has an escape for those that a reader does not take as they are.
-/

set_option autoImplicit false

namespace SerialLine.Json

/-- A character that may stand in a number. -/
def InNumber (c : Char) : Prop := c.isDigit ∨ c ∈ ['.', 'e', 'E', '+', '-']

instance (c : Char) : Decidable (InNumber c) := inferInstanceAs (Decidable (_ ∨ _))

/-- What follows does not go on with a number. -/
def Ends (rest : List Char) : Prop := ∀ ⦃c⦄, rest.head? = some c → ¬ InNumber c

/-- Nothing but blanks. -/
def Blank (cs : List Char) : Prop := ∀ c ∈ cs, isBlank c

theorem Ends.nil : Ends [] := fun _ h ↦ by cases h

theorem Ends.cons {c : Char} (hc : ¬ InNumber c) (rest : List Char) : Ends (c :: rest) :=
  fun _ h ↦ Option.some.inj h ▸ hc

theorem Blank.dropWhile_append {before : List Char} (h : Blank before) (rest : List Char) :
    (before ++ rest).dropWhile isBlank = rest.dropWhile isBlank :=
  List.dropWhile_append_of_pos h

namespace Reader

variable {α β : Type}

/-! ### One step after another -/

theorem bind_of_ok {r : Reader α} {f : α → Reader β} {cs left : List Char} {a : α}
    (h : r cs = .ok (a, left)) : (r >>= f) cs = f a left := by
  show (r cs >>= fun p ↦ f p.1 p.2) = _
  rw [h]
  rfl

theorem exists_of_bind {r : Reader α} {f : α → Reader β} {cs left : List Char} {b : β}
    (h : (r >>= f) cs = .ok (b, left)) :
    ∃ a mid, r cs = .ok (a, mid) ∧ f a mid = .ok (b, left) := by
  replace h : (r cs >>= fun p ↦ f p.1 p.2) = .ok (b, left) := h
  rcases hr : r cs with failure | ⟨a, mid⟩ <;> rw [hr] at h
  · cases h
  · exact ⟨a, mid, rfl, h⟩

theorem advance_bind (r : Reader α) (c : Char) (cs : List Char) :
    (do advance; r) (c :: cs) = r cs := rfl

theorem peek_bind {f : Option Char → Reader α} {r : Reader α} {c : Char} (h : f (some c) = r)
    (cs : List Char) : (peek >>= f) (c :: cs) = r (c :: cs) := congrFun h (c :: cs)

theorem peekPastBlank_eq (cs : List Char) :
    peekPastBlank cs = .ok ((cs.dropWhile isBlank).head?, cs.dropWhile isBlank) := rfl

theorem peekPastBlank_of_start {before : List Char} (h : Blank before) {c : Char}
    (hc : ¬ isBlank c) (cs : List Char) :
    peekPastBlank (before ++ c :: cs) = .ok (some c, c :: cs) := by
  rw [peekPastBlank_eq, h.dropWhile_append, List.dropWhile_cons_of_neg hc]
  rfl

/-- The reader takes the text, wherever it stands, and yields the value. It may leave blanks. -/
def Takes (r : Reader α) (text : List Char) (a : α) : Prop :=
  ∀ ⦃before rest⦄, Blank before → Ends rest → ∃ left,
    r (before ++ (text ++ rest)) = .ok (a, left) ∧
      left.dropWhile isBlank = rest.dropWhile isBlank

/-- A reader that passes over blanks takes what it takes after them. -/
theorem Takes.of_start {f : Option Char → Reader α} {c : Char} {text : List Char} {a : α}
    (hc : ¬ isBlank c) (h : ∀ rest, f (some c) (c :: (text ++ rest)) = .ok (a, rest)) :
    (peekPastBlank >>= f).Takes (c :: text) a := by
  intro before rest hbefore _
  refine ⟨rest, ?_, rfl⟩
  rw [List.cons_append, bind_of_ok (peekPastBlank_of_start hbefore hc _)]
  exact h rest

/-- What is done with the value takes nothing. -/
theorem Takes.bind {r : Reader α} {f : α → Reader β} {text : List Char} {a : α} {b : β}
    (h : r.Takes text a) (hf : f a = pure b) : (r >>= f).Takes text b := by
  intro before rest hbefore hrest
  obtain ⟨left, hr, hleft⟩ := h hbefore hrest
  refine ⟨left, ?_, hleft⟩
  rw [bind_of_ok hr, hf]
  rfl

theorem endOfText_of_blank {left : List Char} (h : Blank left) :
    endOfText left = .ok ((), []) := by
  rw [endOfText, bind_of_ok (peekPastBlank_eq left), List.dropWhile_eq_nil_iff.mpr h]
  rfl

theorem blank_of_endOfText {left left' : List Char} (h : endOfText left = .ok ((), left')) :
    Blank left := by
  rw [endOfText, bind_of_ok (peekPastBlank_eq left)] at h
  cases hleft : left.dropWhile isBlank with
  | nil => exact List.dropWhile_eq_nil_iff.mp hleft
  | cons c cs =>
    rw [hleft] at h
    cases h

/-- A whole text is read if the reader leaves nothing of it but blanks. -/
theorem read_eq_ok {r : Reader α} {cs : List Char} {a : α} :
    Json.read r (String.ofList cs) = .ok a ↔ ∃ left, r cs = .ok (a, left) ∧ Blank left := by
  simp only [Json.read, readAll, StateT.run, String.toList_ofList]
  constructor
  · intro h
    split at h
    · next b left hdone =>
      obtain ⟨b', mid, hr, hrest⟩ := exists_of_bind hdone
      obtain ⟨⟨⟩, mid', hend, hpure⟩ := exists_of_bind hrest
      cases hpure
      cases h
      exact ⟨mid, hr, blank_of_endOfText hend⟩
    · cases h
  · rintro ⟨left, hr, hleft⟩
    rw [bind_of_ok hr, bind_of_ok (endOfText_of_blank hleft)]
    rfl

theorem word_append (ws rest : List Char) : word ws (ws ++ rest) = .ok ((), rest) := by
  induction ws with
  | nil => rfl
  | cons w ws ih =>
    have hpeek : peek (w :: ws ++ rest) = .ok (some w, w :: (ws ++ rest)) := rfl
    rw [word, bind_of_ok hpeek]
    simp only [if_true]
    exact ih

/-! ### Texts between quotes -/

/-- The letter of a short escape is read as the character. -/
theorem escape_of_letter {c letter : Char} (h : shortEscapeLetter? c = some letter)
    (numbered : Reader Char) (rest : List Char) :
    escape numbered (letter :: rest) = .ok (c, rest) := by
  unfold shortEscapeLetter? at h
  split at h <;> cases h <;> rfl

/-- A hexadecimal digit takes one byte and is read as its value. -/
theorem digitChar_hex : ∀ d : Fin 16,
    (Nat.digitChar d).utf8Size = 1 ∧ hexDigit? (Nat.digitChar d) = some d.val := by
  decide

/-- The two low digits of a numbered escape. -/
theorem hexQuad_low {n : Nat} (h : n < 0x100) (rest : List Char) :
    hexQuad ('0' :: '0' :: Nat.digitChar (n / 16) :: Nat.digitChar (n % 16) :: rest) =
      .ok (n, rest) := by
  obtain ⟨hhighSize, hhigh⟩ := digitChar_hex ⟨n / 16, by omega⟩
  obtain ⟨hlowSize, hlow⟩ := digitChar_hex ⟨n % 16, by omega⟩
  have hzero : '0'.utf8Size = 1 ∧ hexDigit? '0' = some 0 := by decide
  simp only [hexQuad, List.take_succ_cons, List.take_zero, List.drop_succ_cons, List.drop_zero,
    size, List.foldr_cons, List.foldr_nil, hzero.1, hhighSize, hlowSize, hexNumber?,
    List.foldl_cons, List.foldl_nil, Option.bind_some, hzero.2, hhigh, hlow, Option.map_some]
  simp only [show ¬ 1 + (1 + (1 + (1 + 0))) < 4 by omega, if_false]
  congr 2
  omega

theorem numberedEscape_control {c : Char} (h : c.toNat < 0x20) (rest : List Char) :
    numberedEscape ('0' :: '0' :: Nat.digitChar (c.toNat / 16) :: Nat.digitChar (c.toNat % 16)
      :: rest) = .ok (c, rest) := by
  have hlow : ¬ IsLowSurrogate c.toNat := fun hsurrogate ↦ by
    have := hsurrogate.1
    omega
  have hhigh : ¬ IsHighSurrogate c.toNat := fun hsurrogate ↦ by
    have := hsurrogate.1
    omega
  rw [numberedEscape, bind_of_ok (hexQuad_low (by omega) rest), if_neg hlow, if_neg hhigh,
    Char.ofNat_toNat]
  rfl

/-- A printed character is taken in one step. -/
theorem textLoop_escaped (looked steps : Nat) (taken : List Char) (c : Char) (rest : List Char) :
    textLoop numberedEscape looked (steps + 1) taken (escaped c ++ rest) =
      textLoop numberedEscape looked steps (c :: taken) rest := by
  unfold escaped
  split
  · next letter hletter =>
    have hescape := escape_of_letter hletter numberedEscape rest
    simp only [List.cons_append, List.nil_append, textLoop, hescape]
    rfl
  · next hnone =>
    split
    · next hcontrol =>
      have hescape : escape numberedEscape ('u' :: '0' :: '0' :: Nat.digitChar (c.toNat / 16) ::
          Nat.digitChar (c.toNat % 16) :: rest) = .ok (c, rest) :=
        numberedEscape_control hcontrol rest
      simp only [List.cons_append, List.nil_append, textLoop, hescape]
      rfl
    · next hplain =>
      have hquote : c ≠ '"' := by
        rintro rfl
        cases hnone
      have hbackslash : c ≠ '\\' := by
        rintro rfl
        cases hnone
      simp only [List.cons_append, List.nil_append, textLoop, if_neg hquote, if_neg hbackslash,
        if_neg hplain]

/-- All printed characters are taken up to the closing quote. By induction on them. -/
theorem textLoop_quoted (looked : Nat) (cs rest : List Char) {steps : Nat} (taken : List Char)
    (hsteps : cs.length < steps) :
    textLoop numberedEscape looked steps taken (cs.flatMap escaped ++ '"' :: rest) =
      .ok (taken.reverse ++ cs, rest) := by
  induction cs generalizing steps taken with
  | nil =>
    obtain ⟨n, rfl⟩ := Nat.exists_eq_add_one_of_ne_zero (Nat.ne_of_gt hsteps)
    simp [textLoop]
  | cons c cs ih =>
    obtain ⟨n, rfl⟩ := Nat.exists_eq_add_one_of_ne_zero (Nat.ne_of_gt (Nat.zero_lt_of_lt hsteps))
    rw [List.flatMap_cons, List.append_assoc, textLoop_escaped,
      ih (c :: taken) (Nat.lt_of_succ_lt_succ hsteps), List.reverse_cons, List.append_assoc]
    rfl

theorem length_le_escaped (cs : List Char) : cs.length ≤ (cs.flatMap escaped).length := by
  induction cs with
  | nil => exact Nat.le_refl 0
  | cons c cs ih =>
    have hone : 0 < (escaped c).length := by
      unfold escaped
      split
      · exact Nat.zero_lt_succ _
      · split <;> exact Nat.zero_lt_succ _
    rw [List.flatMap_cons, List.length_append, List.length_cons]
    omega

/-- The rest of a printed text after its opening quote. -/
theorem text_quoted (s : String) (rest : List Char) :
    text (s.toList.flatMap escaped ++ ['"'] ++ rest) = .ok (s, rest) := by
  have hsteps : s.toList.length < (s.toList.flatMap escaped ++ '"' :: rest).length + 1 := by
    have hlength := length_le_escaped s.toList
    rw [List.length_append]
    omega
  simp only [List.append_assoc, List.cons_append, List.nil_append, text,
    textLoop_quoted 1 s.toList rest [] hsteps, List.reverse_nil, String.ofList_toList]

/-- The texts that stand for an optional text: one between quotes, or null. -/
theorem optionalText_takes_quote (s : String) : optionalText.Takes (quote s) (some s) := by
  refine Takes.of_start (by decide) fun rest ↦ ?_
  have hpeek : ∀ cs, peekPastBlank ('"' :: cs) = .ok (some '"', '"' :: cs) := fun _ ↦ rfl
  show (quoted "a string" >>= fun t ↦ pure (some t)) _ = _
  have hquoted : quoted "a string" ('"' :: (s.toList.flatMap escaped ++ ['"'] ++ rest)) =
      .ok (s, rest) := by
    rw [quoted, bind_of_ok (hpeek _)]
    exact text_quoted s rest
  rw [bind_of_ok hquoted]
  rfl

theorem optionalText_takes_null : optionalText.Takes ['n', 'u', 'l', 'l'] none := by
  refine Takes.of_start (by decide) fun rest ↦ ?_
  show (do advance; word ['u', 'l', 'l']; pure none : Reader (Option String)) _ = _
  rw [advance_bind, bind_of_ok (word_append ['u', 'l', 'l'] rest)]
  rfl

/-- A word is taken for the value that it stands for. -/
theorem variant_takes {variants : List (String × α)} {key : String} {a : α}
    (h : variants.find? (·.1 = key) = some (key, a)) : (variant variants).Takes (quote key) a := by
  refine Takes.of_start (by decide) fun rest ↦ ?_
  show variantName variants _ = _
  rw [variantName, advance_bind, bind_of_ok (text_quoted key rest)]
  simp only [h]
  rfl

end Reader

end SerialLine.Json

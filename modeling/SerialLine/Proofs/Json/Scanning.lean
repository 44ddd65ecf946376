import SerialLine.Proofs.Json.Grammar
/-!
# Texts and numbers in every spelling

The readers of texts and of numbers take each text of the grammar whole and stop where it ends. For
texts the induction is on the grammar, one case for each way to write a character (`text_spells`);
those that are only passed over may hold surrogates that stand alone (`skipText_inside`). A number
is taken part by part, and each part ends because the next one does not start with a digit
(`literal_isNumber`).
-/

set_option autoImplicit false

namespace SerialLine.Json

/-! ### Where digits end -/

/-- What follows is no further digit. -/
def NoDigit (rest : List Char) : Prop := ∀ c, rest.head? = some c → ¬ c.isDigit

theorem NoDigit.cons {c : Char} (hc : ¬ c.isDigit) (rest : List Char) : NoDigit (c :: rest) :=
  fun _ h ↦ Option.some.inj h ▸ hc

theorem Ends.noDigit {rest : List Char} (h : Ends rest) : NoDigit rest :=
  fun _ hc hdigit ↦ h hc (.inl hdigit)

theorem IsWhole.start {cs : List Char} (h : IsWhole cs) : ∃ c cs', cs = c :: cs' ∧ c.isDigit := by
  rcases h with rfl | ⟨⟨hnonempty, hdigits⟩, -⟩
  · exact ⟨_, _, rfl, by decide⟩
  · obtain ⟨c, cs, rfl⟩ := List.exists_cons_of_ne_nil hnonempty
    exact ⟨c, cs, rfl, hdigits c List.mem_cons_self⟩

theorem IsPower.noDigit {power : Option (Bool × List Nat)} {cs rest : List Char}
    (h : IsPower power cs) (hrest : Ends rest) :
    NoDigit (cs ++ rest) ∧ (cs ++ rest).head? ≠ some '.' := by
  have hletter : ∀ {e : Char}, e = 'e' ∨ e = 'E' → ¬ e.isDigit ∧ some e ≠ some '.' := by
    rintro e (rfl | rfl) <;> decide
  cases h with
  | none => exact ⟨hrest.noDigit, fun h ↦ hrest h (.inr (by decide))⟩
  | bare letter _ => exact ⟨.cons (hletter letter).1 _, (hletter letter).2⟩
  | signed _ letter _ => exact ⟨.cons (hletter letter).1 _, (hletter letter).2⟩

theorem IsFraction.noDigit {fraction : List Nat} {cs rest : List Char}
    (h : IsFraction fraction cs) (hrest : NoDigit rest) : NoDigit (cs ++ rest) := by
  cases h with
  | none => exact hrest
  | some _ => exact .cons (by decide) _

/-- A number starts with a sign or a digit. -/
theorem IsNumber.start {l : Literal} {t : List Char} (h : IsNumber l t) :
    ∃ c cs, t = c :: cs ∧ (c = '-' ∨ c.isDigit) := by
  obtain ⟨negative, isWhole, -, -⟩ := h
  cases negative with
  | true => exact ⟨'-', _, rfl, .inl rfl⟩
  | false =>
    obtain ⟨c, cs, rfl, hc⟩ := isWhole.start
    exact ⟨c, _, rfl, .inr hc⟩

namespace Reader

/-! ### Texts between quotes -/

theorem utf8Size_of_hexDigit? {c : Char} {d : Nat} (h : hexDigit? c = some d) : c.utf8Size = 1 := by
  have hsmall : c.val ≤ 0x7f := by
    unfold hexDigit? at h
    split at h
    · next hc => exact Nat.le_trans (show c.val.toNat ≤ '9'.val.toNat from hc.2) (by decide)
    · split at h
      · next hc => exact Nat.le_trans (show c.val.toNat ≤ 'f'.val.toNat from hc.2) (by decide)
      · split at h
        · next hc => exact Nat.le_trans (show c.val.toNat ≤ 'F'.val.toNat from hc.2) (by decide)
        · cases h
  exact if_pos hsmall

/-- The digits of a hexadecimal number take one byte each. By induction from the last one. -/
theorem size_of_hexNumber? {digits : List Char} {n : Nat} (h : hexNumber? digits = some n) :
    size digits = digits.length := by
  have hfold : ∀ (cs : List Char) (n? : Option Nat) (m : Nat),
      cs.foldl (fun n? c ↦ n?.bind fun n ↦ (hexDigit? c).map (16 * n + ·)) n? = some m →
        size cs = cs.length ∧ n?.isSome := by
    intro cs
    induction cs with
    | nil =>
      rintro n? m rfl
      exact ⟨rfl, rfl⟩
    | cons c cs ih =>
      intro n? m hm
      obtain ⟨hsize, hsome⟩ := ih _ m hm
      obtain ⟨k, hk⟩ := Option.isSome_iff_exists.mp hsome
      obtain ⟨j, hj, hmap⟩ := Option.bind_eq_some_iff.mp hk
      obtain ⟨d, hd, -⟩ := Option.map_eq_some_iff.mp hmap
      refine ⟨?_, hj ▸ rfl⟩
      have hcons : size (c :: cs) = c.utf8Size + size cs := rfl
      rw [hcons, hsize, utf8Size_of_hexDigit? hd, List.length_cons, Nat.add_comm]
  exact (hfold digits (some 0) n h).1

theorem hexQuad_digits {digits : List Char} {n : Nat} (four : digits.length = 4)
    (h : hexNumber? digits = some n) (rest : List Char) :
    hexQuad (digits ++ rest) = .ok (n, rest) := by
  have htake : (digits ++ rest).take 4 = digits := by rw [← four, List.take_left]
  have hdrop : (digits ++ rest).drop 4 = rest := by rw [← four, List.drop_left]
  have hsize : ¬ size digits < 4 := by rw [size_of_hexNumber? h, four]; exact Nat.lt_irrefl 4
  simp only [hexQuad, htake, hdrop, hsize, if_false, h]

theorem escape_short {letter c : Char} (h : shortEscape? letter = some c)
    (numbered : Reader Char) (rest : List Char) :
    escape numbered (letter :: rest) = .ok (c, rest) := by
  have hu : letter ≠ 'u' := by
    rintro rfl
    cases h
  refine (peek_bind (r := do advance; pure c) ?_ rest).trans rfl
  split
  · next hnone => cases hnone
  · next hletter => exact absurd (Option.some.inj hletter) hu
  · next d _ hletter =>
    obtain rfl := Option.some.inj hletter
    rw [h]

theorem escape_numbered (numbered : Reader Char) (rest : List Char) :
    escape numbered ('u' :: rest) = numbered rest := rfl

theorem numberedEscape_single {digits : List Char} {n : Nat} (four : digits.length = 4)
    (h : hexNumber? digits = some n) (notLow : ¬ IsLowSurrogate n) (notHigh : ¬ IsHighSurrogate n)
    (rest : List Char) : numberedEscape (digits ++ rest) = .ok (Char.ofNat n, rest) := by
  rw [numberedEscape, bind_of_ok (hexQuad_digits four h rest), if_neg notLow, if_neg notHigh]
  rfl

theorem numberedEscape_pair {high low : List Char} {m n : Nat} (fourHigh : high.length = 4)
    (standsHigh : hexNumber? high = some m) (isHigh : IsHighSurrogate m)
    (fourLow : low.length = 4) (standsLow : hexNumber? low = some n) (isLow : IsLowSurrogate n)
    (rest : List Char) : numberedEscape (high ++ '\\' :: 'u' :: (low ++ rest)) =
      .ok (Char.ofNat (0x10000 + (m - 0xD800) * 0x400 + (n - 0xDC00)), rest) := by
  have notLow : ¬ IsLowSurrogate m := fun h ↦ by
    have := isHigh.2
    have := h.1
    omega
  have hslash : betweenSurrogates '\\' ('\\' :: 'u' :: (low ++ rest)) =
      .ok ((), 'u' :: (low ++ rest)) := rfl
  have hletter : betweenSurrogates 'u' ('u' :: (low ++ rest)) = .ok ((), low ++ rest) := rfl
  rw [numberedEscape, bind_of_ok (hexQuad_digits fourHigh standsHigh _), if_neg notLow,
    if_pos isHigh, bind_of_ok hslash, bind_of_ok hletter,
    bind_of_ok (hexQuad_digits fourLow standsLow rest), if_pos isLow]
  rfl

theorem textLoop_escape {numbered : Reader Char} {cs rest : List Char} {c : Char}
    (h : escape numbered cs = .ok (c, rest)) (looked steps : Nat) (taken : List Char) :
    textLoop numbered looked (steps + 1) taken ('\\' :: cs) =
      textLoop numbered looked steps (c :: taken) rest := by
  simp only [textLoop, h]
  rfl

theorem textLoop_plain (numbered : Reader Char) {c : Char} (hquote : c ≠ '"') (hescape : c ≠ '\\')
    (hcontrol : ¬ c.toNat < 0x20) (looked steps : Nat) (taken cs : List Char) :
    textLoop numbered looked (steps + 1) taken (c :: cs) =
      textLoop numbered looked steps (c :: taken) cs := by
  rw [textLoop, if_neg hquote, if_neg hescape, if_neg hcontrol]

/-- The characters of a text are collected up to the closing quote. -/
theorem textLoop_spells {cs s : List Char} (h : Spells cs s) (looked : Nat) {steps : Nat}
    (hsteps : cs.length < steps) (taken rest : List Char) :
    textLoop numberedEscape looked steps taken (cs ++ '"' :: rest) =
      .ok (taken.reverse ++ s, rest) := by
  induction h generalizing steps taken with
  | nil =>
    obtain ⟨n, rfl⟩ := Nat.exists_eq_add_of_lt hsteps
    simp [textLoop]
  | @plain c cs s notQuote notEscape notControl _ ih =>
    obtain ⟨n, rfl⟩ := Nat.exists_eq_add_of_lt hsteps
    rw [List.cons_append, textLoop_plain _ notQuote notEscape notControl,
      ih (by rw [List.length_cons]; omega)]
    simp
  | @short letter c cs s stands _ ih =>
    obtain ⟨n, rfl⟩ := Nat.exists_eq_add_of_lt hsteps
    rw [List.cons_append, List.cons_append, textLoop_escape (escape_short stands _ _),
      ih (by simp only [List.length_cons]; omega)]
    simp
  | @numbered digits cs s n four stands notLow notHigh _ ih =>
    obtain ⟨k, rfl⟩ := Nat.exists_eq_add_of_lt hsteps
    have hescape : escape numberedEscape ('u' :: (digits ++ (cs ++ '"' :: rest))) =
        .ok (Char.ofNat n, cs ++ '"' :: rest) :=
      numberedEscape_single four stands notLow notHigh _
    rw [List.cons_append, List.cons_append, List.append_assoc, textLoop_escape hescape,
      ih (by simp only [List.length_cons, List.length_append]; omega)]
    simp
  | @paired high low cs s m n fourHigh standsHigh isHigh fourLow standsLow isLow _ ih =>
    obtain ⟨k, rfl⟩ := Nat.exists_eq_add_of_lt hsteps
    have hescape : escape numberedEscape
        ('u' :: (high ++ '\\' :: 'u' :: (low ++ (cs ++ '"' :: rest)))) =
          .ok (_, cs ++ '"' :: rest) :=
      numberedEscape_pair fourHigh standsHigh isHigh fourLow standsLow isLow _
    simp only [List.cons_append, List.append_assoc]
    rw [textLoop_escape hescape,
      ih (by simp only [List.length_cons, List.length_append]; omega)]
    simp

theorem text_spells {cs s : List Char} (h : Spells cs s) (rest : List Char) :
    text (cs ++ '"' :: rest) = .ok (String.ofList s, rest) := by
  have hsteps : cs.length < (cs ++ '"' :: rest).length + 1 := by
    rw [List.length_append]
    omega
  simp only [text, textLoop_spells h 1 hsteps, List.reverse_nil, List.nil_append]

/-- What is only passed over may hold surrogates that stand alone. -/
theorem textLoop_inside {cs : List Char} (h : Inside cs) (looked : Nat) {steps : Nat}
    (hsteps : cs.length < steps) (taken rest : List Char) :
    ∃ taken', textLoop (do let _ ← hexQuad; pure ' ') looked steps taken (cs ++ '"' :: rest) =
      .ok (taken', rest) := by
  induction h generalizing steps taken with
  | nil =>
    obtain ⟨n, rfl⟩ := Nat.exists_eq_add_of_lt hsteps
    exact ⟨_, rfl⟩
  | @plain c cs notQuote notEscape notControl _ ih =>
    obtain ⟨n, rfl⟩ := Nat.exists_eq_add_of_lt hsteps
    rw [List.cons_append, textLoop_plain _ notQuote notEscape notControl]
    exact ih (by rw [List.length_cons]; omega) _
  | @short letter c cs stands _ ih =>
    obtain ⟨n, rfl⟩ := Nat.exists_eq_add_of_lt hsteps
    rw [List.cons_append, List.cons_append, textLoop_escape (escape_short stands _ _)]
    exact ih (by simp only [List.length_cons]; omega) _
  | @numbered digits cs n four stands _ ih =>
    obtain ⟨k, rfl⟩ := Nat.exists_eq_add_of_lt hsteps
    have hescape : escape (do let _ ← hexQuad; pure ' ')
        ('u' :: (digits ++ (cs ++ '"' :: rest))) = .ok (' ', cs ++ '"' :: rest) := by
      rw [escape_numbered, bind_of_ok (hexQuad_digits four stands _)]
      rfl
    rw [List.cons_append, List.cons_append, List.append_assoc, textLoop_escape hescape]
    exact ih (by simp only [List.length_cons, List.length_append]; omega) _

theorem skipText_inside {cs : List Char} (h : Inside cs) (rest : List Char) :
    skipText (cs ++ '"' :: rest) = .ok ((), rest) := by
  have hsteps : cs.length < (cs ++ '"' :: rest).length + 1 := by
    rw [List.length_append]
    omega
  obtain ⟨taken, htaken⟩ := textLoop_inside h 0 hsteps [] rest
  simp only [skipText, htaken]

/-! ### Numbers -/

theorem digits_append {ds rest : List Char} (h : ∀ c ∈ ds, c.isDigit) (hrest : NoDigit rest) :
    digits (ds ++ rest) = .ok (values ds, rest) := by
  have hnone : rest.takeWhile Char.isDigit = [] ∧ rest.dropWhile Char.isDigit = rest := by
    cases rest with
    | nil => exact ⟨rfl, rfl⟩
    | cons c rest =>
      exact ⟨List.takeWhile_cons_of_neg (hrest c rfl), List.dropWhile_cons_of_neg (hrest c rfl)⟩
  rw [digits, List.takeWhile_append_of_pos h, List.dropWhile_append_of_pos h, hnone.1, hnone.2,
    List.append_nil]
  rfl

theorem wholePart_isWhole (atEnd : Fault) {cs rest : List Char} (h : IsWhole cs)
    (hrest : NoDigit rest) : wholePart atEnd (cs ++ rest) = .ok (values cs, rest) := by
  rcases h with rfl | ⟨⟨hnonempty, hdigits⟩, hzero⟩
  · cases rest with
    | nil => rfl
    | cons c rest =>
      show (if c.isDigit then fail .badNumber 1 else pure [0] : Reader (List Nat)) (c :: rest) = _
      rw [if_neg (hrest c rfl)]
      rfl
  · obtain ⟨c, cs, rfl⟩ := List.exists_cons_of_ne_nil hnonempty
    refine (peek_bind (r := digits) ?_ (cs ++ rest)).trans (digits_append hdigits hrest)
    split
    · next h => cases h
    · next h => exact absurd h hzero
    · next d _ h =>
      obtain rfl := Option.some.inj h
      exact if_pos (hdigits c List.mem_cons_self)

theorem fractionPart_isFraction (atEnd : Fault) {fraction : List Nat} {cs rest : List Char}
    (h : IsFraction fraction cs) (hrest : NoDigit rest) (hpoint : rest.head? ≠ some '.') :
    fractionPart atEnd (cs ++ rest) = .ok (fraction, rest) := by
  cases h with
  | none =>
    cases rest with
    | nil => rfl
    | cons c rest =>
      refine (peek_bind (r := pure []) ?_ rest).trans rfl
      split
      · next h => exact absurd h hpoint
      · rfl
  | @some ds digits =>
    have hnonempty : (values ds).isEmpty = false := by
      rw [List.isEmpty_eq_false_iff, values, Ne, List.map_eq_nil_iff]
      exact digits.1
    show (Reader.digits >>= fun ds ↦ if ds.isEmpty then _ else pure ds) (ds ++ rest) = _
    rw [bind_of_ok (digits_append digits.2 hrest), hnonempty]
    rfl

/-- After the letter and its sign, the power is read digit by digit. -/
theorem powerDigits (atEnd : Fault) (down : Bool) {ds rest : List Char} (h : Digits ds)
    (hrest : NoDigit rest) :
    (do
      match ← peek with
      | none => fail atEnd 0
      | some d =>
        if d.isDigit then do
          let ds ← digits
          pure (some (down, ds))
        else fail .badNumber 1 : Reader (Option (Bool × List Nat))) (ds ++ rest) =
      .ok (some (down, values ds), rest) := by
  obtain ⟨d, ds, rfl⟩ := List.exists_cons_of_ne_nil h.1
  rw [List.cons_append, peek_bind (if_pos (h.2 d List.mem_cons_self)), ← List.cons_append,
    bind_of_ok (digits_append h.2 hrest)]
  rfl

theorem powerPart_isPower (atEnd : Fault) {power : Option (Bool × List Nat)} {cs rest : List Char}
    (h : IsPower power cs) (hrest : Ends rest) :
    powerPart atEnd (cs ++ rest) = .ok (power, rest) := by
  cases h with
  | none =>
    cases rest with
    | nil => rfl
    | cons c rest =>
      have hletter : ¬ (c = 'e' ∨ c = 'E') := by
        rintro (rfl | rfl) <;> exact hrest rfl (.inr (by decide))
      exact (peek_bind (if_neg hletter) rest).trans rfl
  | @bare e ds letter digits =>
    rw [List.cons_append, powerPart, peek_bind (if_pos letter), advance_bind]
    have hsign : powerSign (ds ++ rest) = .ok (false, ds ++ rest) := by
      obtain ⟨d, ds, rfl⟩ := List.exists_cons_of_ne_nil digits.1
      have hd := digits.2 d List.mem_cons_self
      refine (peek_bind (r := pure false) ?_ (ds ++ rest)).trans rfl
      split
      · next h =>
        obtain rfl := Option.some.inj h
        exact absurd hd (by decide)
      · next h =>
        obtain rfl := Option.some.inj h
        exact absurd hd (by decide)
      · rfl
    rw [bind_of_ok hsign]
    exact powerDigits atEnd false digits hrest.noDigit
  | @signed e ds down letter digits =>
    rw [List.cons_append, List.cons_append, powerPart, peek_bind (if_pos letter), advance_bind]
    have hsign : powerSign ((if down then '-' else '+') :: (ds ++ rest)) =
        .ok (down, ds ++ rest) := by
      cases down <;> rfl
    rw [bind_of_ok hsign]
    exact powerDigits atEnd down digits hrest.noDigit

/-- The parts of a number are read off its text. -/
theorem literal_isNumber (atEnd : Fault) {l : Literal} {t rest : List Char} (h : IsNumber l t)
    (hrest : Ends rest) : literal atEnd (t ++ rest) = .ok (l, rest) := by
  obtain ⟨negative, isWhole, isFraction, isPower⟩ := h
  rename_i whole fraction fractionText power powerText
  obtain ⟨hpower, hpoint⟩ := isPower.noDigit hrest
  have hparts : (wholePart atEnd >>= fun whole ↦ fractionPart atEnd >>= fun fraction ↦
      powerPart atEnd >>= fun power ↦ pure ⟨negative, whole, fraction, power⟩ : Reader Literal)
        (whole ++ (fractionText ++ (powerText ++ rest))) =
      .ok (⟨negative, values whole, fraction, power⟩, rest) := by
    rw [bind_of_ok (wholePart_isWhole atEnd isWhole (isFraction.noDigit hpower)),
      bind_of_ok (fractionPart_isFraction atEnd isFraction hpower hpoint),
      bind_of_ok (powerPart_isPower atEnd isPower hrest)]
    rfl
  simp only [List.append_assoc]
  cases negative with
  | true => exact (bind_of_ok rfl).trans hparts
  | false =>
    obtain ⟨c, cs, rfl, hc⟩ := isWhole.start
    refine (bind_of_ok ((peek_bind (r := pure false) ?_ _).trans rfl)).trans hparts
    split
    · next h =>
      obtain rfl := Option.some.inj h
      exact absurd hc (by decide)
    · rfl

/-! ### Where a text or a number is expected -/

theorem anyNumber_takes_number {expected : String} {l : Literal} {t : List Char} {n : Number}
    (h : IsNumber l t) (hvalue : l.value = .ok n) : (anyNumber expected).Takes t n := by
  obtain ⟨c, cs, rfl, hc⟩ := h.start
  have hread : anyNumber expected (c :: cs) = .ok (n, []) := by
    have hblank : ¬ isBlank c := by
      intro hblank
      simp only [isBlank, decide_eq_true_eq] at hblank
      rcases hblank with rfl | rfl | rfl | rfl <;> exact absurd hc (by decide)
    have hliteral := literal_isNumber .endOfValue h Ends.nil
    rw [List.append_nil] at hliteral
    rw [anyNumber, bind_of_ok (peekPastBlank_eq _), List.dropWhile_cons_of_neg hblank]
    simp only [List.head?_cons, if_pos hc]
    rw [number, bind_of_ok hliteral, hvalue]
    rfl
  exact anyNumber_takes hread fun _ hc ↦ absurd hc List.not_mem_nil

theorem optionalText_takes_text {s : String} {t : List Char} (h : IsText s t) :
    optionalText.Takes t (some s) := by
  obtain ⟨cs, hcs, rfl⟩ := h
  refine Takes.of_start (by decide) fun rest ↦ ?_
  have hpeek : ∀ cs, peekPastBlank ('"' :: cs) = .ok (some '"', '"' :: cs) := fun _ ↦ rfl
  show (quoted "a string" >>= fun t ↦ pure (some t)) _ = _
  have hquoted : quoted "a string" ('"' :: (cs ++ ['"'] ++ rest)) = .ok (s, rest) := by
    rw [quoted, bind_of_ok (hpeek _), List.append_assoc]
    exact (text_spells hcs rest).trans (by rw [String.ofList_toList])
  rw [bind_of_ok hquoted]
  rfl

end Reader

end SerialLine.Json

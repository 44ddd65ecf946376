import SerialLine.Proofs.Json.Taking
/-!
# Numbers are taken whole

A number ends where a character stands that no number has. What a reader of numbers makes of a text
therefore does not depend on what follows it (`Local`), which goes for its parts and hence for the
whole (`number_local`). So a number that is read alone is also taken inside a text
(`anyNumber_takes`), be it the digits of a natural number (`natural_takes`) or anything else.
-/

set_option autoImplicit false

namespace SerialLine.Json

namespace Reader

variable {α β : Type}

/-! ### What does not depend on what follows -/

/-- What the reader takes of a text, it takes of it when something follows. -/
def LocalAt (r : Reader α) (cs : List Char) : Prop :=
  ∀ ⦃a left rest⦄, Ends rest → r cs = .ok (a, left) → r (cs ++ rest) = .ok (a, left ++ rest)

def Local (r : Reader α) : Prop := ∀ cs, r.LocalAt cs

/-- The reader never yields anything. -/
def Fails (r : Reader α) : Prop := ∀ cs a left, r cs ≠ .ok (a, left)

theorem fail_fails (fault : Fault) (looked : Nat) : (fail fault looked : Reader α).Fails :=
  fun _ _ _ h ↦ by cases h

theorem Fails.bind {f : α → Reader β} (h : ∀ a, (f a).Fails) (r : Reader α) : (r >>= f).Fails := by
  intro cs b left hdone
  obtain ⟨a, mid, -, hf⟩ := exists_of_bind hdone
  exact h a mid b left hf

theorem Fails.localAt {r : Reader α} (h : r.Fails) (cs : List Char) : r.LocalAt cs :=
  fun _ _ _ _ hdone ↦ absurd hdone (h _ _ _)

theorem local_pure (a : α) : (pure a : Reader α).Local := by
  intro cs b left rest _ h
  cases h
  rfl

theorem LocalAt.bind {r : Reader α} {f : α → Reader β} {cs : List Char} (hr : r.LocalAt cs)
    (hf : ∀ a, (f a).Local) : (r >>= f).LocalAt cs := by
  intro b left rest hrest hdone
  obtain ⟨a, mid, htaken, hf'⟩ := exists_of_bind hdone
  rw [bind_of_ok (hr hrest htaken)]
  exact hf a mid hrest hf'

theorem LocalAt.advance {r : Reader α} {cs : List Char} (h : r.LocalAt cs) (c : Char) :
    (do Reader.advance; r).LocalAt (c :: cs) := h

theorem Local.bind {r : Reader α} {f : α → Reader β} (hr : r.Local) (hf : ∀ a, (f a).Local) :
    (r >>= f).Local := fun cs ↦ LocalAt.bind (hr cs) hf

/-- To look at the next character is local if there has to be one. -/
theorem local_peek_of_fails {f : Option Char → Reader α}
    (hsome : ∀ c cs, (f (some c)).LocalAt (c :: cs)) (hnone : (f none).Fails) :
    (peek >>= f).Local := by
  rintro (_ | ⟨c, cs⟩) a left rest hrest hdone
  · exact absurd hdone (hnone _ _ _)
  · exact hsome c cs hrest hdone

/-- It is local, too, if a character that ends the number comes to the same as the end of the
text. -/
theorem local_peek {f : Option Char → Reader α} {a : α}
    (hsome : ∀ c cs, (f (some c)).LocalAt (c :: cs)) (hnone : f none = pure a)
    (hends : ∀ c, ¬ InNumber c → f (some c) = pure a) : (peek >>= f).Local := by
  rintro (_ | ⟨c, cs⟩) b left rest hrest hdone
  · replace hdone : f none [] = .ok (b, left) := hdone
    rw [hnone] at hdone
    cases hdone
    cases rest with
    | nil => exact congrFun hnone []
    | cons c cs => exact congrFun (hends c (hrest rfl)) (c :: cs)
  · exact hsome c cs hrest hdone

theorem takeWhile_append_of_ends (cs : List Char) {rest : List Char} (h : Ends rest) :
    (cs ++ rest).takeWhile Char.isDigit = cs.takeWhile Char.isDigit ∧
      (cs ++ rest).dropWhile Char.isDigit = cs.dropWhile Char.isDigit ++ rest := by
  induction cs with
  | nil =>
    cases rest with
    | nil => exact ⟨rfl, rfl⟩
    | cons c rest =>
      have hdigit : ¬ c.isDigit := fun hdigit ↦ h rfl (.inl hdigit)
      exact ⟨List.takeWhile_cons_of_neg hdigit, List.dropWhile_cons_of_neg hdigit⟩
  | cons c cs ih =>
    rw [List.cons_append]
    by_cases hdigit : c.isDigit
    · rw [List.takeWhile_cons_of_pos hdigit, List.takeWhile_cons_of_pos hdigit,
        List.dropWhile_cons_of_pos hdigit, List.dropWhile_cons_of_pos hdigit, ih.1]
      exact ⟨rfl, ih.2⟩
    · rw [List.takeWhile_cons_of_neg hdigit, List.takeWhile_cons_of_neg hdigit,
        List.dropWhile_cons_of_neg hdigit, List.dropWhile_cons_of_neg hdigit]
      exact ⟨rfl, rfl⟩

/-! ### The parts of a number -/

theorem digits_local : digits.Local := by
  intro cs ds left rest hrest hdone
  obtain ⟨htaken, hleft⟩ := takeWhile_append_of_ends cs hrest
  cases hdone
  rw [digits, htaken, hleft]

theorem wholePart_local (atEnd : Fault) : (wholePart atEnd).Local := by
  refine local_peek_of_fails (fun c cs ↦ ?_) (fail_fails _ _)
  split
  · exact (fail_fails _ _).localAt _
  · refine LocalAt.advance ?_ _
    refine local_peek (a := [0]) (fun c cs ↦ ?_) ?_ (fun c hc ↦ ?_) cs
    · simp only
      split
      · exact (fail_fails _ _).localAt _
      · exact local_pure _ _
    · rfl
    · exact if_neg fun hdigit ↦ hc (.inl hdigit)
  · split
    · exact digits_local _
    · exact (fail_fails _ _).localAt _

theorem fractionPart_local (atEnd : Fault) : (fractionPart atEnd).Local := by
  refine local_peek (fun c cs ↦ ?_) rfl fun c hc ↦ ?_
  · split
    · refine LocalAt.advance (LocalAt.bind (digits_local cs) fun ds ↦ ?_) _
      split
      · refine Fails.localAt (Fails.bind (fun next ↦ ?_) _)
        cases next <;> exact fail_fails _ _
      · exact local_pure ds
    · exact local_pure _ _
  · split
    · next hpoint => exact absurd (.inr (by simp [Option.some.inj hpoint])) hc
    · rfl

theorem powerSign_local : powerSign.Local := by
  refine local_peek (fun c cs ↦ ?_) rfl fun c hc ↦ ?_
  · split
    · exact LocalAt.advance (local_pure _ _) _
    · exact LocalAt.advance (local_pure _ _) _
    · exact local_pure _ _
  · split
    · next hsign => exact absurd (.inr (by simp [Option.some.inj hsign])) hc
    · next hsign => exact absurd (.inr (by simp [Option.some.inj hsign])) hc
    · rfl

theorem powerPart_local (atEnd : Fault) : (powerPart atEnd).Local := by
  refine local_peek (fun c cs ↦ ?_) rfl fun c hc ↦ ?_
  · simp only
    split
    · refine LocalAt.advance (LocalAt.bind (powerSign_local cs) fun down ↦ ?_) _
      refine local_peek_of_fails (fun d ds ↦ ?_) (fail_fails _ _)
      simp only
      split
      · exact LocalAt.bind (digits_local _) fun power ↦ local_pure _
      · exact (fail_fails _ _).localAt _
    · exact local_pure _ _
  · refine if_neg ?_
    rintro (rfl | rfl) <;> exact hc (.inr (by decide))

theorem literal_local (atEnd : Fault) : (literal atEnd).Local := by
  refine Local.bind ?_ fun negative ↦ Local.bind (wholePart_local atEnd) fun whole ↦
    Local.bind (fractionPart_local atEnd) fun fraction ↦
      Local.bind (powerPart_local atEnd) fun power ↦ local_pure _
  refine local_peek (fun c cs ↦ ?_) rfl fun c hc ↦ ?_
  · split
    · exact LocalAt.advance (local_pure _ _) _
    · exact local_pure _ _
  · split
    · next hsign => exact absurd (.inr (by simp [Option.some.inj hsign])) hc
    · rfl

/-- What is read as a number does not depend on what follows. -/
theorem number_local : number.Local := by
  refine Local.bind (literal_local _) fun l ↦ ?_
  split
  · exact local_pure _
  · intro cs n left rest _ h
    cases h

/-! ### Numbers where they are expected -/

theorem wrongType_fails (expected : String) : (wrongType expected : Reader α).Fails := by
  refine Fails.bind (fun next ↦ ?_) _
  split
  · exact fail_fails _ _
  · split
    · exact Fails.bind (fun n ↦ fail_fails _ _) _
    · split
      · exact Fails.bind (fun _ ↦ Fails.bind (fun _ ↦ fail_fails _ _) _) _
      · exact Fails.bind (fun _ ↦ Fails.bind (fun _ ↦ fail_fails _ _) _) _
      · exact Fails.bind (fun _ ↦ Fails.bind (fun _ ↦ fail_fails _ _) _) _
      · exact Fails.bind (fun _ ↦ Fails.bind (fun s ↦ fail_fails _ _) _) _
      · exact fail_fails _ _
      · exact fail_fails _ _
      · exact fail_fails _ _

/-- A number that is read alone is taken wherever it stands. -/
theorem anyNumber_takes {expected : String} {cs left : List Char} {n : Number}
    (h : anyNumber expected cs = .ok (n, left)) (hleft : Blank left) :
    (anyNumber expected).Takes cs n := by
  intro before rest hbefore hrest
  rw [anyNumber, bind_of_ok (peekPastBlank_eq cs)] at h
  rw [anyNumber, bind_of_ok (peekPastBlank_eq _), hbefore.dropWhile_append,
    List.dropWhile_append]
  cases hcs : cs.dropWhile isBlank with
  | nil =>
    rw [hcs] at h
    cases h
  | cons c cs =>
    simp only [hcs, List.head?_cons] at h
    simp only [List.isEmpty_cons, Bool.false_eq_true, if_false, List.cons_append, List.head?_cons]
    split at h
    · next hc =>
      rw [if_pos hc]
      exact ⟨left ++ rest, number_local _ hrest h, hleft.dropWhile_append rest⟩
    · exact absurd h (wrongType_fails _ _ _ _)

/-! ### Natural numbers -/

/-- A positive number does not start with a zero. By strong induction on it. -/
theorem toDigits_head (n : Nat) (h : 0 < n) :
    ∃ c cs, Nat.toDigits 10 n = c :: cs ∧ c ≠ '0' := by
  induction n using Nat.strongRecOn with
  | ind n ih =>
    by_cases hn : n < 10
    · refine ⟨Nat.digitChar n, [], Nat.toDigits_of_lt_base hn, fun hzero ↦ ?_⟩
      have hvalue := Nat.toNat_digitChar_sub_48_of_lt_ten hn
      rw [hzero] at hvalue
      exact absurd hvalue (Nat.ne_of_lt h)
    · obtain ⟨c, cs, hdigits, hc⟩ := ih (n / 10) (by omega) (by omega)
      refine ⟨c, cs ++ [Nat.digitChar (n % 10)], ?_, hc⟩
      rw [Nat.toDigits_of_base_le (by decide) (by omega), hdigits, List.cons_append]

/-- The values of digits. -/
def values (cs : List Char) : List Nat := cs.map fun c ↦ c.toNat - '0'.toNat

theorem digits_of_all {cs : List Char} (h : ∀ c ∈ cs, c.isDigit) :
    digits cs = .ok (values cs, []) := by
  have htaken : cs.takeWhile Char.isDigit = cs := List.takeWhile_eq_self_iff.mpr h
  rw [digits, htaken, List.dropWhile_eq_nil_iff.mpr h]
  rfl

/-- The digits of a natural number are a number without fraction and power. -/
theorem literal_toDigits (atEnd : Fault) (n : Nat) :
    literal atEnd (Nat.toDigits 10 n) =
      .ok (⟨false, values (Nat.toDigits 10 n), [], none⟩, []) := by
  rcases Nat.eq_zero_or_pos n with rfl | hn
  · rfl
  · obtain ⟨c, cs, hdigits, hc⟩ := toDigits_head n hn
    have hall : ∀ d ∈ c :: cs, d.isDigit :=
      fun d hd ↦ Nat.isDigit_of_mem_toDigits (by decide) (by decide) (hdigits ▸ hd)
    have hminus : c ≠ '-' := by
      rintro rfl
      exact absurd (hall _ List.mem_cons_self) (by decide)
    have hwhole : wholePart atEnd (c :: cs) = .ok (values (c :: cs), []) := by
      refine (peek_bind (r := digits) ?_ cs).trans (digits_of_all hall)
      split
      · next h => cases h
      · next h => exact absurd (Option.some.inj h) hc
      · next d _ h =>
        obtain rfl := Option.some.inj h
        exact if_pos (hall c List.mem_cons_self)
    rw [hdigits]
    refine (bind_of_ok (peek_bind (r := pure false) ?_ cs)).trans ?_
    · split
      · next h => exact absurd (Option.some.inj h) hminus
      · rfl
    · rw [bind_of_ok hwhole]
      rfl

theorem le_ofDigitChars (cs : List Char) (m : Nat) : m ≤ Nat.ofDigitChars 10 cs m := by
  induction cs generalizing m with
  | nil => exact Nat.le_refl m
  | cons c cs ih =>
    rw [Nat.ofDigitChars_cons]
    exact Nat.le_trans (by omega) (ih _)

/-- Digits of a number of 64 bits are absorbed to the last. -/
theorem absorb_values {cs : List Char} {m : Nat} (h : Nat.ofDigitChars 10 cs m < UInt64.size) :
    absorb m (values cs) = (Nat.ofDigitChars 10 cs m, []) := by
  induction cs generalizing m with
  | nil => rfl
  | cons c cs ih =>
    rw [Nat.ofDigitChars_cons] at h ⊢
    have hfits := Nat.lt_of_le_of_lt (le_ofDigitChars cs _) h
    show (if _ then absorb _ (values cs) else _) = _
    rw [if_pos hfits, ih h]

theorem value_of_whole {ds : List Nat} {n : Nat} (h : absorb 0 ds = (n, [])) :
    Literal.value ⟨false, ds, [], none⟩ = .ok (.integer n) := by
  unfold Literal.value
  rw [h]
  rfl

theorem number_toDigits {n : Nat} (h : n < UInt64.size) :
    number (Nat.toDigits 10 n) = .ok (.integer n, []) := by
  have habsorb : absorb 0 (values (Nat.toDigits 10 n)) = (n, []) := by
    have hvalue : Nat.ofDigitChars 10 (Nat.toDigits 10 n) 0 = n := Nat.ofDigitChars_ten_toDigits
    rw [absorb_values (hvalue.symm ▸ h), hvalue]
  rw [number, bind_of_ok (literal_toDigits _ n), value_of_whole habsorb]
  rfl

theorem natural_takes (expected : String) {limit n : Nat} (hlimit : n < limit)
    (h : n < UInt64.size) : (natural expected limit).Takes (Nat.toDigits 10 n) n := by
  have hread : anyNumber expected (Nat.toDigits 10 n) = .ok (.integer n, []) := by
    obtain ⟨c, cs, hdigits⟩ := List.exists_cons_of_ne_nil (Nat.toDigits_ne_nil (n := n) (b := 10))
    have hc : c.isDigit :=
      Nat.isDigit_of_mem_toDigits (by decide) (by decide) (hdigits ▸ List.mem_cons_self)
    have hnumber := number_toDigits h
    rw [hdigits] at hnumber ⊢
    have hblank : ¬ isBlank c := by
      intro hblank
      simp only [isBlank, decide_eq_true_eq] at hblank
      rcases hblank with rfl | rfl | rfl | rfl <;> exact absurd hc (by decide)
    rw [anyNumber, bind_of_ok (peekPastBlank_eq _), List.dropWhile_cons_of_neg hblank]
    simp only [List.head?_cons, hc, or_true, if_true, hnumber]
  refine (anyNumber_takes hread fun _ hc ↦ absurd hc List.not_mem_nil).bind ?_
  simp only [Int.natCast_nonneg, Int.ofNat_lt, hlimit, and_self, if_true, Int.toNat_natCast]

end Reader

end SerialLine.Json

import SerialLine.Binary64.Shortest
import SerialLine.Proofs.Binary64.Rounding
/-!
# What rounds to a magnitude

The numbers that are rounded to a magnitude fill an interval around it, whose ends belong to it if
the significand is even (`Nearest`). In units of the last place it reaches half a unit to both
sides, but only a quarter below a power of two (`nearest_iff`). A quotient is rounded to a magnitude
exactly if it lies in its interval (`Nearest.round_eq`, `Rounds.nearest`).
-/

set_option autoImplicit false

namespace SerialLine.Magnitude

variable {m : Magnitude} {q : ℚ}

/-- The number lies in the interval of those that are rounded to the magnitude. -/
def Nearest (m : Magnitude) (q : ℚ) : Prop :=
  if m.significand % 2 = 0 then
    m.quarters.1 ≤ q / (2 ^ m.exponent / 4) ∧ q / (2 ^ m.exponent / 4) ≤ m.quarters.2
  else m.quarters.1 < q / (2 ^ m.exponent / 4) ∧ q / (2 ^ m.exponent / 4) < m.quarters.2

theorem quarters_fst (hm : m.Normal) : (m.quarters.1 : ℚ) =
    if m.significand = 2 ^ 52 then 4 * (m.significand : ℚ) - 1 else 4 * m.significand - 2 := by
  have hlow := hm.low
  have hhalf : significandLimit / 2 = 2 ^ 52 := by decide
  simp only [quarters, hhalf, hm.minExponent_lt, and_true]
  split
  · rw [Nat.cast_sub (by omega), Nat.cast_mul, Nat.cast_ofNat, Nat.cast_one]
  · rw [Nat.cast_sub (by omega), Nat.cast_mul, Nat.cast_ofNat, Nat.cast_ofNat]

theorem quarters_snd (m : Magnitude) : (m.quarters.2 : ℚ) = 4 * m.significand + 2 := by
  simp only [quarters]
  push_cast
  rfl

/-- The interval by its ends. -/
theorem nearest_iff_ends : m.Nearest q ↔
    if m.significand % 2 = 0 then
      m.quarters.1 * (2 : ℚ) ^ (m.exponent - 2) ≤ q ∧ q ≤ m.quarters.2 * (2 : ℚ) ^ (m.exponent - 2)
    else m.quarters.1 * (2 : ℚ) ^ (m.exponent - 2) < q ∧
      q < m.quarters.2 * (2 : ℚ) ^ (m.exponent - 2) := by
  have hquarter : (2 : ℚ) ^ m.exponent / 4 = 2 ^ (m.exponent - 2) := by
    rw [zpow_sub₀ two_ne_zero]
    norm_num
  have hunit := two_zpow_pos (m.exponent - 2)
  simp only [Nearest, hquarter, le_div_iff₀ hunit, div_le_iff₀ hunit, lt_div_iff₀ hunit,
    div_lt_iff₀ hunit]

/-- The interval in units of the last place. -/
theorem nearest_iff (hm : m.Normal) : m.Nearest q ↔
    |q / 2 ^ m.exponent - m.significand| ≤ 1 / 2 ∧
      (|q / 2 ^ m.exponent - m.significand| = 1 / 2 → m.significand % 2 = 0) ∧
        (m.significand = 2 ^ 52 → (m.significand : ℚ) - 1 / 4 ≤ q / 2 ^ m.exponent) := by
  have hunit : q / (2 ^ m.exponent / 4) = 4 * (q / 2 ^ m.exponent) := by
    have := (two_zpow_pos m.exponent).ne'
    field_simp
  rw [Nearest, quarters_fst hm, quarters_snd, hunit]
  generalize q / 2 ^ m.exponent = x
  generalize m.significand = s
  rcases eq_or_ne s (2 ^ 52) with rfl | hs
  · rw [if_pos rfl, if_pos (by norm_num : 2 ^ 52 % 2 = 0), abs_le]
    simp only [Nat.cast_pow, Nat.cast_ofNat, forall_const]
    constructor
    · rintro ⟨hlow, hhigh⟩
      exact ⟨⟨by linarith, by linarith⟩, fun _ ↦ by norm_num, by linarith⟩
    · rintro ⟨⟨-, hhigh⟩, -, hlow⟩
      exact ⟨by linarith, by linarith⟩
  · rw [if_neg hs]
    simp only [hs, false_imp_iff, and_true]
    split
    · next heven =>
      rw [abs_le]
      constructor
      · rintro ⟨hlow, hhigh⟩
        exact ⟨⟨by linarith, by linarith⟩, fun _ ↦ heven⟩
      · rintro ⟨⟨hlow, hhigh⟩, -⟩
        exact ⟨by linarith, by linarith⟩
    · next hodd =>
      constructor
      · rintro ⟨hlow, hhigh⟩
        have habs : |x - s| < 1 / 2 := abs_lt.mpr ⟨by linarith, by linarith⟩
        exact ⟨habs.le, fun heq ↦ absurd heq habs.ne⟩
      · rintro ⟨habs, heq⟩
        obtain ⟨hlow, hhigh⟩ := abs_lt.mp (lt_of_le_of_ne habs (mt heq hodd))
        exact ⟨by linarith, by linarith⟩

/-- What is rounded to a magnitude is within half a unit of its last place. -/
theorem Nearest.abs_sub_le (hm : m.Normal) (h : m.Nearest q) :
    |q - m.toRat| ≤ 2 ^ m.exponent / 2 := by
  have hunit := two_zpow_pos m.exponent
  have hwithin := ((nearest_iff hm).mp h).1
  have hfactor : q - m.toRat = (q / 2 ^ m.exponent - m.significand) * 2 ^ m.exponent := by
    rw [sub_mul, div_mul_cancel₀ _ hunit.ne', toRat]
  rw [hfactor, abs_mul, abs_of_pos hunit]
  linarith [mul_le_mul_of_nonneg_right hwithin hunit.le]

theorem nearest_self (hm : m.Normal) : m.Nearest m.toRat := by
  rw [nearest_iff hm, toRat, mul_div_cancel_right₀ _ (two_zpow_pos m.exponent).ne', sub_self,
    abs_zero]
  exact ⟨by norm_num, fun h ↦ absurd h (by norm_num), fun _ ↦ by linarith⟩

/-- What is nearer to the magnitude, on the same side, is rounded to it as well. -/
theorem Nearest.between {q' : ℚ} (hm : m.Normal) (h : m.Nearest q)
    (hq' : q ≤ q' ∧ q' ≤ m.toRat ∨ m.toRat ≤ q' ∧ q' ≤ q) : m.Nearest q' := by
  have hunit := two_zpow_pos m.exponent
  have hself : m.toRat / 2 ^ m.exponent = m.significand := by
    rw [toRat, mul_div_cancel_right₀ _ hunit.ne']
  have hscale : ∀ {a b : ℚ}, a ≤ b → a / 2 ^ m.exponent ≤ b / 2 ^ m.exponent :=
    fun hab ↦ div_le_div_of_nonneg_right hab hunit.le
  obtain ⟨habs, htie, hpower⟩ := (nearest_iff hm).mp h
  rw [nearest_iff hm]
  obtain ⟨hlow, hhigh⟩ := abs_le.mp habs
  rcases hq' with ⟨hbelow, habove⟩ | ⟨hbelow, habove⟩
  · have h₁ := hscale hbelow
    have h₂ := hself ▸ hscale habove
    have habs' : |q' / 2 ^ m.exponent - m.significand| = m.significand - q' / 2 ^ m.exponent := by
      rw [abs_sub_comm, abs_of_nonneg (by linarith)]
    refine ⟨by linarith, fun heq ↦ htie ?_, fun hs ↦ (hpower hs).trans h₁⟩
    rw [abs_sub_comm, abs_of_nonneg] <;> linarith
  · have h₁ := hself ▸ hscale hbelow
    have h₂ := hscale habove
    have habs' : |q' / 2 ^ m.exponent - m.significand| = q' / 2 ^ m.exponent - m.significand := by
      rw [abs_of_nonneg (by linarith)]
    refine ⟨by linarith, fun heq ↦ htie ?_, fun _ ↦ by linarith⟩
    rw [abs_of_nonneg] <;> linarith

/-! ### Rounding and the interval -/

/-- The exponent is the only one at which the quotient has 53 bits. -/
theorem scale_eq {n d : ℕ} {e : ℤ} (hn : 0 < n) (hd : 0 < d) (he : minExponent ≤ e)
    (hlow : (2 : ℚ) ^ 52 ≤ n / d / 2 ^ e) (hhigh : (n : ℚ) / d / 2 ^ e < 2 ^ 53) :
    scale n d = e := by
  obtain ⟨-, hbelow, habove⟩ := scale_bounds hn hd
  have hlow' : (2 : ℚ) ^ (52 + e) ≤ n / d := by
    rw [zpow_add₀ two_ne_zero]
    exact (le_div_iff₀ (two_zpow_pos e)).mp hlow
  have hhigh' : (n : ℚ) / d < 2 ^ (53 + e) := by
    rw [zpow_add₀ two_ne_zero]
    exact (div_lt_iff₀ (two_zpow_pos e)).mp hhigh
  have hlt : ∀ {a b : ℤ}, (2 : ℚ) ^ a < 2 ^ b → a < b :=
    fun h ↦ (zpow_lt_zpow_iff_right₀ one_lt_two).mp h
  have h₁ := hlt (hlow'.trans_lt hbelow)
  by_contra hne
  have h₂ := hlt ((habove (by omega)).trans_lt hhigh')
  omega

/-- A quotient is rounded to its number of units of the last place. -/
theorem round_eq_of_roundToEven {n d s : ℕ} {e : ℤ} (hn : 0 < n) (hscale : scale n d = e)
    (hs : roundToEven (n * Nat.pow 2 (-e).toNat) (d * Nat.pow 2 e.toNat) = s) :
    round n d = if s = significandLimit then ⟨significandLimit / 2, e + 1⟩ else ⟨s, e⟩ := by
  rw [round, if_neg hn.ne']
  simp only [hscale, hs]

/-- At the exponent where it has 53 bits, a quotient is rounded to the significand that is within
half a unit, and even at half a unit. -/
theorem round_eq_of_units {n d s : ℕ} {e : ℤ} (hn : 0 < n) (hd : 0 < d) (he : minExponent ≤ e)
    (hlow : (2 : ℚ) ^ 52 ≤ n / d / 2 ^ e) (hhigh : (n : ℚ) / d / 2 ^ e < 2 ^ 53)
    (hs : |(n : ℚ) / d / 2 ^ e - s| ≤ 1 / 2) (htie : |(n : ℚ) / d / 2 ^ e - s| = 1 / 2 → s % 2 = 0) :
    round n d = if s = significandLimit then ⟨significandLimit / 2, e + 1⟩ else ⟨s, e⟩ := by
  refine round_eq_of_roundToEven hn (scale_eq hn hd he hlow hhigh) ?_
  rw [← unit_ratio hd] at hs htie
  exact roundToEven_eq_of_le (unit_pos hd e) hs htie

/-- What lies in the interval of a magnitude is rounded to it. -/
theorem Nearest.round_eq (hm : m.Normal) {n d : ℕ} (hd : 0 < d) (h : m.Nearest (n / d)) :
    round n d = m := by
  obtain ⟨habs, htie, hpower⟩ := (nearest_iff hm).mp h
  obtain ⟨hlow, hhigh⟩ := abs_le.mp habs
  have hmin := hm.minExponent_lt
  have hs : (2 : ℚ) ^ 52 ≤ m.significand := by exact_mod_cast hm.low
  have hs' : (m.significand : ℚ) + 1 ≤ 2 ^ 53 := by exact_mod_cast hm.high
  have hn : 0 < n := by
    have hquotient : 0 < (n : ℚ) / d / 2 ^ m.exponent := by linarith
    exact num_pos_of_div_pos ((div_pos_iff_of_pos_right (two_zpow_pos _)).mp hquotient)
  rcases le_or_gt ((2 : ℚ) ^ 52) (n / d / 2 ^ m.exponent) with hwide | hnarrow
  · -- The quotient has 53 bits at the exponent of the magnitude.
    rw [round_eq_of_units hn hd hmin.le hwide (by linarith) habs htie,
      if_neg (by rw [significandLimit]; exact hm.high.ne)]
  · -- It lies below the power of two that the magnitude is, and its significand carries.
    have hpow : m.significand = 2 ^ 52 := by
      have hbelow : (m.significand : ℚ) < (2 ^ 52 + 1 : ℕ) := by
        push_cast
        linarith
      exact le_antisymm (Nat.lt_succ_iff.mp (Nat.cast_lt.mp hbelow)) hm.low
    have hdown : (n : ℚ) / d / 2 ^ (m.exponent - 1) = 2 * (n / d / 2 ^ m.exponent) := by
      rw [zpow_sub_one₀ two_ne_zero]
      field_simp
    have hquarter := hpower hpow
    rw [hpow] at hquarter
    push_cast at hquarter
    have hcarry : |(n : ℚ) / d / 2 ^ (m.exponent - 1) - (significandLimit : ℕ)| ≤ 1 / 2 := by
      rw [hdown, significandLimit, abs_le]
      push_cast
      norm_num at hquarter hnarrow ⊢
      constructor <;> linarith
    have hround := round_eq_of_units (s := significandLimit) hn hd (by omega)
      (hdown ▸ by linarith) (hdown ▸ by linarith) hcarry (fun _ ↦ by decide)
    have hhalf : significandLimit / 2 = m.significand := hpow ▸ by decide
    rw [hround, if_pos rfl, sub_add_cancel, hhalf]

theorem Nearest.eq_of_rounds {m' : Magnitude} (hm : m.Normal) (h : m.Nearest q)
    (hround : Rounds q m') : m' = m := by
  obtain ⟨n, d, hd, rfl, rfl⟩ := hround
  exact h.round_eq hm hd

/-- What is rounded to a magnitude lies in its interval. -/
theorem Rounds.nearest (h : Rounds q m) (hq : (2 : ℚ) ^ (-1021 : ℤ) ≤ q) : m.Nearest q := by
  rw [nearest_iff (h.normal hq)]
  obtain ⟨n, d, hd, rfl, rfl⟩ := h
  have hn := num_pos_of_div_pos ((two_zpow_pos _).trans_le hq)
  obtain ⟨hlow, hhigh⟩ := units_bounds hn hd hq
  obtain ⟨habs, htie⟩ := units_spec n hd (scale n d)
  rw [abs_sub_comm] at habs htie
  rw [round_eq_of_roundToEven hn rfl rfl]
  generalize roundToEven (n * Nat.pow 2 (-scale n d).toNat) (d * Nat.pow 2 (scale n d).toNat) = s
    at habs htie
  split
  · next hs =>
    have hup : (n : ℚ) / d / 2 ^ (scale n d + 1) = n / d / 2 ^ scale n d / 2 := by
      rw [zpow_add_one₀ two_ne_zero]
      field_simp
    have hlimit : significandLimit / 2 = 2 ^ 52 := by decide
    rw [hs] at habs
    obtain ⟨hnear, hnear'⟩ := abs_le.mp habs
    rw [significandLimit] at hnear
    simp only [hup, hlimit]
    push_cast at hnear ⊢
    norm_num at hnear hhigh ⊢
    refine ⟨?_, by linarith⟩
    rw [abs_le]
    constructor <;> linarith
  · refine ⟨habs, htie, fun hs ↦ ?_⟩
    simp only at hs ⊢
    rw [hs]
    push_cast
    linarith

end SerialLine.Magnitude

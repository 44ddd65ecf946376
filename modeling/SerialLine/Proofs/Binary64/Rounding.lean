import Mathlib.Data.Rat.Floor
import Mathlib.Tactic.FieldSimp
import Mathlib.Tactic.GCongr
import Mathlib.Tactic.Linarith
import Mathlib.Tactic.NormNum
import Mathlib.Tactic.Positivity
import Mathlib.Tactic.Ring
import SerialLine.Binary64
/-!
# How far rounding goes

A magnitude is a rational number (`Magnitude.toRat`). A quotient is rounded to the nearest multiple
of a power of two, and that power is chosen so that the quotient has 53 bits (`scale_bounds`). So
the error is half a unit in the last place, which is at most the part `2⁻⁵³` of a number that is not
too small (`abs_round_sub_le`), and there is none if the quotient is a magnitude already
(`toRat_round_eq`).
-/

set_option autoImplicit false

namespace SerialLine

/-- A power with an integer exponent as a quotient of two powers, one of which is 1. -/
theorem zpow_eq_div_toNat {b : ℕ} (hb : b ≠ 0) (e : ℤ) :
    (b : ℚ) ^ e = (b ^ e.toNat : ℕ) / (b ^ (-e).toNat : ℕ) := by
  have hb' : (b : ℚ) ≠ 0 := Nat.cast_ne_zero.mpr hb
  push_cast
  rcases le_total 0 e with he | he
  · rw [Int.toNat_of_nonpos (neg_nonpos.mpr he), pow_zero, div_one, ← zpow_natCast,
      Int.toNat_of_nonneg he]
  · rw [Int.toNat_of_nonpos he, pow_zero, one_div, ← zpow_natCast,
      Int.toNat_of_nonneg (neg_nonneg.mpr he), zpow_neg, inv_inv]

/-! ### Whole numbers -/

theorem div_eq_quotient_add (n : ℕ) {d : ℕ} (hd : 0 < d) :
    (n : ℚ) / d = (n / d : ℕ) + (n % d : ℕ) / d := by
  have hd' : (d : ℚ) ≠ 0 := Nat.cast_ne_zero.mpr hd.ne'
  have hn : (n : ℚ) = d * (n / d : ℕ) + (n % d : ℕ) := by exact_mod_cast (Nat.div_add_mod n d).symm
  rw [div_eq_iff hd', add_mul, div_mul_cancel₀ _ hd', mul_comm _ (d : ℚ), ← hn]

/-- A number is rounded to one that is at most a half away, and even if it is a half. -/
theorem roundToEven_spec (n : ℕ) {d : ℕ} (hd : 0 < d) :
    |(roundToEven n d : ℚ) - n / d| ≤ 1 / 2 ∧
      (|(roundToEven n d : ℚ) - n / d| = 1 / 2 → roundToEven n d % 2 = 0) := by
  have hd' : (0 : ℚ) < d := Nat.cast_pos.mpr hd
  have hrest : 0 ≤ ((n % d : ℕ) : ℚ) / d ∧ ((n % d : ℕ) : ℚ) / d < 1 := by
    refine ⟨by positivity, ?_⟩
    rw [div_lt_one hd']
    exact_mod_cast Nat.mod_lt n hd
  rw [div_eq_quotient_add n hd]
  unfold roundToEven
  simp only
  split
  · next h =>
    have hhalf : ((n % d : ℕ) : ℚ) / d ≤ 1 / 2 := by
      rw [div_le_iff₀ hd']
      have : (2 * (n % d) : ℕ) ≤ (d : ℚ) := by exact_mod_cast (by omega : 2 * (n % d) ≤ d)
      push_cast at this
      linarith
    rw [sub_add_cancel_left, abs_neg, abs_of_nonneg hrest.1]
    refine ⟨hhalf, fun heq ↦ ?_⟩
    rw [div_eq_iff hd'.ne'] at heq
    have : ((2 * (n % d) : ℕ) : ℚ) = d := by
      push_cast
      linarith
    have : 2 * (n % d) = d := by exact_mod_cast this
    omega
  · next h =>
    have hhalf : 1 / 2 ≤ ((n % d : ℕ) : ℚ) / d := by
      rw [le_div_iff₀ hd']
      have : (d : ℚ) ≤ (2 * (n % d) : ℕ) := by exact_mod_cast (by omega : d ≤ 2 * (n % d))
      push_cast at this
      linarith
    rw [Nat.cast_add, Nat.cast_one, add_sub_add_left_eq_sub, abs_of_pos (by linarith)]
    refine ⟨by linarith, fun heq ↦ ?_⟩
    have heq' : ((n % d : ℕ) : ℚ) / d = 1 / 2 := by linarith
    rw [div_eq_iff hd'.ne'] at heq'
    have : ((2 * (n % d) : ℕ) : ℚ) = d := by
      push_cast
      linarith
    have : 2 * (n % d) = d := by exact_mod_cast this
    omega

/-- Only one number is near enough to be rounded to. -/
theorem roundToEven_eq_of_le {n d k : ℕ} (hd : 0 < d) (h : |(n : ℚ) / d - k| ≤ 1 / 2)
    (heven : |(n : ℚ) / d - k| = 1 / 2 → k % 2 = 0) : roundToEven n d = k := by
  obtain ⟨hround, hround'⟩ := roundToEven_spec n hd
  generalize roundToEven n d = s at hround hround'
  generalize (n : ℚ) / d = q at h heven hround hround'
  obtain ⟨hlow, hhigh⟩ := abs_le.mp h
  obtain ⟨hlow', hhigh'⟩ := abs_le.mp hround
  -- Two numbers are at most one apart, and then both of them are a half away.
  rcases lt_trichotomy s k with hlt | rfl | hgt
  · have hnext : (s : ℚ) + 1 ≤ k := by exact_mod_cast hlt
    have hs := hround' (by rw [abs_sub_comm, abs_of_nonneg] <;> linarith)
    have hk := heven (by rw [abs_sub_comm, abs_of_nonneg] <;> linarith)
    have hone : (k : ℚ) < (s + 2 : ℕ) := by
      push_cast
      linarith
    have hone' : k < s + 2 := by exact_mod_cast hone
    omega
  · rfl
  · have hnext : (k : ℚ) + 1 ≤ s := by exact_mod_cast hgt
    have hs := hround' (by rw [abs_of_nonneg] <;> linarith)
    have hk := heven (by rw [abs_of_nonneg] <;> linarith)
    have hone : (s : ℚ) < (k + 2 : ℕ) := by
      push_cast
      linarith
    have hone' : s < k + 2 := by exact_mod_cast hone
    omega

/-- What is nearer than a half is rounded to. -/
theorem roundToEven_eq {n d k : ℕ} (hd : 0 < d) (h : |(n : ℚ) / d - k| < 1 / 2) :
    roundToEven n d = k := roundToEven_eq_of_le hd h.le fun heq ↦ absurd heq h.ne

namespace Magnitude

/-! ### Magnitudes as rational numbers -/

/-- The exact number. -/
def toRat (m : Magnitude) : ℚ := m.significand * 2 ^ m.exponent

theorem den_pos (m : Magnitude) : 0 < m.den := Nat.pos_of_ne_zero (by simp [den])

theorem num_div_den (m : Magnitude) : (m.num : ℚ) / m.den = m.toRat := by
  have hpow := zpow_eq_div_toNat two_ne_zero m.exponent
  simp only [num, den, toRat, Nat.pow_eq]
  push_cast at hpow ⊢
  rw [hpow, mul_div_assoc]

theorem toRat_nonneg (m : Magnitude) : 0 ≤ m.toRat :=
  mul_nonneg (Nat.cast_nonneg _) (zpow_nonneg zero_le_two _)

/-! ### The scale of a quotient -/

/-- What the exponent is chosen by. -/
theorem wide_iff {n d : ℕ} (hd : 0 < d) (e : ℤ) :
    significandLimit * (d * Nat.pow 2 e.toNat) ≤ n * Nat.pow 2 (-e).toNat ↔
      (2 : ℚ) ^ (53 + e) ≤ n / d := by
  have hd' : (0 : ℚ) < d := Nat.cast_pos.mpr hd
  have hpow := zpow_eq_div_toNat two_ne_zero e
  have hcast : (significandLimit * (d * Nat.pow 2 e.toNat) ≤ n * Nat.pow 2 (-e).toNat) ↔
      ((2 : ℚ) ^ 53 * (d * 2 ^ e.toNat) ≤ n * 2 ^ (-e).toNat) := by
    rw [← Nat.cast_le (α := ℚ)]
    simp only [significandLimit, Nat.pow_eq]
    push_cast
    rfl
  rw [hcast, zpow_add₀ two_ne_zero]
  push_cast at hpow
  rw [hpow, le_div_iff₀ hd', mul_div_assoc', div_mul_eq_mul_div,
    div_le_iff₀ (by positivity : (0 : ℚ) < 2 ^ (-e).toNat)]
  norm_num
  ring_nf

/-- The exponent of a quotient is the one at which it has 53 bits, unless that is too small. -/
theorem scale_bounds {n d : ℕ} (hn : 0 < n) (hd : 0 < d) :
    minExponent ≤ scale n d ∧ (n : ℚ) / d < 2 ^ (53 + scale n d) ∧
      (minExponent < scale n d → (2 : ℚ) ^ (52 + scale n d) ≤ n / d) := by
  have hd' : (0 : ℚ) < d := Nat.cast_pos.mpr hd
  have hn' : (2 : ℚ) ^ n.log2 ≤ n ∧ (n : ℚ) < 2 ^ (n.log2 + 1) :=
    ⟨by exact_mod_cast Nat.log2_self_le hn.ne', by exact_mod_cast Nat.lt_log2_self⟩
  have hd'' : (2 : ℚ) ^ d.log2 ≤ d ∧ (d : ℚ) < 2 ^ (d.log2 + 1) :=
    ⟨by exact_mod_cast Nat.log2_self_le hd.ne', by exact_mod_cast Nat.lt_log2_self⟩
  have hlow : (2 : ℚ) ^ ((n.log2 : ℤ) - (d.log2 + 1 : ℕ)) ≤ n / d := by
    rw [zpow_sub₀ two_ne_zero, zpow_natCast, zpow_natCast]
    exact div_le_div₀ (Nat.cast_nonneg n) hn'.1 hd' hd''.2.le
  have hhigh : (n : ℚ) / d < 2 ^ (((n.log2 + 1 : ℕ) : ℤ) - d.log2) := by
    rw [zpow_sub₀ two_ne_zero, zpow_natCast, zpow_natCast]
    exact div_lt_div₀ hn'.2 hd''.1 (by positivity) (by positivity)
  have hmono : ∀ {a b : ℤ}, a ≤ b → (2 : ℚ) ^ a ≤ 2 ^ b :=
    fun h ↦ zpow_le_zpow_right₀ one_le_two h
  have hwide := wide_iff (n := n) hd ((n.log2 : ℤ) - d.log2 - 53)
  unfold scale
  simp only
  by_cases h : significandLimit * (d * Nat.pow 2 ((n.log2 : ℤ) - d.log2 - 53).toNat) ≤
      n * Nat.pow 2 (-((n.log2 : ℤ) - d.log2 - 53)).toNat
  · rw [if_pos h]
    refine ⟨le_max_left _ _, hhigh.trans_le (hmono ?_), fun hmin ↦ (hmono ?_).trans (hwide.mp h)⟩
    · push_cast
      omega
    · omega
  · rw [if_neg h]
    have hnarrow := lt_of_not_ge (mt hwide.mpr h)
    refine ⟨le_max_left _ _, hnarrow.trans_le (hmono ?_), fun hmin ↦ (hmono ?_).trans hlow⟩
    · omega
    · push_cast
      omega

/-! ### Rounding -/

/-- The exact value of a rounded quotient, before the carry into the next power of two. -/
theorem toRat_round {n d : ℕ} (hn : 0 < n) :
    (round n d).toRat = roundToEven (n * Nat.pow 2 (-scale n d).toNat)
      (d * Nat.pow 2 (scale n d).toNat) * 2 ^ scale n d := by
  rw [round, if_neg hn.ne']
  simp only
  split
  · next h =>
    rw [h, toRat, significandLimit, zpow_add₀ two_ne_zero]
    norm_num
    ring
  · rfl

/-- A quotient that is moved by a power of the base. -/
theorem scaled_eq {b : ℕ} (hb : b ≠ 0) {n d : ℕ} (hd : 0 < d) (e : ℤ) :
    ((n * Nat.pow b (-e).toNat : ℕ) : ℚ) / (d * Nat.pow b e.toNat : ℕ) = n / d / b ^ e := by
  have hpow := zpow_eq_div_toNat hb e
  have hd' : (d : ℚ) ≠ 0 := Nat.cast_ne_zero.mpr hd.ne'
  have hb' : (b : ℚ) ≠ 0 := Nat.cast_ne_zero.mpr hb
  simp only [Nat.pow_eq]
  push_cast at hpow ⊢
  rw [hpow]
  field_simp

theorem two_zpow_pos (e : ℤ) : (0 : ℚ) < 2 ^ e := zpow_pos two_pos e

theorem unit_pos {d : ℕ} (hd : 0 < d) (e : ℤ) : 0 < d * Nat.pow 2 e.toNat :=
  Nat.mul_pos hd (Nat.pow_pos two_pos)

theorem unit_ratio {n d : ℕ} (hd : 0 < d) (e : ℤ) :
    ((n * Nat.pow 2 (-e).toNat : ℕ) : ℚ) / (d * Nat.pow 2 e.toNat : ℕ) = n / d / 2 ^ e := by
  rw [scaled_eq two_ne_zero hd, Nat.cast_two]

/-- A quotient is rounded in units of a power of two. -/
theorem units_spec (n : ℕ) {d : ℕ} (hd : 0 < d) (e : ℤ) :
    |(roundToEven (n * Nat.pow 2 (-e).toNat) (d * Nat.pow 2 e.toNat) : ℚ) - n / d / 2 ^ e| ≤ 1 / 2 ∧
      (|(roundToEven (n * Nat.pow 2 (-e).toNat) (d * Nat.pow 2 e.toNat) : ℚ) - n / d / 2 ^ e| =
          1 / 2 → roundToEven (n * Nat.pow 2 (-e).toNat) (d * Nat.pow 2 e.toNat) % 2 = 0) := by
  rw [← unit_ratio hd]
  exact roundToEven_spec _ (unit_pos hd e)

theorem abs_round_sub_le_half {n d : ℕ} (hn : 0 < n) (hd : 0 < d) :
    |(round n d).toRat - n / d| ≤ 2 ^ scale n d / 2 := by
  have hunit := two_zpow_pos (scale n d)
  have hround := (units_spec n hd (scale n d)).1
  rw [toRat_round hn]
  have hfactor : ∀ s : ℚ, s * 2 ^ scale n d - n / d = (s - n / d / 2 ^ scale n d) * 2 ^ scale n d := by
    intro s
    rw [sub_mul, div_mul_cancel₀ _ hunit.ne']
  rw [hfactor, abs_mul, abs_of_pos hunit]
  linarith [mul_le_mul_of_nonneg_right hround hunit.le]

theorem lt_scale {n d : ℕ} (hn : 0 < n) (hd : 0 < d) (hnormal : (2 : ℚ) ^ (-1021 : ℤ) ≤ n / d) :
    minExponent < scale n d := by
  obtain ⟨-, hhigh, -⟩ := scale_bounds hn hd
  have hlt := (zpow_lt_zpow_iff_right₀ (one_lt_two (α := ℚ))).mp (hnormal.trans_lt hhigh)
  unfold minExponent
  omega

/-- In its own units, a quotient that is not too small has 53 bits. -/
theorem units_bounds {n d : ℕ} (hn : 0 < n) (hd : 0 < d)
    (hnormal : (2 : ℚ) ^ (-1021 : ℤ) ≤ n / d) :
    (2 : ℚ) ^ 52 ≤ n / d / 2 ^ scale n d ∧ (n : ℚ) / d / 2 ^ scale n d < 2 ^ 53 := by
  obtain ⟨-, hhigh, hlow⟩ := scale_bounds hn hd
  have hlow' := hlow (lt_scale hn hd hnormal)
  rw [zpow_add₀ two_ne_zero] at hhigh hlow'
  exact ⟨(le_div_iff₀ (two_zpow_pos _)).mpr hlow', (div_lt_iff₀ (two_zpow_pos _)).mpr hhigh⟩

/-- The relative error of rounding, for quotients that are not too small. -/
theorem abs_round_sub_le {n d : ℕ} (hn : 0 < n) (hd : 0 < d)
    (hnormal : (2 : ℚ) ^ (-1021 : ℤ) ≤ n / d) :
    |(round n d).toRat - n / d| ≤ n / d / 2 ^ 53 := by
  refine (abs_round_sub_le_half hn hd).trans ?_
  have hunit := (scale_bounds hn hd).2.2 (lt_scale hn hd hnormal)
  rw [zpow_add₀ two_ne_zero] at hunit
  norm_num at hunit ⊢
  linarith

/-- There is no error if the quotient has at most 53 bits. -/
theorem toRat_round_eq {n d s : ℕ} {e : ℤ} (hn : 0 < n) (hd : 0 < d) (hs : s < 2 ^ 53)
    (he : minExponent ≤ e) (h : (n : ℚ) / d = s * 2 ^ e) : (round n d).toRat = n / d := by
  obtain ⟨-, -, hlow⟩ := scale_bounds hn hd
  -- The scale is no larger than `e`, so the quotient is a multiple of its power of two.
  have hscale : scale n d ≤ e := by
    by_contra hlt
    have hbits : (n : ℚ) / d < 2 ^ (53 + e) := by
      rw [h, zpow_add₀ two_ne_zero]
      exact mul_lt_mul_of_pos_right (by exact_mod_cast hs) (zpow_pos two_pos _)
    have := (zpow_lt_zpow_iff_right₀ (one_lt_two (α := ℚ))).mp ((hlow (by omega)).trans_lt hbits)
    omega
  obtain ⟨k, hk⟩ := Int.eq_ofNat_of_zero_le (sub_nonneg.mpr hscale)
  have hwhole : (n : ℚ) / d / 2 ^ scale n d = (s * 2 ^ k : ℕ) := by
    rw [h, mul_div_assoc, ← zpow_sub₀ two_ne_zero, hk]
    push_cast
    rfl
  rw [toRat_round hn, roundToEven_eq (unit_pos hd _) (k := s * 2 ^ k), ← hwhole,
    div_mul_cancel₀ _ (two_zpow_pos _).ne']
  rw [unit_ratio hd, hwhole]
  simp

/-- A magnitude with all of its 53 bits, and with room below it. -/
structure Normal (m : Magnitude) : Prop where
  low : 2 ^ 52 ≤ m.significand
  high : m.significand < 2 ^ 53
  minExponent_lt : minExponent < m.exponent

theorem Normal.toRat_bounds {m : Magnitude} (h : m.Normal) :
    2 ^ 52 * (2 : ℚ) ^ m.exponent ≤ m.toRat ∧ m.toRat < 2 ^ 53 * (2 : ℚ) ^ m.exponent := by
  have hunit : (0 : ℚ) < 2 ^ m.exponent := zpow_pos two_pos _
  have hlow : (2 : ℚ) ^ 52 ≤ m.significand := by exact_mod_cast h.low
  have hhigh : (m.significand : ℚ) < 2 ^ 53 := by exact_mod_cast h.high
  exact ⟨mul_le_mul_of_nonneg_right hlow hunit.le, mul_lt_mul_of_pos_right hhigh hunit⟩

theorem Normal.toRat_pos {m : Magnitude} (h : m.Normal) : 0 < m.toRat :=
  lt_of_lt_of_le (mul_pos (by norm_num) (zpow_pos two_pos _)) h.toRat_bounds.1

/-- The exponent is the only one at which the magnitude has 53 bits. -/
theorem Normal.exponent_eq {m : Magnitude} (h : m.Normal) {e : ℤ}
    (hlow : (2 ^ 53 - 1) * (2 : ℚ) ^ (e - 1) < m.toRat) (hhigh : m.toRat < 2 ^ 53 * (2 : ℚ) ^ e) :
    m.exponent = e := by
  have habove : m.exponent < e + 1 := by
    have hlt : (2 : ℚ) ^ m.exponent < 2 ^ (e + 1) := by
      have hbits := h.toRat_bounds.1
      rw [zpow_add_one₀ two_ne_zero]
      linarith
    exact (zpow_lt_zpow_iff_right₀ one_lt_two).mp hlt
  by_contra hne
  have hunit : (2 : ℚ) ^ m.exponent ≤ 2 ^ (e - 1) := zpow_le_zpow_right₀ one_le_two (by omega)
  have hbits : (m.significand : ℚ) + 1 ≤ 2 ^ 53 := by exact_mod_cast h.high
  have hsmall : m.toRat ≤ (2 ^ 53 - 1) * 2 ^ (e - 1) :=
    mul_le_mul (by linarith) hunit (two_zpow_pos _).le (by norm_num)
  exact absurd hlow (not_lt.mpr hsmall)

/-- A quotient that is not too small is rounded to all of its bits. -/
theorem round_normal {n d : ℕ} (hn : 0 < n) (hd : 0 < d)
    (hnormal : (2 : ℚ) ^ (-1021 : ℤ) ≤ n / d) : (round n d).Normal := by
  obtain ⟨hlow, hhigh⟩ := units_bounds hn hd hnormal
  have hmin := lt_scale hn hd hnormal
  have hround := abs_le.mp (units_spec n hd (scale n d)).1
  rw [round, if_neg hn.ne']
  simp only
  generalize roundToEven (n * Nat.pow 2 (-scale n d).toNat) (d * Nat.pow 2 (scale n d).toNat) = s
    at hround
  have hs : 2 ^ 52 ≤ s := by
    have : (2 : ℚ) ^ 52 < (s + 1 : ℕ) := by
      push_cast
      linarith [hround.1]
    have : 2 ^ 52 < s + 1 := by exact_mod_cast this
    omega
  have hs' : s ≤ 2 ^ 53 := by
    have : (s : ℚ) < (2 ^ 53 + 1 : ℕ) := by
      push_cast
      linarith [hround.2]
    have : s < 2 ^ 53 + 1 := by exact_mod_cast this
    omega
  split
  · have hhalf : significandLimit / 2 = 2 ^ 52 := by decide
    exact ⟨hhalf.ge, hhalf.trans_lt (by norm_num), hmin.trans (Int.lt_add_one_iff.mpr le_rfl)⟩
  · next h => exact ⟨hs, lt_of_le_of_ne hs' h, hmin⟩

/-! ### Arithmetic -/

/-- The magnitude is what a number is rounded to. -/
def Rounds (q : ℚ) (m : Magnitude) : Prop := ∃ n d : ℕ, 0 < d ∧ (n : ℚ) / d = q ∧ m = round n d

variable {q : ℚ} {m : Magnitude}

theorem num_pos_of_div_pos {n d : ℕ} (hq : 0 < (n : ℚ) / d) : 0 < n := by
  refine Nat.pos_of_ne_zero fun h ↦ ?_
  rw [h, Nat.cast_zero, zero_div] at hq
  exact lt_irrefl 0 hq

theorem Rounds.abs_sub_le (h : Rounds q m) (hq : (2 : ℚ) ^ (-1021 : ℤ) ≤ q) :
    |m.toRat - q| ≤ q / 2 ^ 53 := by
  obtain ⟨n, d, hd, rfl, rfl⟩ := h
  exact abs_round_sub_le (num_pos_of_div_pos ((two_zpow_pos _).trans_le hq)) hd hq

theorem Rounds.normal (h : Rounds q m) (hq : (2 : ℚ) ^ (-1021 : ℤ) ≤ q) : m.Normal := by
  obtain ⟨n, d, hd, rfl, rfl⟩ := h
  exact round_normal (num_pos_of_div_pos ((two_zpow_pos _).trans_le hq)) hd hq

theorem round_exponent {n d : ℕ} (hn : 0 < n) :
    (round n d).exponent = scale n d ∨ (round n d).exponent = scale n d + 1 := by
  rw [round, if_neg hn.ne']
  simp only
  split
  · exact .inr rfl
  · exact .inl rfl

/-- The exponent of what is rounded, by powers of two on both sides of it. -/
theorem Rounds.le_exponent (h : Rounds q m) {k : ℤ} (hlow : (2 : ℚ) ^ k ≤ q) :
    k - 52 ≤ m.exponent := by
  obtain ⟨n, d, hd, rfl, rfl⟩ := h
  have hn := num_pos_of_div_pos ((two_zpow_pos k).trans_le hlow)
  have hlt := (zpow_lt_zpow_iff_right₀ one_lt_two).mp (hlow.trans_lt (scale_bounds hn hd).2.1)
  rcases round_exponent (d := d) hn with he | he <;> omega

theorem Rounds.exponent_le (h : Rounds q m) (hq : (2 : ℚ) ^ (-1021 : ℤ) ≤ q) {k : ℤ}
    (hhigh : q < 2 ^ k) : m.exponent ≤ k - 52 := by
  obtain ⟨n, d, hd, rfl, rfl⟩ := h
  have hn := num_pos_of_div_pos ((two_zpow_pos _).trans_le hq)
  have hlow := (scale_bounds hn hd).2.2 (lt_scale hn hd hq)
  have hlt := (zpow_lt_zpow_iff_right₀ one_lt_two).mp (hlow.trans_lt hhigh)
  rcases round_exponent (d := d) hn with he | he <;> omega

/-- The error of rounding a number below a power of two. -/
theorem Rounds.abs_sub_le_of_lt (h : Rounds q m) (hq : (2 : ℚ) ^ (-1021 : ℤ) ≤ q) {k : ℤ}
    (hhigh : q < 2 ^ k) : |m.toRat - q| ≤ 2 ^ k / 2 ^ 54 := by
  obtain ⟨n, d, hd, rfl, rfl⟩ := h
  have hn := num_pos_of_div_pos ((two_zpow_pos _).trans_le hq)
  have hlow := (scale_bounds hn hd).2.2 (lt_scale hn hd hq)
  have hlt := (zpow_lt_zpow_iff_right₀ one_lt_two).mp (hlow.trans_lt hhigh)
  have hunit : (2 : ℚ) ^ scale n d ≤ 2 ^ (k - 53) :=
    zpow_le_zpow_right₀ one_le_two (by omega)
  rw [zpow_sub₀ two_ne_zero] at hunit
  have hhalf := abs_round_sub_le_half hn hd
  norm_num at hunit hhalf ⊢
  linarith

theorem Rounds.toRat_eq (h : Rounds q m) (hq : 0 < q) {s : ℕ} {e : ℤ} (hs : s < 2 ^ 53)
    (he : minExponent ≤ e) (hbits : q = s * 2 ^ e) : m.toRat = q := by
  obtain ⟨n, d, hd, rfl, rfl⟩ := h
  exact toRat_round_eq (num_pos_of_div_pos hq) hd hs he hbits

theorem rounds_ofNat (n : ℕ) : Rounds n (ofNat n) := ⟨n, 1, one_pos, by simp, rfl⟩

theorem rounds_add (a b : Magnitude) : Rounds (a.toRat + b.toRat) (a.add b) := by
  refine ⟨_, _, Nat.mul_pos a.den_pos b.den_pos, ?_, rfl⟩
  have ha : (a.den : ℚ) ≠ 0 := Nat.cast_ne_zero.mpr a.den_pos.ne'
  have hb : (b.den : ℚ) ≠ 0 := Nat.cast_ne_zero.mpr b.den_pos.ne'
  rw [← num_div_den, ← num_div_den]
  push_cast
  field_simp

theorem rounds_mul (a b : Magnitude) : Rounds (a.toRat * b.toRat) (a.mul b) := by
  refine ⟨_, _, Nat.mul_pos a.den_pos b.den_pos, ?_, rfl⟩
  rw [← num_div_den, ← num_div_den, div_mul_div_comm]
  push_cast
  rfl

theorem rounds_div (a : Magnitude) {b : Magnitude} (hb : 0 < b.toRat) :
    Rounds (a.toRat / b.toRat) (a.div b) := by
  have hnum : 0 < b.num := by
    rw [← num_div_den] at hb
    exact num_pos_of_div_pos hb
  refine ⟨_, _, Nat.mul_pos a.den_pos hnum, ?_, rfl⟩
  rw [← num_div_den, ← num_div_den, div_div_div_eq]
  push_cast
  rfl

/-- Whole numbers of 53 bits are exact, and the next one is. -/
theorem toRat_ofNat {n : ℕ} (h : n ≤ 2 ^ 53) : (ofNat n).toRat = n := by
  rcases Nat.eq_zero_or_pos n with rfl | hn
  · rw [ofNat, round, if_pos rfl, toRat, zero]
    simp
  have hn' : (0 : ℚ) < n := Nat.cast_pos.mpr hn
  rcases lt_or_eq_of_le h with hlt | rfl
  · exact (rounds_ofNat n).toRat_eq hn' hlt (by decide : minExponent ≤ 0) (by simp)
  · exact (rounds_ofNat _).toRat_eq hn' (by decide : 2 ^ 52 < 2 ^ 53) (by decide : minExponent ≤ 1)
      (by norm_num)

theorem abs_ofNat_sub_le (n : ℕ) : |(ofNat n).toRat - n| ≤ n / 2 ^ 53 := by
  rcases Nat.eq_zero_or_pos n with rfl | hn
  · rw [toRat_ofNat (by decide)]
    simp
  · have hone : (1 : ℚ) ≤ n := by exact_mod_cast hn
    exact (rounds_ofNat n).abs_sub_le
      ((zpow_le_one_of_nonpos₀ one_le_two (by decide)).trans hone)

/-- What is rounded to a number of at least two is not small. -/
theorem Rounds.one_le (h : Rounds q m) (hm : 2 ≤ m.toRat) : 1 ≤ q := by
  obtain ⟨n, d, hd, rfl, rfl⟩ := h
  rcases Nat.eq_zero_or_pos n with rfl | hn
  · rw [round, if_pos rfl, toRat, zero] at hm
    norm_num at hm
  by_contra hlt
  have hscale : scale n d ≤ -53 := by
    by_contra hlarge
    have hlow := (scale_bounds hn hd).2.2 (by unfold minExponent; omega)
    have := (zpow_lt_zpow_iff_right₀ (one_lt_two (α := ℚ))).mp
      (hlow.trans_lt ((not_le.mp hlt).trans_eq (zpow_zero 2).symm))
    omega
  have hunit : (2 : ℚ) ^ scale n d ≤ 2 ^ (0 : ℤ) := zpow_le_zpow_right₀ one_le_two (by omega)
  have hround := (abs_le.mp (abs_round_sub_le_half hn hd)).2
  rw [zpow_zero] at hunit
  linarith

theorem Rounds.normal_of_two_le (h : Rounds q m) (hm : 2 ≤ m.toRat) : m.Normal :=
  h.normal ((zpow_le_one_of_nonpos₀ one_le_two (by decide)).trans (h.one_le hm))

/-- Powers of ten are exact as long as the power of five has 53 bits. -/
theorem toRat_ofNat_pow_ten {k : ℕ} (h : k ≤ 22) : (ofNat (10 ^ k)).toRat = 10 ^ k := by
  have hfive : 5 ^ k < 2 ^ 53 :=
    (Nat.pow_le_pow_right (by decide) h).trans_lt (by norm_num : 5 ^ 22 < 2 ^ 53)
  have hcast : ((10 ^ k : ℕ) : ℚ) = 10 ^ k := by norm_num
  rw [← hcast]
  refine (rounds_ofNat (10 ^ k)).toRat_eq (Nat.cast_pos.mpr (Nat.pow_pos (by decide))) hfive
    (by unfold minExponent; omega : minExponent ≤ (k : ℤ)) ?_
  rw [zpow_natCast]
  push_cast
  rw [← mul_pow]
  norm_num

end Magnitude

end SerialLine

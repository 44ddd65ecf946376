import SerialLine.Settings.Seconds
import SerialLine.Proofs.Binary64.Nearest
/-!
# Timeouts in seconds

A timeout is written as the sum of its whole seconds and of its nanoseconds divided by a billion.
The quotient is rounded, and the sum once more. Below one second the sum is exact, and from 2²⁰
seconds on the first rounding is too fine to matter, so that the result is the number nearest to the
timeout (`nearest_magnitude_of_subsecond`, `nearest_magnitude_of_long`); everywhere else it is
within one and a half units of the last place (`abs_magnitude_sub_le`).
-/

set_option autoImplicit false

namespace SerialLine

namespace Duration

/-- The exact number of seconds. -/
def toRat (t : Duration) : ℚ := t.nanos / 10 ^ 9

/-- The nanoseconds beyond the whole seconds, as they are written. -/
def fraction (t : Duration) : Magnitude :=
  (Magnitude.ofNat t.subsecond).div (Magnitude.ofNat nanosPerSecond)

variable {t : Duration}

theorem toRat_mul (t : Duration) : t.toRat * 10 ^ 9 = t.nanos := by
  rw [toRat, div_mul_cancel₀ _ (by norm_num)]

theorem toRat_eq_add (t : Duration) : t.toRat = t.seconds + t.subsecond / 10 ^ 9 := by
  have hnanos : (t.nanos : ℚ) = 10 ^ 9 * t.seconds + t.subsecond := by
    exact_mod_cast (Nat.div_add_mod t.nanos nanosPerSecond).symm
  rw [toRat, hnanos]
  field_simp

theorem subsecond_lt (t : Duration) : t.subsecond < nanosPerSecond := Nat.mod_lt _ (by decide)

theorem fraction_rounds (t : Duration) : t.fraction.Rounds (t.subsecond / 10 ^ 9) := by
  have hlt := t.subsecond_lt
  have hunit : (Magnitude.ofNat nanosPerSecond).toRat = 10 ^ 9 := by
    rw [Magnitude.toRat_ofNat (by decide)]
    norm_num [nanosPerSecond]
  have hround := Magnitude.rounds_div (Magnitude.ofNat t.subsecond) (b := .ofNat nanosPerSecond)
    (by rw [hunit]; norm_num)
  rwa [hunit, Magnitude.toRat_ofNat (hlt.le.trans (by decide))] at hround

/-- The bounds of a part of a second. -/
theorem subsecond_bounds (t : Duration) : (t.subsecond : ℚ) / 10 ^ 9 ≤ 1 - 1 / 10 ^ 9 ∧
    (0 < t.subsecond → 1 / 10 ^ 9 ≤ (t.subsecond : ℚ) / 10 ^ 9) := by
  have hlt : (t.subsecond : ℚ) + 1 ≤ 10 ^ 9 := by exact_mod_cast t.subsecond_lt
  refine ⟨?_, fun h ↦ ?_⟩
  · have hscale : ((1 : ℚ) - 1 / 10 ^ 9) * 10 ^ 9 = 10 ^ 9 - 1 := by norm_num
    rw [div_le_iff₀ (by norm_num), hscale]
    linarith
  · have hone : (1 : ℚ) ≤ t.subsecond := by exact_mod_cast h
    exact div_le_div_of_nonneg_right hone (by norm_num)

/-- The exact number of seconds is less than one above the whole seconds. -/
theorem toRat_bounds (t : Duration) : t.seconds ≤ t.toRat ∧ t.toRat < t.seconds + 1 := by
  have hpart : 0 ≤ (t.subsecond : ℚ) / 10 ^ 9 := by positivity
  have hbelow := t.subsecond_bounds.1
  rw [toRat_eq_add]
  norm_num at hbelow
  constructor <;> linarith

theorem two_pow_le_billionth : (2 : ℚ) ^ (-1021 : ℤ) ≤ 1 / 10 ^ 9 :=
  (zpow_le_zpow_right₀ one_le_two (by decide : (-1021 : ℤ) ≤ -30)).trans (by norm_num)

theorem fraction_zero (h : t.subsecond = 0) : t.fraction.toRat = 0 := by
  have : t.fraction = Magnitude.zero := by
    rw [fraction, h]
    decide +kernel
  rw [this]
  simp [Magnitude.toRat, Magnitude.zero]

/-- The part of a second is written as what is nearest to it. -/
theorem abs_fraction_sub_le (t : Duration) :
    |t.fraction.toRat - t.subsecond / 10 ^ 9| ≤ 1 / 2 ^ 54 := by
  rcases Nat.eq_zero_or_pos t.subsecond with hzero | hpos
  · rw [fraction_zero hzero, hzero]
    norm_num
  · have hbounds := t.subsecond_bounds
    have hround := t.fraction_rounds.abs_sub_le_of_lt (k := 0)
      (two_pow_le_billionth.trans (hbounds.2 hpos)) (by norm_num at hbounds ⊢; linarith [hbounds.1])
    simpa using hround

theorem magnitude_rounds (t : Duration) :
    t.magnitude.Rounds ((Magnitude.ofNat t.seconds).toRat + t.fraction.toRat) :=
  Magnitude.rounds_add _ _

theorem two_pow_le_sum (h : 0 < t.seconds) :
    (2 : ℚ) ^ (-1021 : ℤ) ≤ (Magnitude.ofNat t.seconds).toRat + t.fraction.toRat := by
  have hone : (1 : ℚ) ≤ t.seconds := by exact_mod_cast h
  have hseconds := (abs_le.mp (Magnitude.abs_ofNat_sub_le t.seconds)).1
  have hnonneg := t.fraction.toRat_nonneg
  have hbillionth := two_pow_le_billionth
  norm_num at hseconds
  linarith

theorem magnitude_normal (h : 0 < t.seconds) : t.magnitude.Normal :=
  t.magnitude_rounds.normal (two_pow_le_sum h)

/-- The error of the sum: at most three parts in 2⁵³. -/
theorem abs_magnitude_sub_le (h : 0 < t.seconds) :
    |t.magnitude.toRat - t.toRat| ≤ 3 * t.toRat / 2 ^ 53 := by
  have hone : (1 : ℚ) ≤ t.seconds := by exact_mod_cast h
  have hseconds := Magnitude.abs_ofNat_sub_le t.seconds
  have hfraction := t.abs_fraction_sub_le
  have hnonneg := t.fraction.toRat_nonneg
  have hpart : 0 ≤ (t.subsecond : ℚ) / 10 ^ 9 := by positivity
  have hsum := t.magnitude_rounds.abs_sub_le (two_pow_le_sum h)
  rw [toRat_eq_add]
  generalize (t.subsecond : ℚ) / 10 ^ 9 = part at hfraction hpart ⊢
  rw [abs_le] at hseconds hfraction hsum ⊢
  norm_num at hseconds hfraction hsum ⊢
  constructor <;> linarith [hseconds.1, hseconds.2, hfraction.1, hfraction.2, hsum.1, hsum.2]

/-- Of timeouts of less than a power of two of seconds, the sum is off by half a unit of the last
place, and by what the part of a second is off. -/
theorem abs_magnitude_sub_le_of_lt (h : 0 < t.seconds) {k : ℕ} (hk : k ≤ 53)
    (hlt : t.seconds < 2 ^ k) :
    |t.magnitude.toRat - t.toRat| ≤ 2 ^ k / 2 ^ 54 + 1 / 2 ^ 54 := by
  have hseconds : (Magnitude.ofNat t.seconds).toRat = t.seconds :=
    Magnitude.toRat_ofNat (hlt.le.trans (Nat.pow_le_pow_right two_pos hk))
  have hbelow : (t.seconds : ℚ) + 1 ≤ 2 ^ k := by exact_mod_cast hlt
  have hfraction := t.abs_fraction_sub_le
  have hpart := t.subsecond_bounds.1
  have hround := t.magnitude_rounds
  have hnormal := two_pow_le_sum h
  rw [hseconds] at hround hnormal
  have hsum := hround.abs_sub_le_of_lt (k := k) hnormal
    (by
      rw [zpow_natCast]
      have := (abs_le.mp hfraction).2
      norm_num at this hpart
      linarith)
  rw [zpow_natCast] at hsum
  rw [toRat_eq_add, ← sub_add_sub_cancel _ (t.seconds + t.fraction.toRat : ℚ)]
  refine (abs_add_le _ _).trans (add_le_add hsum ?_)
  rwa [add_sub_add_left_eq_sub]

/-! ### Timeouts of less than a second -/

/-- Without whole seconds nothing is rounded again. -/
theorem nearest_magnitude_of_subsecond (h : t.seconds = 0) (hpos : 0 < t.nanos) :
    t.magnitude.Normal ∧ t.magnitude.Nearest t.toRat ∧
      |t.magnitude.toRat - t.toRat| ≤ 1 / 2 ^ 54 := by
  have hsub : 0 < t.subsecond := by
    have hnanos := Nat.div_add_mod t.nanos nanosPerSecond
    unfold seconds at h
    rw [h, mul_zero, zero_add] at hnanos
    rwa [subsecond, hnanos]
  have hlow := two_pow_le_billionth.trans (t.subsecond_bounds.2 hsub)
  have hnormal := t.fraction_rounds.normal hlow
  have hsame : t.magnitude = t.fraction := by
    have hround := t.magnitude_rounds
    rw [h, Magnitude.toRat_ofNat (by decide), Nat.cast_zero, zero_add] at hround
    exact (Magnitude.nearest_self hnormal).eq_of_rounds hnormal hround
  rw [hsame, toRat_eq_add, h, Nat.cast_zero, zero_add]
  exact ⟨hnormal, t.fraction_rounds.nearest hlow, t.abs_fraction_sub_le⟩

/-! ### Long timeouts -/

/-- A part of a second that is a multiple of `2⁻³³` has so few bits that it is not rounded. -/
theorem fraction_exact {j : ℤ} (h : (t.subsecond : ℚ) / 10 ^ 9 = j / 2 ^ 33) :
    t.fraction.toRat = t.subsecond / 10 ^ 9 := by
  rcases Nat.eq_zero_or_pos t.subsecond with hzero | hpos
  · rw [fraction_zero hzero, hzero]
    norm_num
  · have hpart : 0 < (t.subsecond : ℚ) / 10 ^ 9 := by positivity
    have hbelow : (j : ℚ) < (2 ^ 33 : ℤ) := by
      have hlt := t.subsecond_bounds.1
      rw [h, div_le_iff₀ (by norm_num)] at hlt
      push_cast
      norm_num at hlt ⊢
      linarith
    have habove : (0 : ℚ) < j := (div_pos_iff_of_pos_right (by norm_num)).mp (h ▸ hpart)
    obtain ⟨s, rfl⟩ := Int.eq_ofNat_of_zero_le (Int.cast_pos.mp habove).le
    refine t.fraction_rounds.toRat_eq hpart (s := s) (e := -33) ?_ (by decide) ?_
    · have hlt := Int.cast_lt.mp hbelow
      omega
    · rw [h, zpow_neg, div_eq_mul_inv]
      norm_num

/-- The least distance of a timeout from a multiple of `2⁻³³` that it is not. -/
theorem lt_of_pos_multiple {z : ℤ} (h : 0 < (z : ℚ) / (2 ^ 24 * 10 ^ 9)) :
    1 / 2 ^ 54 < (z : ℚ) / (2 ^ 24 * 10 ^ 9) := by
  have hpos : (0 : ℚ) < z := (div_pos_iff_of_pos_right (by norm_num)).mp h
  have hone : (1 : ℚ) ≤ z := by exact_mod_cast Int.add_one_le_iff.mpr (Int.cast_pos.mp hpos)
  rw [lt_div_iff₀ (by norm_num)]
  norm_num
  linarith

/-- A timeout and the sum that is rounded for it lie on the same side of every multiple of `2⁻³³`,
because a timeout that is no such multiple is farther away from it than the part of a second is
off. -/
theorem compare_multiple (t : Duration) (j : ℤ) :
    (t.toRat < j / 2 ^ 33 ↔ t.seconds + t.fraction.toRat < j / 2 ^ 33) ∧
      (j / 2 ^ 33 < t.toRat ↔ j / 2 ^ 33 < t.seconds + t.fraction.toRat) := by
  have hnear : |t.seconds + t.fraction.toRat - t.toRat| ≤ 1 / 2 ^ 54 := by
    rw [toRat_eq_add, add_sub_add_left_eq_sub]
    exact t.abs_fraction_sub_le
  obtain ⟨hlow, hhigh⟩ := abs_le.mp hnear
  obtain ⟨x, hx⟩ : ∃ x : ℤ, (j : ℚ) / 2 ^ 33 - t.toRat = x / (2 ^ 24 * 10 ^ 9) := by
    refine ⟨j * 5 ^ 9 - t.nanos * 2 ^ 24, ?_⟩
    rw [toRat]
    push_cast
    ring
  rcases lt_trichotomy t.toRat (j / 2 ^ 33) with h | h | h
  · have hfar := lt_of_pos_multiple (hx ▸ sub_pos.mpr h)
    have hsum : t.seconds + t.fraction.toRat < j / 2 ^ 33 := by linarith
    exact ⟨iff_of_true h hsum, iff_of_false h.not_gt hsum.not_gt⟩
  · have hpart : (t.subsecond : ℚ) / 10 ^ 9 = (j - t.seconds * 2 ^ 33 : ℤ) / 2 ^ 33 := by
      rw [toRat_eq_add] at h
      rw [eq_sub_of_add_eq' h]
      push_cast
      ring
    have hsum : t.seconds + t.fraction.toRat = j / 2 ^ 33 := by
      rw [fraction_exact hpart, ← toRat_eq_add, h]
    exact ⟨iff_of_false h.not_lt hsum.not_lt, iff_of_false h.not_gt hsum.not_gt⟩
  · have hneg : t.toRat - j / 2 ^ 33 = (-x : ℤ) / (2 ^ 24 * 10 ^ 9) := by
      rw [← neg_sub, hx]
      push_cast
      ring
    have hfar := lt_of_pos_multiple (hneg ▸ sub_pos.mpr h)
    have hsum : j / 2 ^ 33 < t.seconds + t.fraction.toRat := by linarith
    exact ⟨iff_of_false h.not_gt hsum.not_gt, iff_of_true h hsum⟩

theorem exists_multiple (n : ℤ) {e : ℤ} (he : -33 ≤ e) : ∃ j : ℤ, (n : ℚ) * 2 ^ e = j / 2 ^ 33 := by
  obtain ⟨k, hk⟩ := Int.eq_ofNat_of_zero_le (by omega : 0 ≤ e + 33)
  refine ⟨n * 2 ^ k, ?_⟩
  rw [eq_sub_of_add_eq hk, zpow_sub₀ two_ne_zero, zpow_natCast]
  push_cast
  rw [mul_div_assoc]
  rfl

/-- The upper end of the interval of a large enough magnitude is a multiple of `2⁻³³`. -/
theorem high_multiple {m : Magnitude} (h : -32 ≤ m.exponent) :
    ∃ j : ℤ, m.quarters.2 * (2 : ℚ) ^ (m.exponent - 2) = j / 2 ^ 33 := by
  obtain ⟨j, hj⟩ := exists_multiple (2 * m.significand + 1) (by omega : -33 ≤ m.exponent - 1)
  refine ⟨j, hj ▸ ?_⟩
  rw [Magnitude.quarters_snd, zpow_sub₀ two_ne_zero, zpow_sub_one₀ two_ne_zero]
  push_cast
  ring

/-- So is the lower end, but for the one right below 2²⁰. -/
theorem low_multiple {m : Magnitude} (hm : m.Normal) (h : -32 ≤ m.exponent) :
    m.quarters.1 * (2 : ℚ) ^ (m.exponent - 2) < 2 ^ 20 ∨
      ∃ j : ℤ, m.quarters.1 * (2 : ℚ) ^ (m.exponent - 2) = j / 2 ^ 33 := by
  rw [Magnitude.quarters_fst hm]
  split
  · next hpower =>
    rcases eq_or_lt_of_le h with hedge | hlarge
    · left
      rw [hpower, ← hedge]
      norm_num
    · obtain ⟨j, hj⟩ := exists_multiple (4 * m.significand - 1) (by omega : -33 ≤ m.exponent - 2)
      refine .inr ⟨j, hj ▸ ?_⟩
      push_cast
      rfl
  · obtain ⟨j, hj⟩ := exists_multiple (2 * m.significand - 1) (by omega : -33 ≤ m.exponent - 1)
    refine .inr ⟨j, hj ▸ ?_⟩
    rw [zpow_sub₀ two_ne_zero, zpow_sub_one₀ two_ne_zero]
    push_cast
    ring

/-- From 2²⁰ seconds on the sum is rounded to the number nearest to the timeout. -/
theorem nearest_magnitude_of_long (h : 2 ^ 20 ≤ t.seconds) (hlt : t.seconds < 2 ^ 53) :
    t.magnitude.Normal ∧ t.magnitude.Nearest t.toRat := by
  have hround := t.magnitude_rounds
  have hnormal := two_pow_le_sum (lt_of_lt_of_le (by decide) h)
  rw [Magnitude.toRat_ofNat hlt.le] at hround hnormal
  have hlong : (2 : ℚ) ^ 20 ≤ t.seconds := by exact_mod_cast h
  have hm := hround.normal hnormal
  have hexponent : -32 ≤ t.magnitude.exponent := by
    have hnonneg := t.fraction.toRat_nonneg
    have := hround.le_exponent (k := 20) (by rw [zpow_ofNat]; linarith)
    omega
  have hnearest := hround.nearest hnormal
  -- The sum lies in the interval, and the timeout is on the same side of both ends.
  have hsame : ∀ {x : ℚ}, (∃ j : ℤ, x = j / 2 ^ 33) →
      (t.toRat < x ↔ t.seconds + t.fraction.toRat < x) ∧
        (x < t.toRat ↔ x < t.seconds + t.fraction.toRat) := by
    rintro _ ⟨j, rfl⟩
    exact t.compare_multiple j
  have hhigh := hsame (high_multiple hexponent)
  have hlow := (low_multiple hm hexponent).imp_left fun hbelow ↦
    hbelow.trans_le (hlong.trans t.toRat_bounds.1)
  refine ⟨hm, ?_⟩
  rw [Magnitude.nearest_iff_ends] at hnearest ⊢
  split
  · next heven =>
    rw [if_pos heven] at hnearest
    refine ⟨?_, not_lt.mp fun hlt ↦ hnearest.2.not_gt (hhigh.2.mp hlt)⟩
    exact hlow.elim le_of_lt fun hj ↦ not_lt.mp fun hlt ↦ hnearest.1.not_gt ((hsame hj).1.mp hlt)
  · next hodd =>
    rw [if_neg hodd] at hnearest
    exact ⟨hlow.elim id fun hj ↦ (hsame hj).2.mpr hnearest.1, hhigh.1.mpr hnearest.2⟩

/-! ### Seconds that are read -/

theorem ofBinary64_finite (z : Magnitude) : ofBinary64 (.finite false z) =
    if roundToEven (z.num * nanosPerSecond) z.den < secondsLimit * nanosPerSecond then
      .ok ⟨roundToEven (z.num * nanosPerSecond) z.den⟩ else .error .timeoutRange := by
  simp only [ofBinary64, Bool.false_eq_true, false_and, if_false]

theorem nanos_ratio (z : Magnitude) :
    ((z.num * nanosPerSecond : ℕ) : ℚ) / z.den = z.toRat * 10 ^ 9 := by
  rw [← Magnitude.num_div_den, Nat.cast_mul, mul_div_right_comm]
  norm_num [nanosPerSecond]

/-- Less than half a nanosecond does not matter. -/
theorem ofBinary64_of_near {z : Magnitude} (h : |z.toRat - t.toRat| < 1 / 2 / 10 ^ 9)
    (hlimit : t.nanos < secondsLimit * nanosPerSecond) : ofBinary64 (.finite false z) = .ok t := by
  have hround : roundToEven (z.num * nanosPerSecond) z.den = t.nanos := by
    refine roundToEven_eq z.den_pos ?_
    rw [nanos_ratio, ← t.toRat_mul, ← sub_mul, abs_mul, abs_of_pos (by norm_num : (0 : ℚ) < 10 ^ 9)]
    exact (lt_div_iff₀ (by norm_num)).mp h
  rw [ofBinary64_finite, hround, if_pos hlimit]

/-- Seconds below the limit are accepted, and rounded to the nearest nanosecond. -/
theorem ofBinary64_of_lt {z : Magnitude}
    (h : z.toRat * 10 ^ 9 + 1 / 2 < (secondsLimit * nanosPerSecond : ℕ)) :
    ∃ t' : Duration, ofBinary64 (.finite false z) = .ok t' ∧
      |(t'.nanos : ℚ) - z.toRat * 10 ^ 9| ≤ 1 / 2 := by
  have hround := (roundToEven_spec (z.num * nanosPerSecond) z.den_pos).1
  rw [nanos_ratio] at hround
  have hlimit : roundToEven (z.num * nanosPerSecond) z.den < secondsLimit * nanosPerSecond := by
    have hbelow := (abs_le.mp hround).2
    have : (roundToEven (z.num * nanosPerSecond) z.den : ℚ) < (secondsLimit * nanosPerSecond : ℕ) := by
      linarith
    exact Nat.cast_lt.mp this
  exact ⟨_, (ofBinary64_finite z).trans (if_pos hlimit), hround⟩

end Duration

end SerialLine

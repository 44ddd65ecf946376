import SerialLine.Proofs.Config.Reload
import SerialLine.Proofs.Json.Decimals
import SerialLine.Proofs.Json.Results
import SerialLine.Proofs.Settings.Seconds
/-!
# Timeouts that are saved and loaded

A timeout is saved as a number of seconds and read back from its digits (`Duration.RereadAs`). Up to
2²³ seconds the chain of roundings stays within half a nanosecond, so every timeout comes back
(`Duration.rereadAs_self_of_seconds`). Above that, up to 2⁵³ nanoseconds, those come back that have
come from a number themselves (`Duration.rereadAs_self_of_read`): the number is written with at most
sixteen digits that fit 53 bits, and is read back exactly. Still longer timeouts are accepted again
and move by less than a part in 2⁵⁰ (`Duration.exists_rereadAs_of_long`).

A configuration that has been read holds such a timeout, so it can be saved and loaded with no other
change (`Config.reload_ofJson`). The bound is no accident of the proof: 21 nanoseconds above it
there is a timeout that moves (`Config.reload_moves_timeout`).
-/

set_option autoImplicit false

namespace SerialLine

open Json (Reader Place Written numberLayout)

namespace Duration

variable {t t' : Duration}

/-- The text that a timeout is saved as is read as another timeout. -/
def RereadAs (t t' : Duration) : Prop :=
  ∀ place, (Duration.reader place).Takes (Written.float t.toBinary64).compact t'

/-- What is read of the text, and what comes of it. -/
theorem rereadAs_of_value {l : Json.Literal} {z : Magnitude}
    (hnumber : Json.IsNumber l (t.magnitude.text numberLayout).toList)
    (hvalue : l.value = .ok (.float (.finite false z)))
    (haccept : ofBinary64 (.finite false z) = .ok t') : t.RereadAs t' := by
  intro place
  have htext : (Written.float t.toBinary64).compact = (t.magnitude.text numberLayout).toList := by
    simp only [Written.float, Written.scalar, toBinary64, Binary64.text, Bool.false_eq_true,
      if_false, String.empty_append]
  rw [htext]
  have htakes : Reader.binary64.Takes (t.magnitude.text numberLayout).toList (.finite false z) :=
    (Json.Reader.anyNumber_takes_number hnumber hvalue).bind rfl
  refine htakes.bind ?_
  rw [haccept]
  rfl

/-- If a timeout is written as the number nearest to it, and the nanoseconds in that have at most 53
bits, the number is read back. -/
theorem value_of_nearest (hm : t.magnitude.Normal) (hnearest : t.magnitude.Nearest t.toRat)
    (hlow : (10 : ℚ) ^ (-10 : ℤ) ≤ t.magnitude.toRat) (hhigh : t.magnitude.toRat * 10 ^ 9 < 2 ^ 53) :
    ∃ l, Json.IsNumber l (t.magnitude.text numberLayout).toList ∧
      l.value = .ok (.float (.finite false t.magnitude)) := by
  have hdecimal : -10 ≤ t.magnitude.decimalExponent := Magnitude.le_decimalExponent hlow
  have hdecimal' : t.magnitude.decimalExponent < 7 := by
    refine Magnitude.decimalExponent_lt hm.toRat_pos ?_
    norm_num at hhigh ⊢
    linarith
  have hnanos : t.toRat = t.nanos * 10 ^ (-9 : ℤ) := by
    rw [toRat, zpow_neg, div_eq_mul_inv]
    rfl
  have hexponent := Magnitude.le_exponent_shortest .toEven hm (hnanos ▸ hnearest)
    (by omega : t.magnitude.decimalExponent - 16 ≤ -9)
  have hshort := Magnitude.shortest_shortens .toEven hm
  have hcoefficient : (t.magnitude.shortest .toEven).coefficient ≤ 2 ^ 53 := by
    have hnear := (abs_le.mp (hshort.nearest.abs_sub_le hm)).2
    have hbits := hm.toRat_bounds.1
    have hbelow := hshort.high
    suffices h : ((t.magnitude.shortest .toEven).coefficient : ℚ) < (2 ^ 53 + 1 : ℕ) from
      Nat.lt_succ_iff.mp (Nat.cast_lt.mp h)
    rw [Nat.cast_succ]
    rcases le_or_gt (-9) t.magnitude.decimalExponent with hlarge | hsmall
    · have hscaled :=
        Decimal.coefficient_mul_le (by omega : -9 ≤ (t.magnitude.shortest .toEven).exponent)
      norm_num at hscaled hhigh hbits hnear
      push_cast
      linarith
    · have hscaled :=
        Decimal.coefficient_mul_le (by omega : -10 ≤ (t.magnitude.shortest .toEven).exponent)
      have hnine : t.magnitude.decimalExponent + 1 = -9 := by omega
      rw [hnine] at hbelow
      norm_num at hscaled hbelow
      push_cast
      linarith
  have hsmall : t.magnitude.toRat < 2 ^ 49 := by
    norm_num at hhigh ⊢
    linarith
  obtain ⟨l, z, hnumber, hvalue, -, hexact⟩ :=
    Magnitude.text_reads_back hm (by omega) (by omega)
  rw [hexact hcoefficient hsmall] at hvalue
  exact ⟨l, hnumber, hvalue⟩

/-- The number that is read back of a timeout of at least a second. -/
theorem value_near (h : 0 < t.seconds) (hlimit : t.nanos < secondsLimit * nanosPerSecond) :
    ∃ l z, Json.IsNumber l (t.magnitude.text numberLayout).toList ∧
      l.value = .ok (.float (.finite false z)) ∧
        |z.toRat - t.magnitude.toRat| ≤ 7 * t.magnitude.toRat / 2 ^ 54 := by
  have hm := magnitude_normal h
  have herror := abs_le.mp (abs_magnitude_sub_le h)
  have hone : 1 ≤ t.toRat := (Nat.one_le_cast.mpr h).trans t.toRat_bounds.1
  have hbound : t.toRat < 2 ^ 64 := by
    rw [toRat, div_lt_iff₀ (by norm_num)]
    exact_mod_cast hlimit
  have hdecimal : -1 ≤ t.magnitude.decimalExponent := by
    refine Magnitude.le_decimalExponent ?_
    norm_num at herror ⊢
    linarith
  have hdecimal' : t.magnitude.decimalExponent < 21 := by
    refine Magnitude.decimalExponent_lt hm.toRat_pos ?_
    norm_num at herror hbound ⊢
    linarith
  have hdigits := (Magnitude.shortest_shortens .toEven hm).le_exponent
  obtain ⟨l, z, hnumber, hvalue, hnear, -⟩ :=
    Magnitude.text_reads_back hm (by omega) (by omega)
  exact ⟨l, z, hnumber, hvalue, hnear⟩

/-- Without whole seconds, the number is the one nearest to the timeout. -/
theorem rereadAs_self_of_subsecond (h : t.seconds = 0) (hpos : 0 < t.nanos) : t.RereadAs t := by
  obtain ⟨hm, hnearest, hnear⟩ := nearest_magnitude_of_subsecond h hpos
  have hbillionth : 1 / 10 ^ 9 ≤ t.toRat :=
    div_le_div_of_nonneg_right (Nat.one_le_cast.mpr hpos) (by norm_num)
  have hbelow := t.toRat_bounds.2
  rw [h, Nat.cast_zero, zero_add] at hbelow
  have hlimit : t.nanos < secondsLimit * nanosPerSecond :=
    ((Nat.div_lt_iff_lt_mul (by decide)).mp (h.trans_lt one_pos)).trans (by decide)
  obtain ⟨hnear', hnear''⟩ := abs_le.mp hnear
  obtain ⟨l, hnumber, hvalue⟩ := value_of_nearest hm hnearest
    (by
      norm_num at hbillionth hnear' ⊢
      linarith)
    (by
      norm_num at hbelow hnear''
      linarith)
  exact rereadAs_of_value hnumber hvalue (ofBinary64_of_near (hnear.trans_lt (by norm_num)) hlimit)

/-- Below 2²⁰ seconds all the errors together are less than half a nanosecond. -/
theorem rereadAs_self_of_short (hsome : 0 < t.seconds) (h : t.seconds < 2 ^ 20) : t.RereadAs t := by
  have hlimit : t.nanos < secondsLimit * nanosPerSecond :=
    ((Nat.div_lt_iff_lt_mul (by decide)).mp h).trans (by decide)
  have hbelow := t.toRat_bounds.2
  have hseconds : (t.seconds : ℚ) + 1 ≤ 2 ^ 20 := by exact_mod_cast h
  obtain ⟨l, z, hnumber, hvalue, hread⟩ := value_near hsome hlimit
  have hwritten := abs_magnitude_sub_le_of_lt hsome (by decide) h
  refine rereadAs_of_value hnumber hvalue (ofBinary64_of_near ?_ hlimit)
  rw [abs_lt]
  rw [abs_le] at hwritten hread
  norm_num at hwritten hread hseconds ⊢
  constructor <;> linarith [hwritten.1, hwritten.2, hread.1, hread.2]

/-- From there to 2²³ seconds the number is again the one nearest to the timeout, and its digits
fit. -/
theorem rereadAs_self_of_medium (hlong : 2 ^ 20 ≤ t.seconds) (h : t.seconds < 2 ^ 23) :
    t.RereadAs t := by
  have hlimit : t.nanos < secondsLimit * nanosPerSecond :=
    ((Nat.div_lt_iff_lt_mul (by decide)).mp h).trans (by decide)
  obtain ⟨habove, hbelow⟩ := t.toRat_bounds
  have hseconds : (t.seconds : ℚ) + 1 ≤ 2 ^ 23 := by exact_mod_cast h
  have hlong' : (2 : ℚ) ^ 20 ≤ t.seconds := by exact_mod_cast hlong
  obtain ⟨hm, hnearest⟩ := nearest_magnitude_of_long hlong (h.trans (by norm_num))
  have hnear := abs_magnitude_sub_le_of_lt (lt_of_lt_of_le (by decide) hlong) (by decide) h
  obtain ⟨hnear', hnear''⟩ := abs_le.mp hnear
  obtain ⟨l, hnumber, hvalue⟩ := value_of_nearest hm hnearest
    (by
      norm_num at hnear' ⊢
      linarith)
    (by
      norm_num at hseconds hnear'' ⊢
      linarith)
  exact rereadAs_of_value hnumber hvalue (ofBinary64_of_near (hnear.trans_lt (by norm_num)) hlimit)

/-- Below 2²³ seconds any timeout comes back to the nanosecond. -/
theorem rereadAs_self_of_seconds (h : t.seconds < 2 ^ 23) : t.RereadAs t := by
  rcases Nat.eq_zero_or_pos t.nanos with hzero | hpos
  · obtain rfl : t = ⟨0⟩ := by
      cases t
      exact congrArg Duration.mk hzero
    exact Duration.reader_takes (by decide +kernel)
  rcases Nat.eq_zero_or_pos t.seconds with hsubsecond | hsome
  · exact rereadAs_self_of_subsecond hsubsecond hpos
  rcases lt_or_ge t.seconds (2 ^ 20) with hshort | hlong
  · exact rereadAs_self_of_short hsome hshort
  · exact rereadAs_self_of_medium hlong h

/-! ### Timeouts that have been read -/

/-- Some rounded number of seconds is accepted as the timeout. -/
def IsRead (t : Duration) : Prop :=
  ∃ m : Magnitude, m.IsRounded ∧ ofBinary64 (.finite false m) = .ok t

/-- What is accepted is below the limit and within half a nanosecond. -/
theorem of_ofBinary64 {m : Magnitude} (h : ofBinary64 (.finite false m) = .ok t) :
    t.nanos = roundToEven (m.num * nanosPerSecond) m.den ∧
      t.nanos < secondsLimit * nanosPerSecond ∧ |m.toRat - t.toRat| ≤ 1 / 2 / 10 ^ 9 := by
  rw [ofBinary64_finite] at h
  split at h
  · next hlimit =>
    cases h
    refine ⟨rfl, hlimit, ?_⟩
    have hround := (roundToEven_spec (m.num * nanosPerSecond) m.den_pos).1
    rw [nanos_ratio, abs_sub_comm] at hround
    rw [toRat, le_div_iff₀ (by norm_num), ← abs_of_pos (by norm_num : (0 : ℚ) < 10 ^ 9), ← abs_mul,
      abs_of_pos (by norm_num : (0 : ℚ) < 10 ^ 9), sub_mul, div_mul_cancel₀ _ (by norm_num)]
    exact hround
  · cases h

/-- Between 2²³ seconds and 2⁵³ nanoseconds, half a nanosecond is less than half a unit of the last
place, which is `2⁻²⁹`. So a timeout is nearest to the number that it is read from. -/
theorem nearest_of_near {x : Magnitude} (hm : x.Normal) (hlong : 2 ^ 23 ≤ t.toRat)
    (hhigh : x.toRat * 10 ^ 9 < 2 ^ 53) (hnear : |x.toRat - t.toRat| ≤ 1 / 2 / 10 ^ 9) :
    x.Nearest t.toRat := by
  obtain ⟨hnear', hnear''⟩ := abs_le.mp hnear
  have hexponent : x.exponent = -29 := by
    refine hm.exponent_eq ?_ ?_
    · norm_num at hlong hnear' ⊢
      linarith
    · norm_num at hhigh ⊢
      linarith
  have hvalue : x.toRat = x.significand * 2 ^ (-29 : ℤ) := by rw [Magnitude.toRat, hexponent]
  have hunits : |t.toRat / 2 ^ (-29 : ℤ) - x.significand| < 1 / 2 := by
    rw [hvalue] at hnear' hnear''
    rw [abs_lt]
    norm_num at hnear' hnear'' ⊢
    constructor <;> linarith
  rw [Magnitude.nearest_iff hm, hexponent]
  refine ⟨hunits.le, fun heq ↦ absurd heq hunits.ne, fun hpower ↦ ?_⟩
  rw [hpower]
  norm_num at hlong ⊢
  linarith

/-- Longer timeouts with nanoseconds of at most 53 bits are written as the number they were read
from, which is read again. -/
theorem rereadAs_self_of_read (hread : t.IsRead) (hlong : 2 ^ 23 ≤ t.seconds)
    (h : t.nanos < 2 ^ 53) : t.RereadAs t := by
  obtain ⟨x, ⟨q, hq⟩, haccept⟩ := hread
  obtain ⟨-, hlimit, hnear⟩ := of_ofBinary64 haccept
  have hseconds : t.seconds < 2 ^ 24 := Nat.div_lt_of_lt_mul (h.trans (by decide))
  have hlow : (2 : ℚ) ^ 23 ≤ t.toRat :=
    (by exact_mod_cast hlong : (2 : ℚ) ^ 23 ≤ t.seconds).trans t.toRat_bounds.1
  have hhigh : t.toRat * 10 ^ 9 + 1 ≤ 2 ^ 53 := by
    rw [toRat_mul]
    exact_mod_cast h
  have hx : 2 ≤ x.toRat ∧ x.toRat * 10 ^ 9 < 2 ^ 53 := by
    obtain ⟨hnear', hnear''⟩ := abs_le.mp hnear
    norm_num at hlow hhigh hnear' hnear'' ⊢
    constructor <;> linarith
  have hnearest := nearest_of_near (hq.normal_of_two_le hx.1) hlow hx.2 hnear
  obtain ⟨hm', hnearest'⟩ := nearest_magnitude_of_long
    (le_trans (by norm_num) hlong) (hseconds.trans (by norm_num))
  have hround : (Magnitude.round t.nanos (10 ^ 9)).Rounds t.toRat :=
    ⟨t.nanos, 10 ^ 9, by norm_num, by rw [toRat]; norm_num, rfl⟩
  have hsame : t.magnitude = x :=
    (hnearest'.eq_of_rounds hm' hround).symm.trans
      (hnearest.eq_of_rounds (hq.normal_of_two_le hx.1) hround)
  rw [← hsame] at hx haccept
  obtain ⟨l, hnumber, hvalue⟩ := value_of_nearest hm' hnearest'
    ((by norm_num : (10 : ℚ) ^ (-10 : ℤ) ≤ 2).trans hx.1) hx.2
  exact rereadAs_of_value hnumber hvalue haccept

/-! ### The largest timeouts -/

/-- The difference of two timeouts is a small part of the first. -/
def Near (t t' : Duration) : Prop := ((t'.nanos : ℤ) - t.nanos).natAbs * 2 ^ 50 ≤ t.nanos

instance (t t' : Duration) : Decidable (t.Near t') := inferInstanceAs (Decidable (_ ≤ _))

theorem near_of_abs (h : |(t'.nanos : ℚ) - t.nanos| * 2 ^ 50 ≤ t.nanos) : t.Near t' := by
  have hcast : ((((t'.nanos : ℤ) - t.nanos).natAbs * 2 ^ 50 : ℕ) : ℚ) =
      |(t'.nanos : ℚ) - t.nanos| * 2 ^ 50 := by
    rw [Nat.cast_mul, Nat.cast_natAbs, Int.cast_abs]
    push_cast
    rfl
  exact Nat.cast_le.mp (hcast.trans_le h)

/-- Whether something was read, and it is not far away. -/
def isNear (t : Duration) : Except Json.Diagnosis Duration → Bool
  | .ok t' => t.Near t'
  | .error _ => false

theorem exists_of_isNear {result : Except Json.Diagnosis Duration} (h : t.isNear result = true) :
    ∃ t', result = .ok t' ∧ t.Near t' := by
  cases result with
  | ok t' => exact ⟨t', rfl, of_decide_eq_true h⟩
  | error _ => cases h

/-- The timeouts of the sixteen largest numbers below 2⁶⁴ are accepted when they are read again. -/
theorem exists_rereadAs_top {i : ℕ} (h : i < 16) :
    ∃ t', (ofSeconds ((2 ^ 53 - 1 - i) * 2 ^ 11)).RereadAs t' ∧
      (ofSeconds ((2 ^ 53 - 1 - i) * 2 ^ 11)).Near t' := by
  have hall : ∀ i ∈ List.range 16, (ofSeconds ((2 ^ 53 - 1 - i) * 2 ^ 11)).isNear
      (Json.read (Duration.reader Place.nowhere) (String.ofList
        (Written.float (ofSeconds ((2 ^ 53 - 1 - i) * 2 ^ 11)).toBinary64).compact)) = true := by
    decide +kernel
  have hnear := hall i (List.mem_range.mpr h)
  generalize ofSeconds ((2 ^ 53 - 1 - i) * 2 ^ 11) = t at hnear
  obtain ⟨t', hread, hnear'⟩ := exists_of_isNear hnear
  exact ⟨t', Duration.reader_takes hread, hnear'⟩

/-- Of timeouts near the limit only those come from a number that are a multiple of 2¹¹ seconds. -/
theorem eq_top_of_read (hread : t.IsRead) (h : 2 ^ 64 - 2 ^ 15 ≤ t.toRat) :
    ∃ i < 16, t = ofSeconds ((2 ^ 53 - 1 - i) * 2 ^ 11) := by
  obtain ⟨x, ⟨q, hq⟩, haccept⟩ := hread
  obtain ⟨hround, hlimit, hnear⟩ := of_ofBinary64 haccept
  obtain ⟨hnear', hnear''⟩ := abs_le.mp hnear
  have hnanos := t.toRat_mul
  have hbelow : (t.nanos : ℚ) + 1 ≤ 2 ^ 64 * 10 ^ 9 := by exact_mod_cast hlimit
  have hm : x.Normal := hq.normal_of_two_le (by norm_num at h hnear'; linarith)
  have hexponent : x.exponent = 11 := by
    refine hm.exponent_eq ?_ ?_
    · norm_num at h hnear' ⊢
      linarith
    · norm_num at hbelow hnear'' ⊢
      linarith
  have hvalue : x.toRat = x.significand * 2 ^ 11 := by
    rw [Magnitude.toRat, hexponent]
    rfl
  -- Whole seconds are whole nanoseconds, so that nothing was rounded.
  have hwhole : t.nanos = x.significand * 2 ^ 11 * nanosPerSecond := by
    refine hround.trans (roundToEven_eq x.den_pos ?_)
    rw [nanos_ratio, hvalue]
    norm_num [nanosPerSecond]
  have hsignificand : 2 ^ 53 - 16 ≤ x.significand := by
    have hlow : (2 ^ 53 : ℚ) < x.significand + 17 := by
      rw [hvalue] at hnear'
      norm_num at h hnear'
      linarith
    have hlow' : 2 ^ 53 < x.significand + 17 := by exact_mod_cast hlow
    omega
  have hhigh := hm.high
  refine ⟨2 ^ 53 - 1 - x.significand, by omega, ?_⟩
  have hback : 2 ^ 53 - 1 - (2 ^ 53 - 1 - x.significand) = x.significand := by omega
  rw [hback, ofSeconds, ← hwhole]

/-- Timeouts with nanoseconds of more than 53 bits move by a small part of themselves at most. -/
theorem exists_rereadAs_of_long (hread : t.IsRead) (h : 2 ^ 53 ≤ t.nanos) :
    ∃ t', t.RereadAs t' ∧ t.Near t' := by
  rcases le_or_gt (2 ^ 64 - 2 ^ 15) t.toRat with htop | hbelow
  · obtain ⟨i, hi, rfl⟩ := eq_top_of_read hread htop
    exact exists_rereadAs_top hi
  obtain ⟨x, -, haccept⟩ := hread
  obtain ⟨-, hlimit, -⟩ := of_ofBinary64 haccept
  have hsome : 0 < t.seconds := Nat.div_pos (le_trans (by decide) h) (by decide)
  obtain ⟨l, z, hnumber, hvalue, hread⟩ := value_near hsome hlimit
  have hwritten := abs_magnitude_sub_le hsome
  have hnear : |z.toRat - t.toRat| ≤ 7 * t.toRat / 2 ^ 53 := by
    have hpos := t.toRat_bounds.1
    rw [abs_le] at hwritten hread ⊢
    norm_num at hwritten hread ⊢
    constructor <;> linarith [hwritten.1, hwritten.2, hread.1, hread.2]
  have hnanos := t.toRat_mul
  obtain ⟨hnear', hnear''⟩ := abs_le.mp hnear
  obtain ⟨t', haccept', hround⟩ := ofBinary64_of_lt (z := z) (by
    norm_num [secondsLimit, nanosPerSecond] at hnear'' hbelow ⊢
    linarith)
  refine ⟨t', rereadAs_of_value hnumber hvalue haccept', near_of_abs ?_⟩
  have hlarge : (2 : ℚ) ^ 53 ≤ t.nanos := by exact_mod_cast h
  have hmoved : |(t'.nanos : ℚ) - t.nanos| ≤ 1 / 2 + 7 * t.nanos / 2 ^ 53 := by
    rw [← hnanos]
    rw [abs_le] at hround ⊢
    norm_num at hround hnear' hnear'' ⊢
    constructor <;> linarith [hround.1, hround.2]
  norm_num at hmoved ⊢
  linarith

/-- What becomes of a timeout that was read when it is written and read again. -/
theorem IsRead.exists_rereadAs (h : t.IsRead) :
    ∃ t', t.RereadAs t' ∧ t.Near t' ∧ (t.nanos < 2 ^ 53 → t' = t) := by
  rcases lt_or_ge t.nanos (2 ^ 53) with hsmall | hlarge
  · have hself : t.Near t := by
      rw [Near, sub_self]
      exact Nat.zero_le _
    refine ⟨t, ?_, hself, fun _ ↦ rfl⟩
    rcases lt_or_ge t.seconds (2 ^ 23) with hshort | hlong
    · exact rereadAs_self_of_seconds hshort
    · exact rereadAs_self_of_read h hlong hsmall
  · obtain ⟨t', hreread, hnear⟩ := exists_rereadAs_of_long h hlarge
    exact ⟨t', hreread, hnear, fun hsmall ↦ absurd hlarge (not_le.mpr hsmall)⟩

/-- A timeout that is read comes from a rounded number. -/
theorem reader_ensures (place : Place) : (Duration.reader place).Ensures IsRead := by
  refine Reader.Ensures.bind Json.Reader.binary64_ensures fun x hx ↦ ?_
  cases haccept : ofBinary64 x with
  | error reason =>
    intro cs t left h
    cases h
  | ok t =>
    refine Json.Reader.ensures_pure ?_
    cases x with
    | nan => cases haccept
    | infinite negative => cases haccept
    | finite negative m =>
      refine ⟨m, hx rfl, ?_⟩
      unfold ofBinary64 at haccept ⊢
      simp only [Bool.false_eq_true, false_and, if_false] at haccept ⊢
      split at haccept
      · cases haccept
      · exact haccept

end Duration

/-! ### Configurations that have been read -/

/-- The numbers fit, and the timeout comes from a number. -/
structure LineSettings.IsRead (s : LineSettings) : Prop where
  baudRate_lt : s.baudRate < UInt32.size
  readBufferSize_lt : s.readBufferSize < UInt64.size
  writeBufferSize_lt : s.writeBufferSize < UInt64.size
  timeout : s.timeout.IsRead

theorem LineSettings.isRead_default : LineSettings.IsRead {} where
  baudRate_lt := by decide
  readBufferSize_lt := by decide
  writeBufferSize_lt := by decide
  timeout := ⟨.ofNat 5, Json.Reader.isRounded_ofNat 5, by decide +kernel⟩

open Json.Reader in
theorem LineSettings.reader_ensures : LineSettings.reader.Ensures LineSettings.IsRead := by
  refine record_ensures _ (fun field hfield place s hs ↦ ?_) isRead_default
  simp only [fields, List.mem_cons, List.not_mem_nil, or_false] at hfield
  rcases hfield with rfl | rfl | rfl | rfl | rfl | rfl | rfl | rfl | rfl
  · exact (natural_ensures _ _).bind fun _ h ↦ ensures_pure { hs with baudRate_lt := h }
  · exact ensures_bind fun _ ↦ ensures_pure { hs with }
  · exact ensures_bind fun _ ↦ ensures_pure { hs with }
  · exact ensures_bind fun _ ↦ ensures_pure { hs with }
  · exact ensures_bind fun _ ↦ ensures_pure { hs with }
  · exact (Duration.reader_ensures place).bind fun _ h ↦ ensures_pure { hs with timeout := h }
  · exact ensures_bind fun _ ↦ ensures_pure { hs with }
  · exact (natural_ensures _ _).bind fun _ h ↦ ensures_pure { hs with readBufferSize_lt := h }
  · exact (natural_ensures _ _).bind fun _ h ↦ ensures_pure { hs with writeBufferSize_lt := h }

namespace Config

open Json.Reader in
theorem reader_ensures : reader.Ensures fun c ↦ c.defaults.IsRead := by
  refine record_ensures _ (fun field hfield place c hc ↦ ?_) LineSettings.isRead_default
  simp only [fields, List.mem_cons, List.not_mem_nil, or_false] at hfield
  rcases hfield with rfl | rfl
  · exact ensures_bind fun _ ↦ ensures_pure hc
  · exact LineSettings.reader_ensures.bind fun _ h ↦ ensures_pure h

/-- A configuration that is read off a text, saved and loaded again is the same but for its timeout,
which moves by less than a part in 2⁵⁰, and not at all below 2⁵³ nanoseconds. -/
theorem reload_ofJson {text : String} {c : Config} (h : ofJson text = .ok c) :
    ∃ timeout : Duration,
      (∀ path, ∃ file, c.save .file = .ok file ∧
        load path file = .ok { c with defaults := { c.defaults with timeout := timeout } }) ∧
      ((timeout.nanos : ℤ) - c.defaults.timeout.nanos).natAbs * 2 ^ 50 ≤
        c.defaults.timeout.nanos ∧
      (c.defaults.timeout.nanos < 2 ^ 53 → timeout = c.defaults.timeout) := by
  obtain ⟨hread, hvalid⟩ : Json.read reader text = .ok c ∧ c.defaults.validate = .ok () := by
    unfold ofJson at h
    split at h
    · cases h
    · next config hread =>
      split at h
      · cases h
      · next hvalid =>
        cases h
        exact ⟨hread, hvalid⟩
  have hdefaults := reader_ensures.of_read hread
  obtain ⟨timeout, hreread, hnear, hsame⟩ := hdefaults.timeout.exists_rereadAs
  have htakes := reader_takes (c := c) (c.defaults.reader_takes_timeout hdefaults.baudRate_lt
    hdefaults.readBufferSize_lt hdefaults.writeBufferSize_lt hreread) 0
  exact ⟨timeout, (load_of_takes htakes hvalid).2, hnear, hsame⟩

/-- A third of a second, which is no binary fraction, comes back to the nanosecond. -/
theorem reload_ofJson_third :
    let c : Config := { defaults := { timeout := ⟨333333333⟩ } }
    ofJson "\x7b\"defaults\": \x7b\"timeout\": 0.33333333333333333\x7d\x7d" = .ok c ∧
      ∀ path, ∃ file, c.save .file = .ok file ∧ load path file = .ok c := by
  intro c
  have hread : ofJson "\x7b\"defaults\": \x7b\"timeout\": 0.33333333333333333\x7d\x7d" = .ok c := by
    decide +kernel
  obtain ⟨timeout, hload, -, hsame⟩ := reload_ofJson hread
  have htimeout := hsame (by decide)
  subst htimeout
  exact ⟨hread, hload⟩

/-- Right above 2⁵³ nanoseconds a timeout may move: it is written with sixteen digits, and these are
rounded when they are converted, before the point is set. -/
theorem reload_moves_timeout :
    let c : Config := { defaults := { timeout := ⟨9007199254741013⟩ } }
    let c' : Config := { defaults := { timeout := ⟨9007199254741011⟩ } }
    ofJson "\x7b\"defaults\": \x7b\"timeout\": 9007199.2547410130\x7d\x7d" = .ok c ∧
      ∀ path, ∃ file, c.save .file = .ok file ∧ load path file = .ok c' := by
  intro c c'
  have hmoved : Json.read (Duration.reader Place.nowhere) (String.ofList
      (Written.float c.defaults.timeout.toBinary64).compact) = .ok ⟨9007199254741011⟩ := by
    decide +kernel
  have htakes : reader.Takes (c.toJson.pretty 0) c' :=
    reader_takes (c.defaults.reader_takes_timeout (by decide) (by decide) (by decide)
      (Duration.reader_takes hmoved)) 0
  exact ⟨by decide +kernel, (load_of_takes htakes rfl).2⟩

end Config

end SerialLine

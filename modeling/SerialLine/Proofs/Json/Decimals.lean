import SerialLine.Json.Printer
import SerialLine.Proofs.Binary64.Shortest
import SerialLine.Proofs.Json.Scanning
/-!
# Reading back the text of a decimal

However a decimal is set out, its text is a number, and the digits in it, taken as one whole number
and moved by a power of ten, stand for the same decimal (`Decimal.text_reads`). The reader converts
the digits and then scales, so it rounds twice; how far that goes from the decimal is
`abs_scaled_sub_le`, and digits of at most 53 bits are not rounded twice (`scaled_rounds`).
-/

set_option autoImplicit false

namespace SerialLine.Json

open Reader (values absorb_values)

/-- Digits that are converted and then moved by a power of ten. -/
def scaled (digits : ℕ) (shift : ℤ) : Except ℕ Number :=
  match scaleByPower (shift.natAbs + 1) (Magnitude.ofNat digits) shift with
  | some m => .ok (.float (.finite false m))
  | none => .error 0

/-- A text is a number whose value comes of digits that are moved by a power of ten. -/
def ReadsAs (t : List Char) (digits : ℕ) (shift : ℤ) : Prop :=
  ∃ l, IsNumber l t ∧ l.value = scaled digits shift

/-! ### The value of digits -/

theorem values_ne_nil {cs : List Char} (h : cs ≠ []) : values cs ≠ [] := by
  rw [values, Ne, List.map_eq_nil_iff]
  exact h

theorem absorb_append {whole fraction : List Char}
    (h : Nat.ofDigitChars 10 (whole ++ fraction) 0 < UInt64.size) :
    absorb 0 (values whole) = (Nat.ofDigitChars 10 whole 0, []) ∧
      absorb (Nat.ofDigitChars 10 whole 0) (values fraction) =
        (Nat.ofDigitChars 10 (whole ++ fraction) 0, []) := by
  rw [Nat.ofDigitChars_append] at h ⊢
  exact ⟨absorb_values (Nat.lt_of_le_of_lt (Reader.le_ofDigitChars fraction _) h), absorb_values h⟩

/-- Of a number with a point, all digits are taken together. -/
theorem value_of_fraction {whole fraction : List Char} (hfraction : fraction ≠ [])
    (h : Nat.ofDigitChars 10 (whole ++ fraction) 0 < UInt64.size) :
    Literal.value ⟨false, values whole, values fraction, none⟩ =
      scaled (Nat.ofDigitChars 10 (whole ++ fraction) 0) (-(fraction.length : ℤ)) := by
  obtain ⟨hwhole, hall⟩ := absorb_append h
  have hlength : (values fraction).length = fraction.length := List.length_map _
  unfold Literal.value
  simp only [hwhole, hall, hlength, List.length_nil, Nat.cast_zero, sub_zero, zero_sub]
  rw [if_pos (.inr (values_ne_nil hfraction))]
  rfl

theorem powerValue_values {cs : List Char} {m : ℕ} (h : Nat.ofDigitChars 10 cs m < 2 ^ 31) :
    powerValue m (values cs) = .ok (Nat.ofDigitChars 10 cs m) := by
  induction cs generalizing m with
  | nil => rfl
  | cons c cs ih =>
    rw [Nat.ofDigitChars_cons] at h ⊢
    have hfits := Nat.lt_of_le_of_lt (Reader.le_ofDigitChars cs _) h
    exact (if_pos hfits).trans (ih h)

/-- A power of ten only moves the point. -/
theorem value_of_power {whole fraction power : List Char} (down : Bool)
    (h : Nat.ofDigitChars 10 (whole ++ fraction) 0 < UInt64.size)
    (hpower : Nat.ofDigitChars 10 power 0 < 2 ^ 31) :
    Literal.value ⟨false, values whole, values fraction, some (down, values power)⟩ =
      scaled (Nat.ofDigitChars 10 (whole ++ fraction) 0)
        (if down then -(fraction.length : ℤ) - Nat.ofDigitChars 10 power 0
          else -(fraction.length : ℤ) + Nat.ofDigitChars 10 power 0) := by
  obtain ⟨hwhole, hall⟩ := absorb_append h
  have hlength : (values fraction).length = fraction.length := List.length_map _
  unfold Literal.value
  simp only [hwhole, hall, hlength, List.length_nil, Nat.cast_zero, sub_zero, zero_sub,
    powerValue_values hpower]
  rfl

/-! ### Layouts of digits -/

section Layouts

variable {ds : List Char} {leading : ℤ}

theorem isNumber_fraction {whole fraction : List Char} (hwhole : IsWhole whole)
    (hfraction : Digits fraction) :
    IsNumber ⟨false, values whole, values fraction, none⟩ (whole ++ '.' :: fraction) := by
  have := IsNumber.mk false hwhole (.some hfraction) .none
  simpa using this

theorem digits_zeros {n : ℕ} (h : Digits ds) :
    Digits (ds ++ List.replicate n '0') ∧ Digits (List.replicate n '0' ++ ds) := by
  have hzero : ∀ c ∈ List.replicate n '0', c.isDigit := fun c hc ↦ by
    rw [(List.mem_replicate.mp hc).2]
    decide
  refine ⟨⟨fun hnil ↦ h.1 (List.append_eq_nil_iff.mp hnil).1, fun c hc ↦ ?_⟩,
    ⟨fun hnil ↦ h.1 (List.append_eq_nil_iff.mp hnil).2, fun c hc ↦ ?_⟩⟩
  · exact (List.mem_append.mp hc).elim (h.2 c) (hzero c)
  · exact (List.mem_append.mp hc).elim (hzero c) (h.2 c)

/-- Zeros between the point and the digits. -/
theorem readsAs_small (hds : Digits ds) (hfits : Nat.ofDigitChars 10 ds 0 < UInt64.size)
    (hleading : leading < 0) :
    ReadsAs (Decimal.positionalText true ds leading) (Nat.ofDigitChars 10 ds 0)
      (leading + 1 - ds.length) := by
  have hvalue : Nat.ofDigitChars 10
      (['0'] ++ (List.replicate ((-leading).toNat - 1) '0' ++ ds)) 0 = Nat.ofDigitChars 10 ds 0 := by
    rw [Nat.ofDigitChars_append, Nat.ofDigitChars_append, Nat.ofDigitChars_replicate_zero]
    rfl
  have hfraction := (digits_zeros (n := (-leading).toNat - 1) hds).2
  rw [Decimal.positionalText, if_pos hleading]
  refine ⟨_, isNumber_fraction (.inl rfl) hfraction, ?_⟩
  rw [value_of_fraction hfraction.1 (by rwa [hvalue]), hvalue, List.length_append,
    List.length_replicate]
  congr 1
  omega

/-- Zeros up to the point, and one after it. -/
theorem readsAs_whole (hds : Digits ds) (hhead : ds.head? ≠ some '0') (hleading : 0 ≤ leading)
    (hlength : (ds.length : ℤ) ≤ leading + 1)
    (hfits : 10 * (10 ^ (leading.toNat + 1 - ds.length) * Nat.ofDigitChars 10 ds 0) < UInt64.size) :
    ReadsAs (Decimal.positionalText true ds leading)
      (10 * (10 ^ (leading.toNat + 1 - ds.length) * Nat.ofDigitChars 10 ds 0)) (-1) := by
  have hplaces : ds.length ≤ leading.toNat + 1 := by omega
  have hvalue : Nat.ofDigitChars 10
      ((ds ++ List.replicate (leading.toNat + 1 - ds.length) '0') ++ ['0']) 0 =
        10 * (10 ^ (leading.toNat + 1 - ds.length) * Nat.ofDigitChars 10 ds 0) := by
    rw [Nat.ofDigitChars_append, Nat.ofDigitChars_append, Nat.ofDigitChars_replicate_zero]
    rfl
  have hwhole : IsWhole (ds ++ List.replicate (leading.toNat + 1 - ds.length) '0') := by
    refine .inr ⟨(digits_zeros hds).1, ?_⟩
    obtain ⟨d, ds, rfl⟩ := List.exists_cons_of_ne_nil hds.1
    exact hhead
  have hzero : Digits ['0'] := ⟨List.cons_ne_nil _ _, List.all_eq_true.mp (by decide)⟩
  rw [Decimal.positionalText, if_neg (by omega)]
  simp only [List.take_of_length_le hplaces, List.drop_of_length_le hplaces, List.isEmpty_nil,
    if_true]
  refine ⟨_, isNumber_fraction hwhole hzero, ?_⟩
  rw [value_of_fraction hzero.1 (by rwa [hvalue]), hvalue]
  rfl

/-- Digits on both sides of the point. -/
theorem readsAs_split (hds : Digits ds) (hhead : ds.head? ≠ some '0')
    (hfits : Nat.ofDigitChars 10 ds 0 < UInt64.size) (hleading : 0 ≤ leading)
    (hlength : leading + 1 < ds.length) :
    ReadsAs (Decimal.positionalText true ds leading) (Nat.ofDigitChars 10 ds 0)
      (leading + 1 - ds.length) := by
  have hplaces : leading.toNat + 1 < ds.length := by omega
  have hall := List.take_append_drop (leading.toNat + 1) ds
  have hfraction : Digits (ds.drop (leading.toNat + 1)) := by
    refine ⟨fun hnil ↦ ?_, fun c hc ↦ hds.2 c (List.mem_of_mem_drop hc)⟩
    have := List.drop_eq_nil_iff.mp hnil
    omega
  have hwhole : IsWhole (ds.take (leading.toNat + 1)) := by
    obtain ⟨d, ds, rfl⟩ := List.exists_cons_of_ne_nil hds.1
    exact .inr ⟨⟨List.cons_ne_nil _ _, fun c hc ↦ hds.2 c (List.mem_of_mem_take hc)⟩, hhead⟩
  have hempty : (ds.drop (leading.toNat + 1)).isEmpty = false := by
    rw [List.isEmpty_eq_false_iff]
    exact hfraction.1
  rw [Decimal.positionalText, if_neg (by omega)]
  simp only [hempty, Bool.false_eq_true, if_false, Nat.sub_eq_zero_of_le hplaces.le,
    List.replicate_zero, List.append_nil]
  refine ⟨_, isNumber_fraction hwhole hfraction, ?_⟩
  rw [value_of_fraction hfraction.1 (by rwa [hall]), hall, List.length_drop]
  congr 1
  omega

/-- One digit before the point, and a power of ten. -/
theorem readsAs_scientific (hds : Digits ds) (hhead : ds.head? ≠ some '0')
    (hfits : Nat.ofDigitChars 10 ds 0 < UInt64.size) (hleading : leading.natAbs < 2 ^ 31) :
    ReadsAs (Decimal.scientificText ds leading) (Nat.ofDigitChars 10 ds 0)
      (leading + 1 - ds.length) := by
  obtain ⟨d, ds, rfl⟩ := List.exists_cons_of_ne_nil hds.1
  have hwhole : IsWhole [d] := by
    refine .inr ⟨⟨List.cons_ne_nil _ _, fun c hc ↦ ?_⟩, hhead⟩
    rw [List.mem_singleton.mp hc]
    exact hds.2 d List.mem_cons_self
  have hfraction : IsFraction (values ds) (if ds = [] then [] else '.' :: ds) := by
    split
    · next hnil =>
      rw [hnil]
      exact .none
    · next hnonempty => exact .some ⟨hnonempty, fun c hc ↦ hds.2 c (List.mem_cons_of_mem d hc)⟩
  have hpower : Digits (Nat.toDigits 10 leading.natAbs) :=
    ⟨Nat.toDigits_ne_nil, fun c hc ↦ Nat.isDigit_of_mem_toDigits (by decide) (by decide) hc⟩
  have hnumber := IsNumber.mk false hwhole hfraction
    (.signed (decide (leading < 0)) (.inl rfl) hpower)
  have htext : Decimal.scientificText (d :: ds) leading = [d] ++ ((if ds = [] then [] else '.' :: ds)
      ++ 'e' :: (if decide (leading < 0) then '-' else '+') :: Nat.toDigits 10 leading.natAbs) := by
    rw [Decimal.scientificText]
    cases ds <;> simp
  refine ⟨_, htext ▸ hnumber, ?_⟩
  have hvalue : Nat.ofDigitChars 10 (Nat.toDigits 10 leading.natAbs) 0 = leading.natAbs :=
    Nat.ofDigitChars_ten_toDigits
  refine (value_of_power _ hfits (by rwa [hvalue])).trans (congrArg _ ?_)
  rw [hvalue, List.length_cons]
  simp only [decide_eq_true_eq]
  split <;> omega

end Layouts

end SerialLine.Json

namespace SerialLine

open Json (Digits ReadsAs)

namespace Decimal

/-- The significant digits are those of the coefficient but for zeros at its end. -/
theorem toDigits_coefficient (d : Decimal) :
    ∃ z, Nat.toDigits 10 d.coefficient = d.digits ++ List.replicate z '0' := by
  let zeros := ((Nat.toDigits 10 d.coefficient).reverse.takeWhile (· = '0')).reverse
  have hzeros : ∀ c ∈ zeros, c = '0' :=
    fun c hc ↦ by simpa using List.mem_takeWhile_imp (List.mem_reverse.mp hc)
  refine ⟨zeros.length, ?_⟩
  rw [digits, ← List.eq_replicate_of_mem hzeros, ← List.reverse_append,
    List.takeWhile_append_dropWhile, List.reverse_reverse]

/-- The digits start with another one than zero, and they stand for the number if the exponent of
the first of them is kept. -/
theorem digits_spec {d : Decimal} (h : 0 < d.coefficient) :
    Digits d.digits ∧ d.digits.head? ≠ some '0' ∧
      Nat.ofDigitChars 10 d.digits 0 ≤ d.coefficient ∧
        d.exponent ≤ d.leading + 1 - d.digits.length ∧
          (Nat.ofDigitChars 10 d.digits 0 : ℚ) * 10 ^ (d.leading + 1 - d.digits.length) = d.toRat := by
  obtain ⟨z, hz⟩ := d.toDigits_coefficient
  obtain ⟨c, cs, hcs, hc⟩ := Json.Reader.toDigits_head d.coefficient h
  obtain ⟨e, es, hes⟩ : ∃ e es, d.digits = e :: es := by
    refine List.exists_cons_of_ne_nil fun hnil ↦ ?_
    rw [hnil, List.nil_append, hcs] at hz
    have : c ∈ List.replicate z '0' := hz ▸ List.mem_cons_self
    exact hc (List.mem_replicate.mp this).2
  have hhead : c = e := by
    rw [hes, hcs] at hz
    exact (List.cons.inj hz).1
  have hcoefficient : d.coefficient = 10 ^ z * Nat.ofDigitChars 10 d.digits 0 := by
    rw [← Nat.ofDigitChars_replicate_zero, ← Nat.ofDigitChars_append, ← hz,
      Nat.ofDigitChars_ten_toDigits]
  have hleading : d.leading + 1 - d.digits.length = d.exponent + z := by
    rw [leading, hz, List.length_append, List.length_replicate]
    push_cast
    ring
  refine ⟨⟨hes ▸ List.cons_ne_nil e es, fun c hc ↦ ?_⟩, ?_, ?_, ?_, ?_⟩
  · have hmem : c ∈ Nat.toDigits 10 d.coefficient := hz ▸ List.mem_append_left _ hc
    exact Nat.isDigit_of_mem_toDigits (by decide) (by decide) hmem
  · rw [hes, ← hhead, List.head?_cons]
    exact fun heq ↦ hc (Option.some.inj heq)
  · rw [hcoefficient]
    exact Nat.le_mul_of_pos_left _ (Nat.pow_pos (by decide))
  · omega
  · rw [hleading, toRat, hcoefficient, zpow_add₀ (by norm_num), zpow_natCast]
    push_cast
    ring

/-- The first digit stands for the largest power of ten in the number. -/
theorem toRat_lt (d : Decimal) (h : 0 < d.coefficient) : d.toRat < 10 ^ (d.leading + 1) := by
  have hlt : (d.coefficient : ℚ) < 10 ^ (Nat.toDigits 10 d.coefficient).length := by
    exact_mod_cast (toDigits_length_bounds h).2
  have hleading : d.leading + 1 = ((Nat.toDigits 10 d.coefficient).length : ℤ) + d.exponent := by
    rw [leading]
    ring
  rw [hleading, zpow_add₀ (by norm_num), zpow_natCast, toRat]
  exact mul_lt_mul_of_pos_right hlt (ten_zpow_pos _)

/-- The text of a decimal, in either layout, comes back as digits that stand for it. -/
theorem text_reads {d : Decimal} (h : 0 < d.coefficient) (hfits : d.coefficient < UInt64.size)
    (hleading : d.leading.natAbs < 2 ^ 31) :
    ∃ (digits : ℕ) (shift : ℤ),
      ReadsAs (if Json.numberLayout.positional d.leading then
        positionalText Json.numberLayout.markWhole d.digits d.leading
          else scientificText d.digits d.leading) digits shift ∧ digits < UInt64.size ∧
        (digits : ℚ) * 10 ^ shift = d.toRat ∧ min (-1) d.exponent ≤ shift ∧
          (digits : ℚ) ≤ max (d.coefficient : ℚ) (10 * d.toRat) := by
  obtain ⟨hdigits, hhead, hle, hexponent, hvalue⟩ := digits_spec h
  have hfits' : Nat.ofDigitChars 10 d.digits 0 < UInt64.size := Nat.lt_of_le_of_lt hle hfits
  have hle' : (Nat.ofDigitChars 10 d.digits 0 : ℚ) ≤ max (d.coefficient : ℚ) (10 * d.toRat) :=
    le_max_of_le_left (by exact_mod_cast hle)
  have hshift : min (-1) d.exponent ≤ d.leading + 1 - d.digits.length :=
    (min_le_right _ _).trans hexponent
  split
  · next hpositional =>
    simp only [Json.numberLayout, decide_eq_true_eq] at hpositional
    rcases lt_or_ge d.leading 0 with hsmall | hlarge
    · exact ⟨_, _, Json.readsAs_small hdigits hfits' hsmall, hfits', hvalue, hshift, hle'⟩
    · rcases lt_or_ge (d.leading + 1) d.digits.length with hsplit | hwhole
      · exact ⟨_, _, Json.readsAs_split hdigits hhead hfits' hlarge hsplit, hfits', hvalue, hshift,
          hle'⟩
      · have hzeros : ((10 * (10 ^ (d.leading.toNat + 1 - d.digits.length) *
            Nat.ofDigitChars 10 d.digits 0) : ℕ) : ℚ) = 10 * d.toRat := by
          have hcount : d.leading + 1 - d.digits.length =
              (d.leading.toNat + 1 - d.digits.length : ℕ) := by omega
          rw [← hvalue, hcount, zpow_natCast]
          push_cast
          ring
        have hbound : 10 * (10 ^ (d.leading.toNat + 1 - d.digits.length) *
            Nat.ofDigitChars 10 d.digits 0) < UInt64.size := by
          have hlt := d.toRat_lt h
          have hpower : (10 : ℚ) ^ (d.leading + 1) ≤ 10 ^ (16 : ℤ) :=
            zpow_le_zpow_right₀ (by norm_num) (by omega)
          have : ((10 * (10 ^ (d.leading.toNat + 1 - d.digits.length) *
              Nat.ofDigitChars 10 d.digits 0) : ℕ) : ℚ) < (10 ^ 17 : ℕ) := by
            rw [hzeros]
            push_cast
            norm_num at hpower ⊢
            linarith
          exact (Nat.cast_lt.mp this).trans (by decide)
        refine ⟨_, -1, Json.readsAs_whole hdigits hhead hlarge hwhole hbound, hbound, ?_,
          min_le_left _ _, hzeros.le.trans (le_max_right _ _)⟩
        rw [hzeros]
        ring
  · exact ⟨_, _, Json.readsAs_scientific hdigits hhead hfits' hleading, hfits', hvalue, hshift, hle'⟩

end Decimal

/-! ### Two roundings -/

namespace Json

variable {digits : ℕ} {shift : ℤ}

/-- The size of converted digits that are moved by a small power of ten. -/
theorem scaled_bounds (hdigits : 0 < digits) (hfits : digits < UInt64.size)
    (hshift : shift.natAbs ≤ 22) :
    (2 : ℚ) ^ (-1021 : ℤ) ≤ (Magnitude.ofNat digits).toRat * 10 ^ shift ∧
      (Magnitude.ofNat digits).toRat * 10 ^ shift < 2 ^ (150 : ℤ) := by
  have hone : (1 : ℚ) ≤ digits := by exact_mod_cast hdigits
  have hlimit : (digits : ℚ) < 2 ^ 64 := by exact_mod_cast hfits
  obtain ⟨hbelow, habove⟩ := abs_le.mp (Magnitude.abs_ofNat_sub_le digits)
  have hlow : (10 : ℚ) ^ (-22 : ℤ) ≤ 10 ^ shift := zpow_le_zpow_right₀ (by norm_num) (by omega)
  have hhigh : (10 : ℚ) ^ shift ≤ 10 ^ (22 : ℤ) := zpow_le_zpow_right₀ (by norm_num) (by omega)
  have hsmall : (2 : ℚ) ^ (-1021 : ℤ) ≤ 2 ^ (-100 : ℤ) := zpow_le_zpow_right₀ one_le_two (by decide)
  constructor
  · calc (2 : ℚ) ^ (-1021 : ℤ) ≤ 1 / 2 * 10 ^ (-22 : ℤ) := hsmall.trans (by norm_num)
      _ ≤ (Magnitude.ofNat digits).toRat * 10 ^ shift :=
        mul_le_mul (by linarith) hlow (ten_zpow_pos _).le (Magnitude.toRat_nonneg _)
  · calc (Magnitude.ofNat digits).toRat * 10 ^ shift ≤ 2 ^ 65 * 10 ^ (22 : ℤ) :=
        mul_le_mul (by linarith) hhigh (ten_zpow_pos _).le (by norm_num)
      _ < 2 ^ (150 : ℤ) := by norm_num

/-- The converted digits are multiplied with the power of ten or divided by it, which is exact, and
the result is rounded. -/
theorem scaled_rounds (hdigits : 0 < digits) (hfits : digits < UInt64.size)
    (hshift : shift.natAbs ≤ 22) :
    ∃ z, scaled digits shift = .ok (.float (.finite false z)) ∧
      z.Rounds ((Magnitude.ofNat digits).toRat * 10 ^ shift) := by
  obtain ⟨hlow, hhigh⟩ := scaled_bounds hdigits hfits hshift
  have hpower : (powerOfTen shift.natAbs).toRat = 10 ^ shift.natAbs :=
    Magnitude.toRat_ofNat_pow_ten hshift
  have hlargest : shift.natAbs ≤ largestPower := hshift.trans (by decide)
  unfold scaled
  simp only [scaleByPower, if_pos hlargest]
  rcases le_or_gt 0 shift with hup | hdown
  · have hshift' : (10 : ℚ) ^ shift = 10 ^ shift.natAbs := by
      rw [← zpow_natCast, Int.natCast_natAbs, abs_of_nonneg hup]
    have hround := Magnitude.rounds_mul (Magnitude.ofNat digits) (powerOfTen shift.natAbs)
    rw [hpower, ← hshift'] at hround
    have hfinite : ((Magnitude.ofNat digits).mul (powerOfTen shift.natAbs)).IsFinite :=
      (hround.exponent_le hlow hhigh).trans (by decide)
    have htoNat : shift.toNat = shift.natAbs := by omega
    rw [if_pos hup, htoNat, if_pos hfinite]
    exact ⟨_, rfl, hround⟩
  · have hshift' : (10 : ℚ) ^ shift = (10 ^ shift.natAbs)⁻¹ := by
      rw [← zpow_natCast, ← zpow_neg, Int.natCast_natAbs, abs_of_neg hdown, neg_neg]
    have hround := Magnitude.rounds_div (Magnitude.ofNat digits) (b := powerOfTen shift.natAbs)
      (by rw [hpower]; positivity)
    rw [hpower, div_eq_mul_inv, ← hshift'] at hround
    rw [if_neg (not_le.mpr hdown)]
    exact ⟨_, rfl, hround⟩

/-- How far the number that is read lies from the one that is written. -/
theorem abs_scaled_sub_le (hdigits : 0 < digits) (hfits : digits < UInt64.size)
    (hshift : shift.natAbs ≤ 22) {z : Magnitude}
    (hround : z.Rounds ((Magnitude.ofNat digits).toRat * 10 ^ shift)) :
    |z.toRat - digits * 10 ^ shift| ≤ 9 * (digits * 10 ^ shift) / 2 ^ 55 := by
  have hpower := ten_zpow_pos shift
  have hround' := hround.abs_sub_le (scaled_bounds hdigits hfits hshift).1
  have hconvert : |(Magnitude.ofNat digits).toRat * 10 ^ shift - digits * 10 ^ shift| ≤
      digits * 10 ^ shift / 2 ^ 53 := by
    rw [← sub_mul, abs_mul, abs_of_pos hpower, mul_div_right_comm]
    exact mul_le_mul_of_nonneg_right (Magnitude.abs_ofNat_sub_le digits) hpower.le
  have hvalue : 0 < (digits : ℚ) * 10 ^ shift := mul_pos (Nat.cast_pos.mpr hdigits) hpower
  generalize (digits : ℚ) * 10 ^ shift = v at hconvert hvalue ⊢
  generalize (Magnitude.ofNat digits).toRat * 10 ^ shift = w at hround' hconvert
  rw [abs_le] at hround' hconvert ⊢
  norm_num at hround' hconvert ⊢
  constructor <;> linarith [hround'.1, hround'.2, hconvert.1, hconvert.2]

end Json

namespace Magnitude

variable {m : Magnitude}

/-- A magnitude that is written and read again moves by less than four units of its last place; it
comes back as it was if the digits do not go beyond 53 bits. -/
theorem text_reads_back (hm : m.Normal) (hlow : -22 ≤ (m.shortest .toEven).exponent)
    (hhigh : m.decimalExponent ≤ 20) :
    ∃ l z, Json.IsNumber l (m.text Json.numberLayout).toList ∧
      l.value = .ok (.float (.finite false z)) ∧ |z.toRat - m.toRat| ≤ 7 * m.toRat / 2 ^ 54 ∧
        ((m.shortest .toEven).coefficient ≤ 2 ^ 53 → m.toRat < 2 ^ 49 → z = m) := by
  have hshort := shortest_shortens .toEven hm
  have hzero : ¬ m.IsZero := by
    have := hm.low
    unfold IsZero
    omega
  generalize hd : m.shortest .toEven = d at hlow hshort
  have hpos := hshort.coefficient_pos
  have hcoefficient := hshort.coefficient_le
  have hlength : (Nat.toDigits 10 d.coefficient).length ≤ 18 :=
    (Nat.length_toDigits_le_iff (by decide) (by decide)).mpr (hcoefficient.trans_lt (by norm_num))
  have hleading : d.leading.natAbs < 2 ^ 31 := by
    have := hshort.exponent_le
    have : 0 < (Nat.toDigits 10 d.coefficient).length := Nat.length_toDigits_pos
    rw [Decimal.leading]
    omega
  obtain ⟨digits, shift, ⟨l, hnumber, hvalue⟩, hfits, hstands, hshift, hdigits⟩ :=
    Decimal.text_reads hpos (hcoefficient.trans_lt (by decide)) hleading
  have hdigits' : 0 < digits := by
    have hvalue : 0 < (digits : ℚ) * 10 ^ shift := hstands ▸ (ten_zpow_pos _).trans_le hshort.low
    exact Nat.cast_pos.mp ((mul_pos_iff_of_pos_right (ten_zpow_pos shift)).mp hvalue)
  have hshift' : shift.natAbs ≤ 22 := by
    have hone : (1 : ℚ) ≤ digits := by exact_mod_cast hdigits'
    have hpower : (10 : ℚ) ^ shift ≤ 10 ^ (m.decimalExponent + 1) :=
      (le_mul_of_one_le_left (ten_zpow_pos _).le hone).trans (hstands.trans_le hshort.high)
    have := (zpow_le_zpow_iff_right₀ (by norm_num : (1 : ℚ) < 10)).mp hpower
    omega
  obtain ⟨z, hscaled, hround⟩ := Json.scaled_rounds hdigits' hfits hshift'
  have herror := Json.abs_scaled_sub_le hdigits' hfits hshift' hround
  have hnear := hshort.nearest.abs_sub_le hm
  have hbits := hm.toRat_bounds.1
  rw [hstands] at herror
  refine ⟨l, z, ?_, hvalue.trans hscaled, ?_, fun hcoefficient hsmall ↦ ?_⟩
  · have hd' : m.shortest Json.numberLayout.tie = d := hd
    simp only [text, if_neg hzero, hd', String.toList_ofList]
    exact hnumber
  · rw [abs_le] at herror hnear ⊢
    norm_num at herror hnear hbits ⊢
    constructor <;> linarith [herror.1, herror.2, hnear.1, hnear.2]
  · have hexact : digits ≤ 2 ^ 53 := by
      have hcoefficient' : (d.coefficient : ℚ) ≤ 2 ^ 53 := by exact_mod_cast hcoefficient
      have hten : 10 * d.toRat ≤ 2 ^ 53 := by
        have := (abs_le.mp hnear).2
        norm_num at hbits hsmall ⊢
        linarith
      have : (digits : ℚ) ≤ 2 ^ 53 := hdigits.trans (max_le hcoefficient' hten)
      exact_mod_cast this
    rw [toRat_ofNat hexact, hstands] at hround
    exact hshort.nearest.eq_of_rounds hm hround

end Magnitude

end SerialLine

import SerialLine.Proofs.Binary64.Nearest
/-!
# The shortest decimal of a magnitude

The digits that a magnitude is written with stand for a number within half a unit of its last place
(`Shortens`). They are looked for on finer and finer grids; on the seventeenth the point next to the
magnitude is near enough (`nearest_of_near`), so the search ends, and there are no more than
seventeen digits (`shortest_shortens`).
-/

set_option autoImplicit false

namespace SerialLine

/-- The exact number. -/
def Decimal.toRat (d : Decimal) : ℚ := d.coefficient * 10 ^ d.exponent

theorem ten_zpow_pos (e : ℤ) : (0 : ℚ) < 10 ^ e := zpow_pos (by norm_num) e

theorem Decimal.coefficient_mul_le {d : Decimal} {s : ℤ} (h : s ≤ d.exponent) :
    (d.coefficient : ℚ) * 10 ^ s ≤ d.toRat :=
  mul_le_mul_of_nonneg_left (zpow_le_zpow_right₀ (by norm_num) h) (Nat.cast_nonneg _)

theorem toDigits_length_bounds {n : ℕ} (hn : 0 < n) :
    10 ^ ((Nat.toDigits 10 n).length - 1) ≤ n ∧ n < 10 ^ (Nat.toDigits 10 n).length := by
  have hpos : 0 < (Nat.toDigits 10 n).length := Nat.length_toDigits_pos
  refine ⟨?_, (Nat.length_toDigits_le_iff (by decide) hpos).mp (Nat.le_refl _)⟩
  by_contra hlt
  rcases Nat.eq_zero_or_pos ((Nat.toDigits 10 n).length - 1) with hzero | hone
  · rw [hzero, pow_zero] at hlt
    omega
  · have := (Nat.length_toDigits_le_iff (by decide) hone).mpr (Nat.lt_of_not_le hlt)
    omega

namespace Magnitude

variable {m : Magnitude}

/-- The first digit stands at this exponent. -/
theorem decimalExponent_bounds (h : 0 < m.toRat) :
    (10 : ℚ) ^ m.decimalExponent ≤ m.toRat ∧ m.toRat < 10 ^ (m.decimalExponent + 1) := by
  have hnum : 0 < m.num := num_pos_of_div_pos (m.num_div_den ▸ h)
  have hden : (0 : ℚ) < m.den := Nat.cast_pos.mpr m.den_pos
  have hnum' : (0 : ℚ) < m.num := Nat.cast_pos.mpr hnum
  unfold decimalExponent
  rw [← num_div_den]
  split
  · next hle =>
    obtain ⟨hlow, hhigh⟩ := toDigits_length_bounds (Nat.div_pos hle m.den_pos)
    obtain ⟨k, hk⟩ := Nat.exists_eq_add_one.mpr
      (Nat.length_toDigits_pos : 0 < (Nat.toDigits 10 (m.num / m.den)).length)
    rw [hk, Nat.add_sub_cancel] at hlow
    rw [hk] at hhigh ⊢
    have hlow' : 10 ^ k * m.den ≤ m.num := (Nat.le_div_iff_mul_le m.den_pos).mp hlow
    have hhigh' : m.num < 10 ^ (k + 1) * m.den := (Nat.div_lt_iff_lt_mul m.den_pos).mp hhigh
    rw [Nat.cast_add, Nat.cast_one, add_sub_cancel_right, le_div_iff₀ hden, div_lt_iff₀ hden,
      ← Nat.cast_succ, zpow_natCast, zpow_natCast]
    exact ⟨by exact_mod_cast hlow', by exact_mod_cast hhigh'⟩
  · next hlt =>
    have habove : 0 < (m.den - 1) / m.num := Nat.div_pos (by omega) hnum
    obtain ⟨hlow, hhigh⟩ := toDigits_length_bounds habove
    simp only [if_neg habove.ne']
    obtain ⟨k, hk⟩ := Nat.exists_eq_add_one.mpr
      (Nat.length_toDigits_pos : 0 < (Nat.toDigits 10 ((m.den - 1) / m.num)).length)
    rw [hk, Nat.add_sub_cancel] at hlow
    rw [hk] at hhigh ⊢
    have hlow' : 10 ^ k * m.num < m.den := by
      have := (Nat.le_div_iff_mul_le hnum).mp hlow
      have := m.den_pos
      omega
    have hhigh' : m.den ≤ 10 ^ (k + 1) * m.num := by
      have := (Nat.div_lt_iff_lt_mul hnum).mp hhigh
      omega
    have hexponent : -((k + 1 : ℕ) : ℤ) + 1 = -(k : ℤ) := by
      push_cast
      ring
    rw [hexponent, zpow_neg, zpow_neg, zpow_natCast, zpow_natCast, inv_le_iff_one_le_mul₀
      (by positivity), div_mul_eq_mul_div, le_div_iff₀ hden, one_mul, div_lt_iff₀ hden, inv_mul_eq_div,
      lt_div_iff₀ (by positivity), mul_comm (m.num : ℚ) (10 ^ k)]
    exact ⟨by rw [mul_comm]; exact_mod_cast hhigh', by exact_mod_cast hlow'⟩

theorem le_decimalExponent {k : ℤ} (h : (10 : ℚ) ^ k ≤ m.toRat) : k ≤ m.decimalExponent := by
  have hbelow := (decimalExponent_bounds ((ten_zpow_pos k).trans_le h)).2
  have := (zpow_lt_zpow_iff_right₀ (by norm_num : (1 : ℚ) < 10)).mp (h.trans_lt hbelow)
  omega

theorem decimalExponent_lt {k : ℤ} (hpos : 0 < m.toRat) (h : m.toRat < 10 ^ k) :
    m.decimalExponent < k :=
  (zpow_lt_zpow_iff_right₀ (by norm_num : (1 : ℚ) < 10)).mp
    ((decimalExponent_bounds hpos).1.trans_lt h)

/-- A candidate and the ends of the interval, in quarters of the last place. -/
theorem quarter_eq (s : ℤ) (c : ℕ) :
    ((c * Nat.pow 10 s.toNat * Nat.pow 2 (-(m.exponent - 2)).toNat : ℕ) : ℚ) /
      (Nat.pow 2 (m.exponent - 2).toNat * Nat.pow 10 (-s).toNat : ℕ) =
        c * 10 ^ s / (2 ^ m.exponent / 4) := by
  have htwo := zpow_eq_div_toNat two_ne_zero (m.exponent - 2)
  have hten := zpow_eq_div_toNat (by decide : 10 ≠ 0) s
  have hquarter : (2 : ℚ) ^ m.exponent / 4 = 2 ^ (m.exponent - 2) := by
    rw [zpow_sub₀ two_ne_zero]
    norm_num
  push_cast at htwo hten
  rw [hquarter, htwo, hten]
  simp only [Nat.pow_eq]
  push_cast
  field_simp

/-- What is admitted is what is rounded to the magnitude. -/
theorem admits_iff {s : ℤ} {c : ℕ} : m.admits s c ↔ m.Nearest (c * 10 ^ s) := by
  have hunit : (0 : ℚ) < (Nat.pow 2 (m.exponent - 2).toNat * Nat.pow 10 (-s).toNat : ℕ) :=
    Nat.cast_pos.mpr (Nat.mul_pos (Nat.pow_pos two_pos) (Nat.pow_pos (by decide)))
  rw [Nearest, ← quarter_eq]
  simp only [le_div_iff₀ hunit, div_le_iff₀ hunit, lt_div_iff₀ hunit, div_lt_iff₀ hunit]
  unfold admits
  simp only
  split <;> rw [decide_eq_true_iff] <;> norm_cast

/-- What is nearer than half a step of the seventeenth grid is rounded to the magnitude. -/
theorem nearest_of_near (hm : m.Normal) {step q : ℚ} (hgrid : step * 10 ^ 16 ≤ m.toRat)
    (h : |q - m.toRat| ≤ step / 2) : m.Nearest q := by
  have hunit := two_zpow_pos m.exponent
  have hself : m.toRat / 2 ^ m.exponent = m.significand := by
    rw [toRat, mul_div_cancel_right₀ _ hunit.ne']
  have hbits : (m.significand : ℚ) < 2 ^ 53 := by exact_mod_cast hm.high
  have hnear : |q / 2 ^ m.exponent - m.significand| ≤ m.significand / 10 ^ 16 / 2 := by
    have hscale : m.toRat / 2 ^ m.exponent / 10 ^ 16 / 2 * 2 ^ m.exponent =
        m.toRat / 10 ^ 16 / 2 := by
      field_simp
    rw [← hself, ← sub_div, abs_div, abs_of_pos hunit, div_le_iff₀ hunit, hscale]
    linarith
  have hhalf : |q / 2 ^ m.exponent - m.significand| < 1 / 2 := by
    norm_num at hnear ⊢
    linarith
  refine (nearest_iff hm).mpr ⟨hhalf.le, fun heq ↦ absurd heq hhalf.ne, fun hs ↦ ?_⟩
  have hlow := (abs_le.mp hnear).1
  rw [hs] at hlow ⊢
  push_cast at hlow ⊢
  norm_num at hlow ⊢
  linarith

/-! ### The search on finer and finer grids -/

theorem onGrid?_eq_some {tie : Tie} {s : ℤ} {c : ℕ} (h : m.onGrid? tie s = some c) :
    m.admits s c ∧ (c = m.num * Nat.pow 10 (-s).toNat / (m.den * Nat.pow 10 s.toNat) ∨
      c = m.num * Nat.pow 10 (-s).toNat / (m.den * Nat.pow 10 s.toNat) + 1) := by
  unfold onGrid? at h
  simp only at h
  split at h
  · next hbelow habove =>
    split at h
    · cases h
      exact ⟨hbelow, .inl rfl⟩
    · split at h
      · cases h
        exact ⟨habove, .inr rfl⟩
      · cases tie with
        | up =>
          cases h
          exact ⟨habove, .inr rfl⟩
        | toEven =>
          simp only at h
          split at h
          · cases h
            exact ⟨hbelow, .inl rfl⟩
          · cases h
            exact ⟨habove, .inr rfl⟩
  · next hbelow _ =>
    cases h
    exact ⟨hbelow, .inl rfl⟩
  · next _ habove =>
    cases h
    exact ⟨habove, .inr rfl⟩
  · cases h

theorem onGrid?_ne_none {tie : Tie} {s : ℤ} {c : ℕ}
    (hc : c = m.num * Nat.pow 10 (-s).toNat / (m.den * Nat.pow 10 s.toNat) ∨
      c = m.num * Nat.pow 10 (-s).toNat / (m.den * Nat.pow 10 s.toNat) + 1)
    (h : m.admits s c) : m.onGrid? tie s ≠ none := by
  intro hnone
  unfold onGrid? at hnone
  simp only at hnone
  split at hnone
  · split at hnone
    · cases hnone
    · split at hnone
      · cases hnone
      · cases tie <;> cases hnone
  · cases hnone
  · cases hnone
  · next hbelow habove =>
    rcases hc with rfl | rfl
    · rw [h] at hbelow
      cases hbelow
    · rw [h] at habove
      cases habove

/-- The point of a grid below a number, and how far it is away. -/
theorem below_bounds (m : Magnitude) (s : ℤ) :
    let below := m.num * Nat.pow 10 (-s).toNat / (m.den * Nat.pow 10 s.toNat)
    (below : ℚ) * 10 ^ s ≤ m.toRat ∧ m.toRat < (below + 1) * 10 ^ s := by
  have hstep := ten_zpow_pos s
  have hpos : 0 < m.den * Nat.pow 10 s.toNat := Nat.mul_pos m.den_pos (Nat.pow_pos (by decide))
  have hpos' : (0 : ℚ) < (m.den * Nat.pow 10 s.toNat : ℕ) := Nat.cast_pos.mpr hpos
  have hscaled := scaled_eq (n := m.num) (by decide : 10 ≠ 0) m.den_pos s
  rw [num_div_den] at hscaled
  intro below
  rw [← le_div_iff₀ hstep, ← div_lt_iff₀ hstep]
  have hten : ((10 : ℕ) : ℚ) = 10 := by norm_num
  rw [hten] at hscaled
  rw [← hscaled, le_div_iff₀ hpos', div_lt_iff₀ hpos']
  constructor
  · exact_mod_cast Nat.div_mul_le_self _ _
  · exact_mod_cast Nat.lt_mul_of_div_lt (Nat.lt_succ_self below) hpos

/-- The seventeenth grid has a point that reads back as the number. -/
theorem onGrid?_of_fine (tie : Tie) (hm : m.Normal) {s : ℤ}
    (hgrid : (10 : ℚ) ^ s * 10 ^ 16 ≤ m.toRat) : m.onGrid? tie s ≠ none := by
  obtain ⟨hlow, hhigh⟩ := below_bounds m s
  generalize hbelow : m.num * Nat.pow 10 (-s).toNat / (m.den * Nat.pow 10 s.toNat) = below
    at hlow hhigh
  have hstep := ten_zpow_pos s
  -- One of the two neighbours is not farther away than half a step.
  rcases le_or_gt (m.toRat - below * 10 ^ s) (10 ^ s / 2) with hnear | hfar
  · refine onGrid?_ne_none (.inl hbelow.symm) (admits_iff.mpr (nearest_of_near hm hgrid ?_))
    rw [abs_le]
    constructor <;> linarith
  · refine onGrid?_ne_none (c := below + 1) (.inr (by rw [hbelow]))
      (admits_iff.mpr (nearest_of_near hm hgrid ?_))
    rw [Nat.cast_add, Nat.cast_one, abs_le]
    constructor <;> linarith

/-- If any point of a grid is rounded to the magnitude, a point next to the magnitude is. -/
theorem onGrid?_of_nearest (tie : Tie) (hm : m.Normal) {s : ℤ} {k : ℕ}
    (h : m.Nearest (k * 10 ^ s)) : m.onGrid? tie s ≠ none := by
  obtain ⟨hlow, hhigh⟩ := below_bounds m s
  generalize hbelow : m.num * Nat.pow 10 (-s).toNat / (m.den * Nat.pow 10 s.toNat) = below
    at hlow hhigh
  have hstep := ten_zpow_pos s
  rcases le_or_gt k below with hle | hgt
  · have hk : (k : ℚ) * 10 ^ s ≤ below * 10 ^ s :=
      mul_le_mul_of_nonneg_right (by exact_mod_cast hle) hstep.le
    exact onGrid?_ne_none (.inl hbelow.symm) (admits_iff.mpr (h.between hm (.inl ⟨hk, hlow⟩)))
  · have hk : ((below : ℚ) + 1) * 10 ^ s ≤ k * 10 ^ s :=
      mul_le_mul_of_nonneg_right (by exact_mod_cast hgt) hstep.le
    refine onGrid?_ne_none (c := below + 1) (.inr (by rw [hbelow])) (admits_iff.mpr ?_)
    rw [Nat.cast_add, Nat.cast_one]
    exact h.between hm (.inr ⟨hhigh.le, hk⟩)

/-- The search ends at the first grid with a point that reads back. -/
theorem shortestFrom_eq {tie : Tie} {s : ℤ} {grids k : ℕ} (hk : k < grids)
    (h : m.onGrid? tie (s - k) ≠ none) :
    ∃ c j : ℕ, j ≤ k ∧ m.shortestFrom tie s grids = ⟨c, s - j⟩ ∧
      m.onGrid? tie (s - j) = some c := by
  induction grids generalizing s k with
  | zero => cases hk
  | succ grids ih =>
    rw [shortestFrom]
    cases hgrid : m.onGrid? tie s with
    | some c => exact ⟨c, 0, Nat.zero_le k, by simp, by simpa using hgrid⟩
    | none =>
      cases k with
      | zero =>
        rw [Nat.cast_zero, sub_zero] at h
        exact absurd hgrid h
      | succ k =>
        have hlater : s - 1 - (k : ℤ) = s - (k + 1 : ℕ) := by
          push_cast
          ring
        obtain ⟨c, j, hj, hfrom, hsome⟩ := ih (s := s - 1) (k := k) (by omega) (hlater ▸ h)
        have hearlier : s - 1 - (j : ℤ) = s - (j + 1 : ℕ) := by
          push_cast
          ring
        rw [hearlier] at hfrom hsome
        exact ⟨c, j + 1, by omega, hfrom, hsome⟩

/-- A decimal with at most seventeen digits that is rounded to the magnitude, where the first digit
stands for the given power of ten. -/
structure Shortens (m : Magnitude) (d : Decimal) (leading : ℤ) : Prop where
  nearest : m.Nearest d.toRat
  exponent_le : d.exponent ≤ leading
  le_exponent : leading - 16 ≤ d.exponent
  low : (10 : ℚ) ^ leading ≤ d.toRat
  high : d.toRat ≤ 10 ^ (leading + 1)

theorem Shortens.coefficient_pos {d : Decimal} {leading : ℤ} (h : m.Shortens d leading) :
    0 < d.coefficient := by
  have hpos : 0 < d.toRat := (ten_zpow_pos _).trans_le h.low
  exact Nat.cast_pos.mp ((mul_pos_iff_of_pos_right (ten_zpow_pos d.exponent)).mp hpos)

theorem Shortens.coefficient_le {d : Decimal} {leading : ℤ} (h : m.Shortens d leading) :
    d.coefficient ≤ 10 ^ 17 := by
  have hscaled : (d.coefficient : ℚ) * 10 ^ d.exponent ≤ 10 ^ (17 : ℤ) * 10 ^ d.exponent := by
    rw [← zpow_add₀ (by norm_num)]
    exact h.high.trans (zpow_le_zpow_right₀ (by norm_num) (by linarith [h.le_exponent]))
  have hle : (d.coefficient : ℚ) ≤ (10 ^ 17 : ℕ) := by
    push_cast
    exact_mod_cast le_of_mul_le_mul_right hscaled (ten_zpow_pos d.exponent)
  exact Nat.cast_le.mp hle

/-- What a magnitude is written with. -/
theorem shortest_shortens (tie : Tie) (hm : m.Normal) :
    m.Shortens (m.shortest tie) m.decimalExponent := by
  obtain ⟨hlow, hhigh⟩ := decimalExponent_bounds hm.toRat_pos
  have hfine : (10 : ℚ) ^ (m.decimalExponent - (16 : ℕ)) * 10 ^ 16 ≤ m.toRat := by
    rw [zpow_sub₀ (by norm_num), zpow_natCast, div_mul_cancel₀ _ (by norm_num)]
    exact hlow
  obtain ⟨c, j, hj, hfrom, hsome⟩ :=
    shortestFrom_eq (by decide : 16 < 17) (onGrid?_of_fine tie hm hfine)
  obtain ⟨hadmits, hc⟩ := onGrid?_eq_some hsome
  obtain ⟨hbelow, habove⟩ := below_bounds m (m.decimalExponent - j)
  have hzero : ¬ m.IsZero := by
    have := hm.low
    unfold IsZero
    omega
  generalize m.num * Nat.pow 10 (-(m.decimalExponent - j)).toNat /
    (m.den * Nat.pow 10 (m.decimalExponent - j).toNat) = below at hc hbelow habove
  have hstep := ten_zpow_pos (m.decimalExponent - j)
  have hfirst : (10 : ℚ) ^ m.decimalExponent = (10 ^ j : ℕ) * 10 ^ (m.decimalExponent - j) := by
    rw [Nat.cast_pow, ← zpow_natCast, Nat.cast_ofNat, ← zpow_add₀ (by norm_num)]
    congr 1
    ring
  have hnext : (10 : ℚ) ^ (m.decimalExponent + 1) =
      (10 ^ (j + 1) : ℕ) * 10 ^ (m.decimalExponent - j) := by
    rw [Nat.cast_pow, ← zpow_natCast, Nat.cast_ofNat, ← zpow_add₀ (by norm_num)]
    congr 1
    push_cast
    ring
  have hlow' : 10 ^ j ≤ below := by
    have := lt_of_mul_lt_mul_right ((hfirst ▸ hlow).trans_lt habove) hstep.le
    exact Nat.lt_succ_iff.mp (by exact_mod_cast this)
  have hhigh' : below < 10 ^ (j + 1) := by
    have := lt_of_mul_lt_mul_right (hbelow.trans_lt (hnext ▸ hhigh)) hstep.le
    exact_mod_cast this
  have hc' : 10 ^ j ≤ c ∧ c ≤ 10 ^ (j + 1) := by omega
  rw [shortest, if_neg hzero, hfrom]
  refine ⟨admits_iff.mp hadmits, ?_, ?_, ?_, ?_⟩
  · simp only
    omega
  · simp only
    omega
  · rw [hfirst]
    exact mul_le_mul_of_nonneg_right (by exact_mod_cast hc'.1) hstep.le
  · rw [hnext]
    exact mul_le_mul_of_nonneg_right (by exact_mod_cast hc'.2) hstep.le

/-- The digits go no further than those of any other decimal that is rounded to the magnitude. -/
theorem le_exponent_shortest (tie : Tie) (hm : m.Normal) {s : ℤ} {k : ℕ}
    (h : m.Nearest (k * 10 ^ s)) (hs : m.decimalExponent - 16 ≤ s) :
    min s m.decimalExponent ≤ (m.shortest tie).exponent := by
  have hzero : ¬ m.IsZero := by
    have := hm.low
    unfold IsZero
    omega
  -- The decimal is on one of the grids, or else on the first.
  obtain ⟨j, hj, hgrid⟩ : ∃ j : ℕ, m.decimalExponent - j = min s m.decimalExponent ∧
      m.onGrid? tie (m.decimalExponent - j) ≠ none := by
    rcases le_total s m.decimalExponent with hle | hge
    · obtain ⟨j, hj⟩ := Int.eq_ofNat_of_zero_le (sub_nonneg.mpr hle)
      have hstep : m.decimalExponent - j = s := by omega
      exact ⟨j, hstep.trans (min_eq_left hle).symm, hstep ▸ onGrid?_of_nearest tie hm h⟩
    · obtain ⟨j, hj⟩ := Int.eq_ofNat_of_zero_le (sub_nonneg.mpr hge)
      have hpoint : (k : ℚ) * 10 ^ s = (k * 10 ^ j : ℕ) * 10 ^ m.decimalExponent := by
        rw [← sub_add_cancel s m.decimalExponent, hj, zpow_add₀ (by norm_num), zpow_natCast]
        push_cast
        ring
      refine ⟨0, by rw [min_eq_right hge, Nat.cast_zero, sub_zero], ?_⟩
      rw [Nat.cast_zero, sub_zero]
      exact onGrid?_of_nearest tie hm (hpoint ▸ h)
  obtain ⟨c, i, hi, hfrom, -⟩ := shortestFrom_eq (by omega : j < 17) hgrid
  rw [shortest, if_neg hzero, hfrom]
  simp only
  omega

end Magnitude

end SerialLine

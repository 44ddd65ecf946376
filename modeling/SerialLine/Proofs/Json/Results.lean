import SerialLine.Proofs.Binary64.Rounding
import SerialLine.Proofs.Json.Numbers
/-!
# What readers yield

Some properties hold of whatever a reader yields, no matter what stands in the text (`Ensures`).
Numbers are the result of a rounding (`binary64_ensures`), natural numbers are below their limit,
and a record keeps a property that its default has and that every field preserves
(`record_ensures`), be it given as an object or as a list.
-/

set_option autoImplicit false

namespace SerialLine

/-- Some number is rounded to the magnitude. -/
def Magnitude.IsRounded (m : Magnitude) : Prop := ∃ q, m.Rounds q

/-- The same for a number with a sign, if it is finite. -/
def Binary64.IsRounded (x : Binary64) : Prop :=
  ∀ ⦃negative m⦄, x = .finite negative m → m.IsRounded

namespace Json.Reader

variable {α β σ : Type} {P : α → Prop} {Q : β → Prop}

/-- Whatever the reader yields has the property. -/
def Ensures (r : Reader α) (P : α → Prop) : Prop :=
  ∀ ⦃cs a left⦄, r cs = .ok (a, left) → P a

theorem Fails.ensures {r : Reader α} (h : r.Fails) (P : α → Prop) : r.Ensures P :=
  fun _ _ _ hdone ↦ absurd hdone (h _ _ _)

theorem ensures_pure {a : α} (h : P a) : (pure a : Reader α).Ensures P := by
  intro cs a left hdone
  cases hdone
  exact h

theorem Ensures.bind {r : Reader α} {f : α → Reader β} (hr : r.Ensures P)
    (hf : ∀ a, P a → (f a).Ensures Q) : (r >>= f).Ensures Q := by
  intro cs b left hdone
  obtain ⟨a, mid, hfirst, hthen⟩ := exists_of_bind hdone
  exact hf a (hr hfirst) hthen

/-- What comes last decides. -/
theorem ensures_bind {r : Reader α} {f : α → Reader β} (hf : ∀ a, (f a).Ensures Q) :
    (r >>= f).Ensures Q :=
  Ensures.bind (P := fun _ ↦ True) (fun _ _ _ _ ↦ trivial) fun a _ ↦ hf a

/-! ### Numbers -/

theorem isRounded_zero : Magnitude.zero.IsRounded := ⟨0, 0, 1, one_pos, by simp, rfl⟩

theorem isRounded_ofNat (n : ℕ) : (Magnitude.ofNat n).IsRounded := ⟨_, Magnitude.rounds_ofNat n⟩

theorem powerOfTen_pos (n : ℕ) : 0 < (powerOfTen n).toRat := by
  have hpow : (0 : ℚ) < (Nat.pow 10 n : ℕ) := Nat.cast_pos.mpr (Nat.pow_pos (by decide))
  have hbelow := (abs_le.mp (Magnitude.abs_ofNat_sub_le (Nat.pow 10 n))).1
  rw [powerOfTen]
  linarith

/-- Scaling rounds with every step. By induction on the divisions. -/
theorem scaleByPower_isRounded {divisions : ℕ} {m m' : Magnitude} {power : ℤ} (hm : m.IsRounded)
    (h : scaleByPower divisions m power = some m') : m'.IsRounded := by
  have hdiv : ∀ (a : Magnitude) (n : ℕ), (a.div (powerOfTen n)).IsRounded :=
    fun a n ↦ ⟨_, Magnitude.rounds_div a (powerOfTen_pos n)⟩
  induction divisions generalizing m power with
  | zero =>
    cases h
    exact hm
  | succ divisions ih =>
    rw [scaleByPower] at h
    split at h
    · split at h
      · simp only at h
        split at h
        · cases h
          exact ⟨_, Magnitude.rounds_mul _ _⟩
        · cases h
      · cases h
        exact hdiv m _
    · split at h
      · cases h
        exact hm
      · split at h
        · cases h
        · exact ih (hdiv m _) h

theorem isRounded_finite {negative : Bool} {m : Magnitude} (h : m.IsRounded) :
    (Binary64.finite negative m).IsRounded := by
  intro negative' m' heq
  cases heq
  exact h

theorem integer_isRounded (n : ℤ) : (Number.integer n).toBinary64.IsRounded :=
  isRounded_finite (isRounded_ofNat _)

/-- The value of a number is whole or rounded. -/
theorem value_isRounded {l : Literal} {n : Number} (h : l.value = .ok n) :
    n.toBinary64.IsRounded := by
  unfold Literal.value at h
  simp only at h
  split at h
  · split at h
    · split at h
      · next m hm =>
        cases h
        exact isRounded_finite (scaleByPower_isRounded (isRounded_ofNat _) hm)
      · cases h
    · split at h
      · split at h
        · cases h
          exact integer_isRounded _
        · cases h
          exact isRounded_finite (isRounded_ofNat _)
      · cases h
        exact integer_isRounded _
  · split at h
    · split at h
      · next m hm =>
        cases h
        exact isRounded_finite (scaleByPower_isRounded (isRounded_ofNat _) hm)
      · cases h
    · split at h
      · cases h
        exact isRounded_finite isRounded_zero
      · cases h

theorem number_ensures : number.Ensures fun n ↦ n.toBinary64.IsRounded := by
  refine ensures_bind fun l ↦ ?_
  cases hvalue : l.value with
  | ok n => exact ensures_pure (value_isRounded hvalue)
  | error left =>
    intro cs n left h
    cases h

theorem anyNumber_ensures (expected : String) :
    (anyNumber expected).Ensures fun n ↦ n.toBinary64.IsRounded := by
  refine ensures_bind fun next ↦ ?_
  cases next with
  | none => exact (fail_fails _ _).ensures _
  | some c =>
    simp only
    split
    · exact number_ensures
    · exact (wrongType_fails expected).ensures _

theorem binary64_ensures : binary64.Ensures Binary64.IsRounded :=
  (anyNumber_ensures _).bind fun _ hn ↦ ensures_pure hn

/-- Natural numbers stay below their limit. -/
theorem natural_ensures (expected : String) (limit : ℕ) :
    (natural expected limit).Ensures (· < limit) := by
  refine ensures_bind fun n ↦ ?_
  cases n with
  | integer n =>
    simp only
    split
    · next h => exact ensures_pure ((Int.toNat_lt h.1).mpr h.2)
    · exact (fail_fails _ _).ensures _
  | float x => exact (fail_fails _ _).ensures _

/-! ### Records -/

variable {P : σ → Prop} {fields : List (Field σ)} {given : List String} {s : σ}

/-- Every field keeps the property. -/
def Preserves (P : σ → Prop) (fields : List (Field σ)) : Prop :=
  ∀ field ∈ fields, ∀ (place : Place) (s : σ), P s → (field.store place s).Ensures P

theorem member_ensures (hfields : Preserves P fields) (hs : P s) :
    (member fields given s).Ensures fun p ↦ P p.2 := by
  refine ensures_bind fun _ ↦ ensures_bind fun key ↦ ?_
  cases hfind : fields.find? (·.name = key) with
  | none => exact ensures_bind fun _ ↦ ensures_bind fun _ ↦ ensures_pure hs
  | some field =>
    simp only
    split
    · intro cs p left h
      cases h
    · exact ensures_bind fun _ ↦
        (hfields field (List.mem_of_find?_eq_some hfind) _ s hs).bind fun _ hs' ↦ ensures_pure hs'

/-- By induction on the members that are left. -/
theorem members_ensures (hfields : Preserves P fields) {count : ℕ} {first : Bool} (hs : P s) :
    (members fields count first given s).Ensures P := by
  induction count generalizing first given s with
  | zero => exact ensures_pure hs
  | succ count ih =>
    refine ensures_bind fun more ↦ ?_
    cases more with
    | true => exact (member_ensures hfields hs).bind fun _ hs' ↦ ih hs'
    | false => exact ensures_pure hs

/-- By induction on the fields that are left. -/
theorem elements_ensures (hfields : Preserves P fields) {first : Bool} (hs : P s) :
    (elements fields first s).Ensures P := by
  induction fields generalizing first s with
  | nil => exact ensures_pure hs
  | cons field fields ih =>
    refine ensures_bind fun more ↦ ?_
    cases more with
    | true =>
      exact (hfields field List.mem_cons_self _ s hs).bind fun _ hs' ↦
        ih (fun f hf ↦ hfields f (List.mem_cons_of_mem field hf)) hs'
    | false => exact ensures_pure hs

/-- A record keeps what its default has. -/
theorem record_ensures (expected : String) (hfields : Preserves P fields) (hs : P s) :
    (record expected fields s).Ensures P := by
  refine ensures_bind fun next ↦ ?_
  split
  · exact (fail_fails _ _).ensures _
  · refine ensures_bind fun _ ↦ Ensures.bind (P := P) (fun cs a left h ↦ ?_) fun r hr ↦
      ensures_bind fun _ ↦ ensures_pure hr
    exact members_ensures hfields hs h
  · exact ensures_bind fun _ ↦ (elements_ensures hfields hs).bind fun r hr ↦
      ensures_bind fun _ ↦ ensures_pure hr
  · exact (wrongType_fails expected).ensures _

/-- What a whole text is read as has the property, too. -/
theorem Ensures.of_read {r : Reader α} {P : α → Prop} (h : r.Ensures P) {text : String} {a : α}
    (hread : read r text = .ok a) : P a := by
  obtain ⟨cs, rfl⟩ : ∃ cs, text = String.ofList cs := ⟨text.toList, String.ofList_toList.symm⟩
  obtain ⟨left, hdone, -⟩ := read_eq_ok.mp hread
  exact h hdone

end Json.Reader

end SerialLine

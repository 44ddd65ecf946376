import Mathlib.Data.List.Forall2
import Mathlib.Logic.Function.Basic
import SerialLine.Proofs.Json.Repeats
/-!
# Records by what is given for them

A schema says which keys an object may have for a record, which values they stand for, and how
these are spelled. What is given in an object (`Gives`) does not depend on the order of its members
or on what is unknown (`Gives.rearranged`). The reader of a record whose fields fit the schema
replaces exactly what is given (`ReadBy.record_takes`), and refuses an object that gives a key twice
(`ReadBy.record_fails`).
-/

set_option autoImplicit false

namespace SerialLine.Json

/-- The fields of a record by key: what they hold, how it is spelled, and what it is to replace
some of them. -/
structure Schema (σ : Type) where
  Key : Type
  [decEq : DecidableEq Key]
  keys : List Key
  mem_keys : ∀ k, k ∈ keys
  name : Key → String
  name_injective : Function.Injective name
  Value : Key → Type
  Spelled : (k : Key) → Value k → List Char → Prop
  replace : ((k : Key) → Option (Value k)) → σ → σ
  replace_none : ∀ s, replace (fun _ ↦ none) s = s
  replace_some : ∀ (given : (k : Key) → Option (Value k)) (k : Key) (a : Value k) (s : σ),
    given k = some a → replace given s = replace (Function.update given k none)
      (replace (Function.update (fun _ ↦ none) k (some a)) s)

namespace Schema

variable {σ : Type} (schema : Schema σ)

instance : DecidableEq schema.Key := schema.decEq

/-- A value for some of the fields. -/
abbrev Given := (k : schema.Key) → Option (schema.Value k)

def names : List String := schema.keys.map schema.name

/-- An object gives these values and no others. It may have more members, under other keys. -/
def Gives (given : schema.Given) (ms : List (String × List Char)) : Prop :=
  ∀ k, match given k with
    | none => ms.filter (·.1 = schema.name k) = []
    | some a => ∃ v, ms.filter (·.1 = schema.name k) = [(schema.name k, v)] ∧ schema.Spelled k a v

/-- An object gives a key twice. -/
def Twice (ms : List (String × List Char)) : Prop :=
  ∃ name ∈ schema.names, 1 < ms.countP (·.1 = name)

/-- The known members of two objects are the same up to their order and to a relation between
single members. Unknown ones are free. -/
def Rearranged (Same : String × List Char → String × List Char → Prop)
    (ms ms' : List (String × List Char)) : Prop :=
  ∃ known, known.Perm (ms.filter (·.1 ∈ schema.names)) ∧
    List.Forall₂ Same known (ms'.filter (·.1 ∈ schema.names))

variable {schema} {given : schema.Given} {ms ms' : List (String × List Char)}

theorem name_mem_names (k : schema.Key) : schema.name k ∈ schema.names :=
  List.mem_map_of_mem (schema.mem_keys k)

theorem filter_known (ms : List (String × List Char)) (k : schema.Key) :
    (ms.filter (·.1 ∈ schema.names)).filter (·.1 = schema.name k) =
      ms.filter (·.1 = schema.name k) := by
  rw [List.filter_filter]
  refine List.filter_congr fun m _ ↦ ?_
  by_cases hm : m.1 = schema.name k
  · simp [hm, name_mem_names]
  · simp [hm]

/-- What is given does not change when the members are rearranged, if values of the same member
are spelled alike. -/
theorem Gives.rearranged {Same : String × List Char → String × List Char → Prop}
    (hkey : ∀ m m', Same m m' → m.1 = m'.1)
    (hspelled : ∀ k a v v', Same (schema.name k, v) (schema.name k, v') →
      schema.Spelled k a v → schema.Spelled k a v')
    (h : schema.Rearranged Same ms ms') (hgives : schema.Gives given ms) :
    schema.Gives given ms' := by
  obtain ⟨known, hperm, hsame⟩ := h
  intro k
  have hpermuted : (known.filter (·.1 = schema.name k)).Perm (ms.filter (·.1 = schema.name k)) := by
    rw [← filter_known ms k]
    exact hperm.filter _
  have hfiltered : List.Forall₂ Same (known.filter (·.1 = schema.name k))
      (ms'.filter (·.1 = schema.name k)) := by
    rw [← filter_known ms' k]
    refine List.rel_filter (fun m m' hm ↦ ?_) hsame
    simp [hkey m m' hm]
  have hgiven := hgives k
  cases ha : given k with
  | none =>
    rw [ha] at hgiven
    simp only at hgiven ⊢
    rw [hgiven] at hpermuted
    rw [hpermuted.eq_nil] at hfiltered
    exact List.forall₂_nil_left_iff.mp hfiltered
  | some a =>
    rw [ha] at hgiven
    obtain ⟨v, hv, hspelling⟩ := hgiven
    rw [hv] at hpermuted
    rw [List.perm_singleton.mp hpermuted] at hfiltered
    obtain ⟨m', later, hm', hlater, hms'⟩ := List.forall₂_cons_left_iff.mp hfiltered
    obtain rfl := List.forall₂_nil_left_iff.mp hlater
    obtain ⟨key, v'⟩ := m'
    obtain rfl : schema.name k = key := hkey _ _ hm'
    exact ⟨v', hms', hspelled k a v v' hm' hspelling⟩

theorem Gives.rearranged_eq (h : schema.Rearranged (· = ·) ms ms')
    (hgives : schema.Gives given ms) : schema.Gives given ms' :=
  hgives.rearranged (fun _ _ hm ↦ congrArg _ hm)
    (fun _ _ _ _ hm hspelled ↦ (Prod.mk.inj hm).2 ▸ hspelled) h

theorem Gives.tail {m : String × List Char} (h : schema.Gives given (m :: ms))
    (hunknown : m.1 ∉ schema.names) : schema.Gives given ms := by
  intro k
  have hne : ¬ m.1 = schema.name k := by
    intro hm
    exact hunknown (hm ▸ name_mem_names k)
  have hgiven := h k
  simpa only [List.filter_cons, hne, decide_false, Bool.false_eq_true, if_false] using hgiven

/-- Behind a known member, its key is not given any more. -/
theorem Gives.without {k : schema.Key} {a : schema.Value k} {v : List Char}
    (h : schema.Gives given ((schema.name k, v) :: ms)) (ha : given k = some a) :
    schema.Gives (Function.update given k none) ms := by
  intro j
  have hgiven := h j
  by_cases hjk : j = k
  · subst hjk
    rw [ha] at hgiven
    obtain ⟨v', hv', -⟩ := hgiven
    rw [List.filter_cons_of_pos (by simp)] at hv'
    rw [Function.update_self]
    exact (List.cons.inj hv').2
  · have hne : ¬ schema.name k = schema.name j :=
      fun hname ↦ hjk (schema.name_injective hname).symm
    rw [Function.update_of_ne hjk]
    simpa only [List.filter_cons, hne, decide_false, Bool.false_eq_true, if_false] using hgiven

/-- The fields of a reader fit a schema. -/
structure ReadBy (schema : Schema σ) (fields : List (Reader.Field σ)) : Prop where
  names_eq : fields.map (·.name) = schema.names
  takes : ∀ k, ∃ field, fields.find? (·.name = schema.name k) = some field ∧
    ∀ a v s, schema.Spelled k a v →
      field.TakesMember s v (schema.replace (Function.update (fun _ ↦ none) k (some a)) s)
  whole : Reader.WholeFields fields

namespace ReadBy

variable {fields : List (Reader.Field σ)}

theorem find?_unknown (h : schema.ReadBy fields) {key : String} (hkey : key ∉ schema.names) :
    fields.find? (·.name = key) = none := by
  refine List.find?_eq_none.mpr fun field hfield heq ↦ hkey ?_
  rw [← h.names_eq, ← of_decide_eq_true heq]
  exact List.mem_map_of_mem hfield

/-- The members of an object replace what is given. By induction on the members: the first one
gives its value and leaves the rest to the later ones. -/
theorem fills (h : schema.ReadBy fields) {before : List String} (s : σ)
    (hgives : schema.Gives given ms) (hnew : ∀ k, given k ≠ none → schema.name k ∉ before) :
    Reader.Fills Reader.Field.TakesMember fields before s ms (schema.replace given s) := by
  induction ms generalizing given before s with
  | nil =>
    have hnone : given = fun _ ↦ none := by
      funext k
      have hgiven := hgives k
      cases ha : given k with
      | none => rfl
      | some a =>
        rw [ha] at hgiven
        obtain ⟨v, hv, -⟩ := hgiven
        cases hv
    rw [hnone, schema.replace_none]
    exact .nil before s
  | cons m ms ih =>
    obtain ⟨key, v⟩ := m
    by_cases hkey : key ∈ schema.names
    · obtain ⟨k, -, rfl⟩ := List.mem_map.mp hkey
      have hgiven := hgives k
      cases ha : given k with
      | none =>
        rw [ha] at hgiven
        simp at hgiven
      | some a =>
        rw [ha] at hgiven
        obtain ⟨v', hv', hspelled⟩ := hgiven
        rw [List.filter_cons_of_pos (by simp)] at hv'
        obtain ⟨hmember, hlater⟩ := List.cons.inj hv'
        obtain ⟨-, rfl⟩ := Prod.mk.inj hmember
        obtain ⟨field, hfind, htakes⟩ := h.takes k
        rw [schema.replace_some given k a s ha]
        refine .known hfind (hnew k (by simp [ha])) (htakes a v s hspelled)
          (ih _ (hgives.without ha) fun j hj ↦ ?_)
        by_cases hjk : j = k
        · rw [hjk, Function.update_self] at hj
          exact absurd rfl hj
        · rw [Function.update_of_ne hjk] at hj
          rw [List.mem_cons, not_or]
          exact ⟨fun hname ↦ hjk (schema.name_injective hname), hnew j hj⟩
    · exact .unknown (h.find?_unknown hkey) (ih s (hgives.tail hkey) hnew)

/-- An object is taken for the record with what it gives replaced. -/
theorem record_takes (h : schema.ReadBy fields) {expected : String} {start : σ} {t : List Char}
    (ht : IsObject ms t) (hgives : schema.Gives given ms) :
    (Reader.record expected fields start).Takes t (schema.replace given start) :=
  Reader.record_fills ht (h.fills start hgives fun _ _ ↦ List.not_mem_nil)

/-- An object that gives a key twice is not taken for a record, wherever it stands. -/
theorem record_fails (h : schema.ReadBy fields) {expected : String} {start r : σ}
    {t before rest left : List Char} (ht : IsObject ms t) (htwice : schema.Twice ms)
    (hbefore : Blank before) :
    Reader.record expected fields start (before ++ (t ++ rest)) ≠ .ok (r, left) := by
  intro hdone
  obtain ⟨_, hname, htwo⟩ := htwice
  obtain ⟨k, -, rfl⟩ := List.mem_map.mp hname
  obtain ⟨field, hfind, -⟩ := h.takes k
  have hone := ((Reader.fills_of_record h.whole ht hbefore hdone).count_le_one hfind).2
  exact absurd htwo (Nat.not_lt_of_le hone)

/-- Of each known member, the field has yielded something. -/
theorem yields_of_record (h : schema.ReadBy fields) {expected : String} {start r : σ}
    {t before rest left v : List Char} (ht : IsObject ms t) (hbefore : Blank before)
    (hdone : Reader.record expected fields start (before ++ (t ++ rest)) = .ok (r, left))
    {k : schema.Key} (hmem : (schema.name k, v) ∈ ms) {field : Reader.Field σ}
    (hfind : fields.find? (·.name = schema.name k) = some field) :
    ∃ s₁ s₂, field.Yields s₁ v s₂ :=
  (Reader.fills_of_record h.whole ht hbefore hdone).stored hmem hfind

end ReadBy

end Schema

end SerialLine.Json

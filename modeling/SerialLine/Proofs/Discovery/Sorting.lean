import Mathlib.Data.List.Nodup
import Mathlib.Data.List.Perm.Basic
import SerialLine.Discovery
/-!
# How a list of devices is made

The ports found become one entry for each name (`entries`), and the entries are sorted by rank.
The order of ranks is linear (`Rank.le_total`, `Rank.le_trans`, `Rank.le_antisymm`), so a list holds
the entries in the order of their ranks, whichever arrangement they come in (`list_perm`,
`list_sorted`).
-/

set_option autoImplicit false

namespace SerialLine

namespace DeviceInfo

/-! ### The order of ranks -/

theorem nameLe_total (cs ds : List Char) : nameLe cs ds ∨ nameLe ds cs := by
  induction cs generalizing ds with
  | nil => exact Or.inl (by cases ds <;> rfl)
  | cons c cs ih =>
    rcases ds with _ | ⟨d, ds⟩
    · exact Or.inr rfl
    · by_cases h : c = d
      · subst h
        simpa [nameLe] using ih ds
      · have hcode : c.toNat ≠ d.toNat := fun heq ↦ h (Char.toNat_inj.mp heq)
        simp only [nameLe, h, Ne.symm h, if_false, decide_eq_true_eq]
        omega

theorem nameLe_trans {cs ds es : List Char} (h : nameLe cs ds) (h' : nameLe ds es) :
    nameLe cs es := by
  induction cs generalizing ds es with
  | nil => cases es <;> rfl
  | cons c cs ih =>
    rcases ds with _ | ⟨d, ds⟩
    · simp [nameLe] at h
    rcases es with _ | ⟨e, es⟩
    · simp [nameLe] at h'
    by_cases hcd : c = d <;> by_cases hde : d = e
    · subst hcd hde
      simp only [nameLe, if_true] at h h' ⊢
      exact ih h h'
    · subst hcd
      simpa [nameLe, hde] using h'
    · subst hde
      simpa [nameLe, hcd] using h
    · have hce : c ≠ e := by
        rintro rfl
        simp only [nameLe, hcd, hde, if_false, decide_eq_true_eq] at h h'
        omega
      simp only [nameLe, hcd, hde, hce, if_false, decide_eq_true_eq] at h h' ⊢
      omega

theorem nameLe_antisymm {cs ds : List Char} (h : nameLe cs ds) (h' : nameLe ds cs) : cs = ds := by
  induction cs generalizing ds with
  | nil =>
    rcases ds with _ | ⟨d, ds⟩
    · rfl
    · simp [nameLe] at h'
  | cons c cs ih =>
    rcases ds with _ | ⟨d, ds⟩
    · simp [nameLe] at h
    by_cases hcd : c = d
    · subst hcd
      simp only [nameLe, if_true] at h h'
      rw [ih h h']
    · simp only [nameLe, hcd, Ne.symm hcd, if_false, decide_eq_true_eq] at h h'
      omega

theorem Rank.le_iff {a b : Rank} : a.le b ↔ a.kind < b.kind ∨
    (a.kind = b.kind ∧ (a.number < b.number ∨ (a.number = b.number ∧ nameLe a.base b.base))) := by
  unfold Rank.le
  split
  · next h =>
    rw [decide_eq_true_eq]
    omega
  · next hkind =>
    rw [not_not] at hkind
    split
    · next h =>
      rw [decide_eq_true_eq]
      omega
    · next hnumber =>
      rw [not_not] at hnumber
      simp only [hkind, hnumber, Nat.lt_irrefl, true_and, false_or]

theorem Rank.le_total (a b : Rank) : a.le b ∨ b.le a := by
  have hname := nameLe_total a.base b.base
  rw [Rank.le_iff, Rank.le_iff]
  by_cases hkind : a.kind = b.kind <;> by_cases hnumber : a.number = b.number
  · exact hname.imp (fun h ↦ .inr ⟨hkind, .inr ⟨hnumber, h⟩⟩)
      (fun h ↦ .inr ⟨hkind.symm, .inr ⟨hnumber.symm, h⟩⟩)
  all_goals omega

theorem Rank.le_trans {a b c : Rank} (h : a.le b) (h' : b.le c) : a.le c := by
  rw [Rank.le_iff] at h h' ⊢
  rcases h with h | ⟨hk, h | ⟨hn, h⟩⟩ <;> rcases h' with h' | ⟨hk', h' | ⟨hn', h'⟩⟩
  case inr.inr.inr.inr =>
    exact .inr ⟨hk.trans hk', .inr ⟨hn.trans hn', nameLe_trans h h'⟩⟩
  all_goals omega

theorem Rank.le_antisymm {a b : Rank} (h : a.le b) (h' : b.le a) : a = b := by
  rw [Rank.le_iff] at h h'
  have hkind : a.kind = b.kind := by omega
  have hnumber : a.number = b.number := by omega
  have hbase : a.base = b.base := nameLe_antisymm (by grind) (by grind)
  cases a
  cases b
  simp_all

/-! ### One entry for each name -/

theorem ofEnumerated_name (p : EnumeratedPort) : (ofEnumerated p).name = p.name := by
  unfold ofEnumerated
  split <;> rfl

theorem map_ofEnumerated_name (found : List EnumeratedPort) :
    (found.map ofEnumerated).map (·.name) = found.map (·.name) := by
  rw [List.map_map]
  exact List.map_congr_left fun p _ ↦ ofEnumerated_name p

theorem firstOfName_nodup (ds : List DeviceInfo) : ((firstOfName ds).map (·.name)).Nodup := by
  induction ds with
  | nil => exact List.nodup_nil
  | cons d ds ih =>
    rw [firstOfName, List.map_cons, List.nodup_cons]
    constructor
    · intro hmem
      obtain ⟨e, he, hname⟩ := List.mem_map.mp hmem
      simpa [hname] using (List.mem_filter.mp he).2
    · exact ih.sublist (List.filter_sublist.map _)

theorem firstOfName_of_nodup {ds : List DeviceInfo} (h : (ds.map (·.name)).Nodup) :
    firstOfName ds = ds := by
  induction ds with
  | nil => rfl
  | cons d ds ih =>
    rw [List.map_cons, List.nodup_cons] at h
    rw [firstOfName, ih h.2, List.filter_eq_self.mpr]
    intro e he
    rw [decide_eq_true_eq]
    exact fun heq ↦ h.1 (heq ▸ List.mem_map_of_mem he)

/-! ### Lists of the devices -/

variable {found : List EnumeratedPort}

theorem entries_names_nodup (found : List EnumeratedPort) :
    ((entries found).map (·.name)).Nodup := firstOfName_nodup _

/-- If no name comes twice, every port is an entry. -/
theorem entries_of_nodup (h : (found.map (·.name)).Nodup) : entries found = found.map ofEnumerated :=
  firstOfName_of_nodup (by rwa [map_ofEnumerated_name])

theorem sort_trans (a b c : DeviceInfo) (h : (rank a.name).le (rank b.name))
    (h' : (rank b.name).le (rank c.name)) : (rank a.name).le (rank c.name) := Rank.le_trans h h'

theorem sort_total (a b : DeviceInfo) :
    (rank a.name).le (rank b.name) || (rank b.name).le (rank a.name) := by
  rw [Bool.or_eq_true]
  exact Rank.le_total _ _

theorem sort_perm (devices : List DeviceInfo) : (sort devices).Perm devices :=
  List.mergeSort_perm _ _

theorem sort_sorted (devices : List DeviceInfo) :
    (sort devices).Pairwise fun a b ↦ (rank a.name).le (rank b.name) :=
  List.pairwise_mergeSort sort_trans sort_total devices

/-- What is sorted already stays as it is. -/
theorem sort_of_sorted {devices : List DeviceInfo}
    (h : devices.Pairwise fun a b ↦ (rank a.name).le (rank b.name)) : sort devices = devices :=
  List.mergeSort_of_pairwise h

/-- Ports of different names that are found in the order of their ranks are listed as they are. -/
theorem list_of_sorted (hnames : (found.map (·.name)).Nodup)
    (h : found.Pairwise fun p q ↦ (rank p.name).le (rank q.name)) :
    list .asFound found = found.map ofEnumerated := by
  show sort (entries found) = _
  rw [entries_of_nodup hnames]
  refine sort_of_sorted (List.pairwise_map.mpr ?_)
  simpa only [ofEnumerated_name] using h

variable (arrangement : Arrangement)

theorem list_perm (found : List EnumeratedPort) :
    (list arrangement found).Perm (entries found) :=
  (sort_perm _).trans (arrangement.perm _)

theorem list_names_nodup (found : List EnumeratedPort) :
    ((list arrangement found).map (·.name)).Nodup :=
  ((list_perm arrangement found).map _).nodup_iff.mpr (entries_names_nodup found)

end DeviceInfo

end SerialLine

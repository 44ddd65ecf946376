import SerialLine.Termination
/-!
# Splitting data into frames

Where a line has a terminator, the first frame of some data is all of it up to the first terminator
(`frameLength_enabled_append`), as far as the limit goes (`frameLength_enabled_of_notMem`).
`Termination.FirstFrame` says what makes a prefix the first frame without mention of how it is
found. Once a frame is ready, data that arrive later do not change it (`Ready.frameLength_append`,
`frame_stable`), so it does not matter in which chunks they come. `Termination.Splits` describes a
split of data into pieces without mention of frames: there is only one (`Splits.unique`), and
cutting off one frame after another yields it (`splits_cons`).
-/

set_option autoImplicit false

namespace SerialLine

namespace Termination

variable {t : UInt8} {limit : Nat}

/-! ### The first frame -/

/-- A frame is no longer than the data it is cut from, as far as the limit goes. -/
theorem frameLength_le_length (termination : Termination) (data : Bytes) (limit : Nat) :
    termination.frameLength data limit ≤ (data.take limit).length := by
  simp only [frameLength]
  split
  · exact Nat.le_refl _
  · split
    · next i hfound => exact (List.idxOf?_eq_some_iff.mp hfound).1
    · exact Nat.le_refl _

theorem frameLength_le (termination : Termination) (data : Bytes) (limit : Nat) :
    termination.frameLength data limit ≤ data.length :=
  Nat.le_trans (termination.frameLength_le_length data limit) (List.length_take_le' limit data)

/-- A frame is no longer than the limit. -/
theorem frameLength_le_limit (termination : Termination) (data : Bytes) (limit : Nat) :
    termination.frameLength data limit ≤ limit :=
  Nat.le_trans (termination.frameLength_le_length data limit) (List.length_take_le limit data)

theorem length_take_frameLength (termination : Termination) (data : Bytes) (limit : Nat) :
    (data.take (termination.frameLength data limit)).length = termination.frameLength data limit :=
  List.length_take_of_le (termination.frameLength_le data limit)

/-- Without a terminator a frame is as long as the limit and the data allow. -/
theorem frameLength_disabled (data : Bytes) (limit : Nat) :
    disabled.frameLength data limit = min limit data.length := List.length_take

/-- Nor does it end any earlier if the terminator does not occur. -/
theorem frameLength_enabled_of_notMem {data : Bytes} (h : t ∉ data.take limit) :
    (enabled t).frameLength data limit = min limit data.length := by
  have hnone : (data.take limit).idxOf? t = none := List.idxOf?_eq_none_iff.mpr h
  simp only [frameLength, enabled, hnone, List.length_take]

/-- A frame ends with the first terminator. -/
theorem frameLength_enabled_append {body : Bytes} (rest : Bytes) (hbody : t ∉ body)
    (hlimit : body.length < limit) :
    (enabled t).frameLength (body ++ t :: rest) limit = body.length + 1 := by
  have hwindow : (body ++ t :: rest).take limit =
      body ++ t :: rest.take (limit - body.length - 1) := by
    rw [List.take_append, List.take_of_length_le (Nat.le_of_lt hlimit)]
    obtain ⟨room, hroom⟩ : ∃ room, limit - body.length = room + 1 :=
      ⟨limit - body.length - 1, by omega⟩
    rw [hroom, List.take_succ_cons, Nat.add_sub_cancel]
  have hfound : (body ++ t :: rest.take (limit - body.length - 1)).idxOf? t =
      some body.length := by
    have hnone : body.idxOf? t = none := List.idxOf?_eq_none_iff.mpr hbody
    rw [List.idxOf?, List.findIdx?_append, ← List.idxOf?, hnone]
    simp [List.idxOf?_cons]
  simp only [frameLength, enabled, hwindow, hfound]

/-- Either the terminator occurs within the limit, and then it does so for a first time, or not. -/
theorem terminator_cases (t : UInt8) (limit : Nat) (data : Bytes) :
    (∃ body rest, data = body ++ t :: rest ∧ t ∉ body ∧ body.length < limit) ∨
      t ∉ data.take limit := by
  by_cases hmem : t ∈ data.take limit
  · obtain ⟨body, rest, hwindow, hbody⟩ := List.eq_append_cons_of_mem hmem
    refine .inl ⟨body, rest ++ data.drop limit, ?_, hbody, ?_⟩
    · rw [← List.cons_append, ← List.append_assoc, ← hwindow, List.take_append_drop]
    · have hlength := congrArg List.length hwindow
      rw [List.length_take, List.length_append, List.length_cons] at hlength
      omega
  · exact .inr hmem

theorem eq_disabled_or_enabled (termination : Termination) :
    termination = disabled ∨ ∃ t, termination = enabled t := by
  obtain ⟨_ | t⟩ := termination
  · exact .inl rfl
  · exact .inr ⟨t, rfl⟩

/-- The first frame of some data is not empty. -/
theorem frameLength_pos (termination : Termination) {data : Bytes} (hlimit : 0 < limit)
    (hdata : data ≠ []) : 0 < termination.frameLength data limit := by
  have hlength := List.length_pos_iff.mpr hdata
  rcases termination.eq_disabled_or_enabled with rfl | ⟨t, rfl⟩
  · rw [frameLength_disabled]
    omega
  · rcases terminator_cases t limit data with ⟨body, rest, rfl, hbody, hlt⟩ | hnone
    · rw [frameLength_enabled_append rest hbody hlt]
      exact Nat.succ_pos _
    · rw [frameLength_enabled_of_notMem hnone]
      omega

/-- Data begin with a frame that more data cannot change. -/
def Ready (termination : Termination) (data : Bytes) (limit : Nat) : Prop :=
  termination.frameLength data limit = limit ∨
    termination.Completes (data.take (termination.frameLength data limit))

instance (termination : Termination) (data : Bytes) (limit : Nat) :
    Decidable (termination.Ready data limit) := inferInstanceAs (Decidable (_ ∨ _))

variable {termination : Termination} {data : Bytes}

/-- A frame that is ready stays as it is when more data arrive. -/
theorem Ready.frameLength_append (h : termination.Ready data limit) (rest : Bytes) :
    termination.frameLength (data ++ rest) limit = termination.frameLength data limit := by
  unfold Ready at h
  rcases termination.eq_disabled_or_enabled with rfl | ⟨t, rfl⟩
  · rw [frameLength_disabled] at h
    have hfull : min limit data.length = limit := h.resolve_right fun hends ↦ by cases hends.1
    rw [frameLength_disabled, frameLength_disabled, List.length_append]
    omega
  · rcases terminator_cases t limit data with ⟨body, more, rfl, hbody, hlt⟩ | hnone
    · rw [List.append_assoc, List.cons_append, frameLength_enabled_append _ hbody hlt,
        frameLength_enabled_append _ hbody hlt]
    · rw [frameLength_enabled_of_notMem hnone] at h ⊢
      have hfull : limit ≤ data.length := by
        rcases h with hlimit | ⟨-, hlast⟩
        · omega
        · -- the last byte of the frame would be a terminator
          have hframe : data.take (min limit data.length) = data.take limit := by
            rw [← List.take_take, List.take_length]
          exact absurd (hframe ▸ List.mem_of_getLast? hlast) hnone
      have hwindow : (data ++ rest).take limit = data.take limit :=
        List.take_append_of_le_length hfull
      rw [frameLength_enabled_of_notMem (hwindow ▸ hnone), List.length_append]
      omega

theorem Ready.append (h : termination.Ready data limit) (rest : Bytes) :
    termination.Ready (data ++ rest) limit := by
  rw [Ready, h.frameLength_append,
    List.take_append_of_le_length (termination.frameLength_le data limit)]
  exact h

/-- A terminator within the limit ends the frame. -/
theorem completes_enabled_append {body : Bytes} (rest : Bytes) (hbody : t ∉ body)
    (hlimit : body.length < limit) : (enabled t).Completes
      ((body ++ t :: rest).take ((enabled t).frameLength (body ++ t :: rest) limit)) := by
  refine ⟨rfl, ?_⟩
  rw [frameLength_enabled_append rest hbody hlimit, List.take_length_add_append]
  exact List.getLast?_concat

/-- So it makes a frame ready. -/
theorem ready_enabled_append {body : Bytes} (rest : Bytes) (hbody : t ∉ body)
    (hlimit : body.length < limit) : (enabled t).Ready (body ++ t :: rest) limit :=
  .inr (completes_enabled_append rest hbody hlimit)

/-- Data that do not begin with a whole frame are all part of the first one. -/
theorem frameLength_of_not_ready (h : ¬termination.Ready data limit) :
    termination.frameLength data limit = data.length := by
  have hlimit : termination.frameLength data limit ≠ limit := fun hlimit ↦ h (.inl hlimit)
  rcases termination.eq_disabled_or_enabled with rfl | ⟨t, rfl⟩
  · rw [frameLength_disabled] at hlimit ⊢
    omega
  · rcases terminator_cases t limit data with ⟨body, more, rfl, hbody, hlt⟩ | hnone
    · exact absurd (ready_enabled_append more hbody hlt) h
    · rw [frameLength_enabled_of_notMem hnone] at hlimit ⊢
      omega

/-- There is room for more in their frame. -/
theorem length_lt_of_not_ready (h : ¬termination.Ready data limit) : data.length < limit := by
  have hall := frameLength_of_not_ready h
  have hle := termination.frameLength_le_limit data limit
  have hlimit : termination.frameLength data limit ≠ limit := fun hlimit ↦ h (.inl hlimit)
  omega

/-- What comes next belongs to their frame. -/
theorem length_lt_frameLength_append {rest : Bytes} (h : ¬termination.Ready data limit)
    (hrest : rest ≠ []) : data.length < termination.frameLength (data ++ rest) limit := by
  have hroom := length_lt_of_not_ready h
  have hmore := List.length_pos_iff.mpr hrest
  rcases termination.eq_disabled_or_enabled with rfl | ⟨t, rfl⟩
  · rw [frameLength_disabled, List.length_append]
    omega
  · rcases terminator_cases t limit (data ++ rest) with ⟨body, more, hdata, hbody, hlt⟩ | hnone
    · rw [hdata, frameLength_enabled_append more hbody hlt]
      rcases List.append_eq_append_iff.mp hdata with ⟨inner, rfl, -⟩ | ⟨inner, rfl, hinner⟩
      · rw [List.length_append]
        omega
      · cases inner with
        | nil =>
          rw [List.append_nil]
          exact Nat.lt_succ_self _
        | cons byte inner =>
          -- the terminator would be among the data
          obtain ⟨rfl, -⟩ := List.cons.inj hinner
          exact absurd (ready_enabled_append inner hbody hlt) h
    · rw [frameLength_enabled_of_notMem hnone, List.length_append]
      omega

/-- Data that arrive later leave the first frame as it is exactly if it is ready or they are none. -/
theorem frameLength_append_eq_iff {rest : Bytes} :
    termination.frameLength (data ++ rest) limit = termination.frameLength data limit ↔
      termination.Ready data limit ∨ rest = [] := by
  by_cases hready : termination.Ready data limit
  · exact iff_of_true (hready.frameLength_append rest) (.inl hready)
  · by_cases hrest : rest = []
    · exact iff_of_true (by rw [hrest, List.append_nil]) (.inr hrest)
    · have hlonger := length_lt_frameLength_append hready hrest
      rw [frameLength_of_not_ready hready]
      exact iff_of_false (Nat.ne_of_gt hlonger) (not_or.mpr ⟨hready, hrest⟩)

/-! ### The law of the first frame -/

/-- A frame ends with the terminator exactly if the terminator occurs within the limit. -/
theorem completes_take_frameLength_iff :
    termination.Completes (data.take (termination.frameLength data limit)) ↔
      ∃ t, termination.terminator = some t ∧ t ∈ data.take limit := by
  constructor
  · rintro ⟨henabled, hlast⟩
    obtain ⟨t, ht⟩ := Option.isSome_iff_exists.mp henabled
    have hmem : t ∈ data.take (termination.frameLength data limit) :=
      List.mem_of_getLast? (hlast.trans ht)
    have hle := termination.frameLength_le_limit data limit
    exact ⟨t, ht, List.take_subset_take_left data hle hmem⟩
  · rintro ⟨t, ht, hmem⟩
    obtain rfl : termination = enabled t := congrArg Termination.mk ht
    rcases terminator_cases t limit data with ⟨body, rest, rfl, hbody, hlt⟩ | hnone
    · exact completes_enabled_append rest hbody hlt
    · exact absurd hmem hnone

/-- A frame is ready if there are as many data as may be, or a terminator among them. -/
theorem ready_iff : termination.Ready data limit ↔
    limit ≤ data.length ∨ ∃ t, termination.terminator = some t ∧ t ∈ data := by
  constructor
  · rintro (hlimit | hends)
    · exact .inl (hlimit ▸ termination.frameLength_le data limit)
    · obtain ⟨t, ht, hmem⟩ := completes_take_frameLength_iff.mp hends
      exact .inr ⟨t, ht, List.mem_of_mem_take hmem⟩
  · intro h
    by_cases hshort : data.length < limit
    · obtain ⟨t, ht, hmem⟩ := h.resolve_left (Nat.not_le_of_lt hshort)
      refine .inr (completes_take_frameLength_iff.mpr ⟨t, ht, ?_⟩)
      rwa [List.take_of_length_le (Nat.le_of_lt hshort)]
    · exact Decidable.by_contra fun hwait ↦ hshort (length_lt_of_not_ready hwait)

/-- A prefix of the data that is their first frame: it stays within the limit, ends with the
terminator if there is one so far and at its first occurrence, and otherwise takes everything. -/
structure FirstFrame (termination : Termination) (data : Bytes) (limit n : Nat) : Prop where
  le_length : n ≤ (data.take limit).length
  completes_iff : termination.Completes (data.take n) ↔
    ∃ t, termination.terminator = some t ∧ t ∈ data.take limit
  notMem : ∀ t, termination.terminator = some t → t ∉ data.take (n - 1)
  eq_length : ¬termination.Completes (data.take n) → n = (data.take limit).length

theorem frameLength_firstFrame (termination : Termination) (data : Bytes) (limit : Nat) :
    termination.FirstFrame data limit (termination.frameLength data limit) where
  le_length := termination.frameLength_le_length data limit
  completes_iff := completes_take_frameLength_iff
  notMem t ht := by
    obtain rfl : termination = enabled t := congrArg Termination.mk ht
    rcases terminator_cases t limit data with ⟨body, rest, rfl, hbody, hlt⟩ | hnone
    · rwa [frameLength_enabled_append rest hbody hlt, Nat.add_sub_cancel, List.take_left]
    · have hle : (enabled t).frameLength data limit - 1 ≤ limit :=
        Nat.le_trans (Nat.sub_le _ 1) ((enabled t).frameLength_le_limit data limit)
      exact fun hmem ↦ hnone (List.take_subset_take_left data hle hmem)
  eq_length hends := by
    rw [completes_take_frameLength_iff] at hends
    rcases termination.eq_disabled_or_enabled with rfl | ⟨t, rfl⟩
    · rw [frameLength_disabled, List.length_take]
    · rw [frameLength_enabled_of_notMem fun hmem ↦ hends ⟨t, rfl, hmem⟩, List.length_take]

/-- A prefix that ends with the terminator is no shorter than one that does not have it but in its
last place. -/
theorem FirstFrame.le_of_completes {m n : Nat} (h : termination.FirstFrame data limit m)
    (hends : termination.Completes (data.take n)) : m ≤ n := by
  obtain ⟨t, ht⟩ := Option.isSome_iff_exists.mp hends.1
  have hmem : t ∈ data.take n := List.mem_of_getLast? (hends.2.trans ht)
  refine Nat.le_of_not_lt fun hlt ↦ ?_
  have hle : n ≤ m - 1 := by omega
  exact h.notMem t ht (List.take_subset_take_left data hle hmem)

/-- There is only one first frame. -/
theorem FirstFrame.unique {m n : Nat} (hm : termination.FirstFrame data limit m)
    (hn : termination.FirstFrame data limit n) : m = n := by
  by_cases hends : termination.Completes (data.take m)
  · have hends' := hn.completes_iff.mpr (hm.completes_iff.mp hends)
    exact Nat.le_antisymm (hm.le_of_completes hends') (hn.le_of_completes hends)
  · have hends' : ¬termination.Completes (data.take n) := fun hends' ↦
      hends (hm.completes_iff.mpr (hn.completes_iff.mp hends'))
    rw [hm.eq_length hends, hn.eq_length hends']

/-- The length of a frame is that of the one first frame. As bytes arrive, a frame that has reached
the limit or ends with the terminator stays as it is, and any other one goes on past all data. -/
theorem frame_stable (termination : Termination) (data : Bytes) (limit : Nat) :
    let n := termination.frameLength data limit
    let complete := n = limit ∨ termination.Completes (data.take n)
    (∀ m, termination.FirstFrame data limit m ↔ m = n) ∧
      (complete → ∀ more, termination.frameLength (data ++ more) limit = n) ∧
      (¬complete → ∀ more,
        data <+: (data ++ more).take (termination.frameLength (data ++ more) limit)) := by
  intro n complete
  have hfirst : termination.FirstFrame data limit n := termination.frameLength_firstFrame data limit
  refine ⟨fun m ↦ ⟨fun hm ↦ hm.unique hfirst, fun hm ↦ hm ▸ hfirst⟩,
    fun hready more ↦ Ready.frameLength_append hready more, fun hwait more ↦ ?_⟩
  have hlength : data.length ≤ termination.frameLength (data ++ more) limit := by
    by_cases hmore : more = []
    · rw [hmore, List.append_nil]
      exact Nat.le_of_eq (frameLength_of_not_ready hwait).symm
    · exact Nat.le_of_lt (length_lt_frameLength_append hwait hmore)
  exact List.prefix_of_prefix_length_le (List.prefix_append data more) (List.take_prefix _ _)
    (by rw [length_take_frameLength]; exact hlength)

/-! ### Splits -/

/-- A piece that ends at the first terminator in it, or at the limit if there is none. -/
def EndsAt (t : UInt8) (limit : Nat) (piece : Bytes) : Prop :=
  (∃ body, piece = body ++ [t] ∧ t ∉ body ∧ piece.length ≤ limit) ∨
    (t ∉ piece ∧ piece.length = limit)

/-- A split of data into pieces that each end at the first terminator or at the limit; the last one
may also end with the data. -/
inductive Splits (t : UInt8) (limit : Nat) : List Bytes → Bytes → Prop
  | nil : Splits t limit [] []
  | last {piece : Bytes} (nonempty : piece ≠ []) (short : piece.length < limit)
      (unended : t ∉ piece) : Splits t limit [piece] piece
  | cons {piece rest : Bytes} {pieces : List Bytes} (ends : EndsAt t limit piece)
      (splits : Splits t limit pieces rest) : Splits t limit (piece :: pieces) (piece ++ rest)

theorem EndsAt.ne_nil {piece : Bytes} (h : EndsAt t limit piece) (hlimit : 0 < limit) :
    piece ≠ [] := by
  rintro rfl
  rcases h with ⟨body, hbody, -⟩ | ⟨-, hlength⟩
  · exact List.append_ne_nil_of_right_ne_nil body (List.cons_ne_nil t []) hbody.symm
  · rw [← hlength] at hlimit
    exact Nat.lt_irrefl 0 hlimit

theorem EndsAt.frameLength_eq {piece : Bytes} (h : EndsAt t limit piece) (rest : Bytes) :
    (enabled t).frameLength (piece ++ rest) limit = piece.length := by
  rcases h with ⟨body, rfl, hbody, hle⟩ | ⟨hnone, rfl⟩
  · rw [List.length_append, List.length_singleton] at hle ⊢
    rw [List.append_assoc, List.singleton_append]
    exact frameLength_enabled_append rest hbody hle
  · have hwindow : (piece ++ rest).take piece.length = piece := List.take_left
    rw [frameLength_enabled_of_notMem (hwindow.symm ▸ hnone), List.length_append]
    omega

/-- The first piece of a split is the first frame, and the others split the rest. -/
theorem Splits.head_eq {piece data : Bytes} {pieces : List Bytes}
    (h : Splits t limit (piece :: pieces) data) :
    piece = data.take ((enabled t).frameLength data limit) ∧
      Splits t limit pieces (data.drop ((enabled t).frameLength data limit)) := by
  cases h with
  | last nonempty short unended =>
    have hwhole : (enabled t).frameLength piece limit = piece.length := by
      rw [frameLength_enabled_of_notMem fun hmem ↦ unended (List.mem_of_mem_take hmem)]
      omega
    rw [hwhole, List.take_length, List.drop_length]
    exact ⟨rfl, .nil⟩
  | cons ends splits =>
    rw [ends.frameLength_eq, List.take_left, List.drop_left]
    exact ⟨rfl, splits⟩

/-- Only no data have no pieces. -/
theorem Splits.eq_nil_iff {data : Bytes} {pieces : List Bytes} (hlimit : 0 < limit)
    (h : Splits t limit pieces data) : pieces = [] ↔ data = [] := by
  cases h with
  | nil => exact iff_of_true rfl rfl
  | last nonempty => exact iff_of_false (List.cons_ne_nil _ _) nonempty
  | cons ends =>
    exact iff_of_false (List.cons_ne_nil _ _)
      (List.append_ne_nil_of_left_ne_nil (ends.ne_nil hlimit) _)

/-- There is only one split, by induction on its pieces: each is the first frame of what is left. -/
theorem Splits.unique {data : Bytes} {pieces pieces' : List Bytes} (hlimit : 0 < limit)
    (h : Splits t limit pieces data) (h' : Splits t limit pieces' data) : pieces = pieces' := by
  induction pieces generalizing pieces' data with
  | nil => exact ((h'.eq_nil_iff hlimit).mpr ((h.eq_nil_iff hlimit).mp rfl)).symm
  | cons piece pieces ih =>
    cases pieces' with
    | nil => exact (h.eq_nil_iff hlimit).mpr ((h'.eq_nil_iff hlimit).mp rfl)
    | cons piece' pieces' =>
      obtain ⟨hpiece, hrest⟩ := h.head_eq
      obtain ⟨hpiece', hrest'⟩ := h'.head_eq
      rw [hpiece, hpiece', ih hrest hrest']

/-- The first frame, followed by a split of what it leaves, is a split. -/
theorem splits_cons {data : Bytes} {pieces : List Bytes} (hlimit : 0 < limit) (hdata : data ≠ [])
    (h : Splits t limit pieces (data.drop ((enabled t).frameLength data limit))) :
    Splits t limit (data.take ((enabled t).frameLength data limit) :: pieces) data := by
  have hcons (hends : EndsAt t limit (data.take ((enabled t).frameLength data limit))) :
      Splits t limit (data.take ((enabled t).frameLength data limit) :: pieces) data := by
    have hsplit := Splits.cons hends h
    rwa [List.take_append_drop] at hsplit
  rcases terminator_cases t limit data with ⟨body, rest, hfirst, hbody, hlt⟩ | hnone
  · refine hcons (.inl ⟨body, ?_, hbody, ?_⟩)
    · rw [hfirst, frameLength_enabled_append rest hbody hlt, List.take_length_add_append]
      rfl
    · rw [hfirst, frameLength_enabled_append rest hbody hlt, List.length_take]
      omega
  · have hlength := frameLength_enabled_of_notMem hnone
    by_cases hfull : limit ≤ data.length
    · rw [Nat.min_eq_left hfull] at hlength
      refine hcons (.inr ⟨?_, ?_⟩)
      · rwa [hlength]
      · rw [hlength, List.length_take, Nat.min_eq_left hfull]
    · rw [Nat.min_eq_right (Nat.le_of_not_le hfull)] at hlength
      rw [hlength, List.drop_length] at h
      rw [hlength, List.take_length, (h.eq_nil_iff hlimit).mpr rfl]
      rw [List.take_of_length_le (Nat.le_of_not_le hfull)] at hnone
      exact .last hdata (Nat.lt_of_not_le hfull) hnone

/-- There is a split, by induction on the length of the data. -/
theorem exists_splits (t : UInt8) (hlimit : 0 < limit) (n : Nat) (data : Bytes)
    (hlength : data.length ≤ n) : ∃ pieces, Splits t limit pieces data := by
  induction n generalizing data with
  | zero => exact ⟨[], List.length_eq_zero_iff.mp (Nat.le_zero.mp hlength) ▸ .nil⟩
  | succ n ih =>
    by_cases hdata : data = []
    · exact ⟨[], hdata ▸ .nil⟩
    · have hpos := (enabled t).frameLength_pos hlimit hdata
      obtain ⟨pieces, hpieces⟩ := ih (data.drop ((enabled t).frameLength data limit)) (by
        rw [List.length_drop]
        omega)
      exact ⟨_, splits_cons hlimit hdata hpieces⟩

end Termination

end SerialLine

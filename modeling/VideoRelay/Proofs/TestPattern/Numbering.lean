import Mathlib.Data.List.Range
import VideoRelay.Proofs.TestPattern.Relaying

/-!
# Groups follow each other without a gap

What is decoded of a group is read off its anchors: each anchor behind the first one comes right before
the pictures between it and the anchor before (`decodeFrom_eq`).  Where each picture is decoded can be
written down while the order is gone through, and every write has a place (`writeAll_eq_some`).  From
group to group the numbers go on where they ended (`groups_numbered`).
-/

namespace VideoRelay.TestPattern

/-! ### Anchors -/

/-- Neighbours in a list. -/
def neighbours (l : List Nat) : List (Nat × Nat) := l.zip l.tail

/-- A picture of a group is an anchor if it is one step of the order on, or the last. -/
def IsAnchor (size between place : Nat) : Prop := between + 1 ∣ place ∨ place = size - 1

instance (size between place : Nat) : Decidable (IsAnchor size between place) :=
  inferInstanceAs (Decidable (_ ∨ _))

/-- The anchors of a group, in the order in which they are shown. -/
def anchors (size between : Nat) : List Nat :=
  (List.range size).filter fun place => IsAnchor size between place

/-- The anchors from a place on. -/
def anchorsFrom (size between place : Nat) : List Nat :=
  (List.range' place (size - place)).filter fun place => IsAnchor size between place

/-- What is decoded from one anchor to the next: that one, and then what is shown between the two. -/
def stretch (gap : Nat × Nat) : List Nat :=
  gap.2 :: List.range' (gap.1 + 1) (gap.2 - (gap.1 + 1))

variable {size between anchor : Nat}

theorem anchorsFrom_zero : anchorsFrom size between 0 = anchors size between := by
  rw [anchorsFrom, anchors, List.range_eq_range', Nat.sub_zero]

/-- An anchor that is not the last picture is a whole number of steps into the group. -/
theorem IsAnchor.dvd (h : IsAnchor size between anchor) (hlt : anchor + 1 < size) :
    between + 1 ∣ anchor := by
  rcases h with h | h
  · exact h
  · omega

/-- Where the order goes on behind an anchor. -/
theorem IsAnchor.next (h : IsAnchor size between anchor) (hlt : anchor + 1 < size) :
    IsAnchor size between (min (anchor + between + 1) (size - 1)) := by
  rcases Nat.le_total (anchor + between + 1) (size - 1) with hle | hle
  · rw [Nat.min_eq_left hle]
    exact Or.inl ((Nat.dvd_add_iff_left (Nat.dvd_refl _)).1 (h.dvd hlt))
  · rw [Nat.min_eq_right hle]
    exact Or.inr rfl

/-- Between an anchor and the place where the order goes on there is no other one. -/
theorem IsAnchor.not_between (h : IsAnchor size between anchor) {place : Nat} (hlo : anchor < place)
    (hhi : place < min (anchor + between + 1) (size - 1)) : ¬ IsAnchor size between place := by
  have hdvd := h.dvd (by omega)
  rintro (hplace | hplace)
  · have hgap := (Nat.dvd_sub hplace hdvd)
    have := Nat.le_of_dvd (by omega) hgap
    omega
  · omega

theorem anchorsFrom_of_last (h : IsAnchor size between anchor) (hlast : anchor + 1 = size) :
    anchorsFrom size between anchor = [anchor] := by
  rw [anchorsFrom, show size - anchor = 1 by omega, List.range'_one,
    List.filter_singleton, decide_eq_true h]
  rfl

/-- The anchors from one on are this one and the anchors from the next on. -/
theorem anchorsFrom_of_lt (h : IsAnchor size between anchor) (hlt : anchor + 1 < size) :
    anchorsFrom size between anchor =
      anchor :: anchorsFrom size between (min (anchor + between + 1) (size - 1)) := by
  let next := min (anchor + between + 1) (size - 1)
  have hnext : anchor + 1 ≤ next ∧ next < size := by omega
  have hsplit : List.range' anchor (size - anchor) =
      anchor :: (List.range' (anchor + 1) (next - (anchor + 1)) ++ List.range' next (size - next)) := by
    have happend := @List.range'_append_1 (anchor + 1) (next - (anchor + 1)) (size - next)
    rw [Nat.add_sub_cancel' hnext.1] at happend
    rw [happend, show size - anchor = size - (anchor + 1) + 1 by omega, List.range'_succ,
      show next - (anchor + 1) + (size - next) = size - (anchor + 1) by omega]
  have hnone : (List.range' (anchor + 1) (next - (anchor + 1))).filter
      (fun place => IsAnchor size between place) = [] := by
    refine List.filter_eq_nil_iff.2 fun place hplace => ?_
    rw [List.mem_range'_1] at hplace
    rw [decide_eq_true_eq]
    exact h.not_between (by omega) (by omega)
  have hself : (decide (IsAnchor size between anchor)) = true := decide_eq_true h
  rw [anchorsFrom, hsplit, List.filter_cons, if_pos hself, List.filter_append, hnone,
    List.nil_append]
  rfl

theorem neighbours_cons (a b : Nat) (rest : List Nat) :
    neighbours (a :: b :: rest) = (a, b) :: neighbours (b :: rest) := rfl

/-- The anchors from one on begin with it. -/
theorem anchorsFrom_eq_cons (h : IsAnchor size between anchor) (hlt : anchor < size) :
    ∃ rest, anchorsFrom size between anchor = anchor :: rest := by
  rcases Nat.lt_or_ge (anchor + 1) size with hmore | hlast
  · exact ⟨_, anchorsFrom_of_lt h hmore⟩
  · exact ⟨[], anchorsFrom_of_last h (by omega)⟩

/-- The gaps between the anchors from one on: the first of them ends where the order goes on. -/
theorem neighbours_anchorsFrom (h : IsAnchor size between anchor) (hlt : anchor + 1 < size) :
    neighbours (anchorsFrom size between anchor) =
      (anchor, min (anchor + between + 1) (size - 1)) ::
        neighbours (anchorsFrom size between (min (anchor + between + 1) (size - 1))) := by
  obtain ⟨rest, hrest⟩ := anchorsFrom_eq_cons (h.next hlt) (by omega)
  rw [anchorsFrom_of_lt h hlt, hrest, neighbours_cons]

/-- What is decoded behind an anchor, gap by gap. -/
theorem decodeFrom_eq (hlt : anchor < size) (h : IsAnchor size between anchor) :
    decodeFrom size between anchor =
      (neighbours (anchorsFrom size between anchor)).flatMap stretch := by
  fun_induction decodeFrom size between anchor with
  | case1 anchor hmore next ih =>
    rw [neighbours_anchorsFrom h hmore, List.flatMap_cons, ← ih (by omega) (h.next hmore)]
    rfl
  | case2 anchor hlast =>
    rw [anchorsFrom_of_last h (by omega)]
    rfl

/-- The gaps between anchors are short. -/
theorem gap_le (hlt : anchor < size) (h : IsAnchor size between anchor) :
    ∀ gap ∈ neighbours (anchorsFrom size between anchor),
      gap.1 < gap.2 ∧ gap.2 - (gap.1 + 1) ≤ between := by
  fun_induction decodeFrom size between anchor with
  | case1 anchor hmore next ih =>
    intro gap hgap
    rw [neighbours_anchorsFrom h hmore] at hgap
    rcases List.mem_cons.1 hgap with rfl | hgap
    · show anchor < next ∧ next - (anchor + 1) ≤ between
      omega
    · exact ih (by omega) (h.next hmore) gap hgap
  | case2 anchor hlast =>
    rw [anchorsFrom_of_last h (by omega)]
    intro gap hgap
    cases hgap

/-- A group of a size is decoded anchor first, with at most so many pictures between two anchors. -/
structure AnchorsFirst (size between : Nat) (order : List Nat) : Prop where
  perm : order.Perm (List.range size)
  stretches : order = 0 :: (neighbours (anchors size between)).flatMap stretch
  short : ∀ gap ∈ neighbours (anchors size between), gap.1 < gap.2 ∧ gap.2 - (gap.1 + 1) ≤ between

theorem anchorsFirst_decodeOrder (between : Nat) (h : 0 < size) :
    AnchorsFirst size between (decodeOrder size between) := by
  have hzero : IsAnchor size between 0 := Or.inl (Nat.dvd_zero _)
  refine ⟨decodeOrder_perm h, ?_, ?_⟩
  · rw [decodeOrder, decodeFrom_eq h hzero, anchorsFrom_zero]
  · rw [← anchorsFrom_zero]
    exact gap_le h hzero

/-! ### Where pictures are decoded -/

/-- Writes positions into a table, one after the other; `none` if the table has no such place. -/
def writeAll : List (Nat × Nat) → List Nat → Option (List Nat)
  | [], table => some table
  | (place, position) :: rest, table =>
    if place < table.length then writeAll rest (table.set place position) else none

/-- The position of each picture of an order, written down while the order is gone through. -/
def positions? (order : List Nat) : Option (List Nat) :=
  writeAll order.zipIdx (List.replicate order.length 0)

/-- Different places are written once each, and what is not written stays. -/
theorem writeAll_eq_some {order : List Nat} (hn : order.Nodup) (start : Nat) (table : List Nat)
    (h : ∀ place ∈ order, place < table.length) :
    ∃ written, writeAll (order.zipIdx start) table = some written ∧
      ∀ place, written[place]? =
        if place ∈ order then some (start + order.idxOf place) else table[place]? := by
  induction order generalizing start table with
  | nil => exact ⟨table, rfl, fun _ => rfl⟩
  | cons first order ih =>
    obtain ⟨hfirst, hn⟩ := List.nodup_cons.1 hn
    have hroom := h first List.mem_cons_self
    obtain ⟨written, hwrite, hplaces⟩ := ih hn (start + 1) (table.set first start) fun place hp => by
      rw [List.length_set]
      exact h place (List.mem_cons_of_mem _ hp)
    refine ⟨written, ?_, fun place => ?_⟩
    · rw [List.zipIdx_cons, writeAll, if_pos hroom, hwrite]
    · rw [hplaces place]
      rcases eq_or_ne place first with rfl | hne
      · rw [if_neg hfirst, if_pos List.mem_cons_self, List.idxOf_cons_self,
          List.getElem?_set_self hroom, Nat.add_zero]
      · rw [List.getElem?_set_ne hne.symm, List.idxOf_cons_ne _ hne.symm]
        by_cases hmem : place ∈ order
        · rw [if_pos hmem, if_pos (List.mem_cons_of_mem _ hmem), Nat.succ_eq_add_one]
          exact congrArg some (by omega)
        · rw [if_neg hmem, if_neg fun hc => (List.mem_cons.1 hc).elim hne hmem]

/-- A whole order fills the table. -/
theorem positions?_of_perm {order : List Nat} (h : order.Perm (List.range size)) :
    ∃ table, positions? order = some table ∧
      ∀ place < size, table[place]? = some (order.idxOf place) := by
  have hn : order.Nodup := h.nodup_iff.2 List.nodup_range
  have hmem : ∀ place, place ∈ order ↔ place < size := fun place =>
    h.mem_iff.trans List.mem_range
  obtain ⟨table, htable, hplaces⟩ := writeAll_eq_some hn 0 (List.replicate order.length 0)
    fun place hp => by
      rw [List.length_replicate, h.length_eq, List.length_range]
      exact (hmem place).1 hp
  refine ⟨table, htable, fun place hlt => ?_⟩
  rw [hplaces, if_pos ((hmem place).2 hlt), Nat.zero_add]

/-! ### Group after group -/

variable {S : Type} [Coordinate S] {p : TestPattern}

/-- The groups that a pattern makes next, and the pattern behind them. -/
def nextGroups : Nat → TestPattern → List (List (PatternPicture S)) × TestPattern
  | 0, p => ([], p)
  | calls + 1, p =>
    let (groups, last) := nextGroups calls p.advance
    (p.group :: groups, last)

/-- The numbers of the pictures of successive groups. -/
def numbersOf (size : Nat) (order : List Nat) (calls : Nat) : List Nat :=
  (List.range calls).flatMap fun call => order.map (call * size + ·)

/-- Group after group, each number comes once. -/
theorem numbersOf_perm {order : List Nat} (h : order.Perm (List.range size)) (calls : Nat) :
    (numbersOf size order calls).Perm (List.range (calls * size)) := by
  induction calls with
  | zero =>
    rw [Nat.zero_mul]
    exact List.Perm.refl _
  | succ calls ih =>
    rw [numbersOf, List.range_succ, List.flatMap_append, List.flatMap_singleton, Nat.succ_mul,
      List.range_add]
    exact ih.append (h.map _)

/-- As machine words, numbers do not repeat before they wrap. -/
theorem nodup_words {l : List Nat} {count : Nat} (h : l.Perm (List.range count))
    (hfits : count ≤ UInt64.size) : (l.map UInt64.ofNat).Nodup := by
  refine List.Nodup.map_on (fun i hi j hj he => ?_) (h.nodup_iff.2 List.nodup_range)
  have hi := List.mem_range.1 (h.mem_iff.1 hi)
  have hj := List.mem_range.1 (h.mem_iff.1 hj)
  exact number_injective 0 (by omega) (by omega) (by rw [he])

/-- The picture that is shown at a place of an order, numbered from a first number on.  It follows the
one shown before it, by the position at which that one is decoded. -/
structure IsPicture (p : TestPattern) (base : Nat) (order : List Nat) (shown : Nat)
    (picture : PatternPicture S) : Prop where
  pts : picture.frame.pts = (UInt64.ofNat (base + shown)).toInt64 * p.duration
  content : picture.frame.content = .carried (encodedBytes (.ofNat (base + shown)))
  observations : picture.frame.observations = [p.movingObject (.ofNat (base + shown))]
  first : shown = 0 → picture.follows = none
  follows : 0 < shown → ∃ j, picture.follows = some j ∧ order[j]? = some (shown - 1) ∧
    (positions? order).bind (·[shown - 1]?) = some j

theorem IsPicture.of_settings {p' : TestPattern} {base shown : Nat} {order : List Nat}
    {picture : PatternPicture S} (h : p'.IsPicture base order shown picture)
    (hs : p'.settings = p.settings) : p.IsPicture base order shown picture := by
  refine ⟨?_, h.content, ?_, h.first, h.follows⟩
  · rw [h.pts, duration, hs]
    rfl
  · rw [h.observations, movingObject, hs]
    rfl

/-- The times of the pictures of a group come from their numbers. -/
theorem map_pts_of_isPicture {base : Nat} {order places : List Nat} {group : List (PatternPicture S)}
    (h : List.Forall₂ (p.IsPicture base order) places group) :
    group.map (fun picture => picture.frame.pts) =
      (places.map (base + ·)).map fun n => (UInt64.ofNat n).toInt64 * p.duration := by
  induction h with
  | nil => rfl
  | cons hfirst _ ih => rw [List.map_cons, hfirst.pts, ih, List.map_cons, List.map_cons]

/-- The pattern behind some groups: only its counters have changed. -/
theorem Sized.iterate_advance (hp : p.Sized) (calls : Nat) :
    (advance^[calls] p).settings = p.settings ∧ (advance^[calls] p).source = p.source ∧
      (advance^[calls] p).pictures = p.pictures + .ofNat (calls * p.size) := by
  induction calls with
  | zero =>
    rw [Nat.zero_mul]
    exact ⟨rfl, rfl, (UInt64.add_zero _).symm⟩
  | succ calls ih =>
    obtain ⟨hsettings, hsource, hpictures⟩ := ih
    have hlength : (advance^[calls] p).order.length = p.size := by
      rw [order, hsettings, ← order, hp.length_order]
    rw [Function.iterate_succ_apply']
    refine ⟨hsettings, hsource, ?_⟩
    rw [advance, hpictures, hlength, UInt64.add_assoc, ← UInt64.ofNat_add, Nat.succ_mul]

theorem nextGroups_eq (calls : Nat) (p : TestPattern) :
    (nextGroups calls p : List (List (PatternPicture S)) × TestPattern) =
      ((List.range calls).map fun call => (advance^[call] p).group, advance^[calls] p) := by
  induction calls generalizing p with
  | zero => rfl
  | succ calls ih =>
    rw [nextGroups, ih, List.range_succ_eq_map, List.map_cons, List.map_map]
    rfl

/-- The pictures of a group. -/
theorem Sized.isPicture_group (hp : p.Sized) {base : Nat} (hbase : p.pictures = .ofNat base) :
    List.Forall₂ (p.IsPicture (S := S) base p.order) p.order p.group := by
  obtain ⟨table, htable, hpositions⟩ := positions?_of_perm hp.order_perm
  have hnumber : ∀ shown, p.pictures + .ofNat shown = UInt64.ofNat (base + shown) := by
    intro shown
    rw [hbase, UInt64.ofNat_add]
  rw [hp.group_eq, List.forall₂_map_right_iff, List.forall₂_same]
  intro shown hshown
  have hlt := hp.mem_order.1 hshown
  refine ⟨?_, ?_, ?_, fun hzero => if_pos hzero, fun hpos => ?_⟩
  · rw [← hnumber]
    rfl
  · rw [← hnumber]
    rfl
  · rw [← hnumber]
    rfl
  · have hbefore : shown - 1 ∈ p.order := hp.mem_order.2 (by omega)
    refine ⟨p.order.idxOf (shown - 1), if_neg (by omega), List.getElem?_idxOf hbefore, ?_⟩
    rw [htable]
    exact hpositions (shown - 1) (by omega)

/-- The pictures of the groups of a pattern that has not made any. -/
theorem Sized.isPicture_groups (hp : p.Sized) (hzero : p.pictures = 0) (call : Nat) :
    List.Forall₂ (p.IsPicture (S := S) (call * p.size) p.order) p.order
      (advance^[call] p).group := by
  obtain ⟨hsettings, -, hpictures⟩ := hp.iterate_advance call
  rw [hzero, UInt64.zero_add] at hpictures
  have hgroup := (hp.of_settings hsettings).isPicture_group (S := S) hpictures
  rw [order, hsettings] at hgroup
  exact hgroup.imp fun _ _ hpicture => hpicture.of_settings hsettings

/-- **Groups are numbered without a gap.**  Whatever the size of a group and the number of pictures
between anchors, each picture is decoded once, the first one first, and each later anchor right before
the pictures between it and the anchor before, as they are shown.  In each group of a new pattern, the
picture that is shown first follows none and every other one the one shown before it, by its position
in decode order; the table of these positions is filled in without a write beside it.  The numbers that
times come from are those from nothing on, each once, whatever the number of groups. -/
theorem groups_numbered {settings : PatternSettings} (h : new settings = .ok p) (calls : Nat) :
    (∀ size between, 0 < size → AnchorsFirst size between (decodeOrder size between)) ∧
      let size := settings.groupSize.toNat
      let order := decodeOrder size settings.between.toNat
      let (groups, last) := (nextGroups calls p : List (List (PatternPicture S)) × TestPattern)
      0 < size ∧ groups.length = calls ∧
        (∀ call group, groups[call]? = some group →
          List.Forall₂ (p.IsPicture (call * size) order) order group) ∧
        groups.flatten.map (fun picture => picture.frame.pts) =
          (numbersOf size order calls).map (fun n => (UInt64.ofNat n).toInt64 * p.duration) ∧
        (numbersOf size order calls).Perm (List.range (calls * size)) ∧
        (calls * size ≤ UInt64.size → ((numbersOf size order calls).map UInt64.ofNat).Nodup) ∧
        last.pictures = .ofNat (calls * size) := by
  obtain ⟨rfl, hzero, hp⟩ := new_eq_ok h
  refine ⟨fun size between hsize => anchorsFirst_decodeOrder between hsize, ?_⟩
  rw [nextGroups_eq]
  refine ⟨hp.pos, ?_, fun call group hgroup => ?_, ?_, numbersOf_perm hp.order_perm calls,
    nodup_words (numbersOf_perm hp.order_perm calls), ?_⟩
  · rw [List.length_map, List.length_range]
  · rw [List.getElem?_map, Option.map_eq_some_iff] at hgroup
    obtain ⟨index, hindex, rfl⟩ := hgroup
    obtain ⟨-, rfl⟩ := List.getElem?_eq_some_iff.1 hindex
    rw [List.getElem_range]
    exact hp.isPicture_groups hzero call
  · rw [numbersOf, List.map_flatten, List.map_map, ← List.flatMap_def, List.map_flatMap]
    exact List.flatMap_congr fun call _ => map_pts_of_isPicture (hp.isPicture_groups hzero call)
  · obtain ⟨-, -, hpictures⟩ := hp.iterate_advance calls
    rw [hpictures, hzero, UInt64.zero_add]
    rfl

/-- A pattern with seven pictures in a group, two of them between anchors. -/
def sevens : TestPattern := { settings := { groupSize := 7 }, source := "cam-1" }

/-- Two groups of seven: the fourth and the last picture of each are decoded early. -/
theorem sevens_numbered :
    new sevens.settings = .ok sevens ∧ decodeOrder 7 2 = [0, 3, 1, 2, 6, 4, 5] ∧
      anchors 7 2 = [0, 3, 6] ∧ AnchorsFirst 7 2 (decodeOrder 7 2) ∧
      ((nextGroups 2 sevens).1.flatten.map fun picture : PatternPicture Float32 =>
          picture.frame.pts) =
        [0, 3, 1, 2, 6, 4, 5, 7, 10, 8, 9, 13, 11, 12].map (40000000 * ·) ∧
      ((nextGroups 2 sevens).1.flatten.map fun picture : PatternPicture Float32 =>
          picture.follows) =
        [none, some 3, some 0, some 2, some 6, some 1, some 5,
          none, some 3, some 0, some 2, some 6, some 1, some 5] ∧
      ((numbersOf 7 (decodeOrder 7 2) 2).map UInt64.ofNat).Nodup := by
  have hnew : new sevens.settings = .ok sevens := by cbv
  obtain ⟨hanchors, -, -, -, hpts, -, hnodup, -⟩ := groups_numbered (S := Float32) hnew 2
  refine ⟨hnew, by cbv, by cbv, hanchors 7 2 (by decide), hpts.trans (by cbv),
    by decide +kernel, hnodup (by decide)⟩

end VideoRelay.TestPattern

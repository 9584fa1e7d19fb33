import Mathlib.Data.List.Nodup
import VideoRelay.Proofs.Sequence.Chain
import VideoRelay.TestPattern.DecodeOrder

/-!
# Groups of pictures are restored

A group is decoded anchor first, and then the pictures between this anchor and the one before, in the
order in which they are shown.  A backlog that the group arrives at holds one picture at most: the
anchor, until the last picture between has arrived.  So nothing depends on how the numbers of the
pictures compare, and the group comes out as it is shown (`run_decodeOrder`).
-/

namespace VideoRelay

variable {P : Type}

/-! ### Backlogs with one picture at most -/

namespace Backlog

variable {b : Backlog P} {x : Held P}

theorem release_of_nothing (h : b.held.toList = []) : b.release = ([], b) := by
  refine release_eq_self fun x rest hp => ?_
  rw [Heap.pop?_eq_none_iff.2 h] at hp
  cases hp

/-- A single picture is on top. -/
theorem pop?_of_single (h : b.held.toList = [x]) :
    ∃ rest, b.held.pop? = some (x, rest) ∧ rest.toList = [] := by
  cases hp : b.held.pop? with
  | none =>
    rw [Heap.pop?_eq_none_iff.1 hp] at h
    cases h
  | some p =>
    obtain ⟨y, rest⟩ := p
    have hperm := Heap.pop?_perm hp
    rw [h] at hperm
    obtain ⟨rfl, hrest⟩ := List.cons.inj (List.perm_singleton.1 hperm.symm)
    exact ⟨rest, rfl, hrest⟩

theorem release_of_waiting (h : b.held.toList = [x]) (hl : b.last ≠ some x.previous) :
    b.release = ([], b) := by
  obtain ⟨rest, hp, -⟩ := pop?_of_single h
  refine release_eq_self fun y rest' hy => ?_
  rw [hp] at hy
  cases hy
  exact hl

theorem release_of_due (h : b.held.toList = [x]) (hl : b.last = some x.previous) :
    ∃ rest, b.release = ([x.entry], ⟨some x.id, rest⟩) ∧ rest.toList = [] := by
  obtain ⟨rest, hp, hrest⟩ := pop?_of_single h
  refine ⟨rest, ?_, hrest⟩
  rw [release_of_pop? hp hl, release_of_nothing (b := ⟨some x.id, rest⟩) hrest]

end Backlog

namespace TestPattern

/-! ### The order -/

theorem decodeFrom_perm {size between anchor : Nat} (h : anchor < size) :
    (decodeFrom size between anchor).Perm (List.range' (anchor + 1) (size - 1 - anchor)) := by
  fun_induction decodeFrom size between anchor with
  | case1 anchor hlt next ih =>
    have hnext : anchor < next ∧ next < size := by omega
    have hsplit : size - 1 - anchor = (next - (anchor + 1) + 1) + (size - 1 - next) := by omega
    have hlast : anchor + 1 + (next - (anchor + 1)) = next := by omega
    rw [hsplit, ← List.range'_append_1, List.range'_1_concat, hlast,
      show anchor + 1 + (next - (anchor + 1) + 1) = next + 1 by omega]
    exact (List.perm_append_singleton _ _).symm.append (ih hnext.2)
  | case2 anchor hlt =>
    rw [show size - 1 - anchor = 0 by omega]
    exact List.Perm.refl _

theorem range_of_pos {size : Nat} (h : 0 < size) :
    List.range size = 0 :: List.range' 1 (size - 1) := by
  obtain ⟨n, rfl⟩ := Nat.exists_eq_succ_of_ne_zero (Nat.ne_of_gt h)
  rw [List.range_eq_range', List.range'_succ]
  rfl

/-- Every picture of a group is decoded once. -/
theorem decodeOrder_perm {size between : Nat} (h : 0 < size) :
    (decodeOrder size between).Perm (List.range size) := by
  rw [range_of_pos h]
  exact (decodeFrom_perm h).cons 0

/-! ### A group arrives -/

section Group

variable (id : Nat → UInt64) (payload : Nat → P)

/-- The picture that is shown at a place, behind another one. -/
def linkedAt (n : Nat) : Held P := ⟨id n, id (n - 1), payload n⟩

/-- The picture that is shown at a place, as it arrives; the first one is a keyframe. -/
def arrivalAt (n : Nat) : Arrival P :=
  if n = 0 then ⟨id 0, true, .ok none, payload 0⟩ else (linkedAt id payload n).arrival

/-- The picture that is shown at a place, as it is emitted. -/
def entryAt (n : Nat) : UInt64 × P := (id n, payload n)

/-- Pictures arrive that are shown at the given places. -/
def arrivals (source : String) (places : List Nat) : List (Event P) :=
  places.map fun n => .arrive source (arrivalAt id payload n)

variable {id payload} {b : Backlog P} (source : String)

theorem arrivals_cons {n : Nat} (h : 0 < n) (places : List Nat) :
    arrivals id payload source (n :: places) =
      .arrive source (linkedAt id payload n).arrival :: arrivals id payload source places := by
  rw [arrivals, List.map_cons, arrivalAt, if_neg (Nat.ne_of_gt h)]
  rfl

/-- The picture behind the one emitted last arrives, and then others. -/
theorem run_in_turn {s : Nat} {out : List (UInt64 × P)} {b' : Backlog P}
    (hl : b.last = some (id s)) (hrel : (b.emit (id (s + 1))).release = (out, b'))
    (places : List Nat) :
    b.run (arrivals id payload source ((s + 1) :: places)) =
      (entryAt id payload (s + 1) :: out ++ (b'.run (arrivals id payload source places)).1,
        (b'.run (arrivals id payload source places)).2) := by
  have hstep := Backlog.step_in_turn (x := linkedAt id payload (s + 1)) hl source
  rw [show b.emit (linkedAt id payload (s + 1)).id = b.emit (id (s + 1)) from rfl, hrel] at hstep
  rw [arrivals_cons source (Nat.succ_pos s), Backlog.run_cons, hstep]
  rfl

/-- The pictures behind `s` arrive in order while the one behind them is held, which comes out with
the last of them. -/
theorem run_between (k s : Nat) (hl : b.last = some (id s))
    (hh : b.held.toList = [linkedAt id payload (s + k + 2)])
    (hne : ∀ i, s < i → i < s + k + 1 → id i ≠ id (s + k + 1)) :
    ∃ rest, b.run (arrivals id payload source (List.range' (s + 1) (k + 1))) =
        ((List.range' (s + 1) (k + 2)).map (entryAt id payload), ⟨some (id (s + k + 2)), rest⟩) ∧
      rest.toList = [] := by
  induction k generalizing s b with
  | zero =>
    obtain ⟨rest, hrel, hrest⟩ :=
      Backlog.release_of_due (b := b.emit (id (s + 1))) (x := linkedAt id payload (s + 2)) hh rfl
    exact ⟨rest, run_in_turn source hl hrel [], hrest⟩
  | succ k ih =>
    have hheld : (b.emit (id (s + 1))).held.toList = [linkedAt id payload (s + 1 + k + 2)] := by
      rw [show s + 1 + k + 2 = s + (k + 1) + 2 by omega]
      exact hh
    have hwait : (b.emit (id (s + 1))).release = ([], b.emit (id (s + 1))) := by
      refine Backlog.release_of_waiting hheld fun h => ?_
      refine hne (s + 1) (Nat.lt_succ_self s) (by omega) ?_
      rw [show s + (k + 1) + 1 = s + 1 + k + 2 - 1 by omega]
      exact Option.some.inj h
    obtain ⟨rest, hrun, hrest⟩ := ih (s + 1) rfl hheld fun i hi hk => by
      rw [show s + 1 + k + 1 = s + (k + 1) + 1 by omega]
      exact hne i (by omega) (by omega)
    refine ⟨rest, ?_, hrest⟩
    rw [List.range'_succ, run_in_turn source hl hwait, hrun,
      show s + (k + 1) + 2 = s + 1 + k + 2 by omega]
    rfl

/-- An anchor arrives, and the pictures between it and the one emitted last. -/
theorem run_anchor {anchor next : Nat} (h : anchor < next)
    (hid : ∀ i < next, ∀ j < next, id i = id j → i = j) (hl : b.last = some (id anchor))
    (hh : b.held.toList = []) :
    ∃ rest, b.run (arrivals id payload source
          (next :: List.range' (anchor + 1) (next - (anchor + 1)))) =
        ((List.range' (anchor + 1) (next - anchor)).map (entryAt id payload),
          ⟨some (id next), rest⟩) ∧
      rest.toList = [] := by
  rcases Nat.lt_or_ge (anchor + 1) next with hgap | hgap
  · -- the anchor is held until the last picture between has come
    obtain ⟨k, rfl⟩ : ∃ k, next = anchor + k + 2 := ⟨next - anchor - 2, by omega⟩
    let x := linkedAt id payload (anchor + k + 2)
    have hearly : b.last ≠ some x.previous := by
      rw [hl]
      intro he
      have := hid anchor h (anchor + k + 1) (by omega) (Option.some.inj he)
      omega
    have hheld : (b.held.push x).toList = [x] := by
      have hpush := Heap.push_perm b.held x
      rw [hh] at hpush
      exact List.perm_singleton.1 hpush
    have hstep := Backlog.step_early hearly source
    rw [Backlog.release_of_waiting (b := ⟨b.last, b.held.push x⟩) hheld hearly] at hstep
    have hne : ∀ i, anchor < i → i < anchor + k + 1 → id i ≠ id (anchor + k + 1) := by
      intro i hi hik he
      have := hid i (by omega) (anchor + k + 1) (by omega) he
      omega
    obtain ⟨rest, hrun, hrest⟩ :=
      run_between (b := ⟨b.last, b.held.push x⟩) source k anchor hl hheld hne
    refine ⟨rest, ?_, hrest⟩
    rw [arrivals_cons source (by omega), Backlog.run_cons, hstep,
      show anchor + k + 2 - (anchor + 1) = k + 1 by omega, hrun,
      show anchor + k + 2 - anchor = k + 2 by omega]
    rfl
  · have he : next = anchor + 1 := by omega
    refine ⟨b.held, ?_, hh⟩
    rw [he, Nat.sub_self, run_in_turn source hl (Backlog.release_of_nothing hh),
      Nat.add_sub_cancel_left]
    rfl

/-- What is decoded behind an anchor arrives when the anchor was emitted last. -/
theorem run_decodeFrom {size between anchor : Nat} (h : anchor < size)
    (hid : ∀ i < size, ∀ j < size, id i = id j → i = j) :
    ∀ b : Backlog P, b.last = some (id anchor) → b.held.toList = [] →
      (b.run (arrivals id payload source (decodeFrom size between anchor))).1 =
          (List.range' (anchor + 1) (size - 1 - anchor)).map (entryAt id payload) ∧
        (b.run (arrivals id payload source (decodeFrom size between anchor))).2.held.toList = [] := by
  fun_induction decodeFrom size between anchor with
  | case1 anchor hlt next ih =>
    intro b hl hh
    have hnext : anchor < next ∧ next < size := by omega
    have hsplit : List.range' (anchor + 1) (size - 1 - anchor) =
        List.range' (anchor + 1) (next - anchor) ++ List.range' (next + 1) (size - 1 - next) := by
      rw [show next + 1 = anchor + 1 + (next - anchor) by omega, List.range'_append_1,
        show next - anchor + (size - 1 - next) = size - 1 - anchor by omega]
    have hsmall : ∀ i < next, ∀ j < next, id i = id j → i = j := by
      intro i hi j hj
      exact hid i (Nat.lt_trans hi hnext.2) j (Nat.lt_trans hj hnext.2)
    obtain ⟨rest, hrun, hrest⟩ := run_anchor source hnext.1 hsmall hl hh
    obtain ⟨hout, hheld⟩ := ih hnext.2 ⟨some (id next), rest⟩ rfl hrest
    rw [arrivals, List.map_append, ← arrivals, ← arrivals, Backlog.run_append, hrun, hsplit,
      List.map_append, hout]
    exact ⟨rfl, hheld⟩
  | case2 anchor hlt =>
    intro b hl hh
    rw [show size - 1 - anchor = 0 by omega]
    exact ⟨rfl, hh⟩

/-- **A group comes out as it is shown.**  When nothing is held, the pictures of a group arrive in
decode order and are emitted in the order in which they are shown, and nothing is held then. -/
theorem run_decodeOrder {size between : Nat} (h : 0 < size)
    (hid : ∀ i < size, ∀ j < size, id i = id j → i = j) (hh : b.held.toList = []) :
    (b.run (arrivals id payload source (decodeOrder size between))).1 =
        (List.range size).map (entryAt id payload) ∧
      (b.run (arrivals id payload source (decodeOrder size between))).2.held.toList = [] := by
  have hdrain : b.held.drain = [] := by
    have hperm := Heap.drain_perm b.held
    rw [hh] at hperm
    exact hperm.eq_nil
  let first : Backlog P := { last := some (id 0) }
  have hstep : b.step (.arrive source (arrivalAt id payload 0)) =
      ([entryAt id payload 0], first) := by
    rw [Backlog.step_keyframe b rfl source, hdrain]
    rfl
  have hrest : (first.run (arrivals id payload source (decodeFrom size between 0))).1 =
        (List.range' 1 (size - 1)).map (entryAt id payload) ∧
      (first.run (arrivals id payload source (decodeFrom size between 0))).2.held.toList = [] :=
    run_decodeFrom source h hid first rfl rfl
  rw [decodeOrder, arrivals, List.map_cons, ← arrivals, Backlog.run_cons, hstep, range_of_pos h,
    List.map_cons, ← hrest.1]
  exact ⟨rfl, hrest.2⟩

end Group

end TestPattern

end VideoRelay

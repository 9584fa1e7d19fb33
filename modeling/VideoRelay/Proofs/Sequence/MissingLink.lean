import Mathlib.Data.List.Perm.Basic
import Mathlib.Data.List.Sort
import VideoRelay.Proofs.Sequence.AnyArrival

/-!
# A frame of a chain without its linkage

When a frame `x` of a chain arrives without its linkage, it is emitted at once and counts as the frame
emitted last.  Frames before it that were still to come, `low`, are then left behind: each of them
follows a frame with a smaller number than the last one, so it is held, and comes out at the end
(`Ahead.run`).  The frames behind `x` go on from `x` as far as they are not hidden on the heap by one
of `low`.  So what comes out behind `x` is a beginning of the chain behind `x`, and in the end `low` and
the rest, in order (`exists_emissions`).

The other frames are out of order exactly if something is left behind and something is emitted in
front of it, which is decided when `x` arrives: the chain is then `Torn` or not
(`increasing_iff_not_torn`).
-/

namespace VideoRelay

variable {P : Type}

/-- The frame as it arrives without its linkage. -/
def Held.unlinked (x : Held P) (fault : Fault) : Arrival P := ⟨x.id, false, .error fault, x.payload⟩

theorem Backlog.step_unlinked (b : Backlog P) (x : Held P) (fault : Fault) (source : String) :
    b.step (.arrive source (x.unlinked fault)) =
      (x.entry :: (b.emit x.id).release.1, (b.emit x.id).release.2) := rfl

/-- How a chain is torn by a frame that arrives without its linkage, when the frames `seen` have
arrived: a frame before it is still to come, and the frame behind it does not wait for that one,
because it is still to come itself or no frame before it is held. -/
structure Torn (before after seen : List (Held P)) : Prop where
  missing : ∃ m ∈ before, among seen m = false
  follower : ∃ y, after.head? = some y ∧
    (among seen y = true → ∀ z ∈ before.dropWhile (among seen), among seen z = false)

/-- What is still to come before the frame, and what the frame behind it waits for. -/
theorem torn_iff {before after seen : List (Held P)} :
    Torn before after seen ↔ before.dropWhile (among seen) ≠ [] ∧ ∃ y, after.head? = some y ∧
      (among seen y = true → ∀ z ∈ before.dropWhile (among seen), among seen z = false) := by
  rw [Ne, List.dropWhile_eq_nil_iff]
  constructor
  · rintro ⟨⟨m, hm, hms⟩, hfollower⟩
    refine ⟨fun h => ?_, hfollower⟩
    rw [h m hm] at hms
    cases hms
  · rintro ⟨h, hfollower⟩
    simp only [not_forall, Bool.not_eq_true] at h
    obtain ⟨m, hm, hms⟩ := h
    exact ⟨⟨m, hm, hms⟩, hfollower⟩

theorem not_among_concat {seen : List (Held P)} {x y : Held P} :
    among (seen ++ [x]) y = false ↔ among seen y = false ∧ y.id ≠ x.id := by
  rw [← Bool.not_eq_true, among_concat, not_or, Bool.not_eq_true]

/-- A frame that has not arrived is not one of those that have. -/
theorem mem_of_not_among {seen low out rest : List (Held P)} {x : Held P}
    (hx : x ∈ low ++ (out ++ rest)) (hout : ∀ y ∈ out, among seen y = true)
    (hnew : among seen x = false) : x ∈ low ++ rest := by
  rw [List.mem_append, List.mem_append] at hx
  rcases hx with hx | hx | hx
  · exact List.mem_append_left _ hx
  · rw [hout x hx] at hnew
    cases hnew
  · exact List.mem_append_right _ hx

/-! ### Frames left behind -/

/-- Frames `low` of a chain are left behind, and the chain goes on behind `q` with `todo`. -/
structure Gap (q : UInt64) (low todo : List (Held P)) : Prop where
  linked : Linked q todo
  increasing : Increasing q todo
  behind : ∀ z ∈ low, z.previous < q

/-- `q` was emitted last, and of the frames left behind and those to come the ones that have arrived
are held. -/
structure Ahead (q : UInt64) (seen low todo : List (Held P)) (b : Backlog P) : Prop
    extends Gap q low todo where
  last : b.last = some q
  held : b.held.toList.Perm ((low ++ todo).filter (among seen))
  ordered : b.held.Ordered
  distinct : ((low ++ todo).map Held.id).Nodup

theorem Increasing.left {q : UInt64} {l₁ l₂ : List (Held P)} (h : Increasing q (l₁ ++ l₂)) :
    Increasing q l₁ :=
  List.Pairwise.sublist (((List.sublist_append_left l₁ l₂).map Held.id).cons_cons q) h

section Ahead

variable {q : UInt64} {seen low todo : List (Held P)} {b : Backlog P} {x y : Held P}

theorem Ahead.mem_held (a : Ahead q seen low todo b) :
    x ∈ b.held.toList ↔ (x ∈ low ∨ x ∈ todo) ∧ among seen x = true := by
  rw [a.held.mem_iff, List.mem_filter, List.mem_append]

/-- Only the next frame follows the one emitted last. -/
theorem Gap.eq_head (g : Gap q low todo) (hx : x ∈ low ∨ x ∈ todo) (hq : x.previous = q) :
    ∃ rest, todo = x :: rest := by
  rcases hx with hx | hx
  · exact absurd hq (UInt64.ne_of_lt (g.behind x hx))
  · cases todo with
    | nil => exact absurd hx List.not_mem_nil
    | cons y rest =>
      rcases List.mem_cons.1 hx with rfl | hx
      · exact ⟨rest, rfl⟩
      · exact absurd hq.symm (UInt64.ne_of_lt (g.increasing.lt_previous g.linked hx))

theorem Gap.tail (g : Gap q low (y :: todo)) : Gap y.id low todo := by
  refine ⟨g.linked.2, g.increasing.tail, fun z hz => ?_⟩
  have hlt : q < y.id := (List.pairwise_cons.1 g.increasing).1 _ (by simp)
  exact UInt64.lt_trans (g.behind z hz) hlt

theorem Ahead.distinct_tail (a : Ahead q seen low (y :: todo) b) :
    ((low ++ todo).map Held.id).Nodup ∧ y.id ∉ (low ++ todo).map Held.id := by
  have hn := a.distinct
  rw [List.map_append, List.map_cons] at hn
  have hn := List.perm_middle.nodup_iff.1 hn
  rw [← List.map_append] at hn
  exact ⟨(List.nodup_cons.1 hn).2, (List.nodup_cons.1 hn).1⟩

/-- What is released are frames of the chain that come next. -/
theorem Ahead.release (a : Ahead q seen low todo b) :
    ∃ out rest c, todo = out ++ rest ∧ b.release = (out.map Held.entry, c) ∧
      (∀ y ∈ out, among seen y = true) ∧ Ahead (endOf q out) seen low rest c := by
  induction todo generalizing q b with
  | nil =>
    refine ⟨[], [], b, rfl, Backlog.release_eq_self fun x rest hp hl => ?_, by simp, a⟩
    have hx : x ∈ b.held.toList := (Heap.pop?_perm hp).symm.subset List.mem_cons_self
    rw [a.last] at hl
    obtain ⟨rest, h⟩ := a.eq_head (a.mem_held.1 hx).1 (Option.some.inj hl).symm
    cases h
  | cons y todo ih =>
    by_cases htop : ∃ x rest, b.held.pop? = some (x, rest) ∧ b.last = some x.previous
    · obtain ⟨x, rest, hp, hl⟩ := htop
      have hx : x ∈ b.held.toList := (Heap.pop?_perm hp).symm.subset List.mem_cons_self
      obtain ⟨hmem, hseen⟩ := a.mem_held.1 hx
      have hq := hl
      rw [a.last] at hq
      obtain ⟨_, hhead⟩ := a.eq_head hmem (Option.some.inj hq).symm
      cases hhead
      have hnext : Ahead y.id seen low todo ⟨some y.id, rest⟩ := by
        refine ⟨a.toGap.tail, rfl, ?_, Heap.ordered_pop? a.ordered hp, a.distinct_tail.1⟩
        have hheld := (Heap.pop?_perm hp).symm.trans a.held
        rw [List.filter_append, List.filter_cons_of_pos hseen] at hheld
        rw [List.filter_append]
        exact (hheld.trans List.perm_middle).cons_inv
      obtain ⟨out, todo', c, rfl, hrel, hout, hc⟩ := ih hnext
      refine ⟨y :: out, todo', c, rfl, ?_, ?_, hc⟩
      · rw [Backlog.release_of_pop? hp hl, hrel]
        rfl
      · exact List.forall_mem_cons.2 ⟨hseen, hout⟩
    · refine ⟨[], y :: todo, b, rfl, Backlog.release_eq_self fun x rest hp hl => ?_, by simp, a⟩
      exact htop ⟨x, rest, hp, hl⟩

/-- Nothing is released while a frame that was left behind is held. -/
theorem Ahead.release_low (a : Ahead q seen low todo b) {z : Held P} (hz : z ∈ low)
    (hseen : among seen z = true) : b.release = ([], b) := by
  refine Backlog.release_eq_self fun x rest hp hl => ?_
  have hle := a.ordered.previous_le_of_pop? hp z (a.mem_held.2 ⟨Or.inl hz, hseen⟩)
  rw [a.last, Option.some.injEq] at hl
  exact UInt64.lt_irrefl _ (UInt64.lt_of_le_of_lt (hl ▸ hle) (a.behind z hz))

/-! ### Arrivals -/

/-- The next frame arrives in its turn. -/
theorem Ahead.emit (a : Ahead q seen low (x :: todo) b) (hx : among seen x = false) :
    Ahead x.id (seen ++ [x]) low todo (b.emit x.id) := by
  obtain ⟨hn, hnew⟩ := a.distinct_tail
  refine ⟨a.toGap.tail, rfl, ?_, a.ordered, hn⟩
  have hheld := a.held
  rw [List.filter_append, List.filter_cons_of_neg (by rw [hx]; exact Bool.false_ne_true),
    ← List.filter_append] at hheld
  rw [filter_among_concat hnew]
  exact hheld

/-- Any other frame is held. -/
theorem Ahead.hold (a : Ahead q seen low todo b) (hx : x ∈ low ++ todo) (hnew : among seen x = false) :
    Ahead q (seen ++ [x]) low todo { b with held := b.held.push x } := by
  refine ⟨a.toGap, a.last, ?_, Heap.ordered_push a.ordered x, a.distinct⟩
  refine (Heap.push_perm b.held x).trans ?_
  exact (a.held.cons x).trans (filter_among_perm a.distinct hx hnew).symm

/-- One arrival emits frames of the chain that come next, the one that arrives in its turn among
them. -/
theorem Ahead.step (a : Ahead q seen low todo b) (hx : x ∈ low ++ todo) (hnew : among seen x = false)
    (source : String) :
    ∃ out rest c, todo = out ++ rest ∧ b.step (.arrive source x.arrival) = (out.map Held.entry, c) ∧
      (∀ y ∈ out, among (seen ++ [x]) y = true) ∧ Ahead (endOf q out) (seen ++ [x]) low rest c ∧
      (todo.head? = some x → out ≠ []) := by
  by_cases hl : b.last = some x.previous
  · have hq := hl
    rw [a.last] at hq
    obtain ⟨todo, rfl⟩ := a.eq_head (List.mem_append.1 hx) (Option.some.inj hq).symm
    obtain ⟨out, rest, c, rfl, hrel, hout, hc⟩ := (a.emit hnew).release
    refine ⟨x :: out, rest, c, rfl, ?_, ?_, hc, fun _ => List.cons_ne_nil _ _⟩
    · rw [Backlog.step_in_turn hl, hrel]
      rfl
    · exact List.forall_mem_cons.2 ⟨among_concat.2 (Or.inr rfl), hout⟩
  · obtain ⟨out, rest, c, rfl, hrel, hout, hc⟩ := (a.hold hx hnew).release
    refine ⟨out, rest, c, rfl, ?_, hout, hc, fun hhead => ?_⟩
    · rw [Backlog.step_early hl, hrel]
    · -- the head of the chain would have come in its turn
      obtain ⟨tail, htail⟩ : ∃ tail, out ++ rest = x :: tail := by
        cases hs : out ++ rest with
        | nil => rw [hs] at hhead; cases hhead
        | cons y tail =>
          rw [hs] at hhead
          cases hhead
          exact ⟨tail, rfl⟩
      have hlinked := a.linked
      rw [htail] at hlinked
      exact absurd (a.last.trans (congrArg some hlinked.1.symm)) hl

/-- What any arrivals emit. -/
theorem Ahead.run {arrivals : List (Held P)} (a : Ahead q seen low todo b)
    (hsub : ∀ x ∈ arrivals, x ∈ low ++ todo ∧ among seen x = false)
    (hn : (arrivals.map Held.id).Nodup) (source : String) :
    ∃ out rest c, todo = out ++ rest ∧
      b.run (arrivals.map fun x => .arrive source x.arrival) = (out.map Held.entry, c) ∧
      Ahead (endOf q out) (seen ++ arrivals) low rest c ∧
      ∀ y, todo.head? = some y → y ∈ arrivals → out ≠ [] := by
  induction arrivals generalizing q seen todo b with
  | nil =>
    refine ⟨[], todo, b, rfl, rfl, ?_, fun _ _ h => absurd h List.not_mem_nil⟩
    rwa [List.append_nil]
  | cons x arrivals ih =>
    obtain ⟨hx, hnew⟩ := hsub x List.mem_cons_self
    obtain ⟨hxn, hn⟩ := List.nodup_cons.1 hn
    obtain ⟨first, todo', c, rfl, hstep, hfirst, hc, hhead⟩ := a.step hx hnew source
    have hsub' : ∀ y ∈ arrivals, y ∈ low ++ todo' ∧ among (seen ++ [x]) y = false := by
      intro y hy
      obtain ⟨hmem, hys⟩ := hsub y (List.mem_cons_of_mem _ hy)
      have hlate : among (seen ++ [x]) y = false :=
        not_among_concat.2 ⟨hys, fun e => hxn (e ▸ List.mem_map_of_mem hy)⟩
      exact ⟨mem_of_not_among hmem hfirst hlate, hlate⟩
    obtain ⟨others, rest, c', rfl, hrun, hc', hothers⟩ := ih hc hsub' hn
    refine ⟨first ++ others, rest, c', (List.append_assoc _ _ _).symm, ?_, ?_, ?_⟩
    · rw [List.map_cons, Backlog.run_cons, hstep, hrun, List.map_append]
    · rw [endOf_append, ← List.singleton_append, ← List.append_assoc]
      exact hc'
    · intro y hy harr hnil
      obtain ⟨rfl, rfl⟩ := List.append_eq_nil_iff.1 hnil
      rcases List.mem_cons.1 harr with rfl | harr
      · exact hhead hy rfl
      · exact hothers y hy harr rfl

/-- As long as the next frame of the chain is held below one that was left behind, nothing is
emitted. -/
theorem Ahead.run_low {arrivals : List (Held P)} (a : Ahead q seen low todo b)
    (hsub : ∀ x ∈ arrivals, x ∈ low ++ todo ∧ among seen x = false)
    (hn : (arrivals.map Held.id).Nodup) (hy : ∀ y, todo.head? = some y → among seen y = true)
    {z : Held P} (hz : z ∈ low) (hseen : among seen z = true) (source : String) :
    (b.run (arrivals.map fun x => .arrive source x.arrival)).1 = [] := by
  induction arrivals generalizing seen b with
  | nil => rfl
  | cons x arrivals ih =>
    obtain ⟨hx, hnew⟩ := hsub x List.mem_cons_self
    obtain ⟨hxn, hn⟩ := List.nodup_cons.1 hn
    have hl : b.last ≠ some x.previous := by
      intro hl
      rw [a.last] at hl
      obtain ⟨rest, rfl⟩ := a.eq_head (List.mem_append.1 hx) (Option.some.inj hl).symm
      rw [hy x rfl] at hnew
      cases hnew
    have hmono : ∀ w, among seen w = true → among (seen ++ [x]) w = true := fun w hw =>
      among_concat.2 (Or.inl hw)
    have hhold := a.hold hx hnew
    rw [List.map_cons, Backlog.run_cons, Backlog.step_early hl, hhold.release_low hz (hmono z hseen),
      List.nil_append]
    refine ih hhold (fun w hw => ?_) hn (fun w hw => hmono w (hy w hw)) (hmono z hseen)
    obtain ⟨hmem, hws⟩ := hsub w (List.mem_cons_of_mem _ hw)
    exact ⟨hmem, not_among_concat.2 ⟨hws, fun e => hxn (e ▸ List.mem_map_of_mem hw)⟩⟩

/-! ### The end of the source -/

/-- What the frames of a chain follow comes in the order of the chain. -/
theorem Linked.pairwise_previous (hlink : Linked q todo) (hinc : Increasing q todo) :
    todo.Pairwise (fun x y => x.previous < y.previous) ∧ ∀ x ∈ todo, q ≤ x.previous := by
  induction todo generalizing q with
  | nil => exact ⟨List.Pairwise.nil, by simp⟩
  | cons y todo ih =>
    obtain ⟨hpair, -⟩ := ih hlink.2 hinc.tail
    have hlt : ∀ x ∈ todo, q < x.previous := fun x hx => hinc.lt_previous hlink hx
    refine ⟨List.pairwise_cons.2 ⟨fun x hx => hlink.1 ▸ hlt x hx, hpair⟩, ?_⟩
    refine List.forall_mem_cons.2 ⟨hlink.1 ▸ UInt64.le_refl q, fun x hx => ?_⟩
    exact UInt64.le_of_lt (hlt x hx)

/-- At the end the frames left behind come out, and then the rest of the chain. -/
theorem Ahead.drain_eq (a : Ahead q seen low todo b) {p : UInt64} (hlink : Linked p low)
    (hinc : Increasing p low) (hall : ∀ z ∈ low ++ todo, among seen z = true) :
    b.held.drain = low ++ todo := by
  have hperm : b.held.drain.Perm (low ++ todo) := by
    have hheld := a.held
    rw [List.filter_eq_self.2 hall] at hheld
    exact (Heap.drain_perm b.held).trans hheld
  have hsorted : (low ++ todo).Pairwise fun x y => x.previous < y.previous := by
    obtain ⟨htodo, hle⟩ := Linked.pairwise_previous a.linked a.increasing
    refine List.pairwise_append.2 ⟨(Linked.pairwise_previous hlink hinc).1, htodo, ?_⟩
    exact fun x hx y hy => UInt64.lt_of_lt_of_le (a.behind x hx) (hle y hy)
  have hinj : ((low ++ todo).map Held.previous).Nodup :=
    (List.pairwise_map.2 hsorted).imp UInt64.ne_of_lt
  refine hperm.eq_of_pairwise (fun x y hx hy hxy hyx => ?_) a.ordered.pairwise_drain
    (hsorted.imp UInt64.le_of_lt)
  exact List.inj_on_of_nodup_map hinj (hperm.mem_iff.1 hx) hy (UInt64.le_antisymm hxy hyx)

/-! ### From the arrival of the frame on -/

section Arrivals

variable {arrivals : List (Held P)}

/-- What is released and what the arrivals behind it emit. -/
theorem Ahead.release_run (a : Ahead q seen low todo b)
    (hsub : ∀ x ∈ arrivals, x ∈ low ++ todo ∧ among seen x = false)
    (hn : (arrivals.map Held.id).Nodup) (source : String) :
    ∃ out rest c, todo = out ++ rest ∧
      b.release.1 ++ (b.release.2.run (arrivals.map fun x => .arrive source x.arrival)).1 =
        out.map Held.entry ∧
      (b.release.2.run (arrivals.map fun x => .arrive source x.arrival)).2 = c ∧
      Ahead (endOf q out) (seen ++ arrivals) low rest c ∧
      ∀ y, todo.head? = some y → y ∈ arrivals → out ≠ [] := by
  obtain ⟨released, todo', c, rfl, hrel, hseen, hc⟩ := a.release
  have hsub' : ∀ x ∈ arrivals, x ∈ low ++ todo' ∧ among seen x = false := fun x hx =>
    ⟨mem_of_not_among (hsub x hx).1 hseen (hsub x hx).2, (hsub x hx).2⟩
  obtain ⟨later, rest, d, rfl, hrun, hd, hhead⟩ := hc.run hsub' hn source
  refine ⟨released ++ later, rest, d, (List.append_assoc _ _ _).symm, ?_, ?_, ?_, ?_⟩
  · rw [hrel, hrun, List.map_append]
  · rw [hrel, hrun]
  · rw [endOf_append]
    exact hd
  · intro y hy harr hnil
    obtain ⟨rfl, rfl⟩ := List.append_eq_nil_iff.1 hnil
    exact hhead y hy harr rfl

/-- With none of the frames left behind held, the state is that of the chain without them. -/
theorem Ahead.waits (a : Ahead q seen low todo b) (hlow : ∀ z ∈ low, among seen z = false) :
    Waits q seen todo b := by
  refine ⟨a.last, ?_, a.ordered⟩
  have hnone : low.filter (among seen) = [] := List.filter_eq_nil_iff.2 fun z hz => by
    rw [hlow z hz]
    exact Bool.false_ne_true
  have hheld := a.held
  rwa [List.filter_append, hnone, List.nil_append] at hheld

/-- Something is emitted in front of the frames left behind unless the next frame and one of these
are held. -/
theorem Ahead.emits_iff (a : Ahead q seen low todo b)
    (hsub : ∀ x ∈ arrivals, x ∈ low ++ todo ∧ among seen x = false)
    (hn : (arrivals.map Held.id).Nodup)
    (hall : ∀ x ∈ low ++ todo, among seen x = true ∨ x ∈ arrivals) (source : String) :
    b.release.1 ++ (b.release.2.run (arrivals.map fun x => .arrive source x.arrival)).1 ≠ [] ↔
      ∃ y, todo.head? = some y ∧ (among seen y = true → ∀ z ∈ low, among seen z = false) := by
  obtain ⟨out, rest, c, hsplit, hemitted, -, -, hhead⟩ := a.release_run hsub hn source
  cases htodo : todo with
  | nil =>
    rw [hsplit] at htodo
    rw [hemitted, (List.append_eq_nil_iff.1 htodo).1]
    simp
  | cons y tail =>
    have hy : ∀ w, todo.head? = some w → w = y := by
      rw [htodo]
      exact fun w hw => (Option.some.inj hw).symm
    simp only [List.head?_cons, Option.some.injEq, exists_eq_left']
    constructor
    · intro hne hys z hz
      by_contra hzs
      rw [Bool.not_eq_false] at hzs
      have hlow := a.run_low hsub hn (fun w hw => hy w hw ▸ hys) hz hzs source
      rw [a.release_low hz hzs, hlow] at hne
      exact hne rfl
    · intro hfree
      rcases hall y (List.mem_append_right _ (htodo ▸ List.mem_cons_self)) with hys | harr
      · obtain ⟨e, he, -⟩ := (a.waits (hfree hys)).release a.linked a.increasing
        rw [htodo, List.takeWhile_cons_of_pos hys] at he
        rw [he]
        exact List.cons_ne_nil _ _
      · rw [hemitted, Ne, List.map_eq_nil_iff]
        exact hhead y (by rw [htodo]; rfl) harr

/-- All that comes out: a beginning of what was to come, and at the end the frames left behind and the
rest. -/
theorem Ahead.emissions (a : Ahead q seen low todo b)
    (hsub : ∀ x ∈ arrivals, x ∈ low ++ todo ∧ among seen x = false)
    (hn : (arrivals.map Held.id).Nodup)
    (hall : ∀ x ∈ low ++ todo, among seen x = true ∨ x ∈ arrivals) {p : UInt64}
    (hlink : Linked p low) (hinc : Increasing p low) (source : String) :
    ∃ out rest, todo = out ++ rest ∧
      b.release.1 ++ (b.release.2.run
        (arrivals.map (fun x => .arrive source x.arrival) ++ [.finish source])).1 =
          (out ++ (low ++ rest)).map Held.entry ∧
      (out ≠ [] ↔ ∃ y, todo.head? = some y ∧
        (among seen y = true → ∀ z ∈ low, among seen z = false)) := by
  obtain ⟨out, rest, c, rfl, hemitted, hlast, hc, -⟩ := a.release_run hsub hn source
  have hheld : c.held.drain = low ++ rest := by
    refine hc.drain_eq hlink hinc fun z hz => ?_
    have hmem : z ∈ low ++ (out ++ rest) := by
      rcases List.mem_append.1 hz with hz | hz
      · exact List.mem_append_left _ hz
      · exact List.mem_append_right _ (List.mem_append_right _ hz)
    rw [among_iff, List.map_append, List.mem_append]
    exact (hall z hmem).imp among_iff.1 List.mem_map_of_mem
  refine ⟨out, rest, rfl, ?_, ?_⟩
  · rw [Backlog.run_concat, hlast, ← List.append_assoc, hemitted, List.map_append, ← hheld]
    rfl
  · rw [← a.emits_iff hsub hn hall source, hemitted, Ne, Ne, List.map_eq_nil_iff]

end Arrivals

end Ahead

/-! ### The whole chain -/

section Chain

variable {p : UInt64} {x : Held P} {first before after : List (Held P)} {b : Backlog P}

/-- A chain cut at a frame that has not arrived. -/
theorem takeWhile_dropWhile_of_neg {α : Type} {f : α → Bool} {a : α} (ha : f a = false)
    (l r : List α) :
    (l ++ a :: r).takeWhile f = l.takeWhile f ∧
      (l ++ a :: r).dropWhile f = l.dropWhile f ++ a :: r := by
  have hneg : ¬ f a = true := by
    rw [ha]
    exact Bool.false_ne_true
  induction l with
  | nil => exact ⟨List.takeWhile_cons_of_neg hneg, List.dropWhile_cons_of_neg hneg⟩
  | cons c l ih =>
    by_cases hc : f c = true
    · rw [List.cons_append, List.takeWhile_cons_of_pos hc, List.takeWhile_cons_of_pos hc,
        List.dropWhile_cons_of_pos hc, List.dropWhile_cons_of_pos hc]
      exact ⟨congrArg (c :: ·) ih.1, ih.2⟩
    · rw [List.cons_append, List.takeWhile_cons_of_neg hc, List.takeWhile_cons_of_neg hc,
        List.dropWhile_cons_of_neg hc, List.dropWhile_cons_of_neg hc]
      exact ⟨rfl, rfl⟩

/-- The frame without its linkage is emitted ahead of those before it. -/
theorem Waits.overtake {low : List (Held P)} (w : Waits p first (low ++ x :: after) b)
    (hlink : Linked p (low ++ x :: after)) (hinc : Increasing p (low ++ x :: after))
    (hx : among first x = false) : Ahead x.id first low after (b.emit x.id) := by
  have hn : ((x :: (low ++ after)).map Held.id).Nodup :=
    (List.perm_middle.map Held.id).nodup_iff.1 hinc.nodup
  refine ⟨⟨(linked_append.1 hlink).2.2, hinc.rest.tail, fun z hz => ?_⟩, rfl, ?_, w.ordered,
    (List.nodup_cons.1 hn).2⟩
  · have hprev := Linked.previous_mem (linked_append.1 hlink).1 hz
    have hall : ((p :: low.map Held.id) ++ (x :: after).map Held.id).Pairwise (· < ·) := by
      rw [List.cons_append, ← List.map_append]
      exact hinc
    exact (List.pairwise_append.1 hall).2.2 _ hprev _ List.mem_cons_self
  · have hheld := w.held
    rw [List.filter_append, List.filter_cons_of_neg (by rw [hx]; exact Bool.false_ne_true),
      ← List.filter_append] at hheld
    exact hheld

/-- The frames that arrive behind it are the others that have not arrived. -/
theorem mem_rest_iff {rest : List (Held P)} {y : Held P}
    (harrivals : (first ++ x :: rest).Perm (before ++ x :: after))
    (hn : ((before ++ x :: after).map Held.id).Nodup) (hx : among first x = false) :
    y ∈ rest ↔ y ∈ before.dropWhile (among first) ++ after ∧ among first y = false := by
  obtain ⟨htake, hdrop⟩ := takeWhile_dropWhile_of_neg hx before after
  have hsplit := List.takeWhile_append_dropWhile (p := among first) (l := before ++ x :: after)
  rw [htake, hdrop] at hsplit
  have hn' := (harrivals.map Held.id).nodup_iff.2 hn
  rw [List.map_append, List.map_cons, List.nodup_append, List.nodup_cons] at hn'
  obtain ⟨-, ⟨hxr, -⟩, hdisj⟩ := hn'
  constructor
  · intro hy
    have hnew : among first y = false := by
      rw [← Bool.not_eq_true, among_iff]
      exact fun h => hdisj _ h _ (List.mem_cons_of_mem _ (List.mem_map_of_mem hy)) rfl
    refine ⟨?_, hnew⟩
    have hmem : y ∈ before ++ x :: after :=
      harrivals.mem_iff.1 (List.mem_append_right _ (List.mem_cons_of_mem _ hy))
    rw [← hsplit] at hmem
    have hlate : y ∈ [] ++ (before.dropWhile (among first) ++ x :: after) :=
      mem_of_not_among hmem (fun z hz => List.mem_takeWhile_imp hz) hnew
    exact (List.mem_cons.1 (List.perm_middle.mem_iff.1 hlate)).resolve_left fun e =>
      hxr (e ▸ List.mem_map_of_mem hy)
  · rintro ⟨hy, hnew⟩
    have hne : y ≠ x := by
      rw [← hsplit, List.map_append] at hn
      have hlate := (List.perm_middle.map Held.id).nodup_iff.1 (List.nodup_append.1 hn).2.1
      exact fun e => (List.nodup_cons.1 hlate).1 (e ▸ List.mem_map_of_mem hy)
    have hmem : y ∈ before ++ x :: after := by
      rw [← hsplit]
      exact List.mem_append_right _ (List.perm_middle.mem_iff.2 (List.mem_cons_of_mem _ hy))
    rcases List.mem_append.1 (harrivals.mem_iff.2 hmem) with h | h
    · rw [among_iff.2 (List.mem_map_of_mem h)] at hnew
      cases hnew
    · exact (List.mem_cons.1 h).resolve_left hne

/-- What the arrivals of a chain emit, one of which has lost its linkage. -/
theorem exists_emissions {rest : List (Held P)} {k : Arrival P} (hk : k.keyframe = true)
    (hlink : Linked k.id (before ++ x :: after)) (hinc : Increasing k.id (before ++ x :: after))
    (harrivals : (first ++ x :: rest).Perm (before ++ x :: after)) (fault : Fault) (source : String) :
    ∃ out later, after = out ++ later ∧
      (b.run (.arrive source k :: (first.map (fun y => .arrive source y.arrival) ++
        .arrive source (x.unlinked fault) ::
          (rest.map (fun y => .arrive source y.arrival) ++ [.finish source])))).1 =
        b.held.drain.map Held.entry ++ (k.id, k.payload) ::
          (before.takeWhile (among first) ++
            x :: (out ++ (before.dropWhile (among first) ++ later))).map Held.entry ∧
      (out ≠ [] ↔ ∃ y, after.head? = some y ∧
        (among first y = true → ∀ z ∈ before.dropWhile (among first), among first z = false)) := by
  have hn := (harrivals.map Held.id).nodup_iff.2 hinc.nodup
  rw [List.map_append, List.map_cons, List.nodup_append, List.nodup_cons] at hn
  obtain ⟨hfirst, ⟨-, hrest⟩, hdisj⟩ := hn
  have hx : among first x = false := by
    rw [← Bool.not_eq_true, among_iff]
    exact fun h => hdisj _ h _ List.mem_cons_self rfl
  have hlate {y : Held P} := mem_rest_iff (y := y) harrivals hinc.nodup hx
  obtain ⟨c, hc, hw⟩ := (waits_start k.id (before ++ x :: after)).run hlink hinc
    (fun y hy => harrivals.mem_iff.1 (List.mem_append_left _ hy)) hfirst source
  obtain ⟨htake, hdrop⟩ := takeWhile_dropWhile_of_neg hx before after
  -- the chain behind its beginning that has arrived
  rw [← List.takeWhile_append_dropWhile (p := among first) (l := before ++ x :: after)] at hlink hinc
  have hlink' := (linked_append.1 hlink).2
  have hinc' := hinc.rest
  rw [htake] at hc
  rw [htake, hdrop] at hw hlink' hinc'
  have ha := hw.overtake hlink' hinc' hx
  have hall : ∀ y ∈ before.dropWhile (among first) ++ after, among first y = true ∨ y ∈ rest := by
    intro y hy
    rw [hlate]
    cases h : among first y with
    | true => exact Or.inl rfl
    | false => exact Or.inr ⟨hy, rfl⟩
  obtain ⟨out, later, rfl, hemitted, hout⟩ := ha.emissions (fun y hy => hlate.1 hy) hrest hall
    (linked_append.1 hlink').1 hinc'.left source
  refine ⟨out, later, rfl, ?_, hout⟩
  rw [Backlog.run_cons, Backlog.step_keyframe _ hk, Backlog.run_append, hc, Backlog.run_cons,
    Backlog.step_unlinked, List.cons_append, hemitted]
  simp

section Order

variable {done low out later : List (Held P)}

theorem perm_overtaken :
    (done ++ x :: (out ++ (low ++ later))).Perm ((done ++ low) ++ x :: (out ++ later)) := by
  rw [List.append_assoc]
  refine List.Perm.append_left done ?_
  exact ((List.perm_append_comm_assoc out low later).cons x).trans List.perm_middle.symm

theorem filter_overtaken (hx : x.id ∉ p :: (done ++ out).map Held.id) :
    (p :: (done ++ x :: out).map Held.id).filter (· ≠ x.id) = p :: (done ++ out).map Held.id := by
  have hself : ((p :: (done ++ out).map Held.id).filter (· ≠ x.id)) =
      p :: (done ++ out).map Held.id :=
    List.filter_eq_self.2 fun y hy => decide_eq_true fun e => hx (e ▸ hy)
  rw [← hself]
  simp [List.filter_cons]

/-- The others come out in order if nothing was left behind or nothing was emitted in front of what
was. -/
theorem increasing_overtaken_iff (hinc : Increasing p ((done ++ low) ++ x :: (out ++ later))) :
    ((p :: (done ++ x :: (out ++ (low ++ later))).map Held.id).filter (· ≠ x.id)).Pairwise (· < ·) ↔
      low = [] ∨ out = [] := by
  have hn : (p :: ((done ++ low) ++ x :: (out ++ later)).map Held.id).Nodup :=
    List.Pairwise.imp UInt64.ne_of_lt hinc
  have hx : x.id ∉ p :: (done ++ (out ++ (low ++ later))).map Held.id := by
    have hperm : ((p :: ((done ++ low) ++ x :: (out ++ later)).map Held.id)).Perm
        (x.id :: p :: (done ++ (out ++ (low ++ later))).map Held.id) := by
      refine ((perm_overtaken.symm.trans List.perm_middle).map Held.id).cons p |>.trans ?_
      exact List.Perm.swap _ _ _
    exact (List.nodup_cons.1 (hperm.nodup_iff.1 hn)).1
  rw [filter_overtaken hx]
  constructor
  · intro hpair
    by_contra! h
    obtain ⟨⟨z, low, rfl⟩, ⟨y, out, rfl⟩⟩ :=
      And.intro (List.exists_cons_of_ne_nil h.1) (List.exists_cons_of_ne_nil h.2)
    have hzy : z.id < y.id := by
      have h := (List.pairwise_cons.1 hinc).2
      rw [List.map_append] at h
      exact (List.pairwise_append.1 h).2.2 _ (by simp) _ (by simp)
    have hyz : y.id < z.id := by
      have h := (List.pairwise_cons.1 hpair).2
      rw [← List.append_assoc, List.map_append] at h
      exact (List.pairwise_append.1 h).2.2 _ (by simp) _ (by simp)
    exact UInt64.lt_asymm hzy hyz
  · intro h
    have hsub : (done ++ (out ++ (low ++ later))).Sublist ((done ++ low) ++ x :: (out ++ later)) := by
      rw [List.append_assoc]
      rcases h with rfl | rfl
      · exact List.Sublist.append_left (List.sublist_cons_self x _) done
      · exact List.Sublist.append_left (List.Sublist.append_left (List.sublist_cons_self x _) low) done
    exact List.Pairwise.sublist ((hsub.map Held.id).cons_cons p) hinc

end Order

end Chain

namespace Resequencer

variable {r : Resequencer P} {source : String} {k : Arrival P} {x : Held P}
  {first rest before after : List (Held P)}

/-- **A frame without its linkage.**  A keyframe of a source arrives, behind it the frames of a chain
along which the numbers increase, in any order and with any events of other sources in between, but
`x` of these without its linkage, and then the source ends.  All frames come out.  The others come out
in order exactly if `x` does not tear the chain. -/
theorem increasing_iff_not_torn (hr : r.enabled = true) (hk : k.keyframe = true)
    (hlink : Linked k.id (before ++ x :: after)) (hinc : Increasing k.id (before ++ x :: after))
    (harrivals : (first ++ x :: rest).Perm (before ++ x :: after)) {fault : Fault}
    {events : List (Event P)}
    (hevents : (events.filter fun e => e.source = source) =
      .arrive source k :: (first.map (fun y => .arrive source y.arrival) ++
        .arrive source (x.unlinked fault) ::
          (rest.map (fun y => .arrive source y.arrival) ++ [.finish source]))) :
    ∃ out, emitted source (r.trace events) =
        (r.backlog source).held.drain.map Held.entry ++ (k.id, k.payload) :: out ∧
      out.Perm ((before ++ x :: after).map Held.entry) ∧
      (((k.id :: out.map Prod.fst).filter (· ≠ x.id)).Pairwise (· < ·) ↔ ¬ Torn before after first) := by
  obtain ⟨out, later, rfl, hemitted, hout⟩ :=
    exists_emissions (b := r.backlog source) hk hlink hinc harrivals fault source
  rw [emitted_trace hr, hevents, hemitted]
  have hchain : before = before.takeWhile (among first) ++ before.dropWhile (among first) :=
    List.takeWhile_append_dropWhile.symm
  refine ⟨_, rfl, ?_, ?_⟩
  · rw [congrArg (· ++ x :: (out ++ later)) hchain]
    exact perm_overtaken.map Held.entry
  · have hids : ∀ l : List (Held P), (l.map Held.entry).map Prod.fst = l.map Held.id := fun l => by
      rw [List.map_map]
      rfl
    rw [hids]
    rw [congrArg (· ++ x :: (out ++ later)) hchain] at hinc
    rw [increasing_overtaken_iff hinc, torn_iff, ← hout]
    tauto

/-- Of a chain 1, 2, 3, 4, 5 the frames arrive as 1, 5, 3, 4, 2, frame 4 without its linkage. -/
def heldBelow : List (Event Unit) :=
  [.arrive "cam-1" ⟨1, true, .ok none, ()⟩, .arrive "cam-1" ⟨5, false, .ok (some 4), ()⟩,
    .arrive "cam-2" ⟨7, false, .ok (some 6), ()⟩, .arrive "cam-1" ⟨3, false, .ok (some 2), ()⟩,
    .arrive "cam-1" ⟨4, false, .error (.linkageUnavailable 4), ()⟩,
    .arrive "cam-1" ⟨2, false, .ok (some 1), ()⟩, .finish "cam-1"]

/-- Frame 5 waits for frame 3, which is held as well. -/
theorem heldBelow_increasing :
    ∃ out, emitted "cam-1" (({ enabled := true } : Resequencer Unit).trace heldBelow) =
        (1, ()) :: out ∧ ((1 :: out.map Prod.fst).filter (· ≠ 4)).Pairwise (· < ·) := by
  have hlink : Linked 1 ([⟨2, 1, ()⟩, ⟨3, 2, ()⟩, ⟨4, 3, ()⟩, ⟨5, 4, ()⟩] : List (Held Unit)) :=
    ⟨rfl, rfl, rfl, rfl, trivial⟩
  have hinc : Increasing 1
      ([⟨2, 1, ()⟩, ⟨3, 2, ()⟩, ⟨4, 3, ()⟩, ⟨5, 4, ()⟩] : List (Held Unit)) := by
    simp [Increasing]
  have hperm : ([⟨5, 4, ()⟩, ⟨3, 2, ()⟩, ⟨4, 3, ()⟩, ⟨2, 1, ()⟩] : List (Held Unit)).Perm
      [⟨2, 1, ()⟩, ⟨3, 2, ()⟩, ⟨4, 3, ()⟩, ⟨5, 4, ()⟩] := by decide
  have hnone : (({ enabled := true } : Resequencer Unit).backlog "cam-1").held.drain = [] := by
    decide +kernel
  have hwhole : ¬ Torn ([⟨2, 1, ()⟩, ⟨3, 2, ()⟩] : List (Held Unit)) [⟨5, 4, ()⟩]
      [⟨5, 4, ()⟩, ⟨3, 2, ()⟩] := by
    rintro ⟨-, y, hy, hfollower⟩
    cases hy
    exact absurd (hfollower (by decide) ⟨3, 2, ()⟩ (by decide)) (by decide)
  obtain ⟨out, hout, -, hordered⟩ :=
    @increasing_iff_not_torn Unit { enabled := true } "cam-1" ⟨1, true, .ok none, ()⟩ ⟨4, 3, ()⟩
      [⟨5, 4, ()⟩, ⟨3, 2, ()⟩] [⟨2, 1, ()⟩] [⟨2, 1, ()⟩, ⟨3, 2, ()⟩] [⟨5, 4, ()⟩] rfl rfl hlink hinc
      hperm (.linkageUnavailable 4) heldBelow rfl
  rw [hnone] at hout
  exact ⟨out, hout, hordered.2 hwhole⟩

/-- Of a chain 1, 2, 3, 4 the frames arrive as 1, 3, 2, 4, frame 3 without its linkage. -/
def jumped : List (Event Unit) :=
  [.arrive "cam-1" ⟨1, true, .ok none, ()⟩,
    .arrive "cam-1" ⟨3, false, .error (.linkageUnavailable 3), ()⟩,
    .arrive "cam-1" ⟨2, false, .ok (some 1), ()⟩, .arrive "cam-1" ⟨4, false, .ok (some 3), ()⟩,
    .finish "cam-1"]

/-- Frame 2 stays held although frame 1, which it follows, has been emitted, and comes out behind
frame 4. -/
theorem jumped_not_increasing :
    Increasing 1 ([⟨2, 1, ()⟩, ⟨3, 2, ()⟩, ⟨4, 3, ()⟩] : List (Held Unit)) ∧
      Linked 1 ([⟨2, 1, ()⟩, ⟨3, 2, ()⟩, ⟨4, 3, ()⟩] : List (Held Unit)) ∧
      emitted "cam-1" (({ enabled := true } : Resequencer Unit).trace jumped) =
        [(1, ()), (3, ()), (4, ()), (2, ())] ∧
      ¬ (([1, 3, 4, 2] : List UInt64).filter (· ≠ 3)).Pairwise (· < ·) :=
  ⟨by simp [Increasing], ⟨rfl, rfl, rfl, trivial⟩, by decide +kernel, by decide⟩

end Resequencer

end VideoRelay

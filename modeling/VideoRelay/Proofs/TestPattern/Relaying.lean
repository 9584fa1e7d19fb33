import Mathlib.Logic.Function.Basic
import VideoRelay.Proofs.TestPattern.Group

/-!
# Test patterns take turns at a relay

Any number of patterns with different sources feed one relay, in any order.  Each group goes through
as it would alone (`feed_of_idle`), since it finds an idle relay and leaves one, so each turn sends the
pictures of its group and leaves nothing behind; in a relay that passes content through, the pictures
of each source are sent in the order of their numbers, whatever is sent in between
(`relayed_in_order`).
-/

namespace VideoRelay

variable {S ι : Type}

/-! ### What is seen of one source -/

namespace Message

/-- What is seen of the frames of a source in messages, in order. -/
def sightsFrom (source : String) (messages : List (Message S)) :
    List (String × Int64 × Option (List UInt8)) :=
  (sights messages).filter fun sight => sight.1 = source

theorem sightsFrom_of_append {source : String} {first rest : List (Message S)}
    {seen : List (String × Int64 × Option (List UInt8))}
    (h : sights rest = sights first ++ seen) :
    sightsFrom source rest =
      sightsFrom source first ++ seen.filter fun sight => sight.1 = source := by
  rw [sightsFrom, h, List.filter_append]
  rfl

end Message

namespace TestPattern

variable {p : TestPattern}

/-- The pictures of the next group come first, and then those of the groups behind it. -/
theorem Sized.sightsOf_add (hp : p.Sized) (count : Nat) :
    p.sightsOf (p.size + count) = p.sightsOf p.size ++ p.advance.sightsOf count := by
  rw [sightsOf, List.range_add, List.map_append, List.map_map]
  refine congrArg _ (List.map_congr_left fun k _ => ?_)
  show p.sightOf (p.pictures + .ofNat (p.size + k)) =
    p.sightOf (p.pictures + .ofNat p.order.length + .ofNat k)
  rw [hp.length_order, UInt64.ofNat_add, UInt64.add_assoc]

/-- All that is seen of a pattern is seen of its source. -/
theorem filter_sightsOf (p : TestPattern) (count : Nat) (source : String) :
    ((p.sightsOf count).filter fun sight => sight.1 = source) =
      if p.source = source then p.sightsOf count else [] := by
  split
  · next h =>
    refine List.filter_eq_self.2 fun sight hs => ?_
    obtain ⟨k, -, rfl⟩ := List.mem_map.1 hs
    exact decide_eq_true h
  · next h =>
    refine List.filter_eq_nil_iff.2 fun sight hs => ?_
    obtain ⟨k, -, rfl⟩ := List.mem_map.1 hs
    exact fun he => h (of_decide_eq_true he)

/-! ### Turns -/

variable [Coordinate S] [DecidableEq ι]

/-- Patterns feed a relay in turns; for each turn, its result and the relay behind it. -/
def feedAll : List ι → (ι → TestPattern) → Relay S →
    List (Except Failure Nat × Relay S) × (ι → TestPattern) × Relay S
  | [], ps, r => ([], ps, r)
  | i :: turns, ps, r =>
    let (result, p, behind) := (ps i).feed r
    let (outcomes, ps, last) := feedAll turns (Function.update ps i p) behind
    ((result, behind) :: outcomes, ps, last)

/-- Turns at an idle relay: each sends a group and leaves the relay idle, and what is passed through
of a source is what its pattern makes. -/
theorem feedAll_of_idle (turns : List ι) {ps : ι → TestPattern} {r : Relay S}
    (hps : ∀ i, (ps i).Sized) (hsource : Function.Injective fun i => (ps i).source) (h : r.Idle)
    (hpolicy : r.policy.IsBuiltIn) :
    ∃ outcomes ps' r', feedAll turns ps r = (outcomes, ps', r') ∧
      outcomes.map Prod.fst = turns.map (fun i => .ok (ps i).size) ∧
      (∀ outcome ∈ outcomes, outcome.2.Idle) ∧ r'.Idle ∧
      (r.delivery = .passThrough → ∀ i,
        Message.sightsFrom (ps i).source r'.outbox.accepted =
          Message.sightsFrom (ps i).source r.outbox.accepted ++
            (ps i).sightsOf ((ps i).size * turns.count i)) := by
  induction turns generalizing ps r with
  | nil =>
    refine ⟨[], ps, r, rfl, rfl, fun _ ho => absurd ho List.not_mem_nil, h, fun _ i => ?_⟩
    exact (List.append_nil _).symm
  | cons j turns ih =>
    obtain ⟨r₁, hfeed, hfed⟩ := feed_of_idle (hps j) h hpolicy
    -- the pattern whose turn it was goes on to its next group
    let next := Function.update ps j (ps j).advance
    have hself : next j = (ps j).advance := Function.update_self ..
    have hother : ∀ i, i ≠ j → next i = ps i := fun i hij => Function.update_of_ne hij ..
    have hkept : ∀ i, (next i).settings = (ps i).settings ∧ (next i).source = (ps i).source := by
      intro i
      rcases eq_or_ne i j with rfl | hij
      · rw [hself]
        exact ⟨rfl, rfl⟩
      · rw [hother i hij]
        exact ⟨rfl, rfl⟩
    have hnames : ∀ i, (next i).source = (ps i).source := fun i => (hkept i).2
    have hsize : ∀ i, (next i).size = (ps i).size := fun i => by rw [size, (hkept i).1, size]
    have hsized : ∀ i, (next i).Sized := fun i => (hps i).of_settings (hkept i).1
    obtain ⟨outcomes, ps', r', hrun, hresults, hidles, hidle', hseen⟩ :=
      ih hsized (by simpa only [hnames] using hsource) hfed.idle (hfed.policy ▸ hpolicy)
    refine ⟨(.ok (ps j).size, r₁) :: outcomes, ps', r', ?_, ?_, ?_, hidle', fun hd i => ?_⟩
    · rw [feedAll, hfeed]
      dsimp only
      rw [hrun]
    · rw [List.map_cons, hresults, List.map_cons]
      simp only [hsize]
    · intro outcome ho
      rcases List.mem_cons.1 ho with rfl | ho
      · exact hfed.idle
      · exact hidles outcome ho
    · have hseen := hseen (hfed.delivery.trans hd) i
      rw [hnames, hsize, Message.sightsFrom_of_append (hfed.sights hd)] at hseen
      rw [hseen, List.append_assoc]
      refine congrArg _ ?_
      rw [filter_sightsOf]
      rcases eq_or_ne i j with rfl | hij
      · rw [if_pos rfl, hself, List.count_cons_self, Nat.mul_succ, Nat.add_comm, (hps i).sightsOf_add]
      · rw [if_neg fun he => hij (hsource he).symm, hother i hij, List.count_cons_of_ne hij.symm,
          List.nil_append]

/-! ### New patterns -/

omit [Coordinate S] [DecidableEq ι] in
theorem new_eq_ok {settings : PatternSettings} (h : new settings = .ok p) :
    p.settings = settings ∧ p.pictures = 0 ∧ p.Sized := by
  unfold new at h
  split at h
  · cases h
  · split at h
    · cases h
    · next hgroups =>
      split at h
      · cases h
      · next hpictures =>
        cases h
        rw [not_or] at hgroups hpictures
        exact ⟨rfl, rfl, hgroups.1, hpictures.1, hpictures.2⟩

/-- The time of a picture is its number times the duration, while that fits. -/
theorem toInt_time (p : TestPattern) {number : Nat}
    (h : number * (1000000000 / p.settings.rate.toNat) < Int64.size / 2) :
    (p.sightOf (.ofNat number)).2.1.toInt =
      (number * (1000000000 / p.settings.rate.toNat) : Nat) := by
  rw [← Int64.toInt_ofNat_of_lt h, Int64.ofNat_mul, ← UInt64.toInt64_ofNat']
  rfl

/-- While times fit, they do not decrease. -/
theorem pairwise_time (p : TestPattern) {count : Nat}
    (h : count * (1000000000 / p.settings.rate.toNat) < Int64.size / 2) :
    ((List.range count).map fun number => p.sightOf (.ofNat number)).Pairwise
      fun a b => a.2.1 ≤ b.2.1 := by
  have hfits : ∀ number < count, number * (1000000000 / p.settings.rate.toNat) < Int64.size / 2 :=
    fun number hn => Nat.lt_of_le_of_lt (Nat.mul_le_mul_right _ (Nat.le_of_lt hn)) h
  rw [List.pairwise_map]
  refine List.pairwise_lt_range.imp_of_mem fun {a b} ha hb hab => ?_
  rw [Int64.le_iff_toInt_le, p.toInt_time (hfits a (List.mem_range.1 ha)),
    p.toInt_time (hfits b (List.mem_range.1 hb))]
  exact Int.ofNat_le.2 (Nat.mul_le_mul_right _ (Nat.le_of_lt hab))

/-- **Patterns relayed in turns.**  New patterns with different sources feed a new relay with a
built-in policy, in any order of turns.  Each turn sends the whole group and leaves nothing in flight,
in a batch or pending, and the shutdown reports no frame.  When content is passed through, what has
been sent of each source is its pictures by their numbers, each once; and their times, which are the
numbers times the duration of a picture, do not decrease unless they overflow. -/
theorem relayed_in_order (delivery : Delivery) {policy : ShapePolicy S} (hpolicy : policy.IsBuiltIn)
    (sampler : Sampler) (grouped : Bool) {settings : ι → PatternSettings} {ps : ι → TestPattern}
    (hps : ∀ i, new (settings i) = .ok (ps i))
    (hsource : Function.Injective fun i => (ps i).source) (turns : List ι) :
    let (outcomes, _, r) := feedAll turns ps (Relay.new delivery policy sampler grouped)
    outcomes.map Prod.fst = turns.map (fun i => .ok (settings i).groupSize.toNat) ∧
      (∀ outcome ∈ outcomes, outcome.2.Drained) ∧
      (∃ report, r.shutdown.1 = .ok report ∧ report.leaked = []) ∧
      (delivery = .passThrough → ∀ i,
        let seen := Message.sightsFrom (ps i).source r.shutdown.2.outbox.accepted
        let count := (settings i).groupSize.toNat * turns.count i
        seen = (List.range count).map (fun number => (ps i).sightOf (.ofNat number)) ∧
          (count * (1000000000 / (settings i).rate.toNat) < Int64.size / 2 →
            seen.Pairwise fun a b => a.2.1 ≤ b.2.1)) := by
  obtain ⟨outcomes, ps', r, hrun, hresults, hidles, hidle, hseen⟩ :=
    feedAll_of_idle turns (fun i => (new_eq_ok (hps i)).2.2) hsource
      (Relay.idle_new delivery policy sampler grouped) hpolicy
  rw [hrun]
  obtain ⟨report, hok, hleaked, hsent⟩ := hidle.shutdown
  have hsize : ∀ i, (ps i).size = (settings i).groupSize.toNat := fun i => by
    rw [size, (new_eq_ok (hps i)).1]
  refine ⟨?_, fun outcome ho => (hidles outcome ho).drained, ⟨report, hok, hleaked⟩, fun hd i => ?_⟩
  · rw [hresults]
    simp only [hsize]
  · obtain ⟨hsettings, hpictures, -⟩ := new_eq_ok (hps i)
    have hall : Message.sightsFrom (ps i).source r.shutdown.2.outbox.accepted =
        (List.range ((settings i).groupSize.toNat * turns.count i)).map
          fun number => (ps i).sightOf (.ofNat number) := by
      have hnone : Message.sightsFrom (ps i).source
          (Relay.new delivery policy sampler grouped).outbox.accepted = [] := rfl
      rw [Message.sightsFrom, hsent, ← Message.sightsFrom, hseen hd i, hnone, List.nil_append, hsize,
        sightsOf, hpictures]
      simp only [UInt64.zero_add]
    refine ⟨hall, fun hfits => ?_⟩
    rw [hall]
    exact pairwise_time (ps i) (hsettings ▸ hfits)

/-- Two cameras, one with anchors only. -/
def cameras : Bool → PatternSettings
  | false => { url := "stub://front", groupSize := 4 }
  | true => { url := "stub://back", groupSize := 3, between := 0, rate := 10 }

/-- The patterns of the two cameras. -/
def patterns : Bool → TestPattern
  | false => { settings := cameras false, source := "front" }
  | true => { settings := cameras true, source := "back" }

/-- The first camera has two turns, and the second one has its turn in between. -/
theorem alternating_in_order :
    let (outcomes, _, r) := feedAll [false, true, false] patterns Relay.passing
    outcomes.map Prod.fst = [.ok 4, .ok 3, .ok 4] ∧
      Message.sightsFrom "front" r.shutdown.2.outbox.accepted =
        (List.range 8).map (fun number => (patterns false).sightOf (.ofNat number)) ∧
      Message.sightsFrom "back" r.shutdown.2.outbox.accepted =
        (List.range 3).map (fun number => (patterns true).sightOf (.ofNat number)) ∧
      (Message.sightsFrom "front" r.shutdown.2.outbox.accepted).Pairwise
        fun a b => a.2.1 ≤ b.2.1 := by
  have hpolicy : Relay.passing.policy.IsBuiltIn := Or.inl ⟨8, none, rfl⟩
  have hnew : ∀ i, new (cameras i) = .ok (patterns i) := by
    intro i
    cases i with
    | false => cbv
    | true => cbv
  have hsource : Function.Injective fun i => (patterns i).source := by
    intro i j h
    cases i with
    | false => cases j with
      | false => rfl
      | true => exact absurd h (by decide)
    | true => cases j with
      | false => exact absurd h (by decide)
      | true => rfl
  obtain ⟨hresults, -, -, hseen⟩ := relayed_in_order .passThrough hpolicy
    { period := 0, rootName := "frame" } false hnew hsource [false, true, false]
  exact ⟨hresults, (hseen rfl false).1, (hseen rfl true).1, (hseen rfl false).2 (by decide)⟩

end TestPattern

end VideoRelay

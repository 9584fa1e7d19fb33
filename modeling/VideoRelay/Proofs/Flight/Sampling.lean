import VideoRelay.Proofs.Flight.Lifetimes

/-!
# Which frames are traced

The sampler counts spans and the roster counts frames, each for itself.  A frame takes one number of
each, whenever it comes in, and nothing else takes any; so the two stay `InStep`, and a frame is traced
if, and only if, the sampler picks its number.  The span of a frame lives as long as the frame, and what
is recorded in it is what the log says: `recorded_history`.
-/

namespace VideoRelay

/-- A sampler with a period picks every frame of so many, from the first one on. -/
def Sampler.Picks (period id : UInt64) : Prop := period ≠ 0 ∧ (id - 1) % period = 0

instance (period id : UInt64) : Decidable (Sampler.Picks period id) :=
  inferInstanceAs (Decidable (_ ∧ _))

theorem Sampler.period_next (s : Sampler) : s.next.2.period = s.period := by
  unfold next
  split <;> rfl

theorem Sampler.count_next {s : Sampler} (h : s.period ≠ 0) : s.next.2.count = s.count + 1 := by
  rw [next, if_neg h]

theorem Sampler.stages_next (s : Sampler) : s.next.1.stages = [] := by
  unfold next
  split
  · rfl
  · dsimp only
    split <;> rfl

/-- A span that is not sampled records nothing. -/
theorem Span.stages_of_not_sampled {s : Span} (h : ¬ s.isSampled = true) : s.stages = [] := by
  obtain ⟨_ | t⟩ := s
  · rfl
  · exact absurd rfl h

namespace Roster

variable {S : Type} {r r' : Roster S} {log : Log S} {id n : UInt64}

/-! ### Spans -/

/-- The spans of the frames in flight by their numbers. -/
def spans (r : Roster S) : Table UInt64 Span := r.flights.mapValues Flight.span

theorem spans_of_flight {flight : Flight S} (h : r.flights.find? id = some flight) :
    r.spans.find? id = some flight.span := by
  rw [spans, Table.find?_mapValues, h]
  rfl

theorem find?_spans_add (r : Roster S) (f : Frame S) (id : UInt64) :
    (r.add f).2.spans.find? id =
      if id = r.nextFrame then some r.sampler.next.1 else r.spans.find? id := by
  have hadd : (r.add f).2.spans = r.spans.insert r.nextFrame r.sampler.next.1 :=
    Table.mapValues_insert _ _ _ _
  rw [hadd, Table.find?_insert]

theorem spans_adjust (r : Roster S) (id : UInt64) (change : Frame S → Frame S) :
    (r.adjust id change).spans = r.spans := by
  rw [spans, flights_adjust]
  exact Table.mapValues_adjust_self _ fun _ _ => rfl

theorem find?_spans_mark (r : Roster S) (id : UInt64) (stage : String) (other : UInt64) :
    (r.mark id stage).spans.find? other =
      if other = id then (r.spans.find? other).map (·.mark stage) else r.spans.find? other := by
  have hmark : (r.mark id stage).spans = r.spans.adjust id (·.mark stage) := by
    rw [spans, flights_mark]
    exact Table.mapValues_adjust _ _ fun _ _ => rfl
  rw [hmark, Table.find?_adjust]

theorem spans_release {flight : Flight S} (h : r.release id = .ok (flight, r')) :
    r.spans.find? id = some flight.span ∧ r'.spans = r.spans.erase id := by
  obtain ⟨hf, he, -⟩ := release_eq_ok h
  refine ⟨spans_of_flight hf, ?_⟩
  rw [spans, he]
  exact Table.mapValues_erase _ _ _

theorem spans_joinAll (batch : UInt64) (ids : List UInt64) (r : Roster S) :
    (ids.foldl (fun r id => r.join batch id) r).spans = r.spans := by
  induction ids generalizing r with
  | nil => rfl
  | cons id ids ih =>
    rw [List.foldl_cons, ih, spans, flights_join]
    exact Table.mapValues_adjust_self _ fun _ _ => rfl

theorem sampler_joinAll (batch : UInt64) (ids : List UInt64) (r : Roster S) :
    (ids.foldl (fun r id => r.join batch id) r).sampler = r.sampler := by
  induction ids generalizing r with
  | nil => rfl
  | cons id ids ih => exact ih _

theorem spans_group {ids : List UInt64} {batch : UInt64} (h : r.group ids = .ok (batch, r')) :
    r'.spans = r.spans ∧ r'.sampler = r.sampler := by
  obtain ⟨rfl, -, -, -, rfl⟩ := group_eq_ok h
  exact ⟨spans_joinAll _ ids r, sampler_joinAll _ ids r⟩

theorem sampler_release {flight : Flight S} (h : r.release id = .ok (flight, r')) :
    r'.sampler = r.sampler := by
  unfold release at h
  split at h
  · cases h
  · cases h
    rfl

/-! ### The two counters -/

/-- The sampler and the numbers of the frames are in step, and the frames that are traced are the ones
that a sampler with the period `n` picks. -/
structure InStep (n : UInt64) (r : Roster S) : Prop where
  period : r.sampler.period = n
  counted : n ≠ 0 → r.sampler.count + 1 = r.nextFrame
  sampled : ∀ id span, r.spans.find? id = some span →
    (span.isSampled = true ↔ Sampler.Picks n id)

theorem inStep_new (sampler : Sampler) (h : sampler.count = 0) :
    InStep sampler.period ({ sampler := sampler } : Roster S) where
  period := rfl
  counted := fun _ => by
    show sampler.count + 1 = 1
    rw [h]
    rfl
  sampled := fun _ _ hspan => by cases hspan

/-- The span that the next frame gets. -/
theorem InStep.sampled_next (h : r.InStep n) :
    r.sampler.next.1.isSampled = true ↔ Sampler.Picks n r.nextFrame := by
  rw [Sampler.sampled_next, h.period]
  refine and_congr_right fun hn => ?_
  rw [← h.counted hn, UInt64.add_sub_cancel]

theorem InStep.add (h : r.InStep n) (f : Frame S) : (r.add f).2.InStep n := by
  refine ⟨r.sampler.period_next.trans h.period, fun hn => ?_, fun id span hspan => ?_⟩
  · show r.sampler.next.2.count + 1 = r.nextFrame + 1
    rw [Sampler.count_next (h.period ▸ hn), h.counted hn]
  · rw [find?_spans_add] at hspan
    split at hspan
    · next hid =>
      cases hspan
      rw [hid]
      exact h.sampled_next
    · exact h.sampled id span hspan

/-- No number is taken, no span opened, and the spans that stay are sampled as before. -/
structure Unopened (r r' : Roster S) : Prop where
  nextFrame : r'.nextFrame = r.nextFrame
  sampler : r'.sampler = r.sampler
  spans : ∀ id span', r'.spans.find? id = some span' →
    ∃ span, r.spans.find? id = some span ∧ span'.isSampled = span.isSampled

theorem InStep.unopened (h : r.InStep n) (hu : Unopened r r') : r'.InStep n := by
  refine ⟨hu.sampler ▸ h.period, fun hn => ?_, fun id span' hspan' => ?_⟩
  · rw [hu.sampler, hu.nextFrame, h.counted hn]
  · obtain ⟨span, hspan, hsampled⟩ := hu.spans id span' hspan'
    rw [hsampled]
    exact h.sampled id span hspan

theorem unopened_adjust (r : Roster S) (id : UInt64) (change : Frame S → Frame S) :
    Unopened r (r.adjust id change) :=
  ⟨rfl, rfl, fun _ span hs => ⟨span, spans_adjust r id change ▸ hs, rfl⟩⟩

theorem unopened_mark (r : Roster S) (id : UInt64) (stage : String) :
    Unopened r (r.mark id stage) := by
  refine ⟨rfl, rfl, fun other span' hs => ?_⟩
  rw [find?_spans_mark] at hs
  split at hs
  · obtain ⟨span, hspan, rfl⟩ := Option.map_eq_some_iff.1 hs
    exact ⟨span, hspan, Span.isSampled_mark span stage⟩
  · exact ⟨span', hs, rfl⟩

theorem unopened_release {flight : Flight S} (h : r.release id = .ok (flight, r')) :
    Unopened r r' := by
  refine ⟨(release_eq_ok h).2.2, sampler_release h, fun other span hs => ?_⟩
  rw [(spans_release h).2, Table.find?_erase] at hs
  split at hs
  · cases hs
  · exact ⟨span, hs, rfl⟩

theorem unopened_group {ids : List UInt64} {batch : UInt64} (h : r.group ids = .ok (batch, r')) :
    Unopened r r' := by
  obtain ⟨hspans, hsampler⟩ := spans_group h
  exact ⟨(alike_group h).nextFrame, hsampler, fun other span hs => ⟨span, hspans ▸ hs, rfl⟩⟩

/-- **One call** leaves the two counters in step. -/
theorem InStep.step {call : Call S} {answer : Except Fault (Answer S)} (h : r.InStep n)
    (ho : Outcome r call answer r') : r'.InStep n := by
  cases ho with
  | added f => exact h.add f
  | edited hf => exact h.unopened (unopened_adjust r _ _)
  | marked hf => exact h.unopened (unopened_mark r _ _)
  | released hrel => exact h.unopened (unopened_release hrel)
  | grouped hg => exact h.unopened (unopened_group hg)
  | _ => exact h

theorem InStep.history (h : r.InStep n) (calls : List (Call S)) : (r.history calls).2.InStep n := by
  induction calls generalizing r with
  | nil => exact h
  | cons call calls ih => exact ih (h.step (outcome r call))

/-! ### What is recorded -/

/-- The stage that an entry of a log records for a number. -/
def stage? (id : UInt64) : Call S × Except Fault (Answer S) → Option String
  | (.mark other stage, .ok _) => if other = id then some stage else none
  | _ => none

/-- What an entry of a log makes of the span of a frame that is in flight all the while. -/
def recorded (id : UInt64) (span : Span) (e : Call S × Except Fault (Answer S)) : Span :=
  ((stage? id e).map span.mark).getD span

theorem recorded_of_none {e : Call S × Except Fault (Answer S)} (h : stage? id e = none)
    (span : Span) : recorded id span e = span := by
  rw [recorded, h]
  rfl

theorem map_recorded_of_none {e : Call S × Except Fault (Answer S)} (h : stage? id e = none)
    (span? : Option Span) : (span?.map fun span => recorded id span e) = span? := by
  simp only [recorded_of_none h, Option.map_id']

theorem isSampled_recorded (id : UInt64) (span : Span) (e : Call S × Except Fault (Answer S)) :
    (recorded id span e).isSampled = span.isSampled := by
  rw [recorded]
  cases stage? id e with
  | none => rfl
  | some stage => exact span.isSampled_mark stage

theorem stages_recorded {span : Span} (h : span.isSampled = true)
    (e : Call S × Except Fault (Answer S)) :
    (recorded id span e).stages = span.stages ++ [e].filterMap (stage? id) := by
  rw [recorded]
  cases hs : stage? id e with
  | none => rw [List.filterMap_cons_none hs, List.filterMap_nil, List.append_nil]; rfl
  | some stage =>
    rw [List.filterMap_cons_some hs, List.filterMap_nil]
    exact Span.stages_mark h stage

/-- The span of a number after a call: a new one if the call gives it out, none if the call takes it
back, or the one that was there, with what the call records. -/
theorem Outcome.spans {call : Call S} {answer : Except Fault (Answer S)}
    (h : Outcome r call answer r') (id : UInt64) :
    r'.spans.find? id =
      if number? (call, answer) = some id then some r.sampler.next.1
      else if released? (call, answer) = some id then none
      else (r.spans.find? id).map fun span => recorded id span (call, answer) := by
  cases h with
  | added f =>
    rw [find?_spans_add, map_recorded_of_none rfl]
    simp only [number?, released?, Option.some.injEq, reduceCtorEq, if_false, eq_comm]
  | marked hf =>
    rename_i other stage flight
    rw [find?_spans_mark]
    simp only [number?, released?, reduceCtorEq, if_false, recorded, stage?]
    split
    · next ho => rw [if_pos ho.symm]; rfl
    · next ho => rw [if_neg (Ne.symm ho)]; simp
  | released hrel =>
    rw [(spans_release hrel).2, Table.find?_erase, map_recorded_of_none rfl]
    simp only [number?, released?, Option.some.injEq, reduceCtorEq, if_false, eq_comm]
  | edited hf =>
    rw [spans_adjust, map_recorded_of_none rfl]
    rfl
  | grouped hg =>
    rw [(spans_group hg).1, map_recorded_of_none rfl]
    rfl
  | _ => exact (map_recorded_of_none rfl _).symm

theorem add_of_number? {e : Call S × Except Fault (Answer S)} (h : number? e = some id) :
    ∃ f, e = (.add f, .ok (.number id)) := by
  unfold number? at h
  split at h
  · cases h
    exact ⟨_, rfl⟩
  · cases h

/-- The frame with a number came in at a place of the log and has been in flight since, and its span, if
it is sampled, holds the stages that were recorded since. -/
def Recorded (log : Log S) (id : UInt64) (span : Span) : Prop :=
  ∃ first f between, log = first ++ (.add f, .ok (.number id)) :: between ∧
    id ∉ numbered between ∧ id ∉ released between ∧
    (span.isSampled = true → span.stages = between.filterMap (stage? id))

theorem Recorded.concat {span : Span} {e : Call S × Except Fault (Answer S)}
    (h : Recorded log id span) (hn : number? e ≠ some id) (hr : released? e ≠ some id) :
    Recorded (log ++ [e]) id (recorded id span e) := by
  obtain ⟨first, f, between, hlog, hnumbered, hreleased, hstages⟩ := h
  refine ⟨first, f, between ++ [e], by rw [hlog, List.append_assoc, List.cons_append], ?_, ?_, ?_⟩
  · rw [numbered_append, numbered_singleton, List.mem_append, Option.mem_toList]
    exact fun hm => hm.elim hnumbered hn
  · rw [released_append, released_singleton, List.mem_append, Option.mem_toList]
    exact fun hm => hm.elim hreleased hr
  · intro hs
    rw [isSampled_recorded] at hs
    rw [stages_recorded hs, hstages hs, List.filterMap_append]

theorem recorded_step {call : Call S} {answer : Except Fault (Answer S)}
    (h : ∀ id span, r.spans.find? id = some span → Recorded log id span)
    (ho : Outcome r call answer r') (id : UInt64) (span : Span)
    (hspan : r'.spans.find? id = some span) : Recorded (log ++ [(call, answer)]) id span := by
  rw [ho.spans] at hspan
  split at hspan
  · next hn =>
    cases hspan
    obtain ⟨f, he⟩ := add_of_number? hn
    exact ⟨log, f, [], by rw [he], List.not_mem_nil, List.not_mem_nil, fun _ => r.sampler.stages_next⟩
  · next hn =>
    split at hspan
    · cases hspan
    · next hr =>
      obtain ⟨before, hbefore, rfl⟩ := Option.map_eq_some_iff.1 hspan
      exact (h id before hbefore).concat hn hr

theorem recorded_history (h : ∀ id span, r.spans.find? id = some span → Recorded log id span)
    (calls : List (Call S)) (id : UInt64) (span : Span)
    (hspan : (r.history calls).2.spans.find? id = some span) :
    Recorded (log ++ (r.history calls).1) id span := by
  induction calls generalizing r log with
  | nil =>
    rw [Roster.history, List.append_nil]
    exact h id span hspan
  | cons call calls ih =>
    have hrest := ih (recorded_step h (outcome r call)) hspan
    rwa [List.append_assoc] at hrest

/-- An entry of a log is the outcome of its call behind the entries before it. -/
theorem outcome_of_history {calls : List (Call S)} {before after : Log S}
    {e : Call S × Except Fault (Answer S)} (h : (r.history calls).1 = before ++ e :: after) :
    ∃ first, (r.history first).1 = before ∧ ∃ r', Outcome (r.history first).2 e.1 e.2 r' := by
  induction before generalizing r calls with
  | nil =>
    cases calls with
    | nil => cases h
    | cons call calls =>
      rw [history_cons] at h
      obtain ⟨rfl, -⟩ := List.cons.inj h
      exact ⟨[], rfl, _, outcome r call⟩
  | cons entry before ih =>
    cases calls with
    | nil => cases h
    | cons call calls =>
      simp only [history_cons, List.cons_append, List.cons.injEq] at h
      obtain ⟨rfl, h⟩ := h
      obtain ⟨first, hfirst, ho⟩ := ih h
      exact ⟨call :: first, by rw [history_cons, hfirst], ho⟩

/-- **The span of a frame that is released** is sampled if the sampler picks the number of the frame, and
holds then what was recorded for this number since the frame came in; it holds nothing otherwise. -/
theorem released_span {sampler : Sampler} (hcount : sampler.count = 0) {calls : List (Call S)}
    {before after : Log S} {id : UInt64} {flight : Flight S}
    (h : (({ sampler := sampler } : Roster S).history calls).1 =
      before ++ (.release id, .ok (.flight flight)) :: after) :
    (flight.span.isSampled = true ↔ Sampler.Picks sampler.period id) ∧
      ∃ first f between, before = first ++ (.add f, .ok (.number id)) :: between ∧
        id ∉ numbered between ∧ id ∉ released between ∧
        flight.span.stages =
          if Sampler.Picks sampler.period id then between.filterMap (stage? id) else [] := by
  obtain ⟨first, rfl, r', ho⟩ := outcome_of_history h
  cases ho with
  | released hrel =>
    have hspan := (spans_release hrel).1
    have hsampled := ((inStep_new (S := S) sampler hcount).history first).sampled id _ hspan
    have hnone : ∀ id span, ({ sampler := sampler } : Roster S).spans.find? id = some span →
        Recorded ([] : Log S) id span := fun _ _ hs => by cases hs
    obtain ⟨first', f, between, hlog, hn, hr, hstages⟩ :=
      recorded_history hnone first id _ hspan
    refine ⟨hsampled, first', f, between, hlog, hn, hr, ?_⟩
    split
    · next hp => exact hstages (hsampled.2 hp)
    · next hp => exact Span.stages_of_not_sampled fun hs => hp (hsampled.1 hs)

end Roster

end VideoRelay

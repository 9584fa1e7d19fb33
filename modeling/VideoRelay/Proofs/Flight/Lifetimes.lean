import Mathlib.Data.List.Sort
import VideoRelay.Proofs.Flight.Cores

/-!
# The lives of the frames in flight

Seen from outside, a roster is a map whose keys it gives out itself, each once.  What is stored for a
number is seen in the log: `follow` says what one call makes of it, and the frame in flight is what the
whole log makes of it (`frames_history`).

A number lives from the call that gave it out to the release that takes it back; `Lived` says that
these are the numbers in flight, and that they are given out in ascending order as long as they do not
run out.  So a number stands for one frame and its later changes until it is released, and for nothing
before and behind that: `numbers_live_once`.
-/

namespace VideoRelay.Roster

variable {S : Type} {r r' : Roster S} {log log' : Log S} {n : Nat}

namespace Call

/-- The frame that a call asks for. -/
def subject? : Call S → Option UInt64
  | .get id => some id
  | .edit id _ => some id
  | .mark id _ => some id
  | .release id => some id
  | _ => none

/-- What a call makes of the frame with a number. -/
def edited (id : UInt64) (f : Frame S) : Call S → Frame S
  | .edit other change => if other = id then change f else f
  | _ => f

/-- A change that leaves the frame its number. -/
def KeepsNumber : Call S → Prop
  | .edit _ change => ∀ f, (change f).id = f.id
  | _ => True

theorem KeepsNumber.id_edited {call : Call S} (h : call.KeepsNumber) (id : UInt64) (f : Frame S) :
    (call.edited id f).id = f.id := by
  cases call with
  | edit other change =>
    rw [edited]
    split
    · exact h f
    · rfl
  | _ => rfl

end Call

theorem id_foldl_edited (h : ∀ e ∈ log, e.1.KeepsNumber) (id : UInt64) (f : Frame S) :
    (log.foldl (fun f e => e.1.edited id f) f).id = f.id := by
  induction log generalizing f with
  | nil => rfl
  | cons e log ih =>
    rw [List.foldl_cons, ih fun e' he' => h e' (List.mem_cons_of_mem _ he')]
    exact (h e List.mem_cons_self).id_edited id f

/-! ### The log -/

/-- What an entry of a log makes of what is stored for a number. -/
def follow (id : UInt64) (stored : Option (Frame S)) :
    Call S × Except Fault (Answer S) → Option (Frame S)
  | (.add f, .ok (.number other)) => if id = other then some { f with id := other } else stored
  | (.edit other change, _) => if id = other then stored.map change else stored
  | (.release other, .ok _) => if id = other then none else stored
  | _ => stored

/-- What is stored for a number is there from the entry that gives it out to the one that takes it
back. -/
theorem isSome_follow (id : UInt64) (stored : Option (Frame S)) (e : Call S × Except Fault (Answer S)) :
    (follow id stored e).isSome = true ↔
      (stored.isSome = true ∨ number? e = some id) ∧ released? e ≠ some id := by
  obtain ⟨call, answer⟩ := e
  cases call with
  | add f =>
    cases answer with
    | error fault => simp [follow, number?, released?]
    | ok a =>
      cases a with
      | number other =>
        by_cases h : id = other
        · simp [follow, number?, released?, h]
        · simp [follow, number?, released?, h, Ne.symm h]
      | _ => simp [follow, number?, released?]
  | edit other change =>
    by_cases h : id = other <;> simp [follow, number?, released?, h]
  | release other =>
    cases answer with
    | error fault => simp [follow, number?, released?]
    | ok a =>
      by_cases h : id = other
      · simp [follow, number?, released?, h]
      · simp [follow, number?, released?, h, Ne.symm h]
  | _ => simp [follow, number?, released?]

/-- Between these entries it changes as the calls change it. -/
theorem follow_of_live {id : UInt64} {f : Frame S} {e : Call S × Except Fault (Answer S)}
    (hn : number? e ≠ some id) (hr : released? e ≠ some id) :
    follow id (some f) e = some (e.1.edited id f) := by
  obtain ⟨call, answer⟩ := e
  cases call with
  | add g =>
    cases answer with
    | error fault => rfl
    | ok a =>
      cases a with
      | number other => exact if_neg fun h : id = other => hn (congrArg some h.symm)
      | _ => rfl
  | edit other change =>
    by_cases h : id = other
    · simp [follow, Call.edited, h]
    · simp [follow, Call.edited, h, Ne.symm h]
  | release other =>
    cases answer with
    | error fault => rfl
    | ok a => exact if_neg fun h : id = other => hr (congrArg some h.symm)
  | _ => rfl

theorem foldl_follow_of_live {id : UInt64} (f : Frame S) (hn : id ∉ numbered log)
    (hr : id ∉ released log) :
    log.foldl (follow id) (some f) = some (log.foldl (fun f e => e.1.edited id f) f) := by
  induction log generalizing f with
  | nil => rfl
  | cons e log ih =>
    have hne : number? e ≠ some id := fun h =>
      hn (List.mem_filterMap.2 ⟨e, List.mem_cons_self, h⟩)
    have hre : released? e ≠ some id := fun h =>
      hr (List.mem_filterMap.2 ⟨e, List.mem_cons_self, h⟩)
    rw [List.foldl_cons, follow_of_live hne hre, List.foldl_cons]
    refine ih _ (fun h => hn ?_) fun h => hr ?_
    · obtain ⟨e', he', h⟩ := List.mem_filterMap.1 h
      exact List.mem_filterMap.2 ⟨e', List.mem_cons_of_mem _ he', h⟩
    · obtain ⟨e', he', h⟩ := List.mem_filterMap.1 h
      exact List.mem_filterMap.2 ⟨e', List.mem_cons_of_mem _ he', h⟩

/-! ### Calls -/

theorem find?_flights_eq_none_iff {id : UInt64} :
    r.flights.find? id = none ↔ r.frames.find? id = none := by
  rw [frames, Table.find?_mapValues, Option.map_eq_none_iff]

/-- A frame that is not in flight is not found. -/
theorem frame_eq_error_iff {id : UInt64} {fault : Fault} :
    r.frame id = .error fault ↔ r.frames.find? id = none ∧ fault = .frameNotFound id := by
  rw [← find?_flights_eq_none_iff, frame, flight]
  cases r.flights.find? id <;> simp [Except.map, eq_comm]

namespace Outcome

variable {call : Call S} {answer : Except Fault (Answer S)}

theorem nextFrame (h : Outcome r call answer r') :
    r'.nextFrame = if call.isAdd = true then r.nextFrame + 1 else r.nextFrame := by
  cases h with
  | released hrel => exact (release_eq_ok hrel).2.2
  | grouped hg => exact (alike_group hg).nextFrame
  | _ => rfl

/-- What is stored after a call is what its entry in the log makes of it. -/
theorem frames (h : Outcome r call answer r') (id : UInt64) :
    r'.frames.find? id = follow id (r.frames.find? id) (call, answer) := by
  cases h with
  | added f => exact find?_frames_add r f id
  | editRefused hf =>
    have hnone := (frame_eq_error_iff.1 hf).1
    simp only [follow]
    split
    · next ho => rw [ho, hnone, Option.map_none]
    · rfl
  | edited hf =>
    rw [find?_frames_adjust]
    rfl
  | marked hf => exact congrArg (fun t => t.find? id) (frames_mark r _ _)
  | released hrel =>
    rw [(frames_release hrel).2, Table.find?_erase]
    rfl
  | grouped hg => exact congrArg (fun t => t.find? id) (frames_group hg)
  | _ => rfl

/-- Only a frame in flight is released. -/
theorem isSome_of_released? (h : Outcome r call answer r') {id : UInt64}
    (hid : released? (call, answer) = some id) : (r.frames.find? id).isSome = true := by
  cases h with
  | released hrel =>
    cases hid
    rw [(frames_release hrel).1]
    rfl
  | _ => cases hid

end Outcome

/-! ### Runs -/

/-- What is stored in the end is what the log makes of what was stored before. -/
theorem frames_history (r : Roster S) (calls : List (Call S)) (id : UInt64) :
    (r.history calls).2.frames.find? id =
      (r.history calls).1.foldl (follow id) (r.frames.find? id) := by
  induction calls generalizing r with
  | nil => rfl
  | cons call calls ih => rw [history_cons, ih, (outcome r call).frames, List.foldl_cons]

/-- After `n` frames have come in, the numbers that were given out are ascending, and those in flight
are the ones that were not taken back. -/
structure Lived (r : Roster S) (log : Log S) (n : Nat) : Prop where
  next : r.nextFrame = .ofNat (n + 1)
  ascending : (numbered log).Pairwise (· < ·)
  bounded : ∀ id ∈ numbered log, id.toNat ≤ n
  released : ∀ id ∈ released log, id ∈ numbered log
  live : ∀ id, (r.frames.find? id).isSome = true ↔ id ∈ numbered log ∧ id ∉ Roster.released log

theorem lived_new (sampler : Sampler) : Lived ({ sampler := sampler } : Roster S) [] 0 :=
  ⟨rfl, List.Pairwise.nil, fun _ h => absurd h List.not_mem_nil, fun _ h => absurd h List.not_mem_nil,
    fun _ => ⟨fun h => (by cases h), fun h => absurd h.1 List.not_mem_nil⟩⟩

section Step

variable {call : Call S} {answer : Except Fault (Answer S)}

/-- The number that a call gives out. -/
theorem Lived.number_next (h : r.Lived log n) (ho : Outcome r call answer r')
    (hroom : n + (if call.isAdd = true then 1 else 0) < UInt64.size) {id : UInt64}
    (hid : number? (call, answer) = some id) : id.toNat = n + 1 ∧ call.isAdd = true := by
  rw [ho.number?_eq] at hid
  split at hid
  · next ha =>
    cases hid
    rw [if_pos ha] at hroom
    rw [h.next, UInt64.toNat_ofNat_of_lt' hroom]
    exact ⟨rfl, ha⟩
  · cases hid

/-- **One call.** -/
theorem Lived.step (h : r.Lived log n) (ho : Outcome r call answer r')
    (hroom : n + (if call.isAdd = true then 1 else 0) < UInt64.size) :
    r'.Lived (log ++ [(call, answer)]) (n + if call.isAdd = true then 1 else 0) := by
  refine ⟨?_, ?_, fun id hid => ?_, fun id hid => ?_, fun id => ?_⟩
  · rw [ho.nextFrame, h.next]
    split
    · rw [UInt64.ofNat_add (n + 1) 1]
      rfl
    · rfl
  · rw [numbered_append, numbered_singleton, List.pairwise_append]
    refine ⟨h.ascending, ?_, fun a ha b hb => ?_⟩
    · cases number? (call, answer) <;> simp
    · have hlt := (h.number_next ho hroom (Option.mem_toList.1 hb)).1
      have hle := h.bounded a ha
      exact UInt64.lt_iff_toNat_lt.2 (by omega)
  · rw [numbered_append, numbered_singleton, List.mem_append, Option.mem_toList] at hid
    rcases hid with hid | hid
    · exact (h.bounded id hid).trans (Nat.le_add_right _ _)
    · obtain ⟨hlt, ha⟩ := h.number_next ho hroom hid
      rw [if_pos ha, hlt]
  · rw [released_append, released_singleton, List.mem_append, Option.mem_toList] at hid
    rw [numbered_append, List.mem_append]
    refine Or.inl ?_
    rcases hid with hid | hid
    · exact h.released id hid
    · exact ((h.live id).1 (ho.isSome_of_released? hid)).1
  · rw [ho.frames, isSome_follow, h.live, numbered_append, numbered_singleton, released_append,
      released_singleton, List.mem_append, List.mem_append, Option.mem_toList, Option.mem_toList, not_or]
    -- a number that is given out was not given out before, so it was not taken back
    have hfresh : number? (call, answer) = some id → id ∉ numbered log := by
      intro hid hm
      have hle := h.bounded id hm
      have hlt := (h.number_next ho hroom hid).1
      omega
    have hreleased := h.released id
    tauto

end Step

theorem Lived.history (h : r.Lived log n) (calls : List (Call S))
    (hroom : n + calls.countP Call.isAdd < UInt64.size) :
    (r.history calls).2.Lived (log ++ (r.history calls).1) (n + calls.countP Call.isAdd) := by
  induction calls generalizing r log n with
  | nil =>
    rw [Roster.history, List.append_nil]
    exact h
  | cons call calls ih =>
    rw [List.countP_cons, Nat.add_comm (calls.countP Call.isAdd), ← Nat.add_assoc] at hroom ⊢
    have hrest :=
      ih (h.step (outcome r call) (Nat.lt_of_le_of_lt (Nat.le_add_right _ _) hroom)) hroom
    rw [List.append_assoc] at hrest
    exact hrest

/-! ### What a number stands for -/

/-- What is not in flight can be asked for nothing. -/
theorem perform_of_none {id : UInt64} {call : Call S} (hc : call.subject? = some id)
    (h : r.frames.find? id = none) : r.perform call = (.error (.frameNotFound id), r) := by
  have hframe : r.frame id = .error (.frameNotFound id) := frame_eq_error_iff.2 ⟨h, rfl⟩
  have hflight := find?_flights_eq_none_iff.2 h
  cases call with
  | get other =>
    cases hc
    rw [perform, hframe]
    rfl
  | edit other change =>
    cases hc
    rw [perform, hframe]
  | mark other stage =>
    cases hc
    rw [perform, flight, hflight]
  | release other =>
    cases hc
    rw [perform, release, hflight]
  | _ => cases hc

/-- What is in flight is found, changed and released. -/
theorem perform_of_some {id : UInt64} {f : Frame S} (h : r.frames.find? id = some f) :
    r.perform (.get id) = (.ok (.frame f), r) ∧
      (∀ change, (r.perform (.edit id change)).1 = .ok (.frame (change f))) ∧
      ∃ flight, (r.perform (.release id)).1 = .ok (.flight flight) ∧ flight.frame = f := by
  have hframe := frame_eq_ok_iff.2 h
  obtain ⟨flight, hflight, hf⟩ := flight_of_frame hframe
  refine ⟨?_, fun change => ?_, flight, ?_, hf⟩
  · rw [perform, hframe]
    rfl
  · rw [perform, hframe]
  · rw [perform, release, hflight]

theorem pairwise_ids (r : Roster S) : r.ids.Pairwise (· < ·) := by
  have htrans : ∀ a b c : UInt64, decide (a ≤ b) = true → decide (b ≤ c) = true →
      decide (a ≤ c) = true := fun a b c hab hbc =>
    decide_eq_true (UInt64.le_trans (of_decide_eq_true hab) (of_decide_eq_true hbc))
  have htotal : ∀ a b : UInt64, (decide (a ≤ b) || decide (b ≤ a)) = true := fun a b => by
    rw [Bool.or_eq_true, decide_eq_true_eq, decide_eq_true_eq]
    exact UInt64.le_total a b
  have hn : r.ids.Nodup := r.perm_ids.nodup_iff.2 r.flights.keys_nodup
  exact (List.pairwise_mergeSort htrans htotal r.flights.keys).imp₂
    (fun a b hle hne => UInt64.lt_of_le_of_ne (of_decide_eq_true hle) hne) hn

theorem mem_ids_iff {id : UInt64} : id ∈ r.ids ↔ (r.frames.find? id).isSome = true := by
  rw [r.perm_ids.mem_iff, Table.mem_keys_iff, frames, Table.find?_mapValues, Option.isSome_map]

/-- **Each number stands for one frame.**  As long as fewer frames come in than there are numbers, the
numbers that are given out are ascending.  A number that was not taken back stands for the frame that
it was given out for, with the changes that were made to this frame since, and nothing else: it is
found, changed and released as such.  Whatever is asked of a number that was not given out, or was
taken back, fails and changes nothing.  The numbers in flight are listed in ascending order. -/
theorem numbers_live_once {sampler : Sampler} {calls : List (Call S)}
    (h : ({ sampler := sampler } : Roster S).history calls = (log, r))
    (hroom : calls.countP Call.isAdd < UInt64.size) :
    (numbered log).Pairwise (· < ·) ∧
      (∀ before f id after, log = before ++ (.add f, .ok (.number id)) :: after →
        id ∉ released after →
          let current := after.foldl (fun f e => e.1.edited id f) { f with id := id }
          r.perform (.get id) = (.ok (.frame current), r) ∧
            (∀ change, (r.perform (.edit id change)).1 = .ok (.frame (change current))) ∧
            (∃ flight, (r.perform (.release id)).1 = .ok (.flight flight) ∧ flight.frame = current) ∧
            ((∀ e ∈ after, e.1.KeepsNumber) → current.id = id)) ∧
      (∀ id, id ∉ numbered log ∨ id ∈ released log → ∀ call, call.subject? = some id →
        r.perform call = (.error (.frameNotFound id), r)) ∧
      r.ids.Pairwise (· < ·) ∧ ∀ id, id ∈ r.ids ↔ id ∈ numbered log ∧ id ∉ released log := by
  have hlived := (lived_new (S := S) sampler).history calls (by rwa [Nat.zero_add])
  have hframes := fun id => frames_history ({ sampler := sampler } : Roster S) calls id
  rw [h] at hlived hframes
  rw [List.nil_append] at hlived
  refine ⟨hlived.ascending, ?_, ?_, r.pairwise_ids, fun id => mem_ids_iff.trans (hlived.live id)⟩
  · intro before f id after hlog hafter current
    -- the number is given out nowhere else
    have hall := hlived.ascending
    have hcons : numbered ((.add f, .ok (.number id)) :: after) = id :: numbered after := rfl
    rw [hlog, numbered_append, hcons] at hall
    have hnew : id ∉ numbered after := fun hm =>
      UInt64.lt_irrefl id ((List.pairwise_cons.1 (List.pairwise_append.1 hall).2.1).1 id hm)
    have hstored : r.frames.find? id = some current := by
      rw [hframes id, hlog, List.foldl_append, List.foldl_cons]
      simp only [follow, ↓reduceIte]
      exact foldl_follow_of_live _ hnew hafter
    obtain ⟨hget, hedit, hrelease⟩ := perform_of_some hstored
    exact ⟨hget, hedit, hrelease, fun hkeeps => id_foldl_edited hkeeps id _⟩
  · intro id hid call hcall
    refine perform_of_none hcall (Option.not_isSome_iff_eq_none.1 fun hsome => ?_)
    obtain ⟨hnumbered, hreleased⟩ := (hlived.live id).1 hsome
    exact hid.elim (fun hnot => hnot hnumbered) hreleased

/-- Two frames come in; the second gets another time, and the first is released before a third one
comes in. -/
def shifted : List (Call Unit) :=
  [.add (Frame.arriving "cam" 0 8 8), .add (Frame.arriving "cam" 1 8 8),
    .edit 2 fun f => { f with pts := 5 }, .group [1, 2], .release 1,
    .edit 1 fun f => { f with pts := 9 }, .add (Frame.arriving "cam" 2 8 8)]

theorem shifted_live_once :
    let r := (({ sampler := { period := 0, rootName := "frame" } } : Roster Unit).history shifted).2
    shifted.countP Call.isAdd < UInt64.size ∧
      r.perform (.get 2) = (.ok (.frame { Frame.arriving "cam" 5 8 8 with id := 2 }), r) ∧
      r.perform (.release 1) = (.error (.frameNotFound 1), r) ∧ r.ids.Pairwise (· < ·) := by
  intro r
  have hroom : shifted.countP Call.isAdd < UInt64.size := by decide
  obtain ⟨-, hlive, hgone, hids, -⟩ := numbers_live_once
    (rfl : ({ sampler := { period := 0, rootName := "frame" } } : Roster Unit).history shifted = (_, _))
    hroom
  refine ⟨hroom, ?_, ?_, hids⟩
  · have hget := hlive [(.add (Frame.arriving "cam" 0 8 8), .ok (.number 1))]
      (Frame.arriving "cam" 1 8 8) 2 _ rfl (by decide +kernel)
    exact hget.1
  · exact hgone 1 (Or.inr (by decide +kernel)) _ rfl

end VideoRelay.Roster

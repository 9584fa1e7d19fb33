import VideoRelay.Proofs.Flight.Numbers
import VideoRelay.Relay.Admission
import VideoRelay.Relay.Ingestion

/-!
# Calls between admission and release

Linking a frame, making a batch and preparing one concern frames in flight alone.  Whether such a call
succeeds or not, the same frames are in flight behind it, and sources, outbox and what is held back are
what they were: it is `Steady`.
-/

namespace VideoRelay.Relay

variable {S : Type} {r r' r'' : Relay S}

/-- The frames in flight keep their numbers, and only they were changed. -/
structure Steady (r r' : Relay S) : Prop where
  outbox : r'.outbox = r.outbox
  sources : r'.sources = r.sources
  resequencer : r'.resequencer = r.resequencer
  roster : Roster.Alike r.roster r'.roster

theorem Steady.refl (r : Relay S) : Steady r r := ⟨rfl, rfl, rfl, Roster.Alike.refl _⟩

theorem Steady.trans (h : Steady r r') (h' : Steady r' r'') : Steady r r'' :=
  ⟨h'.outbox.trans h.outbox, h'.sources.trans h.sources, h'.resequencer.trans h.resequencer,
    h.roster.trans h'.roster⟩

theorem steady_link {id : UInt64} {previous : Option UInt64} (h : r.link id previous = .ok r') :
    Steady r r' := by
  unfold link at h
  split at h
  · cases h
  · cases h
    exact ⟨rfl, rfl, rfl,
      Roster.alike_adjust id (fun f => { f with linkage := .ofPrevious previous }) fun _ _ => rfl⟩

theorem steady_group {ids : List UInt64} {batch : UInt64} (h : r.group ids = .ok (batch, r')) :
    Steady r r' := by
  unfold group at h
  split at h
  · cases h
  · next hg =>
    cases h
    exact ⟨rfl, rfl, rfl, Roster.alike_group hg⟩

section Ingest

variable [Coordinate S]

/-- The relay when a frame in flight has been marked and prepared. -/
def readied (r : Relay S) (id : UInt64) (frame : Frame S) (source : Source) : Relay S :=
  let ready := frame.prepare source r.delivery.isPassThrough r.symbols
  { r with
    roster := (r.roster.mark id inputStage).adjust id fun _ => ready.1
    symbols := ready.2 }

/-- If the frame at a position is in flight it is marked, and it is prepared if its source is
registered. -/
theorem ingestSlot_cases (r : Relay S) (batch : UInt64) (index : Nat) :
    (∃ fault, r.ingestSlot batch index = (.error fault, r)) ∨
      ∃ id frame, r.roster.slot batch index = .ok id ∧ r.roster.frame id = .ok frame ∧
        ((∃ fault, r.sources.find frame.source = .error fault ∧
            r.ingestSlot batch index = (.error fault, { r with roster := r.roster.mark id inputStage })) ∨
          ∃ source, r.sources.find frame.source = .ok source ∧
            r.ingestSlot batch index = (.ok (), r.readied id frame source)) := by
  unfold ingestSlot
  cases r.roster.slot batch index with
  | error fault => exact Or.inl ⟨fault, rfl⟩
  | ok id =>
    dsimp only
    cases hframe : r.roster.frame id with
    | error fault => exact Or.inl ⟨fault, rfl⟩
    | ok frame =>
      refine Or.inr ⟨id, frame, rfl, hframe, ?_⟩
      dsimp only
      cases r.sources.find frame.source with
      | error fault => exact Or.inl ⟨fault, rfl, rfl⟩
      | ok source => exact Or.inr ⟨source, rfl, rfl⟩

theorem steady_ingestSlot (ht : r.roster.Tagged) (batch : UInt64) (index : Nat) :
    Steady r (r.ingestSlot batch index).2 := by
  rcases ingestSlot_cases r batch index with ⟨fault, hslot⟩ | ⟨id, frame, -, hframe, hslot⟩
  · rw [hslot]
    exact Steady.refl r
  · have hmark := Roster.alike_mark r.roster id inputStage
    rcases hslot with ⟨fault, -, hslot⟩ | ⟨source, -, hslot⟩
    · rw [hslot]
      exact ⟨rfl, rfl, rfl, hmark⟩
    · have hadjust : Roster.Alike (r.roster.mark id inputStage)
          ((r.roster.mark id inputStage).adjust id fun _ =>
            (frame.prepare source r.delivery.isPassThrough r.symbols).1) := by
        refine Roster.alike_adjust id _ fun flight hf => ?_
        rw [Frame.id_prepare, ht.id_of_frame hframe, hmark.tagged ht id flight hf]
      rw [hslot]
      exact ⟨rfl, rfl, rfl, hmark.trans hadjust⟩

theorem steady_ingestSlots (ht : r.roster.Tagged) (batch : UInt64) (slots : List InputSlot) :
    Steady r (r.ingestSlots batch slots).2 := by
  induction slots generalizing r with
  | nil => exact Steady.refl r
  | cons slot rest ih =>
    rw [ingestSlots]
    split
    · exact ih ht
    · next index hindex =>
      have hone := steady_ingestSlot ht batch index
      split
      · next hs => rwa [hs] at hone
      · next hs =>
        rw [hs] at hone
        exact hone.trans (ih (hone.roster.tagged ht))

theorem steady_ingest (ht : r.roster.Tagged) (input : InputBatch) : Steady r (r.ingest input).2 := by
  unfold ingest
  split
  · exact Steady.refl r
  · exact steady_ingestSlots ht _ _

end Ingest

end VideoRelay.Relay

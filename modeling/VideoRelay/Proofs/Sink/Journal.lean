import VideoRelay.Sink.Message

/-!
# The streams in a journal

A journal notes in order which sources are registered and which messages are sent.  A source is live
from a registration to the message that its stream has ended, and `Lives source isLive journal` says
that the journal sends its frames, and the end of its stream, only while it is live.

When it is not live in the end, what is sent of the source falls into streams, each ended by its
message; after such a message the source is sent again only when it has been registered again; and a
source that was ever registered ends with that message.  This is `WellEnded`, and it follows from
`Lives` by induction over the journal (`Lives.wellEnded`).
-/

namespace VideoRelay

variable {S : Type} {source other : String} {m : Message S}

/-! ### Messages of a source -/

namespace Message

/-- The sources that a message is about. -/
def sources : Message S → List String
  | frame d => [d.frame.source]
  | batch ds => ds.map fun d => d.frame.source
  | endOfStream source => [source]

/-- A message carries frames, all of them of one source. -/
def Carries (m : Message S) (source : String) : Prop :=
  m.frames ≠ [] ∧ ∀ d ∈ m.frames, d.frame.source = source

theorem sources_of_frames (h : m.frames ≠ []) :
    m.sources = m.frames.map fun d => d.frame.source := by
  cases m with
  | endOfStream source => exact absurd rfl h
  | _ => rfl

theorem Carries.mem_sources (h : m.Carries source) : source ∈ m.sources := by
  obtain ⟨d, hd⟩ := List.exists_mem_of_ne_nil _ h.1
  rw [sources_of_frames h.1, List.mem_map]
  exact ⟨d, hd, h.2 d hd⟩

theorem Carries.notMem_sources (h : m.Carries other) (hne : source ≠ other) :
    source ∉ m.sources := by
  rw [sources_of_frames h.1, List.mem_map]
  rintro ⟨d, hd, rfl⟩
  exact hne (h.2 d hd)

theorem Carries.ne_endOfStream (h : m.Carries source) (id : String) : m ≠ .endOfStream id := by
  rintro rfl
  exact h.1 rfl

end Message

/-! ### Journals -/

/-- What a journal notes: a source is registered, or a message is sent. -/
inductive Entry (S : Type) where
  | registered (source : String)
  | sent (message : Message S)

namespace Entry

/-- The sources that an entry is about. -/
def sources : Entry S → List String
  | registered source => [source]
  | sent m => m.sources

/-- The message that is sent. -/
def message? : Entry S → Option (Message S)
  | registered _ => none
  | sent m => some m

end Entry

/-- The messages of a journal that are about a source. -/
def sentOf (source : String) (journal : List (Entry S)) : List (Message S) :=
  (journal.filterMap Entry.message?).filter fun m => source ∈ m.sources

section SentOf

variable {journal : List (Entry S)}

theorem sentOf_concat_of_notMem {e : Entry S} (h : source ∉ e.sources) :
    sentOf source (journal ++ [e]) = sentOf source journal := by
  cases e with
  | registered id => simp [sentOf, Entry.message?]
  | sent m =>
    have hm : source ∉ m.sources := h
    simp [sentOf, Entry.message?, hm]

theorem sentOf_concat_registered (id : String) :
    sentOf source (journal ++ [.registered id]) = sentOf source journal := by
  simp [sentOf, Entry.message?]

theorem sentOf_concat_sent (h : source ∈ m.sources) :
    sentOf source (journal ++ [.sent m]) = sentOf source journal ++ [m] := by
  simp [sentOf, Entry.message?, h]

end SentOf

/-- A journal sends frames of a source only while it is live, and in the end it is live or not. -/
inductive Lives (source : String) : Bool → List (Entry S) → Prop
  | start : Lives source false []
  | elsewhere {isLive : Bool} {journal : List (Entry S)} {e : Entry S}
    (h : Lives source isLive journal) (he : source ∉ e.sources) : Lives source isLive (journal ++ [e])
  | registered {isLive : Bool} {journal : List (Entry S)} (h : Lives source isLive journal) :
    Lives source true (journal ++ [.registered source])
  | sends {journal : List (Entry S)} {m : Message S} (h : Lives source true journal)
    (hm : m.Carries source) : Lives source true (journal ++ [.sent m])
  | ends {journal : List (Entry S)} (h : Lives source true journal) :
    Lives source false (journal ++ [.sent (.endOfStream source)])

/-- What is sent of a source falls into streams that are ended; nothing is sent after the end of a
stream unless the source is registered again; and the last that is sent is the end of a stream. -/
structure WellEnded (source : String) (journal : List (Entry S)) : Prop where
  streams : ∃ streams : List (List (Message S)),
    sentOf source journal = streams.flatMap (fun stream => stream ++ [.endOfStream source]) ∧
      ∀ stream ∈ streams, ∀ m ∈ stream, m.Carries source
  reopened : ∀ before between after m,
    journal = before ++ .sent (.endOfStream source) :: (between ++ .sent m :: after) →
      source ∈ m.sources → .registered source ∈ between
  last : .registered source ∈ journal →
    (sentOf source journal).getLast? = some (.endOfStream source)

/-- What stands in a longer list is the last of it or stands in the shorter one. -/
theorem concat_eq_split {α : Type} {l first rest : List α} {x y : α}
    (h : l ++ [y] = first ++ x :: rest) :
    (rest = [] ∧ l = first ∧ y = x) ∨ ∃ rest', rest = rest' ++ [y] ∧ l = first ++ x :: rest' := by
  rcases List.eq_nil_or_concat rest with rfl | ⟨rest', last, rfl⟩
  · obtain ⟨hfirst, hlast⟩ := List.append_inj' h rfl
    exact Or.inl ⟨rfl, hfirst, List.head_eq_of_cons_eq hlast⟩
  · rw [List.concat_eq_append, ← List.cons_append, ← List.append_assoc] at h
    obtain ⟨hfirst, hlast⟩ := List.append_inj' h rfl
    cases hlast
    exact Or.inr ⟨rest', List.concat_eq_append .., hfirst⟩

namespace Lives

variable {isLive : Bool} {journal : List (Entry S)}

/-! ### Longer journals -/

theorem elsewhere_append (h : Lives source isLive journal) {entries : List (Entry S)}
    (he : ∀ e ∈ entries, source ∉ e.sources) : Lives source isLive (journal ++ entries) := by
  induction entries generalizing journal with
  | nil => rwa [List.append_nil]
  | cons e rest ih =>
    rw [List.append_cons]
    exact ih (h.elsewhere (he e List.mem_cons_self)) fun e' he' => he e' (List.mem_cons_of_mem _ he')

theorem sends_append (h : Lives source true journal) {messages : List (Message S)}
    (hm : ∀ m ∈ messages, m.Carries source) :
    Lives source true (journal ++ messages.map .sent) := by
  induction messages generalizing journal with
  | nil => rwa [List.map_nil, List.append_nil]
  | cons m rest ih =>
    rw [List.map_cons, List.append_cons]
    exact ih (h.sends (hm m List.mem_cons_self)) fun m' hm' => hm m' (List.mem_cons_of_mem _ hm')

/-! ### Splitting a journal -/

/-- A source is live when a message about it is sent. -/
theorem live_before {first rest : List (Entry S)}
    (h : Lives source isLive journal) (hsplit : journal = first ++ .sent m :: rest)
    (hm : source ∈ m.sources) : Lives source true first := by
  induction h generalizing rest with
  | start => exact absurd hsplit.symm (List.append_ne_nil_of_right_ne_nil _ (List.cons_ne_nil _ _))
  | elsewhere h he ih =>
    rcases concat_eq_split hsplit with ⟨-, -, rfl⟩ | ⟨rest', -, hfirst⟩
    · exact absurd hm he
    · exact ih hfirst
  | registered h ih =>
    rcases concat_eq_split hsplit with ⟨-, -, he⟩ | ⟨rest', -, hfirst⟩
    · cases he
    · exact ih hfirst
  | sends h hcarries ih =>
    rcases concat_eq_split hsplit with ⟨-, rfl, -⟩ | ⟨rest', -, hfirst⟩
    · exact h
    · exact ih hfirst
  | ends h ih =>
    rcases concat_eq_split hsplit with ⟨-, rfl, -⟩ | ⟨rest', -, hfirst⟩
    · exact h
    · exact ih hfirst

/-- A source that is live after its stream has ended was registered again. -/
theorem registered_since {first rest : List (Entry S)}
    (h : Lives source isLive journal) (hlive : isLive = true)
    (hsplit : journal = first ++ .sent (.endOfStream source) :: rest) :
    .registered source ∈ rest := by
  induction h generalizing rest with
  | start => cases hlive
  | elsewhere h he ih =>
    rcases concat_eq_split hsplit with ⟨-, -, rfl⟩ | ⟨rest', rfl, hfirst⟩
    · exact absurd (List.mem_singleton_self source) he
    · exact List.mem_append_left _ (ih hlive hfirst)
  | registered h ih =>
    rcases concat_eq_split hsplit with ⟨-, -, he⟩ | ⟨rest', rfl, -⟩
    · cases he
    · exact List.mem_append_right _ (List.mem_singleton_self _)
  | sends h hm ih =>
    rcases concat_eq_split hsplit with ⟨-, -, he⟩ | ⟨rest', rfl, hfirst⟩
    · exact absurd (Entry.sent.inj he) (hm.ne_endOfStream source)
    · exact List.mem_append_left _ (ih rfl hfirst)
  | ends h ih => cases hlive

/-- A source that is live was registered. -/
theorem mem_of_live (h : Lives source isLive journal) (hlive : isLive = true) :
    .registered source ∈ journal := by
  induction h with
  | start => cases hlive
  | elsewhere h he ih => exact List.mem_append_left _ (ih hlive)
  | registered h ih => exact List.mem_append_right _ (List.mem_singleton_self _)
  | sends h hm ih => exact List.mem_append_left _ (ih rfl)
  | ends h ih => cases hlive

/-! ### What is sent of a source -/

/-- What is sent falls into streams that are ended, and one that is not if the source is live. -/
theorem exists_streams (h : Lives source isLive journal) :
    ∃ (streams : List (List (Message S))) (current : List (Message S)),
      sentOf source journal =
        streams.flatMap (fun stream => stream ++ [.endOfStream source]) ++ current ∧
      (∀ stream ∈ streams, ∀ m ∈ stream, m.Carries source) ∧
      (∀ m ∈ current, m.Carries source) ∧ (isLive = false → current = []) := by
  induction h with
  | start =>
    refine ⟨[], [], rfl, ?_, ?_, fun _ => rfl⟩
    · exact fun stream hs => absurd hs List.not_mem_nil
    · exact fun m hm => absurd hm List.not_mem_nil
  | elsewhere h he ih =>
    obtain ⟨streams, current, hsent, hrest⟩ := ih
    exact ⟨streams, current, (sentOf_concat_of_notMem he).trans hsent, hrest⟩
  | registered h ih =>
    obtain ⟨streams, current, hsent, hstreams, hcurrent, -⟩ := ih
    refine ⟨streams, current, (sentOf_concat_registered source).trans hsent, hstreams, hcurrent, ?_⟩
    exact fun hlive => by cases hlive
  | @sends journal m h hm ih =>
    obtain ⟨streams, current, hsent, hstreams, hcurrent, -⟩ := ih
    refine ⟨streams, current ++ [m], ?_, hstreams, ?_, fun hlive => by cases hlive⟩
    · rw [sentOf_concat_sent hm.mem_sources, hsent, List.append_assoc]
    · intro m' hm'
      rcases List.mem_append.1 hm' with hm' | hm'
      · exact hcurrent m' hm'
      · rw [List.mem_singleton.1 hm']
        exact hm
  | ends h ih =>
    obtain ⟨streams, current, hsent, hstreams, hcurrent, -⟩ := ih
    refine ⟨streams ++ [current], [], ?_, ?_, ?_, fun _ => rfl⟩
    · have hend : source ∈ (Message.endOfStream (S := S) source).sources :=
        List.mem_singleton_self source
      rw [sentOf_concat_sent hend, hsent, List.flatMap_append, List.append_nil, List.append_assoc]
      simp
    · intro stream hs
      rcases List.mem_append.1 hs with hs | hs
      · exact hstreams stream hs
      · rw [List.mem_singleton.1 hs]
        exact hcurrent
    · exact fun m hm => absurd hm List.not_mem_nil

/-- A source that was registered and is not live has been ended last. -/
theorem getLast?_sentOf (h : Lives source isLive journal) (hlive : isLive = false)
    (hregistered : .registered source ∈ journal) :
    (sentOf source journal).getLast? = some (.endOfStream source) := by
  induction h with
  | start => exact absurd hregistered List.not_mem_nil
  | elsewhere h he ih =>
    rw [sentOf_concat_of_notMem he]
    rcases List.mem_append.1 hregistered with hregistered | hregistered
    · exact ih hlive hregistered
    · rw [← List.mem_singleton.1 hregistered] at he
      exact absurd (List.mem_singleton_self source) he
  | registered h ih => cases hlive
  | sends h hm ih => cases hlive
  | ends h ih =>
    have hend : source ∈ (Message.endOfStream (S := S) source).sources :=
      List.mem_singleton_self source
    rw [sentOf_concat_sent hend, List.getLast?_concat]

/-- **Streams are well ended** when no source is live in the end. -/
theorem wellEnded (h : Lives source false journal) : WellEnded source journal := by
  refine ⟨?_, ?_, h.getLast?_sentOf rfl⟩
  · obtain ⟨streams, current, hsent, hstreams, -, hnone⟩ := h.exists_streams
    rw [hnone rfl, List.append_nil] at hsent
    exact ⟨streams, hsent, hstreams⟩
  · intro before between after m hsplit hm
    rw [← List.cons_append, ← List.append_assoc] at hsplit
    exact (h.live_before hsplit hm).registered_since rfl rfl

end Lives

end VideoRelay

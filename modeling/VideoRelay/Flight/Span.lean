import VideoRelay.Text.Hex

/-!
# Spans

A span is the trace of one frame from the moment it is in flight until it is released.  A `Sampler`
with a period `n` opens a span for every `n`-th frame, beginning with the first, and none with the
period zero; `sampled_next` says for which.  The numbers in a span's context come from a seed.
-/

namespace VideoRelay

/-- Sixteen lowercase hexadecimal digits. -/
def hexWord (w : UInt64) : String :=
  Text.hex ((List.range 8).map fun i => (w >>> UInt64.ofNat (8 * (7 - i))).toUInt8)

/-- The numbers by which other programs know a span. -/
structure TraceContext where
  traceHigh : UInt64
  traceLow : UInt64
  span : UInt64
deriving DecidableEq

namespace TraceContext

/-- Spreads a number over all bits of a word; distinct numbers stay distinct. -/
def scramble (n : UInt64) : UInt64 :=
  let n := (n ^^^ (n >>> 30)) * 0xBF58476D1CE4E5B9
  let n := (n ^^^ (n >>> 27)) * 0x94D049BB133111EB
  n ^^^ (n >>> 31)

/-- The context of the span of the given number. -/
def ofSeed (seed number : UInt64) : TraceContext :=
  let word (i : UInt64) := scramble (seed + (3 * number + i) * 0x9E3779B97F4A7C15)
  ⟨word 1, word 2, word 3⟩

/-- The context as a text in the form of the header `traceparent`, with the flag for sampled. -/
def traceparent (c : TraceContext) : String :=
  "00-" ++ hexWord c.traceHigh ++ hexWord c.traceLow ++ "-" ++ hexWord c.span ++ "-01"

end TraceContext

/-- What is recorded of a frame that is traced. -/
structure Trace where
  name : String
  context : TraceContext
  /-- The stages that the frame has entered, in order. -/
  stages : List String := []
deriving DecidableEq

/-- The trace of a frame, if it is traced. -/
structure Span where
  trace? : Option Trace
deriving DecidableEq

namespace Span

def isSampled (s : Span) : Bool := s.trace?.isSome

/-- Records that the frame enters a stage. -/
def mark (s : Span) (stage : String) : Span :=
  ⟨s.trace?.map fun t => { t with stages := t.stages ++ [stage] }⟩

def name? (s : Span) : Option String := s.trace?.map Trace.name

def stages (s : Span) : List String :=
  match s.trace? with
  | some t => t.stages
  | none => []

/-- The context to hand on with the frame. -/
def traceparent? (s : Span) : Option String := s.trace?.map fun t => t.context.traceparent

theorem isSampled_mark (s : Span) (stage : String) : (s.mark stage).isSampled = s.isSampled := by
  simp [mark, isSampled]

theorem stages_mark {s : Span} (h : s.isSampled = true) (stage : String) :
    (s.mark stage).stages = s.stages ++ [stage] := by
  obtain ⟨_ | t⟩ := s
  · simp [isSampled] at h
  · rfl

end Span

/-- Decides which frames are traced. -/
structure Sampler where
  /-- Every frame of this many is traced; zero traces none. -/
  period : UInt64
  rootName : String
  seed : UInt64 := 0
  count : UInt64 := 0
deriving DecidableEq

namespace Sampler

/-- The span of the next frame. -/
def next (s : Sampler) : Span × Sampler :=
  if s.period = 0 then (⟨none⟩, s)
  else
    let trace? :=
      if s.count % s.period = 0 then some ⟨s.rootName, .ofSeed s.seed s.count, []⟩ else none
    (⟨trace?⟩, { s with count := s.count + 1 })

theorem sampled_next (s : Sampler) :
    s.next.1.isSampled = true ↔ s.period ≠ 0 ∧ s.count % s.period = 0 := by
  unfold next
  by_cases hp : s.period = 0
  · simp [hp, Span.isSampled]
  · by_cases hc : s.count % s.period = 0 <;> simp [hp, hc, Span.isSampled]

end Sampler

end VideoRelay

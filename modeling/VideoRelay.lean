import VideoRelay.Command.Arguments
import VideoRelay.Command.Session
import VideoRelay.Decimal.Basic
import VideoRelay.Decimal.Shortest
import VideoRelay.Decimal.Stepwise
import VideoRelay.Failure
import VideoRelay.Fault
import VideoRelay.Flight.Call
import VideoRelay.Flight.Roster
import VideoRelay.Flight.Span
import VideoRelay.Frame.Attribute
import VideoRelay.Frame.Basic
import VideoRelay.Frame.Content
import VideoRelay.Frame.Detection
import VideoRelay.Frame.Linkage
import VideoRelay.Frame.Observation
import VideoRelay.Frame.Preparation
import VideoRelay.Frame.SizeStep
import VideoRelay.Frame.Symbols
import VideoRelay.Geometry.Coordinate
import VideoRelay.Geometry.Region
import VideoRelay.Geometry.Size
import VideoRelay.Json.Basic
import VideoRelay.Json.Fields
import VideoRelay.Json.Nesting
import VideoRelay.Json.Parser
import VideoRelay.Json.Printer
import VideoRelay.Main
import VideoRelay.Media.Buffer
import VideoRelay.Media.Codec
import VideoRelay.Media.Delivery
import VideoRelay.Relay.Admission
import VideoRelay.Relay.Ingestion
import VideoRelay.Relay.Release
import VideoRelay.Relay.Request
import VideoRelay.Relay.State
import VideoRelay.Sequence.Heap
import VideoRelay.Sequence.Resequencer
import VideoRelay.Settings.Basic
import VideoRelay.Settings.Load
import VideoRelay.Sink.Lines
import VideoRelay.Sink.Message
import VideoRelay.Sink.Worker
import VideoRelay.Source.Basic
import VideoRelay.Source.Catalog
import VideoRelay.Source.ShapePolicy
import VideoRelay.Table
import VideoRelay.TestPattern.Basic
import VideoRelay.TestPattern.DecodeOrder
import VideoRelay.TestPattern.Feed
import VideoRelay.Text.Blank
import VideoRelay.Text.CaseData
import VideoRelay.Text.Extension
import VideoRelay.Text.Hex
import VideoRelay.Text.Lowercase
import VideoRelay.Toml.Document
import VideoRelay.Toml.Parser
import VideoRelay.Toml.Quoted
import VideoRelay.Toml.Scalar
import VideoRelay.Proofs.Sequence.AnyArrival
import VideoRelay.Proofs.Sequence.Chain
import VideoRelay.Proofs.Flight.Numbers
import VideoRelay.Proofs.Flight.Outcomes
import VideoRelay.Proofs.Flight.Batches
import VideoRelay.Proofs.Relay.Handover
import VideoRelay.Proofs.Relay.Ledger
import VideoRelay.Proofs.Relay.Loss
import VideoRelay.Proofs.Sequence.DecodeOrder
import VideoRelay.Proofs.Sequence.Labels
import VideoRelay.Proofs.Sequence.Succession
import VideoRelay.Proofs.Sequence.Holding
import VideoRelay.Proofs.Source.Names
import VideoRelay.Proofs.Relay.Steady
import VideoRelay.Proofs.Relay.Departure
import VideoRelay.Proofs.Relay.Custody
import VideoRelay.Proofs.Flight.Cores
import VideoRelay.Proofs.TestPattern.Restored
import VideoRelay.Proofs.TestPattern.Boarding
import VideoRelay.Proofs.Relay.Passage
import VideoRelay.Proofs.Relay.Idle
import VideoRelay.Proofs.Relay.Admission
import VideoRelay.Proofs.TestPattern.Group
import VideoRelay.Proofs.TestPattern.Relaying
import VideoRelay.Proofs.Source.Changes
import VideoRelay.Proofs.Relay.Handling
import VideoRelay.Proofs.Relay.Calls
import VideoRelay.Proofs.Relay.Routing
import VideoRelay.Proofs.Relay.Course
import VideoRelay.Proofs.Frame.Steps
import VideoRelay.Proofs.Relay.RecordedSize
import VideoRelay.Proofs.Frame.Objects
import VideoRelay.Proofs.Geometry.Exact
import VideoRelay.Proofs.Geometry.Single
import VideoRelay.Proofs.Geometry.Counts
import VideoRelay.Proofs.Relay.NativeBoxes
import VideoRelay.Proofs.Relay.Origins
import VideoRelay.Proofs.Sink.Journal
import VideoRelay.Proofs.Relay.Streams
import VideoRelay.Proofs.Relay.Acts
import VideoRelay.Proofs.Relay.Contents
import VideoRelay.Proofs.Relay.NativeSizes
import VideoRelay.Proofs.Settings.Loading
import VideoRelay.Proofs.Sequence.Independence
import VideoRelay.Proofs.Sequence.Conservation
import VideoRelay.Proofs.Sequence.Flush
import VideoRelay.Proofs.Json.Tokens
import VideoRelay.Proofs.Json.Texts
import VideoRelay.Proofs.Json.Legible
import VideoRelay.Proofs.Json.Rearranged
import VideoRelay.Proofs.Json.Recovery
import VideoRelay.Proofs.Frame.ReadBack
import VideoRelay.Proofs.Sequence.MissingLink
import VideoRelay.Proofs.Relay.Tally
import VideoRelay.Proofs.Flight.Lifetimes
import VideoRelay.Proofs.Flight.Slots
import VideoRelay.Proofs.Flight.Grouping
import VideoRelay.Proofs.Frame.Detected
import VideoRelay.Proofs.Frame.Parents
import VideoRelay.Proofs.Relay.Repetition
import VideoRelay.Proofs.Frame.ClassNumbers
import VideoRelay.Proofs.Frame.SharedKeys
import VideoRelay.Proofs.Relay.Intake
import VideoRelay.Proofs.Relay.Fidelity
import VideoRelay.Proofs.Source.Storing
import VideoRelay.Proofs.Geometry.Multiples
import VideoRelay.Proofs.Settings.Acceptance
import VideoRelay.Proofs.Relay.DeliveredBoxes
import VideoRelay.Proofs.Relay.Registrations
import VideoRelay.Proofs.Relay.FixedShapes
import VideoRelay.Proofs.TestPattern.Numbering
import VideoRelay.Proofs.Flight.Sampling
import VideoRelay.Proofs.Relay.Sampling
import VideoRelay.Proofs.Flight.Blanking
import VideoRelay.Proofs.Relay.Plain
import VideoRelay.Proofs.Relay.Batching
import VideoRelay.Proofs.Decimal.Leading
import VideoRelay.Proofs.Json.Numerals
import VideoRelay.Proofs.Json.Documents
import VideoRelay.Proofs.Frame.Written
import VideoRelay.Proofs.Sink.Framing

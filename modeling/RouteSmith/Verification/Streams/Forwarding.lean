import RouteSmith.Verification.Streams.Normalization
import RouteSmith.Verification.Streams.Terminators

/-! # Values that are handed to the event builder

The event builder panics on values with line breaks. Values that are written as JSON have none, but
the fields of a frame, and lines that are no JSON, are passed on as they were sent.
-/

namespace RouteSmith.Model

open Control List AnthropicNormalizer

/-! ## Accepted values -/

theorem not_mem_of_printable {cs : List Char} (h : Json.Printable cs) {c : Char}
    (hc : c.toNat < 0x20) : c ∉ cs := by
  intro hmem
  have := h c hmem
  omega

theorem OpenAiData.return_not_mem_text (writer : Json.Writer) (data : OpenAiData) :
    '\r' ∉ (data.text writer).toList := by
  cases data with
  | done =>
    rw [text]
    decide
  | chunk json => exact not_mem_of_printable (writer.printable_write json) (by decide)

theorem accepted_openaiEvent (writer : Json.Writer) (data : OpenAiData) :
    ((openaiEvent data).sse writer).Accepted where
  event := nofun
  data := data.return_not_mem_text _
  id := nofun
  comments := nofun

/-- Identifiers and comments without line breaks, and identifiers without the zero character. -/
structure SafeMetadata (frame : SseFrame) : Prop where
  id : ∀ id, frame.id = some id → OneLine id ∧ '\x00' ∉ id.toList
  comments : ∀ comment ∈ frame.comments, OneLine comment

theorem OpenAiPassthrough.accepted_eventWithMetadata_iff (writer : Json.Writer) (frame : SseFrame)
    (data : OpenAiData) :
    ((eventWithMetadata frame data).sse writer).Accepted ↔ SafeMetadata frame :=
  ⟨fun h => ⟨h.id, h.comments⟩, fun h => ⟨nofun, data.return_not_mem_text _, h.id, h.comments⟩⟩

/-- The event is named without a line break, by its frame or else by the type of its data, and
there is no carriage return in data that is no JSON. -/
structure AnthropicNormalizer.Safe (normalizer : AnthropicNormalizer) (line : FramedLine) :
    Prop where
  metadata : SafeMetadata line.1
  name : OneLine (normalizer.eventName line)
  raw : normalizer.payload line = none → '\r' ∉ line.2.toList

theorem AnthropicNormalizer.accepted_eventWithMetadata_iff {normalizer : AnthropicNormalizer}
    {line : FramedLine} {data : String}
    (hdata : '\r' ∉ data.toList ↔ (normalizer.payload line = none → '\r' ∉ line.2.toList)) :
    (eventWithMetadata line.1 (normalizer.eventName line) data).Accepted ↔
      normalizer.Safe line where
  mp h := ⟨⟨h.id, h.comments⟩, h.event _ rfl, hdata.mp h.data⟩
  mpr h := ⟨fun _ hname => Option.some.inj hname ▸ h.name, hdata.mpr h.raw, h.metadata.id,
    h.metadata.comments⟩

/-! ## The events of a stream -/

/-- All events of a trace have a property. -/
def Emits {ε : Type} (P : ε → Prop) (trace : List (StreamAction ε)) : Prop :=
  ∀ event ∈ eventsOf trace, P event

section

variable {ε : Type} {P : ε → Prop} (trace : List (StreamAction ε))

theorem emits_silent {a : StreamAction ε} (ha : a.event? = none) :
    Emits P (trace ++ [a]) ↔ Emits P trace := by
  simp [Emits, eventsOf_append_singleton, ha]

theorem emits_event (event : ε) :
    Emits P (trace ++ [.event event]) ↔ Emits P trace ∧ P event := by
  rw [Emits, eventsOf_append_singleton, StreamAction.event?, Option.toList_some,
    forall_mem_append, forall_mem_singleton]
  rfl

end

/-! ### Passing OpenAI streams on -/

namespace OpenAiPassthrough

variable (passthrough : OpenAiPassthrough)

/-- The last line is passed on as well: a chunk that reports an error, or `[DONE]` after a chunk. -/
def endsWith (before : List FramedLine) (line : FramedLine) : Bool :=
  if line.2 = "[DONE]" then !before.isEmpty else (passthrough.reader.parse line.2).isSome

/-- The lines that are passed on, of those that arrive until the upstream fails. -/
def passedLines (lines : List FramedLine) : List FramedLine :=
  let before := lines.takeWhile fun line => passthrough.forwards (.ok line.2)
  before ++ ((lines.find? fun line => !passthrough.forwards (.ok line.2)).filter
    (passthrough.endsWith before)).toList

/-- The events are accepted exactly if the frames of the lines are safe. -/
def Decides (writer : Json.Writer) (lines : List FramedLine)
    (trace : List (StreamAction OpenAiEvent)) : Prop :=
  Emits (fun event => (event.sse writer).Accepted) trace ↔ ∀ line ∈ lines, SafeMetadata line.1

variable {passthrough} {writer : Json.Writer} {lines : List FramedLine} {s : PassthroughState}
  {trace : List (StreamAction OpenAiEvent)}

theorem Decides.silent (h : Decides writer lines trace) {a : StreamAction OpenAiEvent}
    (ha : a.event? = none) : Decides writer lines (trace ++ [a]) :=
  (emits_silent _ ha).trans h

theorem Decides.own (h : Decides writer lines trace) (data : OpenAiData) :
    Decides writer lines (trace ++ [.event (openaiEvent data)]) :=
  (emits_event _ _).trans ((and_iff_left (accepted_openaiEvent writer data)).trans h)

theorem Decides.passed (h : Decides writer lines trace) (line : FramedLine) (data : OpenAiData) :
    Decides writer (lines ++ [line]) (trace ++ [.event (eventWithMetadata line.1 data)]) := by
  rw [Decides, emits_event, accepted_eventWithMetadata_iff, forall_mem_append, forall_mem_singleton]
  exact and_congr_left' h

/-- So far the lines were passed on. -/
structure Carries (writer : Json.Writer) (lines : List FramedLine) (s : PassthroughState) :
    Prop where
  events : Decides writer lines s.trace
  sawChunk : s.sawChunk = !lines.isEmpty

variable (h : Carries writer lines s)

include h

theorem Carries.fail (error : AppError) {F : Unit → PassthroughState → Prop} :
    Ensures (fail error) F (fun e t => e = .returned ∧ Decides writer lines t.trace) s :=
  ⟨rfl, (h.events.silent rfl).own _⟩

theorem Carries.relayChunk (frame : SseFrame) (data : String) (chunk : Json) :
    Ensures (passthrough.relayChunk frame chunk)
      (fun _ t => chunk.get? "error" = none ∧ Carries writer (lines ++ [(frame, data)]) t)
      (fun e t => e = .returned ∧ (chunk.get? "error").isSome = true ∧
        Decides writer (lines ++ [(frame, data)]) t.trace) s := by
  rw [OpenAiPassthrough.relayChunk, ensures_bind, ensures_modify]
  split_ifs with herror
  · exact ⟨rfl, herror, (h.events.silent rfl).passed (frame, data) _⟩
  · have husage : Ensures (noteUsage chunk)
        (fun _ t => t.sawChunk = true ∧ Decides writer lines t.trace)
        (fun e t => e = .returned ∧ (chunk.get? "error").isSome = true ∧
          Decides writer (lines ++ [(frame, data)]) t.trace) { s with sawChunk := true } := by
      rw [noteUsage]
      split
      · exact ⟨rfl, h.events⟩
      · exact ⟨rfl, h.events.silent rfl⟩
    refine husage.bind fun _ t ht => ⟨by simpa using herror, ?_, by simp [ht.1]⟩
    exact (ht.2.silent rfl).passed (frame, data) _

/-- A line is passed on, with more to come after it, or ends the stream. -/
theorem Carries.relayData (frame : SseFrame) (data : String) :
    Ensures (passthrough.relayData frame data)
      (fun _ t => passthrough.forwards (.ok data) = true ∧
        Carries writer (lines ++ [(frame, data)]) t)
      (fun e t => e = .returned ∧ passthrough.forwards (.ok data) = false ∧
        Decides writer (lines ++ if passthrough.endsWith lines (frame, data) then [(frame, data)]
          else []) t.trace) s := by
  rw [OpenAiPassthrough.relayData]
  by_cases hdone : data = "[DONE]"
  · have hstop : passthrough.forwards (.ok data) = false := by simp [forwards, hdone]
    have hends : passthrough.endsWith lines (frame, data) = !lines.isEmpty := if_pos hdone
    rw [if_pos hdone, ensures_bind, ensures_get, hends, ← h.sawChunk]
    cases hsaw : s.sawChunk with
    | true => exact ⟨rfl, hstop, (h.events.silent rfl).passed (frame, data) _⟩
    | false =>
      refine (h.fail _).mono (fun _ _ ht => ht) fun e t ht => ⟨ht.1, hstop, ?_⟩
      simpa using ht.2
  · have hends : passthrough.endsWith lines (frame, data) =
        (passthrough.reader.parse data).isSome := if_neg hdone
    rw [if_neg hdone, hends]
    cases hparse : passthrough.reader.parse data with
    | none =>
      refine (h.fail _).mono (fun _ _ ht => ht) fun e t ht => ⟨ht.1, ?_, ?_⟩
      · simp [forwards, hparse]
      · simpa using ht.2
    | some chunk =>
      have hnamed := @get?_error_nameModel passthrough chunk
      refine (h.relayChunk frame data _).mono (fun _ t ht => ⟨?_, ht.2⟩)
        fun e t ht => ⟨ht.1, ?_, ht.2.2⟩
      · simp [forwards, hdone, hparse, ← hnamed, ht.1]
      · simp [forwards, hparse, ← hnamed, ht.2.1]

theorem Carries.ends (error : AppError) (finished : Bool) :
    Ensures (if finished then succeed (openaiEvent .done)
        else OpenAiPassthrough.fail error : PassthroughM Unit) (fun _ _ => False)
      (fun e t => e = .returned ∧ Decides writer lines t.trace) s := by
  cases finished with
  | false => exact h.fail error
  | true => exact ⟨rfl, (h.events.silent rfl).own _⟩

omit h

section

variable (hlines : ∀ line ∈ lines, passthrough.forwards (.ok line.2) = true)

include hlines

end

end OpenAiPassthrough

/-! ### Passing Anthropic streams on -/

namespace AnthropicNormalizer

variable {normalizer : AnthropicNormalizer} {line : FramedLine} {lines : List FramedLine}

theorem accepted_passed_iff : (normalizer.passed line).Accepted ↔ normalizer.Safe line := by
  refine accepted_eventWithMetadata_iff ?_
  cases hdata : normalizer.payload line with
  | none => simp
  | some data =>
    exact iff_of_true (not_mem_of_printable (normalizer.writer.printable_write data)
      (by decide)) nofun

theorem Carried.accepted {sent : List SseEvent} (h : normalizer.Carried line sent)
    (hsafe : normalizer.Safe line) : ∀ event ∈ sent, event.Accepted := by
  cases h with
  | whole => exact forall_mem_singleton.mpr (accepted_passed_iff.mpr hsafe)
  | dropped => exact nofun
  | shortened hrepeats json =>
    refine forall_mem_singleton.mpr ((accepted_eventWithMetadata_iff ?_).mpr hsafe)
    refine iff_of_true (not_mem_of_printable (normalizer.writer.printable_write json)
      (by decide)) ?_
    intro hdata
    simp [repeats, hdata] at hrepeats

end AnthropicNormalizer

/-- The streams that are made of the frames of an upstream. -/
inductive Forwarder where
  | passOpenai (passthrough : OpenAiPassthrough)
  | passAnthropic (normalizer : AnthropicNormalizer)
  | toAnthropic (relay : AnthropicRelay)
  | toOpenai (conversion : OpenAiConversion)

namespace Forwarder

/-- The values that are handed to the event builder. -/
def events (writer : Json.Writer) (frames : SseFrameStream) : Forwarder → List SseEvent
  | passOpenai passthrough =>
    (eventsOf (openaiStreamPassthrough passthrough frames)).map (OpenAiEvent.sse writer)
  | passAnthropic normalizer => eventsOf (normalizeAnthropicStream normalizer frames)
  | toAnthropic relay =>
    (eventsOf (openaiStreamToAnthropic relay frames)).map (AnthropicEvent.sse writer)
  | toOpenai conversion =>
    (eventsOf (anthropicStreamToOpenai conversion frames)).map fun data =>
      (openaiEvent data).sse writer

def Safe (line : FramedLine) : Forwarder → Prop
  | passOpenai _ => SafeMetadata line.1
  | passAnthropic normalizer => normalizer.Safe line
  | toAnthropic _ | toOpenai _ => True

/-- The lines that are passed on, unless they are left out. -/
def mayPass (lines : List FramedLine) : Forwarder → List FramedLine
  | passOpenai passthrough => passthrough.passedLines lines
  | passAnthropic normalizer => upTo normalizer.ends lines
  | toAnthropic _ | toOpenai _ => []

/-- The lines that are passed on in any case. -/
def passes (lines : List FramedLine) : Forwarder → List FramedLine
  | passAnthropic normalizer => (upTo normalizer.stops lines).filter (!normalizer.repeats ·)
  | forwarder => forwarder.mayPass lines

end Forwarder

end RouteSmith.Model

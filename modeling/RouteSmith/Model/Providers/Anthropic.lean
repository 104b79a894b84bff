import RouteSmith.Model.SseEvent

/-! # Anthropic streams for Anthropic clients

The stream of an Anthropic upstream is passed on line by line. Lines that are JSON are written
anew, with the text that was sent before left out on demand; other lines are passed on as they are.
-/

namespace RouteSmith.Model

open Numeric Text

/-- The arguments of `normalize_anthropic_stream`, and how JSON is read and written. -/
structure AnthropicNormalizer where
  reader : Json.Reader
  writer : Json.Writer
  deduplicateStreamText : Bool

structure NormalizerState where
  blockTypes : Std.TreeMap ℕ String := ∅
  textSeen : Std.TreeMap ℕ String := ∅
  sawEvent : Bool := false
  sawMessageStop : Bool := false
  toolCallCount : ℕ := 0
  textPresent : Bool := false
  trace : List (StreamAction SseEvent) := []

abbrev NormalizerM := EStateM Halt NormalizerState

namespace AnthropicNormalizer

/-- An event with the identifier, retry time and comments of the frame it comes from. -/
def eventWithMetadata (frame : SseFrame) (eventName data : String) : SseEvent where
  event := some eventName
  data := data
  id := frame.id
  retry := frame.retry
  comments := frame.comments

def act (action : StreamAction SseEvent) : NormalizerM Unit :=
  modify fun s => { s with trace := s.trace ++ [action] }

variable (normalizer : AnthropicNormalizer)

def fail {α : Type} (error : AppError) : NormalizerM α := do
  act (.update (.failed error.display))
  act (.event ((anthropicErrorEvent error).sse normalizer.writer))
  throw .returned

def noteUsage (data : Json) : NormalizerM Unit :=
  match ((data.get? "message").bind anthropicUsageIfPresent).or (anthropicUsageIfPresent data) with
  | none => pure ()
  | some usage => act (.update (.usage usage))

def noteMessageStop (frame : SseFrame) (eventType : Option String) : NormalizerM Unit :=
  if eventType = some "message_stop" ∨ frame.event = some "message_stop" then do
    modify fun s => { s with sawMessageStop := true }
    act (.update .completed)
  else pure ()

def eventIndex (data : Json) : Option ℕ := ((data.get? "index").bind Json.asU64).map (·.val)

def noteToolUse : NormalizerM Unit := do
  modify fun s => { s with toolCallCount := min (s.toolCallCount + 1) usizeMax }
  let s ← get
  act (.update (.fragment s.toolCallCount s.textPresent none))

def noteBlockStart (eventType : Option String) (data : Json) : NormalizerM Unit :=
  match eventIndex data, (data.get? "content_block").bind (Json.text? "type") with
  | some index, some blockType =>
    if eventType = some "content_block_start" then do
      modify fun s => { s with blockTypes := s.blockTypes.insert index blockType }
      if blockType = "tool_use" then noteToolUse
    else pure ()
  | _, _ => pure ()

def isTextDelta (eventType : Option String) (data : Json) : Bool :=
  eventType = some "content_block_delta" &&
    (data.get? "delta").bind (Json.text? "type") = some "text_delta"

def noteText (eventType : Option String) (data : Json) : NormalizerM Unit :=
  if isTextDelta eventType data &&
      ((data.get? "delta").bind (Json.text? "text")).any fun text => !isEmpty text then do
    modify fun s => { s with textPresent := true }
    let s ← get
    act (.update (.fragment s.toolCallCount true none))
  else pure ()

def noteStopReason (eventType : Option String) (data : Json) : NormalizerM Unit :=
  if eventType = some "message_delta" then do
    let s ← get
    act (.update (.fragment s.toolCallCount s.textPresent
      ((data.get? "delta").bind (Json.text? "stop_reason"))))
  else pure ()

/-- The index and the text of a delta whose text is compared with what was sent before. -/
def repeatable (s : NormalizerState) (eventType : Option String) (data : Json) :
    Option (ℕ × String) :=
  match eventIndex data, (data.get? "delta").bind (Json.text? "text") with
  | some index, some text =>
    if normalizer.deduplicateStreamText && isTextDelta eventType data &&
        s.blockTypes[index]? = some "text" then some (index, text)
    else none
  | _, _ => none

def withText (data : Json) (text : String) : Json :=
  data.set "delta" (((data.get? "delta").getD .null).set "text" (.string text))

/-- The event without the text that was sent before, unless nothing else is left. -/
def withoutRepetition (eventType : Option String) (data : Json) : NormalizerM (Option Json) := do
  let s ← get
  match normalizer.repeatable s eventType data with
  | none => pure (some data)
  | some (index, text) => do
    let (added, seen) := textDelta (s.textSeen[index]?.getD "") text true
    modify fun s => { s with textSeen := s.textSeen.insert index seen }
    pure (if isEmpty added then none else some (withText data added))

def forgetBlock (eventType : Option String) (data : Json) : NormalizerM Unit :=
  match eventIndex data with
  | some index =>
    if eventType = some "content_block_stop" then
      modify fun s => { s with
        blockTypes := s.blockTypes.erase index
        textSeen := s.textSeen.erase index }
    else pure ()
  | none => pure ()

def forward (frame : SseFrame) (eventType : Option String) (data : Json) : NormalizerM Unit := do
  forgetBlock eventType data
  act (.event (eventWithMetadata frame ((frame.event.or eventType).getD "message")
    (normalizer.writer.write data)))
  let s ← get
  if s.sawMessageStop then throw .returned

def relayJson (frame : SseFrame) (data : Json) : NormalizerM Unit := do
  let eventType := data.text? "type"
  noteUsage data
  modify fun s => { s with sawEvent := true }
  noteMessageStop frame eventType
  noteBlockStart eventType data
  noteText eventType data
  noteStopReason eventType data
  match ← normalizer.withoutRepetition eventType data with
  | none => pure ()
  | some data => normalizer.forward frame eventType data

def relayLine (frame : SseFrame) (line : String) : NormalizerM Unit :=
  if line = "[DONE]" then
    act (.event (eventWithMetadata frame (frame.event.getD "message") "[DONE]"))
  else
    match normalizer.reader.parse line with
    | none => do
      modify fun s => { s with sawEvent := true }
      act (.event (eventWithMetadata frame (frame.event.getD "message") line))
    | some data => normalizer.relayJson frame data

def relayItem : Except AppError SseFrame → NormalizerM Unit
  | .ok frame => do
    for line in frame.dataLines do
      normalizer.relayLine frame line
  | .error error => do
    let s ← get
    if s.sawMessageStop then throw .returned else normalizer.fail error

def run (frames : List (Except AppError SseFrame)) : NormalizerM Unit := do
  for item in frames do
    normalizer.relayItem item
  let s ← get
  if !s.sawEvent || !s.sawMessageStop then
    normalizer.fail (.upstreamProtocol "Anthropic stream ended without a message_stop event")

end AnthropicNormalizer

/-- Everything a stream that is passed on does for the frames of its upstream. -/
def normalizeAnthropicStream (normalizer : AnthropicNormalizer)
    (frames : List (Except AppError SseFrame)) : List (StreamAction SseEvent) :=
  match normalizer.run frames {} with
  | .ok _ s | .error .returned s => s.trace
  | .error (.failed error) s => s.trace ++ [.error error]

end RouteSmith.Model

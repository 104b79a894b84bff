import RouteSmith.Model.Error
import RouteSmith.Model.Redaction
import RouteSmith.Text.Utf8

/-! # Event streams of an upstream

The body of a response arrives in chunks of bytes. Lines are taken from it as they are complete;
an empty line ends a frame that has data. Lines, the lines of a frame and the whole body are
limited in size.
-/

namespace RouteSmith.Model

open Numeric Text

structure SseFrame where
  event : Option String := none
  id : Option String := none
  retry : Option ℕ := none
  comments : List String := []
  data : String

abbrev SseFrameStream := List (Except AppError SseFrame)

/-! ## Limits -/

def sseLimitError (kind setting : String) (limit : U64) : AppError :=
  .upstreamProtocol ("upstream SSE " ++ kind ++ " exceeded " ++ setting ++ " (" ++
    toString limit.val ++ " bytes)")

def lineLimitError (limit : U64) : AppError :=
  sseLimitError "line" "MODELPORT_HTTP_SSE_MAX_LINE_BYTES" limit

def lineFeed : UInt8 := 10

def carriageReturn : UInt8 := 13

def ensureSseLineLimit (line : List UInt8) (limit : U64) : Except AppError Unit :=
  if limit.val < line.length then .error (lineLimitError limit) else .ok ()

def ensurePendingSseLineLimit (line : List UInt8) (limit : U64) : Except AppError Unit :=
  let lineLen := if line.getLast? = some carriageReturn then line.length - 1 else line.length
  if limit.val < lineLen then .error (lineLimitError limit) else .ok ()

/-- The sum of two sizes, if it is a `usize` within the limit. -/
def checkedSseBytes (current additional : ℕ) (limit : U64) (kind setting : String) :
    Except AppError ℕ :=
  let total := current + additional
  if 2 ^ 64 ≤ total then .error (sseLimitError kind setting limit)
  else if limit.val < total then .error (sseLimitError kind setting limit)
  else .ok total

/-! ## Lines -/

/-- The fields of the frame that is being read, and the lines that belong to no field. -/
structure SseFields where
  event : Option String := none
  id : Option String := none
  retry : Option ℕ := none
  comments : List String := []
  data : List String := []
  rawBody : List String := []

def SseFields.frame (fields : SseFields) : SseFrame where
  event := fields.event
  id := fields.id
  retry := fields.retry
  comments := fields.comments
  data := "\n".intercalate fields.data

def trimLineEnding (line : List UInt8) : List UInt8 :=
  let line := if line.getLast? = some lineFeed then line.dropLast else line
  if line.getLast? = some carriageReturn then line.dropLast else line

def handleSseLine (line : List UInt8) (fields : SseFields) : Option SseFrame × SseFields :=
  let line := fromUtf8Lossy line
  if let some value := stripStart "event:" line then
    (none, { fields with event := some (trim value) })
  else if let some value := stripStart "id:" line then
    (none, { fields with id := some (trimStart value) })
  else if let some value := stripStart "retry:" line then
    (none, { fields with retry := (parseU64 (trim value)).or fields.retry })
  else if let some value := stripStart "data:" line then
    (none, { fields with data := fields.data ++ [trimStart value] })
  else if let some value := stripStart ":" line then
    (none, { fields with comments := fields.comments ++ [trimStart value] })
  else if isEmpty (trim line) && !fields.data.isEmpty then
    (some fields.frame, { rawBody := fields.rawBody })
  else if !isEmpty (trim line) then
    (none, { fields with rawBody := fields.rawBody ++ [line] })
  else (none, fields)

/-! ## Bodies -/

structure HttpTransport where
  reader : Json.Reader
  writer : Json.Writer
  maxSseLineBytes : U64
  maxSseEventBytes : U64
  maxSseStreamBytes : U64

/-- What is known between two lines, with the frames that were yielded. -/
structure SseParser where
  fields : SseFields := {}
  yieldedFrame : Bool := false
  eventReceivedBytes : ℕ := 0
  frames : List SseFrame := []

/-- What is known between two chunks. -/
structure SseReader where
  lineBuffer : List UInt8 := []
  streamReceivedBytes : ℕ := 0
  parser : SseParser := {}

/-- A step of the parser in a reader. -/
def SseReader.parse {α : Type} (x : EStateM AppError SseParser α) :
    EStateM AppError SseReader α := fun s =>
  match x s.parser with
  | .ok a parser => .ok a { s with parser }
  | .error e parser => .error e { s with parser }

namespace HttpTransport

variable (transport : HttpTransport)

def checkedEventBytes (current additional : ℕ) : Except AppError ℕ :=
  checkedSseBytes current additional transport.maxSseEventBytes "event"
    "MODELPORT_HTTP_SSE_MAX_EVENT_BYTES"

def yieldFrame (frame : SseFrame) : EStateM AppError SseParser Unit :=
  modify fun p => { p with yieldedFrame := true, frames := p.frames ++ [frame] }

def takeLine (line : List UInt8) : EStateM AppError SseParser Unit := do
  MonadExcept.ofExcept (ensureSseLineLimit line transport.maxSseLineBytes)
  let received ← MonadExcept.ofExcept
    (transport.checkedEventBytes (← get).eventReceivedBytes line.length)
  modify fun p => { p with eventReceivedBytes := received }
  let (frame, fields) := handleSseLine line (← get).fields
  modify fun p => { p with fields }
  match frame with
  | none => pure ()
  | some frame => do
    modify fun p => { p with eventReceivedBytes := 0 }
    yieldFrame frame

/-- The complete lines of the buffer; there are no more of them than bytes. -/
def takeLines : (fuel : ℕ) → EStateM AppError SseReader Unit
  | 0 => pure ()
  | fuel + 1 => do
    let buffer := (← get).lineBuffer
    match buffer.idxOf? lineFeed with
    | none => pure ()
    | some index => do
      modify fun s => { s with lineBuffer := buffer.drop (index + 1) }
      SseReader.parse (transport.takeLine (trimLineEnding (buffer.take (index + 1))))
      takeLines fuel

def takeChunk (chunk : Except AppError (List UInt8)) : EStateM AppError SseReader Unit := do
  let chunk ← MonadExcept.ofExcept chunk
  let received ← MonadExcept.ofExcept
    (checkedSseBytes (← get).streamReceivedBytes chunk.length transport.maxSseStreamBytes "stream"
      "MODELPORT_HTTP_SSE_MAX_STREAM_BYTES")
  modify fun s => { s with streamReceivedBytes := received, lineBuffer := s.lineBuffer ++ chunk }
  transport.takeLines (← get).lineBuffer.length
  MonadExcept.ofExcept
    (ensurePendingSseLineLimit (← get).lineBuffer transport.maxSseLineBytes)

/-- A last line without an end. -/
def takeRest (lineBuffer : List UInt8) : EStateM AppError SseParser Unit :=
  if lineBuffer.isEmpty then pure ()
  else do
    MonadExcept.ofExcept (ensureSseLineLimit lineBuffer transport.maxSseLineBytes)
    let _ ← MonadExcept.ofExcept
      (transport.checkedEventBytes (← get).eventReceivedBytes lineBuffer.length)
    let (frame, fields) := handleSseLine lineBuffer (← get).fields
    modify fun p => { p with fields }
    match frame with
    | none => pure ()
    | some frame => yieldFrame frame

/-- A last frame without an end. -/
def yieldRest : EStateM AppError SseParser Unit := do
  let fields := (← get).fields
  if !fields.data.isEmpty then yieldFrame fields.frame

def emptyBodyError (rawBody : List String) : AppError :=
  let rawBody := sanitizeErrorText transport.reader transport.writer ("\n".intercalate rawBody)
  .upstreamProtocol (if isEmpty rawBody then "upstream SSE response ended before any data event"
    else "upstream returned a non-SSE response: " ++ rawBody)

def ensureYieldedFrame : EStateM AppError SseParser Unit := do
  let p ← get
  if !p.yieldedFrame then throw (transport.emptyBodyError p.fields.rawBody)

def finish (lineBuffer : List UInt8) : EStateM AppError SseParser Unit := do
  transport.takeRest lineBuffer
  yieldRest
  transport.ensureYieldedFrame

def readSse (chunks : List (Except AppError (List UInt8))) : EStateM AppError SseReader Unit := do
  for chunk in chunks do
    transport.takeChunk chunk
  let buffer := (← get).lineBuffer
  SseReader.parse (transport.finish buffer)

end HttpTransport

/-- The frames that the stream of `post_json_sse` yields, and the error that ends it; in place of a
chunk there may be an error of the connection. -/
def postJsonSse (transport : HttpTransport) (chunks : List (Except AppError (List UInt8))) :
    List (Except AppError SseFrame) :=
  match transport.readSse chunks {} with
  | .ok _ s => s.parser.frames.map .ok
  | .error e s => s.parser.frames.map .ok ++ [.error e]

end RouteSmith.Model

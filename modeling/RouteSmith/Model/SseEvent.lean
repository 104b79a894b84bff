import RouteSmith.Model.Providers.OpenAiClientStream

/-! # Events on the wire

The values that are handed to the event builder of axum.
-/

namespace RouteSmith.Model

structure SseEvent where
  event : Option String := none
  data : String
  id : Option String := none
  retry : Option ℕ := none
  comments : List String := []
  deriving DecidableEq

def OneLine (text : String) : Prop := '\r' ∉ text.toList ∧ '\n' ∉ text.toList

instance (text : String) : Decidable (OneLine text) := inferInstanceAs (Decidable (_ ∧ _))

/-- The builder panics on other values. -/
structure SseEvent.Accepted (e : SseEvent) : Prop where
  event : ∀ name, e.event = some name → OneLine name
  data : '\r' ∉ e.data.toList
  id : ∀ id, e.id = some id → OneLine id ∧ '\x00' ∉ id.toList
  comments : ∀ comment ∈ e.comments, OneLine comment

/-! ## Events for OpenAI clients -/

def OpenAiData.text (writer : Json.Writer) : OpenAiData → String
  | .done => "[DONE]"
  | .chunk json => writer.write json

def OpenAiEvent.sse (writer : Json.Writer) (event : OpenAiEvent) : SseEvent where
  data := event.data.text writer
  id := event.id
  retry := event.retry
  comments := event.comments

/-! ## Events for Anthropic clients -/

namespace AnthropicEvent

def name : AnthropicEvent → String
  | messageStart _ _ => "message_start"
  | textBlockStart _ | toolUseBlockStart _ _ _ => "content_block_start"
  | textDelta _ _ | inputJsonDelta _ _ => "content_block_delta"
  | contentBlockStop _ => "content_block_stop"
  | messageDelta _ => "message_delta"
  | messageStop => "message_stop"
  | error _ _ => "error"

/-- The members beside the type. -/
def members : AnthropicEvent → List (String × Json)
  | messageStart id model =>
    [("message", .object
      [("id", .string id), ("type", .string "message"), ("role", .string "assistant"),
        ("model", .string model), ("content", .array []), ("stop_reason", .null),
        ("stop_sequence", .null),
        ("usage", .object [("input_tokens", .ofNat 0), ("output_tokens", .ofNat 0)])])]
  | textBlockStart index =>
    [("index", .ofNat index),
      ("content_block", .object [("type", .string "text"), ("text", .string "")])]
  | toolUseBlockStart index id name =>
    [("index", .ofNat index),
      ("content_block", .object
        [("type", .string "tool_use"), ("id", .string id), ("name", .string name),
          ("input", .object [])])]
  | textDelta index text =>
    [("index", .ofNat index),
      ("delta", .object [("type", .string "text_delta"), ("text", .string text)])]
  | inputJsonDelta index partialJson =>
    [("index", .ofNat index),
      ("delta", .object
        [("type", .string "input_json_delta"), ("partial_json", .string partialJson)])]
  | contentBlockStop index => [("index", .ofNat index)]
  | messageDelta stopReason =>
    [("delta", .object [("stop_reason", .string stopReason), ("stop_sequence", .null)]),
      ("usage", .object [("output_tokens", .ofNat 0)])]
  | messageStop => []
  | error kind message =>
    [("error", .object [("type", .string kind), ("message", .string message)])]

def json (event : AnthropicEvent) : Json :=
  .object (("type", .string event.name) :: event.members)

def sse (writer : Json.Writer) (event : AnthropicEvent) : SseEvent where
  event := some event.name
  data := writer.write event.json

end AnthropicEvent

end RouteSmith.Model

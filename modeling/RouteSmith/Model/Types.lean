import RouteSmith.Model.Providers.OpenAiStream

/-! # Whole responses for Anthropic clients -/

namespace RouteSmith.Model

open Numeric Text

inductive ContentBlock where
  | text (text : String)
  | toolUse (id name : String) (input : Json)

structure AnthropicMessage where
  id : String
  model : String
  content : List ContentBlock
  stopReason : String
  inputTokens : U64
  outputTokens : U64

/-- The first choice of a response. -/
def responseChoice (response : Json) : Option Json :=
  ((response.get? "choices").bind Json.asArray).bind List.head?

/-- The message that a response carries in its first choice. -/
def responseMessage (response : Json) : Option Json :=
  (responseChoice response).bind (·.get? "message")

/-- The arguments of `openai_response_to_anthropic` beside the response, the JSON reader and the
identifiers drawn. -/
structure ResponseConverter where
  reader : Json.Reader
  uuid : ℕ → String
  requestedModel : String
  toolPolicy : ToolResponsePolicy

/-- The calls that were converted, with the identifiers met and the number drawn. -/
structure ConvertedCalls where
  ids : List String := []
  uuids : ℕ := 0
  blocks : List ContentBlock := []

namespace ResponseConverter

variable (converter : ResponseConverter)

def toolUseBlock (id : String) (function : Json) : Except AppError ContentBlock := do
  let name ← converter.toolPolicy.validateName ((function.get? "name").bind Json.asStr)
  let arguments := ((function.get? "arguments").bind Json.asStr).getD "\x7b\x7d"
  let input ← converter.toolPolicy.parseArguments converter.reader name arguments
  return .toolUse id name input

def generatedId (n : ℕ) : String := "toolu_" ++ converter.uuid n

def convertCall (converted : ConvertedCalls) (call : Json) : Except AppError ConvertedCalls :=
  let upstreamId := (call.get? "id").bind Json.asStr
  let id := upstreamId.getD (converter.generatedId converted.uuids)
  if converter.toolPolicy.isStrict && converted.ids.contains id then
    .error (.upstreamProtocol
      ("OpenAI-compatible upstream returned duplicate tool call id `" ++ id ++ "`"))
  else do
    let block ← converter.toolUseBlock id ((call.get? "function").getD .null)
    return {
      ids := id :: converted.ids
      uuids := if upstreamId.isSome then converted.uuids else converted.uuids + 1
      blocks := converted.blocks ++ [block] }

/-- The legacy `function_call` is only looked at where no call was converted. -/
def toolUseBlocks (message : Json) : Except AppError (List ContentBlock) := do
  let calls := ((message.get? "tool_calls").bind Json.asArray).getD []
  let converted ← calls.foldlM converter.convertCall {}
  match if calls.isEmpty then message.get? "function_call" else none with
  | none => return converted.blocks
  | some functionCall =>
    let block ← converter.toolUseBlock (converter.generatedId 0) functionCall
    return [block]

end ResponseConverter

def textBlocks (message : Json) : List ContentBlock :=
  ((((message.get? "content").bind Json.asStr).filter fun text => !isEmpty text).map
    ContentBlock.text).toList

def openaiResponseToAnthropic (converter : ResponseConverter) (response : Json) :
    Except AppError AnthropicMessage :=
  match responseChoice response with
  | none => .error (.upstreamProtocol "OpenAI-compatible response has no choices")
  | some choice =>
    match choice.get? "message" with
    | none => .error (.upstreamProtocol "OpenAI-compatible response has no message")
    | some message => do
      let finishReason := (choice.get? "finish_reason").bind Json.asStr
      let tools ← converter.toolUseBlocks message
      converter.toolPolicy.validateCallSummary tools.length finishReason
      let usage := (response.get? "usage").getD .null
      return {
        id := "msg_" ++ ((response.get? "id").bind Json.asStr).getD "modelport"
        model := converter.requestedModel
        content := textBlocks message ++ tools
        stopReason := finishReason.elim "end_turn" mapFinishReason
        inputTokens := ((usage.get? "prompt_tokens").bind Json.asU64).getD 0
        outputTokens := ((usage.get? "completion_tokens").bind Json.asU64).getD 0 }

end RouteSmith.Model

import RouteSmith.Model.ToolUse

/-! # Tool definitions and tool turns of a request

A request is checked before it is converted: the tools that it defines, the choice among them, the
tool blocks of its messages, and that results answer the calls before them.
-/

namespace RouteSmith.Model

open Numeric Text

structure AnthropicRequest where
  model : String
  maxTokens : Option U64 := none
  messages : List Json := []
  system : Option Json := none
  stream : Option Bool := none
  /-- The members of other names. -/
  extra : Json := .object []

/-! ## Refusals -/

def orInvalid {α : Type} (value : Option α) (message : String) : Except AppError α :=
  value.elim (.error (.invalidRequest message)) .ok

/-- A check that passes if the condition holds. -/
def ensure (condition : Bool) (message : String) : Except AppError Unit :=
  if condition then .ok () else .error (.invalidRequest message)

@[simp] theorem orInvalid_eq_ok {α : Type} {value : Option α} {message : String} {a : α} :
    orInvalid value message = .ok a ↔ value = some a := by
  cases value <;> simp [orInvalid]

@[simp] theorem ensure_eq_ok {condition : Bool} {message : String} {u : Unit} :
    ensure condition message = .ok u ↔ condition = true := by
  cases condition <;> simp [ensure]

/-! ## Definitions -/

def validateToolName (name path : String) : Except AppError Unit := do
  let length := name.toList.length
  ensure (length ≠ 0 && length ≤ 64) (path ++ " must be 1-64 characters")
  ensure (name.toList.all fun c => c.isAlphanum || c = '_' || c = '-')
    (path ++ " may only contain letters, numbers, '_' and '-'")

/-- The names of the tools before, and that of one more. -/
def validateToolDefinition (validatorFor : SchemaCompiler) (names : List String)
    (entry : Json × ℕ) : Except AppError (List String) := do
  let (tool, index) := entry
  let path := "tools[" ++ toString index ++ "]"
  ensure tool.isObject (path ++ " must be an object")
  let name ← orInvalid (tool.text? "name") (path ++ ".name is required")
  validateToolName name (path ++ ".name")
  ensure (!names.contains name) (path ++ ".name duplicates another tool")
  ensure ((tool.get? "description").all Json.isString) (path ++ ".description must be a string")
  let schema ← orInvalid ((tool.get? "input_schema").filter Json.isObject)
    (path ++ ".input_schema must be an object")
  ensure (schema.text? "type" = some "object") (path ++ ".input_schema.type must be object")
  let _ ← compileToolSchema validatorFor schema (path ++ ".input_schema")
  ensure ((tool.get? "strict").all Json.isBool) (path ++ ".strict must be a boolean")
  return names ++ [name]

def validateToolDefinitions (validatorFor : SchemaCompiler) (tools : Json) :
    Except AppError (List String) := do
  let tools ← orInvalid tools.asArray "tools must be an array"
  tools.zipIdx.foldlM (validateToolDefinition validatorFor) []

/-! ## Choices -/

def validateToolNameIsDefined (name : String) (toolNames : Option (List String))
    (path : String) : Except AppError Unit :=
  ensure (toolNames.all (·.contains name)) (path ++ " `" ++ name ++ "` must match a defined tool")

def validateChosenName (toolNames : Option (List String)) (name : String) :
    Except AppError Unit := do
  validateToolName name "tool_choice.name"
  validateToolNameIsDefined name toolNames "tool_choice.name"

def validateToolChoiceName (toolChoice : Json) (choiceType : String)
    (toolNames : Option (List String)) : Except AppError Unit :=
  if choiceType = "tool" then do
    let name ← orInvalid (toolChoice.text? "name") "tool_choice.name is required"
    validateChosenName toolNames name
  else
    match toolChoice.get? "name" with
    | none => .ok ()
    | some name => do
      let name ← orInvalid name.asStr "tool_choice.name must be a string"
      validateChosenName toolNames name

def validateToolChoiceShape (toolChoice : Json) (toolNames : Option (List String)) :
    Except AppError Unit := do
  ensure toolChoice.isObject "tool_choice must be an object"
  let choiceType ← orInvalid (toolChoice.text? "type") "tool_choice.type is required"
  ensure (["auto", "any", "none", "tool"].contains choiceType)
    "tool_choice.type must be auto, any, none, or tool"
  validateToolChoiceName toolChoice choiceType toolNames
  ensure (!(["any", "tool"].contains choiceType && toolNames.all List.isEmpty))
    ("tool_choice.type=" ++ choiceType ++ " requires at least one tool")
  ensure ((toolChoice.get? "disable_parallel_tool_use").all Json.isBool)
    "tool_choice.disable_parallel_tool_use must be a boolean"

/-! ## Blocks -/

def blockPath (messageIndex blockIndex : ℕ) : String :=
  "messages[" ++ toString messageIndex ++ "].content[" ++ toString blockIndex ++ "]"

def validateToolUseBlock (role : String) (block : Json) (path : String) :
    Except AppError Unit := do
  ensure (role = "assistant") (path ++ " tool_use blocks are only valid in assistant messages")
  let id ← orInvalid (block.text? "id") (path ++ ".id is required for tool_use")
  ensure (!isEmpty (trim id)) (path ++ ".id must not be empty for tool_use")
  let name ← orInvalid (block.text? "name") (path ++ ".name is required")
  validateToolName name (path ++ ".name")
  ensure ((block.get? "input").any Json.isObject) (path ++ ".input must be an object")

def validateResultContent (content : Json) (path : String) : Except AppError Unit :=
  match content with
  | .string _ => .ok ()
  | .array blocks => blocks.zipIdx.forM fun (block, index) =>
    ensure block.isObject (path ++ ".content[" ++ toString index ++ "] must be an object")
  | _ => .error (.invalidRequest (path ++ ".content must be a string or array"))

def validateToolResultBlock (role : String) (block : Json) (path : String) :
    Except AppError Unit := do
  ensure (role = "user") (path ++ " tool_result blocks are only valid in user messages")
  let toolUseId ← orInvalid (block.text? "tool_use_id") (path ++ ".tool_use_id is required")
  ensure (!isEmpty (trim toolUseId)) (path ++ ".tool_use_id must not be empty")
  (block.get? "content").elim (.ok ()) fun content => validateResultContent content path
  ensure ((block.get? "is_error").all Json.isBool) (path ++ ".is_error must be a boolean")

/-- Whether a block that is no result was met, with one more block. -/
def validateToolBlock (messageIndex : ℕ) (role : String) (sawNonToolResult : Bool)
    (entry : Json × ℕ) : Except AppError Bool := do
  let (block, index) := entry
  let path := blockPath messageIndex index
  ensure block.isObject (path ++ " must be an object")
  let blockType ← orInvalid (block.text? "type") (path ++ ".type is required")
  if blockType = "text" then do
    let text ← orInvalid (block.get? "text") (path ++ ".text is required")
    ensure (Json.isString text) (path ++ ".text must be a string")
    return true
  else if blockType = "tool_use" then do
    validateToolUseBlock role block path
    return true
  else if blockType = "tool_result" then do
    ensure (!sawNonToolResult) (path ++ " tool_result blocks must come before other content")
    validateToolResultBlock role block path
    return sawNonToolResult
  else return true

/-- The blocks of a message. -/
def contentBlocks (message : Json) : Option (List Json) :=
  (message.get? "content").bind Json.asArray

def validateMessageToolBlocks (entry : Json × ℕ) : Except AppError Unit :=
  match contentBlocks entry.1 with
  | none => .ok ()
  | some blocks => do
    let role := (entry.1.text? "role").getD ""
    let _ ← blocks.zipIdx.foldlM (validateToolBlock entry.2 role) false

/-! ## Turns -/

/-- The identifiers of the calls that were met, and of those that wait for a result. -/
structure TurnState where
  seen : List String := []
  pending : List String := []

def validateTurnBlock (toolNames : Option (List String)) (messageIndex : ℕ) (role : String)
    (state : TurnState) (entry : Json × ℕ) : Except AppError TurnState := do
  let (block, index) := entry
  let path := blockPath messageIndex index
  if block.text? "type" = some "tool_use" ∧ role = "assistant" then do
    let id := (block.text? "id").getD ""
    ensure (!state.seen.contains id) (path ++ ".id duplicates a previous tool_use id")
    validateToolNameIsDefined ((block.text? "name").getD "") toolNames (path ++ ".name")
    return { seen := id :: state.seen, pending := state.pending.insert id }
  else if block.text? "type" = some "tool_result" ∧ role = "user" then do
    let toolUseId := (block.text? "tool_use_id").getD ""
    ensure (state.seen.contains toolUseId) (path ++ ".tool_use_id `" ++ toolUseId ++
      "` does not match a previous tool_use id")
    ensure (state.pending.contains toolUseId) (path ++ ".tool_use_id `" ++ toolUseId ++
      "` has already been answered")
    return { state with pending := state.pending.erase toolUseId }
  else return state

def validateTurn (toolNames : Option (List String)) (state : TurnState) (entry : Json × ℕ) :
    Except AppError TurnState := do
  let (message, index) := entry
  let path := "messages[" ++ toString index ++ "]"
  let role := (message.text? "role").getD ""
  match contentBlocks message with
  | none =>
    ensure state.pending.isEmpty
      (path ++ " must immediately return all pending tool_result blocks")
    return state
  | some blocks =>
    ensure (state.pending.isEmpty || role = "user")
      (path ++ " must be a user message immediately returning pending tool results")
    let next ← blocks.zipIdx.foldlM (validateTurnBlock toolNames index role) state
    ensure (state.pending.isEmpty || next.pending.isEmpty)
      (path ++ " must return every pending tool_result in one user message")
    return next

def validateToolTurnReferences (messages : List Json) (toolNames : Option (List String)) :
    Except AppError Unit := do
  let state ← messages.zipIdx.foldlM (validateTurn toolNames) {}
  ensure state.pending.isEmpty
    "the final assistant tool_use must be followed by a user tool_result message"

/-- The names of the tools, if the request has a list of them. -/
def requestToolNames (validatorFor : SchemaCompiler) (extra : Json) :
    Except AppError (Option (List String)) :=
  match extra.get? "tools" with
  | none => .ok none
  | some tools => some <$> validateToolDefinitions validatorFor tools

def validateAnthropicTooling (validatorFor : SchemaCompiler) (request : AnthropicRequest) :
    Except AppError Unit := do
  let toolNames ← requestToolNames validatorFor request.extra
  (request.extra.get? "tool_choice").elim (.ok ()) fun toolChoice =>
    validateToolChoiceShape toolChoice toolNames
  request.messages.zipIdx.forM validateMessageToolBlocks
  validateToolTurnReferences request.messages toolNames

end RouteSmith.Model

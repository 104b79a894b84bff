import RouteSmith.Model.Config

/-! # What a response may do with tools -/

namespace RouteSmith.Model

open Store Text

/-- The validator of a tool's input returns the instance and schema paths of a violation. -/
abbrev Validator := Json → Option (String × String)

structure ToolResponsePolicy where
  validation : ToolResponseValidation
  allowedNames : Option (List String) := none
  inputValidators : NameMap Validator := ∅
  minimumCalls : ℕ := 0
  maximumCalls : Option ℕ := none

namespace ToolResponsePolicy

def bestEffort : ToolResponsePolicy := { validation := .bestEffort }

def isStrict (policy : ToolResponsePolicy) : Bool := policy.validation = .strict

def validateName (policy : ToolResponsePolicy) (name : Option String) : Except AppError String :=
  if policy.validation = .bestEffort then .ok (name.getD "tool")
  else
    match name.filter fun name => !isEmpty (trim name) with
    | none =>
      .error (.upstreamProtocol "OpenAI-compatible tool call is missing a function name")
    | some name =>
      if policy.allowedNames.any fun allowed => !allowed.contains name then
        .error (.upstreamProtocol
          ("OpenAI-compatible upstream returned undeclared tool `" ++ name ++ "`"))
      else .ok name

def argumentsValue (reader : Json.Reader) (policy : ToolResponsePolicy) (arguments : String) :
    Except AppError Json :=
  if isEmpty (trim arguments) then .ok (.object [])
  else
    match reader.parse arguments, policy.validation with
    | some (.object members), _ => .ok (.object members)
    | some value, .bestEffort => .ok (.object [("_raw_arguments", value)])
    | none, .bestEffort => .ok (.object [("_raw_arguments", .string arguments)])
    | some _, .strict =>
      .error (.upstreamProtocol "OpenAI-compatible tool arguments must be a JSON object")
    | none, .strict =>
      .error (.upstreamProtocol ("OpenAI-compatible tool arguments are invalid JSON: " ++
        reader.report arguments))

def parseArguments (reader : Json.Reader) (policy : ToolResponsePolicy)
    (name arguments : String) : Except AppError Json := do
  let value ← policy.argumentsValue reader arguments
  if policy.validation = .bestEffort then return value
  else
    match policy.inputValidators.lookup name with
    | none =>
      .error (.upstreamProtocol "OpenAI-compatible tool call has no compiled input schema")
    | some validator =>
      match validator value with
      | some (instancePath, schemaPath) =>
        .error (.toolArgumentsInvalid instancePath schemaPath none)
      | none => return value

def stoppedForTools (finishReason : Option String) : Bool :=
  finishReason = some "tool_calls" || finishReason = some "function_call"

def validateCallSummary (policy : ToolResponsePolicy) (callCount : ℕ)
    (finishReason : Option String) : Except AppError Unit :=
  let returned := "OpenAI-compatible upstream returned "
  if policy.validation = .bestEffort then .ok ()
  else if callCount < policy.minimumCalls then
    .error (.upstreamProtocol (returned ++ toString callCount ++
      " tool calls, but tool_choice requires at least " ++ toString policy.minimumCalls))
  else if policy.maximumCalls.any (· < callCount) then
    .error (.upstreamProtocol (returned ++ toString callCount ++
      " tool calls, exceeding the allowed maximum of " ++ toString (policy.maximumCalls.getD 0)))
  else if 0 < callCount && !stoppedForTools finishReason then
    .error (.upstreamProtocol (returned ++ "tool calls without a tool_calls finish reason"))
  else if callCount == 0 && stoppedForTools finishReason then
    .error (.upstreamProtocol (returned ++ "a tool_calls finish reason without a tool call"))
  else .ok ()

end ToolResponsePolicy

/-! ## The policy of a request -/

/-- A reference that leaves the document. -/
def isExternalReference (key : String) (child : Json) : Bool :=
  (key = "$ref" || key = "$dynamicRef") && child.asStr.any fun reference =>
    !startsWith reference "#"

mutual

def rejectExternalSchemaReferences (path : String) : Json → Except AppError Unit
  | .object members => rejectExternalMembers path members
  | .array items => rejectExternalItems path 0 items
  | _ => .ok ()

def rejectExternalMembers (path : String) : List (String × Json) → Except AppError Unit
  | [] => .ok ()
  | member :: members => do
    rejectExternalMember path member
    rejectExternalMembers path members

def rejectExternalMember (path : String) : String × Json → Except AppError Unit
  | (key, child) =>
    let childPath := path ++ "." ++ key
    if isExternalReference key child then
      .error (.invalidRequest (childPath ++
        " must be a local JSON Pointer; external schema references are disabled"))
    else rejectExternalSchemaReferences childPath child

def rejectExternalItems (path : String) (index : ℕ) : List Json → Except AppError Unit
  | [] => .ok ()
  | child :: items => do
    rejectExternalSchemaReferences (path ++ "[" ++ toString index ++ "]") child
    rejectExternalItems path (index + 1) items

end

/-- What `jsonschema` makes of a schema: a validator, or what is wrong with it. -/
abbrev SchemaCompiler := Json → Except String Validator

def compileToolSchema (validatorFor : SchemaCompiler) (schema : Json) (path : String) :
    Except AppError Validator := do
  rejectExternalSchemaReferences path schema
  (validatorFor schema).mapError fun error =>
    .invalidRequest (path ++ " is not a valid JSON Schema: " ++ error)

/-- The tools that a request defines. -/
def requestTools (extra : Json) : List Json := ((extra.get? "tools").bind Json.asArray).getD []

def toolName (tool : Json) : Option String := (tool.get? "name").bind Json.asStr

def compileTool (validatorFor : SchemaCompiler) (validators : NameMap Validator)
    (entry : Json × ℕ) : Except AppError (NameMap Validator) :=
  let path := "tools[" ++ toString entry.2 ++ "]"
  match toolName entry.1, entry.1.get? "input_schema" with
  | none, _ => .error (.invalidRequest (path ++ ".name is required"))
  | some _, none => .error (.invalidRequest (path ++ ".input_schema must be an object"))
  | some name, some schema => do
    let validator ← compileToolSchema validatorFor schema (path ++ ".input_schema")
    return validators.insert name validator

def ToolResponsePolicy.choose (policy : ToolResponsePolicy) (toolChoice : Json) :
    ToolResponsePolicy :=
  let policy :=
    match (toolChoice.get? "type").bind Json.asStr with
    | some "none" => { policy with maximumCalls := some 0 }
    | some "any" => { policy with minimumCalls := 1 }
    | some "tool" =>
      { policy with
        minimumCalls := 1
        allowedNames := (toolName toolChoice).elim policy.allowedNames fun name => some [name] }
    | _ => policy
  if (toolChoice.get? "disable_parallel_tool_use").bind Json.asBool = some true then
    { policy with maximumCalls := some 1 }
  else policy

def compileTools (validatorFor : SchemaCompiler) (tools : List Json) (toolUse : ToolUseConfig) :
    Except AppError (NameMap Validator) :=
  if toolUse.responseValidation = .strict then
    tools.zipIdx.foldlM (compileTool validatorFor) ∅
  else .ok ∅

/-- The policy for a request with the given further members. -/
def ToolResponsePolicy.forAnthropicRequest (validatorFor : SchemaCompiler) (extra : Json)
    (toolUse : ToolUseConfig) : Except AppError ToolResponsePolicy := do
  let inputValidators ← compileTools validatorFor (requestTools extra) toolUse
  let policy := {
    validation := toolUse.responseValidation
    allowedNames := some ((requestTools extra).filterMap toolName)
    inputValidators
    maximumCalls := if toolUse.parallelToolCalls then none else some 1 }
  return (extra.get? "tool_choice").elim policy policy.choose

end RouteSmith.Model

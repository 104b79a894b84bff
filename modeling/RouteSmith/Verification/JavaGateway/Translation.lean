import RouteSmith.Model.Error
import RouteSmith.Model.JavaGateway.Translator
import Mathlib.Tactic.Linarith

/-! # Translated requests

What the upstream request of the Java gateway keeps of the client's request: its cap on output
tokens, and its tool calls and their results.
-/

namespace RouteSmith.Model.JavaGateway

open Numeric List ObjectNode

/-! ## What a translation puts into a request -/

variable {field other : String} {client upstream : Protocol}

theorem get?_putIfSome_of_ne {target : ObjectNode} {value : Option JsonNode} (h : other ≠ field) :
    (putIfSome target field value).get? other = target.get? other := by
  cases value with
  | none => rfl
  | some value => exact get?_put_of_ne h target value

theorem get?_copyIfPresent_of_notMem {source : ObjectNode} {fields : List String}
    (h : other ∉ fields) (target : ObjectNode) :
    (copyIfPresent source target fields).get? other = target.get? other := by
  unfold copyIfPresent
  induction fields generalizing target with
  | nil => rfl
  | cons _ _ ih =>
    rw [foldl_cons, ih fun hmem => h (mem_cons_of_mem _ hmem)]
    exact get?_putIfSome_of_ne fun heq => h (heq ▸ mem_cons_self)

/-- What both translations carry of the client's caps: `max_tokens`, or 1024 in its place. -/
structure CarriesMaxTokens (mapper : JsonNode.Mapper) (source target : ObjectNode) : Prop where
  positive : 0 < (source.path "max_tokens").asInt mapper 1024
  max_tokens : target.get? "max_tokens" =
    some (.integer ((source.path "max_tokens").asInt mapper 1024))
  max_completion_tokens : target.get? "max_completion_tokens" = none

variable {mapper : JsonNode.Mapper} {source target : ObjectNode} {model : String}

theorem carries_startRequest (h : startRequest mapper source model = .ok target) :
    CarriesMaxTokens mapper source target := by
  simp only [startRequest, bind_eq_ok_iff, pure_eq_ok, positiveInt] at h
  obtain ⟨_, hpositive, rfl⟩ := h
  split at hpositive
  · cases hpositive
  · cases hpositive
    refine ⟨by omega, ?_, ?_⟩
    · rw [get?_copyIfPresent_of_notMem (by decide), get?_put_self]
    · rw [get?_copyIfPresent_of_notMem (by decide)]
      rfl

theorem CarriesMaxTokens.put (h : CarriesMaxTokens mapper source target) (field : String)
    (value : JsonNode) (hfield : "max_tokens" ≠ field ∧ "max_completion_tokens" ≠ field) :
    CarriesMaxTokens mapper source (target.put field value) :=
  ⟨h.positive, (get?_put_of_ne hfield.1 _ _).trans h.max_tokens,
    (get?_put_of_ne hfield.2 _ _).trans h.max_completion_tokens⟩

theorem CarriesMaxTokens.putIfSome (h : CarriesMaxTokens mapper source target) (field : String)
    (value : Option JsonNode) (hfield : "max_tokens" ≠ field ∧ "max_completion_tokens" ≠ field) :
    CarriesMaxTokens mapper source (putIfSome target field value) := by
  cases value with
  | none => exact h
  | some value => exact h.put field value hfield

theorem carries_openAiRequestToAnthropic
    (h : openAiRequestToAnthropic mapper source model = .ok target) :
    CarriesMaxTokens mapper source target := by
  simp only [openAiRequestToAnthropic, bind_eq_ok_iff, pure_eq_ok] at h
  obtain ⟨_, hstarted, stops, -, tools, -, choice, -, _, -, rfl⟩ := h
  have hstops := (carries_startRequest hstarted).putIfSome "stop_sequences" stops (by decide)
  have htools := hstops.putIfSome "tools" tools (by decide)
  have hchoice := htools.putIfSome "tool_choice" choice (by decide)
  have hmessages := fun messages => hchoice.put "messages" messages (by decide)
  refine .put ?_ "stream" _ (by decide)
  split
  · exact hmessages _
  · exact (hmessages _).put "system" _ (by decide)

/-- The translated request of an Anthropic client: its caps, and its messages one by one. -/
theorem anthropicRequestToOpenAi_ok
    (h : anthropicRequestToOpenAi mapper source model = .ok target) :
    CarriesMaxTokens mapper source target ∧ ∃ messages, requireMessages source = .ok messages ∧
      target.get? "messages" = some (.array ((source.get? "system").elim [] (fun system =>
        [.object [("role", .text "system"), ("content", .text (textContent mapper system))]]) ++
          messages.map (convertAnthropicMessage mapper))) := by
  simp only [anthropicRequestToOpenAi, bind_eq_ok_iff, pure_eq_ok] at h
  obtain ⟨_, hstarted, tools, -, choice, -, messages, hmessages, rfl⟩ := h
  have hstop := (carries_startRequest hstarted).putIfSome "stop" (source.get? "stop_sequences")
    (by decide)
  have htools := hstop.putIfSome "tools" tools (by decide)
  have hchoice := htools.putIfSome "tool_choice" choice (by decide)
  refine ⟨?_, messages, hmessages, ?_⟩
  · exact (hchoice.put "messages" _ (by decide)).put "stream" _ (by decide)
  · rw [get?_put_of_ne (by decide), get?_put_self]

/-! ## Caps on output tokens -/

def IsNumber : JsonNode → Prop
  | .integer _ => True
  | .double _ => True
  | _ => False

/-- A number of at most `n`. -/
def AtMost (n : ℤ) : JsonNode → Prop
  | .integer m => m ≤ n
  | .double x => x.leRat n
  | _ => False

/-- A whole number below `2 ^ 31`, or any number of at most one. -/
def Exact : JsonNode → Prop
  | .integer n => n < 2 ^ 31
  | .double x => x.leRat 1 ∨ ∃ n : ℤ, x = .fin n ∧ n < 2 ^ 31
  | _ => False

/-- The cap that an upstream of a protocol reads from a request. -/
def outputCap (protocol : Protocol) (request : ObjectNode) : Option JsonNode :=
  match protocol with
  | .openai => (request.get? "max_completion_tokens").or (request.get? "max_tokens")
  | .anthropic => request.get? "max_tokens"

/-- The cap fields of a request are absent or numbers. -/
def NumericCaps (source : ObjectNode) : Prop :=
  ∀ field ∈ ["max_completion_tokens", "max_tokens"], ∀ cap,
    source.get? field = some cap → IsNumber cap

/-- The upstream request has a cap if the client gave one, and none above the counts that the budget
is reserved and the context window checked with. -/
def CapHonoured (mapper : JsonNode.Mapper) (client upstream : Protocol)
    (source target : ObjectNode) : Prop :=
  (source.has "max_completion_tokens" ∨ source.has "max_tokens" →
    (outputCap upstream target).isSome) ∧
  ∀ cap, outputCap upstream target = some cap → AtMost (maxOutputTokens mapper source) cap ∧
    ∀ estimated slo, AtMost
      (RoutingRequestProfile.from mapper source estimated slo client).maxOutputTokens cap

/-- The three readers of the caps agree: a cap that is passed on is a whole number in range, and the
cap that is sent does not exceed the one that is counted. -/
def CapsAgree (mapper : JsonNode.Mapper) (client upstream : Protocol)
    (source : ObjectNode) : Prop :=
  let tokens := source.get? "max_tokens"
  match source.get? "max_completion_tokens" with
  | none => client = upstream → ∀ cap, tokens = some cap → Exact cap
  | some completion =>
    if client ≠ upstream then
      (source.path "max_tokens").asInt mapper 1024 ≤ max 1 (completion.asInt mapper 1024)
    else
      match upstream with
      | .openai => Exact completion
      | .anthropic => ∃ cap, tokens = some cap ∧ AtMost (max 1 (completion.asInt mapper 1024)) cap

theorem exact_integer_iff (n : ℤ) : n ≤ max 1 (n.bmod (2 ^ 32)) ↔ n < 2 ^ 31 := by
  have hle : n.bmod (2 ^ 32) < 2 ^ 31 := by
    have := Int.bmod_lt (x := n) (m := 2 ^ 32) (by decide)
    omega
  constructor
  · omega
  · intro h
    by_cases hn : n ≤ 1
    · omega
    · rw [Int.bmod_eq_of_le (by omega) (by omega)]
      omega

theorem exact_double_iff (x : F64) : x.leRat (max 1 (JsonNode.intOfDouble x) : ℤ) ↔
      x.leRat 1 ∨ ∃ n : ℤ, x = .fin n ∧ n < 2 ^ 31 := by
  cases x with
  | nan => simp [F64.leRat]
  | inf negative => cases negative <;> simp [F64.leRat]
  | fin q =>
    simp only [F64.leRat, decide_eq_true_eq, F64.fin.injEq]
    simp only [JsonNode.intOfDouble]
    by_cases hq : q ≤ 1
    · have hone : (1 : ℚ) ≤ (max 1 (max (-2 ^ 31) (min (2 ^ 31 - 1)
          (if q < 0 then ⌈q⌉ else ⌊q⌋))) : ℤ) := by exact_mod_cast le_max_left 1 _
      exact ⟨fun _ => .inl hq, fun _ => hq.trans hone⟩
    have hfloor : 1 ≤ ⌊q⌋ := Int.le_floor.mpr (by push_cast; linarith)
    rw [if_neg (show ¬q < 0 by linarith), or_iff_right hq]
    constructor
    · intro hle
      -- the cast is at most the floor, so a number within it is its own floor
      have hcast : max 1 (max (-2 ^ 31) (min (2 ^ 31 - 1) ⌊q⌋)) ≤ ⌊q⌋ := by omega
      have hq' : q = ⌊q⌋ := le_antisymm (hle.trans (by exact_mod_cast hcast)) (Int.floor_le q)
      have hbound : ⌊q⌋ ≤ max 1 (max (-2 ^ 31) (min (2 ^ 31 - 1) ⌊q⌋)) := by
        rw [hq'] at hle
        exact_mod_cast hle
      exact ⟨⌊q⌋, hq', by omega⟩
    · rintro ⟨n, rfl, hn⟩
      have : n ≤ max 1 (max (-2 ^ 31) (min (2 ^ 31 - 1) n)) := by omega
      exact_mod_cast this

theorem atMost_asInt_iff {cap : JsonNode} (h : IsNumber cap) :
    AtMost (max 1 (cap.asInt mapper 1024)) cap ↔ Exact cap := by
  cases cap with
  | integer n => exact exact_integer_iff n
  | double x => exact exact_double_iff x
  | _ => exact h.elim

theorem maxOutputTokens_of_completion {completion : JsonNode}
    (h : source.get? "max_completion_tokens" = some completion) :
    maxOutputTokens mapper source = max 1 (completion.asInt mapper 1024) := by
  simp [maxOutputTokens, has, path, h]

theorem maxOutputTokens_of_none (h : source.get? "max_completion_tokens" = none) :
    maxOutputTokens mapper source = max 1 ((source.path "max_tokens").asInt mapper 1024) := by
  simp [maxOutputTokens, has, h]

theorem capHonoured_iff : CapHonoured mapper client upstream source target ↔
      ((source.get? "max_completion_tokens").isSome ∨ (source.get? "max_tokens").isSome →
        (outputCap upstream target).isSome) ∧
      ∀ cap, outputCap upstream target = some cap → AtMost (maxOutputTokens mapper source) cap := by
  refine and_congr_right fun _ => forall₂_congr fun _ _ => ?_
  exact ⟨(·.1), fun h => ⟨h, fun _ _ => h⟩⟩

/-- A translated request honours the cap unless it counts `max_completion_tokens` and sends more. -/
theorem capHonoured_of_carries (hne : client ≠ upstream)
    (h : CarriesMaxTokens mapper source target) :
    CapHonoured mapper client upstream source target ↔ CapsAgree mapper client upstream source := by
  have hcap : outputCap upstream target =
      some (.integer ((source.path "max_tokens").asInt mapper 1024)) := by
    cases upstream <;> simp [outputCap, h.max_tokens, h.max_completion_tokens]
  rw [capHonoured_iff, hcap]
  simp only [CapsAgree]
  cases hcompletion : source.get? "max_completion_tokens" with
  | none => simp [maxOutputTokens_of_none hcompletion, AtMost, hne]
  | some => simp [maxOutputTokens_of_completion hcompletion, AtMost, hne]

/-- A request that is passed on honours the cap if the cap the upstream reads is the one counted,
and is counted exactly. -/
theorem capHonoured_of_copy {protocol : Protocol} (hnumeric : NumericCaps source) :
    CapHonoured mapper protocol protocol source (source.put "model" (.text model)) ↔
      CapsAgree mapper protocol protocol source := by
  have hcompletion' := get?_put_of_ne
    (show "max_completion_tokens" ≠ "model" by decide) source (.text model)
  have htokens' := get?_put_of_ne
    (show "max_tokens" ≠ "model" by decide) source (.text model)
  have hcap : outputCap protocol (source.put "model" (.text model)) =
      outputCap protocol source := by
    unfold outputCap
    rw [hcompletion', htokens']
  rw [capHonoured_iff, hcap]
  unfold CapsAgree
  cases hcompletion : source.get? "max_completion_tokens" with
  | none =>
    rw [maxOutputTokens_of_none hcompletion]
    have hcap' : outputCap protocol source = source.get? "max_tokens" := by
      cases protocol <;> simp [outputCap, hcompletion]
    rw [hcap']
    cases htokens : source.get? "max_tokens" with
    | none => simp
    | some tokens =>
      have hnumber := hnumeric "max_tokens" (by simp) _ htokens
      simp [path, htokens, atMost_asInt_iff hnumber]
  | some completion =>
    have hnumber := hnumeric "max_completion_tokens" (by simp) _ hcompletion
    rw [maxOutputTokens_of_completion hcompletion]
    cases protocol with
    | openai => simp [outputCap, hcompletion, atMost_asInt_iff hnumber]
    | anthropic =>
      cases htokens : source.get? "max_tokens" with
      | none | some => simp [outputCap, htokens]

/-- For every request in either protocol whose cap fields are absent or numbers, and every upstream
protocol: the upstream request honours the cap exactly when the readers of the caps agree. -/
theorem cap_honoured_iff {client upstream : Protocol} (hnumeric : NumericCaps source)
    (h : request mapper client upstream source model = .ok target) :
    CapHonoured mapper client upstream source target ↔ CapsAgree mapper client upstream source := by
  unfold request at h
  by_cases heq : client = upstream
  · subst heq
    rw [if_pos rfl] at h
    cases h
    exact capHonoured_of_copy hnumeric
  rw [if_neg heq] at h
  split at h
  · exact capHonoured_of_carries heq (carries_openAiRequestToAnthropic h)
  · exact capHonoured_of_carries heq (anthropicRequestToOpenAi_ok h).1

mutual

/-- The text of a node without doubles and without characters to escape. -/
def writeNode : JsonNode → String
  | .missing => ""
  | .null => "null"
  | .boolean b => if b then "true" else "false"
  | .integer n => toString n
  | .double _ => ""
  | .text s => "\"" ++ s ++ "\""
  | .array items => "[" ++ ",".intercalate (writeItems items) ++ "]"
  | .object members => "\x7b" ++ ",".intercalate (writeMembers members) ++ "\x7d"

def writeItems : List JsonNode → List String
  | [] => []
  | item :: items => writeNode item :: writeItems items

def writeMembers : ObjectNode → List String
  | [] => []
  | (name, value) :: members => ("\"" ++ name ++ "\":" ++ writeNode value) :: writeMembers members

end

/-- Reads the empty object, and no other text. -/
def sampleMapper : JsonNode.Mapper where
  readTree text := if text = "\x7b\x7d" then some (.object []) else none
  write := writeNode
  doubleText _ := ""
  parseAsInt _ := none

def cappedRequest (field : String) (cap : ℤ) : ObjectNode := [
  ("model", .text "gpt"),
  ("messages", .array [.object [("role", .text "user"), ("content", .text "hi")]]),
  (field, .integer cap)]

/-- A client that caps its output at 10 tokens by `max_completion_tokens` has 10 reserved, while an
Anthropic upstream is asked for up to 1024. -/
theorem completion_cap_exceeded : ∃ target,
    request sampleMapper .openai .anthropic (cappedRequest "max_completion_tokens" 10) "claude" =
      .ok target ∧
    outputCap .anthropic target = some (.integer 1024) ∧
    maxOutputTokens sampleMapper (cappedRequest "max_completion_tokens" 10) = 10 ∧
    ¬CapHonoured sampleMapper .openai .anthropic
      (cappedRequest "max_completion_tokens" 10) target := by
  refine ⟨_, rfl, rfl, rfl, fun h => ?_⟩
  have hcap : (1024 : ℤ) ≤ 10 := (h.2 _ rfl).1
  omega

theorem max_tokens_cap_honoured : ∃ target,
    request sampleMapper .openai .anthropic (cappedRequest "max_tokens" 10) "claude" = .ok target ∧
      CapHonoured sampleMapper .openai .anthropic (cappedRequest "max_tokens" 10) target := by
  refine ⟨_, rfl, (cap_honoured_iff (fun _ hfield _ hcap => ?_) rfl).mpr ?_⟩
  · rcases mem_pair.mp hfield with rfl | rfl <;> cases hcap
    trivial
  · exact fun heq => absurd heq (by decide)

/-! ## Tool calls and their results -/

structure ToolCall where
  id : String
  name : String
  arguments : String
  deriving DecidableEq

structure ToolResult where
  callId : String
  text : String
  deriving DecidableEq

section Tools

variable (mapper : JsonNode.Mapper)

/-- The `tool_use` blocks of an Anthropic message. -/
def toolUses (message : JsonNode) : List ToolCall :=
  ((message.path "content").elements.filter (isBlock mapper "tool_use")).map fun block =>
    ⟨(block.path "id").asText mapper, (block.path "name").asText mapper,
      mapper.write (block.path "input")⟩

/-- The `tool_result` blocks of an Anthropic message. -/
def toolResults (message : JsonNode) : List ToolResult :=
  ((message.path "content").elements.filter (isBlock mapper "tool_result")).map fun block =>
    ⟨(block.path "tool_use_id").asText mapper, textContent mapper (block.path "content")⟩

/-- The text of an Anthropic message. -/
def messageText (message : JsonNode) : String :=
  let content := message.path "content"
  if content.isTextual then content.asText mapper else contentText mapper content

def role (message : JsonNode) : String := (message.path "role").asText mapper

/-- The tool calls of an OpenAI message. -/
def toolCalls (message : JsonNode) : List ToolCall :=
  (message.path "tool_calls").elements.map fun call =>
    ⟨(call.path "id").asText mapper, ((call.path "function").path "name").asText mapper,
      ((call.path "function").path "arguments").asText mapper⟩

/-- The result that an OpenAI message of role `tool` carries. -/
def toolResult (message : JsonNode) : ToolResult :=
  ⟨(message.path "tool_call_id").asText mapper, textContent mapper (message.path "content")⟩

/-- The OpenAI messages of a transcript carry the tool calls, the results and the texts of the
Anthropic ones. -/
structure TranscriptKept (messages converted : List JsonNode) : Prop where
  calls : converted.flatMap (toolCalls mapper) = messages.flatMap (toolUses mapper)
  results : ∀ result,
    ((converted.filter (role mapper · = "tool")).map (toolResult mapper)).count result =
      (messages.flatMap (toolResults mapper)).count result
  order : ∀ (i : ℕ) message, converted[i]? = some message → role mapper message = "tool" →
    ∃ (j : ℕ) (holder : JsonNode), j < i ∧ converted[j]? = some holder ∧
      role mapper holder = "assistant" ∧
      (toolResult mapper message).callId ∈ (toolCalls mapper holder).map (·.id)
  texts : String.join ((converted.filter fun message =>
      role mapper message ≠ "system" ∧ role mapper message ≠ "tool").map
        fun message => textContent mapper (message.path "content")) =
    String.join (messages.map (messageText mapper))

end Tools

/-! ### One message -/

theorem get?_convertAnthropicMessage (message : JsonNode) (field : String) :
    (convertAnthropicMessage mapper message).get? field =
      if field = "content" then some (.text (messageText mapper message))
      else if field = "tool_calls" then
        (if contentToolCalls mapper (message.path "content") = [] then none
          else some (.array (contentToolCalls mapper (message.path "content"))))
      else if field = "role" then some (.text ((message.path "role").asTextOr mapper "user"))
      else none := by
  have hrole : get? [("role", .text ((message.path "role").asTextOr mapper "user"))] field =
      if field = "role" then some (.text ((message.path "role").asTextOr mapper "user"))
      else none := by
    by_cases h : field = "role"
    · subst h
      rfl
    · simp [get?, h, Ne.symm]
  simp only [convertAnthropicMessage, JsonNode.get?, convertAnthropicContent, messageText]
  by_cases htext : (message.path "content").isTextual
  · obtain ⟨s, hs⟩ : ∃ s, message.path "content" = .text s := by
      cases hcontent : message.path "content" <;> simp_all [JsonNode.isTextual]
    have hcalls : contentToolCalls mapper (.text s) = [] := rfl
    rw [if_pos htext, if_pos htext, get?_put, hrole, hs, hcalls]
    by_cases hfield : field = "tool_calls" <;> simp [hfield, JsonNode.asText]
  · rw [if_neg htext, if_neg htext, get?_put]
    cases hcalls : contentToolCalls mapper (message.path "content") with
    | nil =>
      simp only [isEmpty_nil, if_true, hrole]
      by_cases hfield : field = "tool_calls" <;> simp [hfield]
    | cons => simp [get?_put, hrole]

theorem toolCalls_convertAnthropicMessage (message : JsonNode) :
    toolCalls mapper (convertAnthropicMessage mapper message) = toolUses mapper message := by
  have hcalls : ((convertAnthropicMessage mapper message).path "tool_calls").elements =
      contentToolCalls mapper (message.path "content") := by
    rw [JsonNode.path, get?_convertAnthropicMessage, if_neg (by decide), if_pos rfl]
    split
    next hnil =>
      rw [hnil]
      rfl
    · rfl
  rw [toolCalls, hcalls, contentToolCalls, map_map]
  rfl

theorem role_convertAnthropicMessage (message : JsonNode) :
    role mapper (convertAnthropicMessage mapper message) =
      (message.path "role").asTextOr mapper "user" := by
  rw [role, JsonNode.path, get?_convertAnthropicMessage, if_neg (by decide), if_neg (by decide),
    if_pos rfl]
  rfl

theorem text_convertAnthropicMessage (message : JsonNode) :
    textContent mapper ((convertAnthropicMessage mapper message).path "content") =
      messageText mapper message := by
  rw [JsonNode.path, get?_convertAnthropicMessage]
  rfl

/-! ### Transcripts -/

/-- The roles of an Anthropic transcript. -/
def AnthropicRoles (mapper : JsonNode.Mapper) (messages : List JsonNode) : Prop :=
  ∀ message ∈ messages,
    (message.path "role").asTextOr mapper "user" = "user" ∨
      (message.path "role").asTextOr mapper "user" = "assistant"

/-- The messages of a request. -/
def messagesOf (request : ObjectNode) : List JsonNode := (request.path "messages").elements

/-- The system message that a translated transcript starts with, if any. -/
def SystemOnly (mapper : JsonNode.Mapper) (messages : List JsonNode) : Prop :=
  ∀ message ∈ messages, role mapper message = "system" ∧ toolCalls mapper message = []

theorem messagesOf_anthropicRequestToOpenAi
    (h : anthropicRequestToOpenAi mapper source model = .ok target) :
    ∃ system, SystemOnly mapper system ∧
      messagesOf target = system ++ (messagesOf source).map (convertAnthropicMessage mapper) := by
  obtain ⟨-, messages, hmessages, htarget⟩ := anthropicRequestToOpenAi_ok h
  have hsource : messagesOf source = messages := by
    unfold requireMessages at hmessages
    split at hmessages
    · cases hmessages
      rename_i heq
      rw [messagesOf, heq]
      rfl
    · cases hmessages
  refine ⟨_, ?_, by rw [hsource, messagesOf, path, htarget]; rfl⟩
  cases source.get? "system" with
  | none => nofun
  | some =>
    intro _ hmessage
    obtain rfl := mem_singleton.mp hmessage
    exact ⟨rfl, rfl⟩

/-- The translation of an Anthropic transcript to an OpenAI upstream keeps its tool calls, results
and texts exactly when it has no tool results. -/
theorem transcript_kept_iff (h : request mapper .anthropic .openai source model = .ok target)
    (hroles : AnthropicRoles mapper (messagesOf source)) :
    TranscriptKept mapper (messagesOf source) (messagesOf target) ↔
      (messagesOf source).flatMap (toolResults mapper) = [] := by
  obtain ⟨system, hsystem, htarget⟩ := messagesOf_anthropicRequestToOpenAi h
  generalize messagesOf source = messages at *
  generalize messagesOf target = converted at *
  subst htarget
  have hconverted : ∀ message ∈ messages.map (convertAnthropicMessage mapper),
      role mapper message = "user" ∨ role mapper message = "assistant" := by
    intro message hmessage
    obtain ⟨_, horiginal, rfl⟩ := mem_map.mp hmessage
    rw [role_convertAnthropicMessage]
    exact hroles _ horiginal
  have hnoTool : ∀ message ∈ system ++ messages.map (convertAnthropicMessage mapper),
      role mapper message ≠ "tool" := by
    intro message hmessage
    rcases mem_append.mp hmessage with hmessage | hmessage
    · simp [(hsystem _ hmessage).1]
    · rcases hconverted message hmessage with hrole | hrole <;> simp [hrole]
  have htools : (system ++ messages.map (convertAnthropicMessage mapper)).filter
      (role mapper · = "tool") = [] :=
    filter_eq_nil_iff.mpr fun message => by simpa using hnoTool _
  constructor
  · intro hkept
    refine eq_nil_iff_forall_not_mem.mpr fun result hresult => ?_
    have hcount := hkept.results result
    rw [htools] at hcount
    exact count_eq_zero.mp hcount.symm hresult
  · intro hnone
    refine ⟨?_, fun _ => by rw [htools, hnone]; rfl, fun i message hi hrole => ?_, ?_⟩
    · have hsystemCalls := flatMap_eq_nil_iff.mpr fun message hmessage => (hsystem _ hmessage).2
      rw [flatMap_append, hsystemCalls, nil_append, flatMap_map]
      simp [toolCalls_convertAnthropicMessage]
    · exact absurd hrole (hnoTool _ (mem_of_getElem? hi))
    · have hsystemTexts : system.filter (fun message =>
          decide (role mapper message ≠ "system" ∧ role mapper message ≠ "tool")) = [] :=
        filter_eq_nil_iff.mpr fun message hmessage => by simp [(hsystem _ hmessage).1]
      have hall : (messages.map (convertAnthropicMessage mapper)).filter (fun message =>
          decide (role mapper message ≠ "system" ∧ role mapper message ≠ "tool")) =
          messages.map (convertAnthropicMessage mapper) := by
        refine filter_eq_self.mpr fun message hmessage => ?_
        rcases hconverted message hmessage with hrole | hrole <;> simp [hrole]
      rw [filter_append, hsystemTexts, hall, nil_append, map_map]
      congr 2
      funext _
      exact text_convertAnthropicMessage _

def anthropicMessage (role : String) (block : ObjectNode) : JsonNode :=
  .object [("role", .text role), ("content", .array [.object block])]

def toolRequest (messages : List JsonNode) : ObjectNode :=
  [("model", .text "claude"), ("max_tokens", .integer 100), ("messages", .array messages)]

def weatherQuestion : List JsonNode := [
  anthropicMessage "user" [("type", .text "text"), ("text", .text "weather?")],
  anthropicMessage "assistant" [("type", .text "tool_use"), ("id", .text "toolu_1"),
    ("name", .text "weather"), ("input", .object [])]]

def weatherAnswer : List JsonNode := [
  anthropicMessage "user" [("type", .text "tool_result"), ("tool_use_id", .text "toolu_1"),
    ("content", .text "sunny")]]

/-- The result of a tool call is lost: the upstream sees a user message without text in its
place. -/
theorem tool_result_dropped : ∃ target,
    request sampleMapper .anthropic .openai (toolRequest (weatherQuestion ++ weatherAnswer)) "gpt" =
      .ok target ∧
    (messagesOf target).map (fun message =>
      (role sampleMapper message, textContent sampleMapper (message.path "content"))) =
        [("user", "weather?"), ("assistant", ""), ("user", "")] ∧
    ¬TranscriptKept sampleMapper (weatherQuestion ++ weatherAnswer) (messagesOf target) := by
  refine ⟨_, rfl, by decide, fun h => ?_⟩
  exact absurd (h.results ⟨"toolu_1", "sunny"⟩) (by decide)

theorem tool_call_kept : ∃ target,
    request sampleMapper .anthropic .openai (toolRequest weatherQuestion) "gpt" = .ok target ∧
      TranscriptKept sampleMapper weatherQuestion (messagesOf target) := by
  have hroles : AnthropicRoles sampleMapper (messagesOf (toolRequest weatherQuestion)) := by
    intro _ hmessage
    rcases mem_pair.mp hmessage with rfl | rfl
    · exact .inl rfl
    · exact .inr rfl
  have hnone : (messagesOf (toolRequest weatherQuestion)).flatMap
      (toolResults sampleMapper) = [] := by
    decide
  exact ⟨_, rfl, (transcript_kept_iff rfl hroles).mpr hnone⟩

end RouteSmith.Model.JavaGateway

import RouteSmith.Model.ChatRequest
import RouteSmith.Verification.Requests.Pairing

/-! # Rendered chat messages

What a parsed message says of the message it was parsed from, and what it is rendered to.
-/

namespace RouteSmith.Model

open Text Exchange List Json

/-! ## Members -/

variable {json message : Json} {allowed : List String} {u : Unit} {key : String} {entry : Json × ℕ}
  {content : List ExchangeContent}

theorem ensureKeys_eq_ok {message : String → String} :
    ensureKeys json allowed message = .ok u ↔ ∀ key ∈ keys json, key ∈ allowed := by
  rw [ensureKeys]
  cases hfind : (keys json).find? fun key => !allowed.contains key with
  | none => simpa using hfind
  | some key =>
    have hkey := find?_some hfind
    have hmem := mem_of_find?_eq_some hfind
    simp only [Bool.not_eq_true', contains_eq_mem, decide_eq_false_iff_not] at hkey
    simp only [reduceCtorEq, false_iff, not_forall]
    exact ⟨key, hmem, hkey⟩

theorem get?_eq_none_of_keys (h : ∀ name ∈ keys json, name ∈ allowed) (hkey : key ∉ allowed) :
    json.get? key = none := by
  cases json with
  | object => exact get?_eq_none fun hmem => hkey (h key (mem_keys_ordered.mpr hmem))
  | _ => rfl

variable {path : String}

theorem requiredString_eq_ok {value : Json} {text : String} :
    requiredString value key path = .ok text ↔
      value.text? key = some text ∧ isEmpty (trim text) = false := by
  simp [requiredString]

/-! ## Turns -/

/-- What a message does to the calls: it makes calls with identifiers and names, or answers one. -/
inductive ToolTurn where
  | calls (made : List (String × String))
  | result (id : String)
  deriving DecidableEq

def callName (call : Json) : String := ((call.get? "function").bind (Json.text? "name")).getD ""

def messageTurn (message : Json) : ToolTurn :=
  if isTool message then .result ((toolCallId message).getD "")
  else .calls ((messageCalls message).map fun call => ((call.text? "id").getD "", callName call))

/-- A message of an Anthropic request with the calls or the result of a turn. -/
inductive ShowsTurn : ToolTurn → Json → Prop
  | user (texts : List String) :
      ShowsTurn (.calls []) (blocksMessage "user" (texts.map renderedText))
  | assistant (texts : List String) (calls : List (String × String × Json))
      (hcalls : ∀ c ∈ calls, isEmpty (trim c.1) = false ∧ c.2.2.isObject = true) :
      ShowsTurn (.calls (calls.map fun c => (c.1, c.2.1))) (blocksMessage "assistant"
        (texts.map renderedText ++ calls.map fun c => renderedUse c.1 c.2.1 c.2.2))
  | result (id content : String) :
      ShowsTurn (.result id) (blocksMessage "user" [renderedResult id content])

/-! ## Parsed messages -/

/-- A call and the content it is parsed to. -/
def ParsedCall (call : Json) (content : ExchangeContent) : Prop :=
  ∃ id arguments, content = .toolCall id (callName call) arguments ∧ call.text? "id" = some id ∧
    isEmpty (trim id) = false

theorem parsedCall_of_parseToolCall {content : ExchangeContent}
    (h : parseToolCall path entry = .ok content) : ParsedCall entry.1 content := by
  rw [parseToolCall] at h
  simp only [bind_eq_ok_iff, ensure_eq_ok, orInvalid_eq_ok, requiredString_eq_ok] at h
  obtain ⟨-, -, -, -, _, hfunction, -, -, -, -, -, -, id, ⟨hid, hblank⟩, _, ⟨hname, -⟩,
    arguments, -, hcontent⟩ := h
  cases hcontent
  exact ⟨id, arguments, by simp [callName, hfunction, hname], hid, hblank⟩

theorem mapM_cons_eq_ok {α β ε : Type} {f : α → Except ε β} {x : α} {xs : List α} {ys : List β}
    (h : (x :: xs).mapM f = .ok ys) :
    ∃ y rest, f x = .ok y ∧ xs.mapM f = .ok rest ∧ ys = y :: rest := by
  simp only [mapM_cons, bind_eq_ok_iff, pure_eq_ok] at h
  obtain ⟨y, hy, rest, hrest, hys⟩ := h
  exact ⟨y, rest, hy, hrest, hys⟩

theorem forall₂_of_mapM_zipIdx {α β ε : Type} {f : α × ℕ → Except ε β} {R : α → β → Prop}
    (hf : ∀ entry b, f entry = .ok b → R entry.1 b) {xs : List α} {ys : List β} {start : ℕ}
    (h : (xs.zipIdx start).mapM f = .ok ys) : Forall₂ R xs ys := by
  induction xs generalizing start ys with
  | nil =>
    cases h
    exact .nil
  | cons x xs ih =>
    obtain ⟨y, _, hy, hrest, rfl⟩ := mapM_cons_eq_ok h
    exact .cons (hf _ _ hy) (ih hrest)

theorem parseText_eq (h : parseText message path = .ok content) :
    ∃ texts : List String, content = texts.map .text := by
  rw [parseText] at h
  split at h
  · cases h
    exact ⟨[], rfl⟩
  · rw [bind_eq_ok_iff] at h
    obtain ⟨text, -, hcontent⟩ := h
    cases hcontent
    split_ifs
    · exact ⟨[], rfl⟩
    · exact ⟨[text], rfl⟩

theorem parseToolCalls_forall₂ (h : parseToolCalls message path = .ok content) :
    Forall₂ ParsedCall (messageCalls message) content := by
  rw [parseToolCalls] at h
  rw [messageCalls]
  split at h
  next hnone =>
    cases h
    simp [hnone]
  next toolCalls hsome =>
    simp only [bind_eq_ok_iff, orInvalid_eq_ok] at h
    obtain ⟨_, hcalls, hparsed⟩ := h
    rw [hsome, Option.bind_some, hcalls]
    exact forall₂_of_mapM_zipIdx (fun _ _ => parsedCall_of_parseToolCall) hparsed

/-- What a parsed message says of the message it was parsed from. -/
inductive ParsedMessage (message : Json) : ExchangeMessage → Prop
  | plain {role : ExchangeRole} (texts : List String) (hrole : role ≠ .assistant ∧ role ≠ .tool)
      (htool : isTool message = false) (hcalls : messageCalls message = []) :
      ParsedMessage message ⟨role, texts.map .text⟩
  | assistant (texts : List String) (calls : List ExchangeContent)
      (htool : isTool message = false)
      (hcalls : List.Forall₂ ParsedCall (messageCalls message) calls) :
      ParsedMessage message ⟨.assistant, texts.map .text ++ calls⟩
  | tool (id content : String) (htool : isTool message = true)
      (hid : toolCallId message = some id) (hcalls : messageCalls message = []) :
      ParsedMessage message ⟨.tool, [.toolResult id content]⟩

theorem parseRole_tool {role : Option String} {parsed : ExchangeRole}
    (h : parseRole role path = .ok parsed) :
    decide (role = some "tool") = decide (parsed = .tool) := by
  unfold parseRole at h
  split at h
  all_goals cases h
  all_goals rfl

theorem parsedMessage_of_parseOpenaiMessage {parsed : ExchangeMessage}
    (h : parseOpenaiMessage entry = .ok parsed) : ParsedMessage entry.1 parsed := by
  rw [parseOpenaiMessage] at h
  simp only [bind_eq_ok_iff, ensureKeys_eq_ok] at h
  obtain ⟨-, -, role, hrole, -, hkeys, _, hcontent, _, hcalls, -, -, hparsed⟩ := h
  cases hparsed
  have htool := parseRole_tool hrole
  rw [← isTool] at htool
  have hnoCalls : role ≠ .assistant → messageCalls entry.1 = [] := fun hnot => by
    have hallowed : "tool_calls" ∉ allowedKeys role := by
      cases role <;> first | exact absurd rfl hnot | decide
    rw [messageCalls, get?_eq_none_of_keys hkeys hallowed]
    rfl
  by_cases hassistant : role = .assistant
  · subst hassistant
    obtain ⟨texts, rfl⟩ := parseText_eq hcontent
    exact .assistant _ _ htool (parseToolCalls_forall₂ hcalls)
  · rw [if_neg hassistant] at hcalls
    cases hcalls
    rw [append_nil]
    by_cases hrole' : role = .tool
    · subst hrole'
      rw [if_pos rfl, parseResult] at hcontent
      simp only [bind_eq_ok_iff, orInvalid_eq_ok] at hcontent
      obtain ⟨id, hid, text, -, hresult⟩ := hcontent
      cases hresult
      exact .tool id text htool hid (hnoCalls hassistant)
    · rw [if_neg hrole'] at hcontent
      obtain ⟨_, rfl⟩ := parseText_eq hcontent
      exact .plain _ ⟨hassistant, hrole'⟩ (by simpa [hrole'] using htool) (hnoCalls hassistant)

/-! ## Rendered messages -/

section

variable {reader : Json.Reader} {message : Json} {parsed : ExchangeMessage} {out : List Json}

theorem mapM_text (texts : List String) :
    (texts.map .text).mapM (renderAssistantContent reader) =
      .ok (texts.map renderedText) := by
  induction texts with
  | nil => rfl
  | cons _ _ ih =>
    rw [map_cons, mapM_cons, ih]
    rfl

theorem exists_uses {calls : List Json} {contents : List ExchangeContent} {blocks : List Json}
    (hparsed : Forall₂ ParsedCall calls contents)
    (h : contents.mapM (renderAssistantContent reader) = .ok blocks) :
    ∃ uses : List (String × String × Json),
      (∀ c ∈ uses, isEmpty (trim c.1) = false ∧ c.2.2.isObject = true) ∧
      blocks = uses.map (fun c => renderedUse c.1 c.2.1 c.2.2) ∧
      calls.map (fun call => ((call.text? "id").getD "", callName call)) =
        uses.map fun c => (c.1, c.2.1) := by
  induction hparsed generalizing blocks with
  | nil =>
    cases h
    exact ⟨[], by simp, rfl, rfl⟩
  | @cons call _ _ _ hcall _ ih =>
    obtain ⟨id, _, rfl, hid, hblank⟩ := hcall
    obtain ⟨_, _, hblock, hrest, rfl⟩ := mapM_cons_eq_ok h
    rw [renderAssistantContent] at hblock
    simp only [bind_eq_ok_iff, ensure_eq_ok] at hblock
    obtain ⟨input, -, -, hobject, hblock⟩ := hblock
    cases hblock
    obtain ⟨uses, huses, rfl, hcalls⟩ := ih hrest
    refine ⟨(id, callName call, input) :: uses, ?_, rfl, ?_⟩
    · exact forall_mem_cons.mpr ⟨⟨hblank, hobject⟩, huses⟩
    · simp [hid, hcalls]

theorem filterMap_text (texts : List String) :
    (texts.map ExchangeContent.text).filterMap (·.text?.map renderedText) =
      texts.map renderedText := by
  simp [ExchangeContent.text?]

/-- A message of the conversation is shown by one message, and others are kept apart. -/
theorem renderMessage_shows (hparsed : ParsedMessage message parsed)
    (h : renderMessage reader parsed = .ok out) :
    (parsed.role.isConversation = false ∧ out = [] ∧ messageTurn message = .calls []) ∨
      (parsed.role.isConversation = true ∧ ∃ shown, out = [shown] ∧
        ShowsTurn (messageTurn message) shown) := by
  cases hparsed with
  | @plain role texts hrole htool hcalls =>
    have hturn : messageTurn message = .calls [] := by simp [messageTurn, htool, hcalls]
    rw [hturn]
    cases role with
    | system | developer =>
      cases h
      exact .inl ⟨rfl, rfl, rfl⟩
    | user =>
      cases h
      refine .inr ⟨rfl, _, rfl, ?_⟩
      rw [filterMap_text]
      exact .user _
    | assistant => exact absurd rfl hrole.1
    | tool => exact absurd rfl hrole.2
  | assistant texts calls htool hcalls =>
    rw [renderMessage] at h
    simp only [bind_eq_ok_iff, mapM_append, mapM_text] at h
    obtain ⟨_, ⟨_, htexts, uses, huses, hblocks⟩, hout⟩ := h
    cases htexts
    cases hblocks
    cases hout
    obtain ⟨uses, hall, rfl, hturn⟩ := exists_uses hcalls huses
    refine .inr ⟨rfl, _, rfl, ?_⟩
    rw [messageTurn, htool, hturn]
    exact .assistant _ uses hall
  | tool id content htool hid =>
    cases h
    refine .inr ⟨rfl, _, rfl, ?_⟩
    rw [messageTurn, htool, hid]
    exact .result id _

variable {messages : List Json} {outs : List (List Json)}

theorem shows_of_conversation {parsed : List ExchangeMessage}
    (hparsed : Forall₂ ParsedMessage messages parsed)
    (hall : ∀ m ∈ parsed, m.role.isConversation = true)
    (h : parsed.mapM (renderMessage reader) = .ok outs) :
    Forall₂ ShowsTurn (messages.map messageTurn) outs.flatten := by
  induction hparsed generalizing outs with
  | nil =>
    cases h
    exact .nil
  | @cons _ _ _ _ hmessage _ ih =>
    rw [forall_mem_cons] at hall
    obtain ⟨_, _, hout, hrest, rfl⟩ := mapM_cons_eq_ok h
    rcases renderMessage_shows hmessage hout with ⟨hrole, -, -⟩ | ⟨-, _, rfl, hshown⟩
    · exact absurd hall.1 (by simp [hrole])
    · exact .cons hshown (ih hall.2 hrest)

/-- The messages before the conversation make no calls and are not shown. -/
theorem exists_shown {parsed : List ExchangeMessage}
    (hparsed : Forall₂ ParsedMessage messages parsed)
    (hfidelity : ∀ m ∈ parsed.dropWhile fun m => !m.role.isConversation,
      m.role.isConversation = true) (h : parsed.mapM (renderMessage reader) = .ok outs) :
    ∃ before conversation, messages = before ++ conversation ∧
      (∀ m ∈ before, messageTurn m = .calls []) ∧
      Forall₂ ShowsTurn (conversation.map messageTurn) outs.flatten := by
  induction hparsed generalizing outs with
  | nil =>
    cases h
    exact ⟨[], [], rfl, by simp, .nil⟩
  | @cons message _ messages _ hmessage hmessages ih =>
    obtain ⟨_, _, hout, hrest, rfl⟩ := mapM_cons_eq_ok h
    rcases renderMessage_shows hmessage hout with ⟨hrole, rfl, hturn⟩ | ⟨hrole, -⟩
    · rw [dropWhile_cons_of_pos (by simp [hrole])] at hfidelity
      obtain ⟨_, conversation, rfl, hbefore, hshown⟩ := ih hfidelity hrest
      exact ⟨message :: _, conversation, rfl, forall_mem_cons.mpr ⟨hturn, hbefore⟩, hshown⟩
    · rw [dropWhile_cons_of_neg (by simp [hrole])] at hfidelity
      exact ⟨[], message :: _, rfl, by simp,
        shows_of_conversation (.cons hmessage hmessages) hfidelity h⟩

end

/-! ## The checks of a shown message -/

def ValidToolName (name : String) : Prop :=
  name.toList.length ≠ 0 ∧ name.toList.length ≤ 64 ∧
    ∀ c ∈ name.toList, c.isAlphanum = true ∨ c = '_' ∨ c = '-'

theorem validateToolName_eq_ok {name : String} :
    validateToolName name path = .ok u ↔ ValidToolName name := by
  simp [validateToolName, ValidToolName, bind_eq_ok_iff, or_assoc, and_assoc]

/-- What the blocks of a shown message have to fulfil. -/
def ToolTurn.Named : ToolTurn → Prop
  | .calls made => ∀ c ∈ made, ValidToolName c.2
  | .result id => isEmpty (trim id) = false

section

variable {messageIndex start index : ℕ} {role : String} {saw saw' : Bool}

theorem foldlM_append_eq_ok {α σ ε : Type} {f : σ → α → Except ε σ} {xs ys : List α} {s s' : σ} :
    (xs ++ ys).foldlM f s = .ok s' ↔ ∃ mid, xs.foldlM f s = .ok mid ∧ ys.foldlM f mid = .ok s' := by
  rw [foldlM_append, bind_eq_ok_iff]

theorem fields_renderedUse (id name : String) (input : Json) :
    (renderedUse id name input).isObject = true ∧
      (renderedUse id name input).text? "type" = some "tool_use" ∧
      (renderedUse id name input).text? "id" = some id ∧
      (renderedUse id name input).text? "name" = some name ∧
      (renderedUse id name input).get? "input" = some input := by
  simp [renderedUse, isObject, text?, get?, asStr]

theorem fields_renderedResult (id content : String) :
    (renderedResult id content).isObject = true ∧
      (renderedResult id content).text? "type" = some "tool_result" ∧
      (renderedResult id content).text? "tool_use_id" = some id ∧
      (renderedResult id content).get? "content" = some (.string content) ∧
      (renderedResult id content).get? "is_error" = none := by
  simp [renderedResult, isObject, text?, get?, asStr]

theorem validateToolBlock_use {id name : String} {input : Json}
    (hid : isEmpty (trim id) = false) (hinput : input.isObject = true) :
    validateToolBlock messageIndex "assistant" saw (renderedUse id name input, index) = .ok saw' ↔
      ValidToolName name ∧ saw' = true := by
  obtain ⟨hobject, htype, hid', hname, hinput'⟩ := fields_renderedUse id name input
  simp [-bind_pure_comp, validateToolBlock, validateToolUseBlock, bind_eq_ok_iff,
    validateToolName_eq_ok, hobject, htype, hid', hname, hinput', hid, hinput, pure_eq_ok]

theorem validateToolBlock_result {id content : String} :
    validateToolBlock messageIndex "user" false (renderedResult id content, index) = .ok saw' ↔
      isEmpty (trim id) = false ∧ saw' = false := by
  obtain ⟨hobject, htype, hid, hcontent, herror⟩ := fields_renderedResult id content
  simp [-bind_pure_comp, validateToolBlock, validateToolResultBlock, validateResultContent,
    bind_eq_ok_iff, hobject, htype, hid, hcontent, herror, pure_eq_ok]

theorem foldlM_texts (texts : List String) : ∃ saw',
    ((texts.map renderedText).zipIdx start).foldlM (validateToolBlock messageIndex role) saw =
      .ok saw' := by
  induction texts generalizing start saw with
  | nil => exact ⟨saw, rfl⟩
  | cons _ _ ih =>
    exact ih

theorem foldlM_uses {calls : List (String × String × Json)}
    (hcalls : ∀ c ∈ calls, isEmpty (trim c.1) = false ∧ c.2.2.isObject = true) :
    (∃ saw', ((calls.map fun c => renderedUse c.1 c.2.1 c.2.2).zipIdx start).foldlM
      (validateToolBlock messageIndex "assistant") saw = .ok saw') ↔
      ∀ c ∈ calls, ValidToolName c.2.1 := by
  induction calls generalizing start saw with
  | nil => exact ⟨fun _ => by simp, fun _ => ⟨saw, rfl⟩⟩
  | cons c calls ih =>
    rw [forall_mem_cons] at hcalls
    rw [map_cons, zipIdx_cons, forall_mem_cons, ← ih hcalls.2]
    simp only [foldlM_cons, bind_eq_ok_iff, validateToolBlock_use hcalls.1.1 hcalls.1.2]
    constructor
    · rintro ⟨saw', _, ⟨hname, rfl⟩, hrest⟩
      exact ⟨hname, saw', hrest⟩
    · rintro ⟨hname, saw', hrest⟩
      exact ⟨saw', true, ⟨hname, rfl⟩, hrest⟩

theorem contentBlocks_blocksMessage (blocks : List Json) :
    contentBlocks (blocksMessage role blocks) = some blocks := by
  simp [contentBlocks, blocksMessage, get?, asArray]

theorem validateMessageToolBlocks_eq_ok (blocks : List Json) {u : Unit} :
    validateMessageToolBlocks (blocksMessage role blocks, index) = .ok u ↔
      ∃ saw', blocks.zipIdx.foldlM (validateToolBlock index role) false = .ok saw' := by
  rw [validateMessageToolBlocks]
  simp only [contentBlocks_blocksMessage]
  rw [bind_eq_ok_iff]
  exact exists_congr fun _ => and_iff_left rfl

theorem ShowsTurn.blocks_iff {turn : ToolTurn} {shown : Json}
    (h : ShowsTurn turn shown) {u : Unit} :
    validateMessageToolBlocks (shown, index) = .ok u ↔ turn.Named := by
  cases h with
  | user texts =>
    rw [validateMessageToolBlocks_eq_ok]
    exact ⟨fun _ => by simp [ToolTurn.Named], fun _ => foldlM_texts _⟩
  | assistant texts calls hcalls =>
    rw [validateMessageToolBlocks_eq_ok, zipIdx_append]
    obtain ⟨saw, htexts⟩ : ∃ saw, (texts.map renderedText).zipIdx.foldlM
        (validateToolBlock index "assistant") false = .ok saw := foldlM_texts _
    simp only [foldlM_append_eq_ok, htexts, Except.ok.injEq, exists_eq_left']
    rw [foldlM_uses hcalls, ToolTurn.Named, forall_mem_map]
  | result =>
    rw [validateMessageToolBlocks_eq_ok]
    simp [validateToolBlock_result, ToolTurn.Named]

end

/-! ## The turns of shown messages -/

/-- A tool that is defined, if tools are. -/
def Defined (toolNames : Option (List String)) (name : String) : Prop :=
  ∀ names ∈ toolNames, name ∈ names

/-- What the turns of a conversation have to fulfil: calls come when none waits, with new
identifiers, and a result answers the one call that waits. -/
def AcceptsTurns (toolNames : Option (List String)) (seen pending : List String) :
    List ToolTurn → Prop
  | [] => pending = []
  | .calls made :: turns => pending = [] ∧ (made.map (·.1)).Nodup ∧
    (∀ c ∈ made, c.1 ∉ seen ∧ Defined toolNames c.2) ∧
    AcceptsTurns toolNames ((made.map (·.1)).reverse ++ seen) (made.map (·.1)).reverse turns
  | .result id :: turns => pending = [id] ∧ AcceptsTurns toolNames seen [] turns

section

variable {toolNames : Option (List String)} {messageIndex start index : ℕ} {role : String}
  {state next : TurnState}

theorem turnTexts_eq (texts : List String) :
    ((texts.map renderedText).zipIdx start).foldlM (validateTurnBlock toolNames messageIndex role)
      state = .ok state := by
  induction texts generalizing start with
  | nil => rfl
  | cons _ _ ih =>
    exact ih

variable {id : String} {turn : ToolTurn} {turns : List ToolTurn}

theorem validateTurnBlock_use {name : String} {input : Json} :
    validateTurnBlock toolNames messageIndex "assistant" state (renderedUse id name input, index) =
        .ok next ↔
      (id ∉ state.seen ∧ Defined toolNames name) ∧
        next = { seen := id :: state.seen, pending := state.pending.insert id } := by
  obtain ⟨-, htype, hid, hname, -⟩ := fields_renderedUse id name input
  simp [-bind_pure_comp, validateTurnBlock, validateToolNameIsDefined, bind_eq_ok_iff, htype, hid,
    hname, pure_eq_ok, Defined, Option.all_eq_true, and_assoc]

theorem turnUses_iff {calls : List (String × String × Json)} (hvalid : state.Valid) :
    ((calls.map fun c => renderedUse c.1 c.2.1 c.2.2).zipIdx start).foldlM
        (validateTurnBlock toolNames messageIndex "assistant") state = .ok next ↔
      ((calls.map (·.1)).Nodup ∧ ∀ c ∈ calls, c.1 ∉ state.seen ∧ Defined toolNames c.2.1) ∧
        next = { seen := (calls.map (·.1)).reverse ++ state.seen,
                 pending := (calls.map (·.1)).reverse ++ state.pending } := by
  induction calls generalizing start state with
  | nil => simp [pure_eq_ok]
  | cons c calls ih =>
    rw [map_cons, zipIdx_cons, foldlM_cons, bind_eq_ok_iff]
    simp only [validateTurnBlock_use, map_cons, nodup_cons, forall_mem_cons, reverse_cons,
      append_assoc]
    have hinsert : c.1 ∉ state.seen → state.pending.insert c.1 = c.1 :: state.pending :=
      fun hnew => insert_of_not_mem fun hmem => hnew (hvalid _ hmem)
    have hmid : TurnState.Valid { seen := c.1 :: state.seen, pending := c.1 :: state.pending } :=
      forall_mem_cons.mpr ⟨mem_cons_self, fun id hid => mem_cons_of_mem _ (hvalid id hid)⟩
    constructor
    · rintro ⟨_, ⟨⟨hnew, hdefined⟩, rfl⟩, hrest⟩
      rw [hinsert hnew] at hrest
      obtain ⟨⟨hnodup, hall⟩, rfl⟩ := (ih hmid).mp hrest
      refine ⟨⟨⟨fun hmem => ?_, hnodup⟩, ⟨hnew, hdefined⟩, fun c' hc' => ?_⟩, rfl⟩
      · obtain ⟨c', hc', heq⟩ := mem_map.mp hmem
        exact (hall c' hc').1 (heq ▸ mem_cons_self)
      · exact ⟨fun hmem => (hall c' hc').1 (mem_cons_of_mem _ hmem), (hall c' hc').2⟩
    · rintro ⟨⟨⟨hfirst, hnodup⟩, ⟨hnew, hdefined⟩, hall⟩, rfl⟩
      refine ⟨_, ⟨⟨hnew, hdefined⟩, rfl⟩, ?_⟩
      rw [hinsert hnew, ih hmid]
      refine ⟨⟨hnodup, fun c' hc' => ⟨fun hmem => ?_, (hall c' hc').2⟩⟩, rfl⟩
      rcases mem_cons.mp hmem with heq | hmem
      · exact hfirst (mem_map.mpr ⟨c', hc', heq⟩)
      · exact (hall c' hc').1 hmem

theorem validateTurn_blocksMessage {blocks : List Json} :
    validateTurn toolNames state (blocksMessage role blocks, index) = .ok next ↔
      (state.pending = [] ∨ role = "user") ∧
        blocks.zipIdx.foldlM (validateTurnBlock toolNames index role) state = .ok next ∧
        (state.pending = [] ∨ next.pending = []) := by
  rw [validateTurn]
  simp only [contentBlocks_blocksMessage, bind_eq_ok_iff, ensure_eq_ok,
    Bool.or_eq_true, List.isEmpty_iff, decide_eq_true_eq, pure_eq_ok]
  constructor
  · rintro ⟨_, hfirst, _, hturn, _, hlast, rfl⟩
    exact ⟨hfirst, hturn, hlast⟩
  · rintro ⟨hfirst, hturn, hlast⟩
    exact ⟨(), hfirst, next, hturn, (), hlast, rfl⟩

theorem validateTurnBlock_result {content : String} :
    validateTurnBlock toolNames messageIndex "user" state (renderedResult id content, index) =
        .ok next ↔
      (id ∈ state.seen ∧ id ∈ state.pending) ∧
        next = { state with pending := state.pending.erase id } := by
  obtain ⟨-, htype, hid, -⟩ := fields_renderedResult id content
  simp [-bind_pure_comp, validateTurnBlock, bind_eq_ok_iff, htype, hid, pure_eq_ok, and_assoc]

/-- What one turn does to the calls that were met and those that wait. -/
def ToolTurn.Step (toolNames : Option (List String)) (state next : TurnState) : ToolTurn → Prop
  | .calls made => state.pending = [] ∧ (made.map (·.1)).Nodup ∧
    (∀ c ∈ made, c.1 ∉ state.seen ∧ Defined toolNames c.2) ∧
    next = { seen := (made.map (·.1)).reverse ++ state.seen, pending := (made.map (·.1)).reverse }
  | .result id => state.pending = [id] ∧ next = { state with pending := [] }

theorem erase_eq_nil_iff {pending : List String} :
    id ∈ pending ∧ pending.erase id = [] ↔ pending = [id] := by
  constructor
  · rintro ⟨hmem, herase⟩
    have hperm := perm_cons_erase hmem
    rw [herase] at hperm
    exact perm_singleton.mp hperm
  · rintro rfl
    simp

theorem ShowsTurn.step_iff {shown : Json} (h : ShowsTurn turn shown) (hvalid : state.Valid) :
    validateTurn toolNames state (shown, index) = .ok next ↔ turn.Step toolNames state next := by
  cases h with
  | user =>
    rw [validateTurn_blocksMessage, turnTexts_eq]
    simp only [Except.ok.injEq, ToolTurn.Step, map_nil, reverse_nil, nil_append]
    constructor
    · rintro ⟨-, rfl, hnone⟩
      rw [or_self] at hnone
      exact ⟨hnone, nodup_nil, by simp, by rw [← hnone]⟩
    · rintro ⟨hnone, -, -, rfl⟩
      exact ⟨.inl hnone, by rw [← hnone], .inl hnone⟩
  | assistant =>
    rw [validateTurn_blocksMessage, zipIdx_append, foldlM_append_eq_ok]
    simp only [turnTexts_eq, Except.ok.injEq, exists_eq_left', turnUses_iff hvalid, ToolTurn.Step,
      map_map, Function.comp_def, forall_mem_map]
    constructor
    · rintro ⟨hfirst, ⟨⟨hnodup, hall⟩, rfl⟩, -⟩
      have hnone := hfirst.resolve_right (by decide)
      exact ⟨hnone, hnodup, hall, by rw [hnone, append_nil]⟩
    · rintro ⟨hnone, hnodup, hall, rfl⟩
      exact ⟨.inl hnone, ⟨⟨hnodup, hall⟩, by rw [hnone, append_nil]⟩, .inl hnone⟩
  | result id =>
    rw [validateTurn_blocksMessage]
    simp only [zipIdx_singleton, foldlM_cons, foldlM_nil, bind_eq_ok_iff, validateTurnBlock_result,
      pure_eq_ok]
    constructor
    · rintro ⟨-, ⟨_, ⟨⟨-, hmem⟩, rfl⟩, rfl⟩, hdone⟩
      have herase : state.pending.erase id = [] := hdone.resolve_left (ne_nil_of_mem hmem)
      exact ⟨erase_eq_nil_iff.mp ⟨hmem, herase⟩, by rw [herase]⟩
    · rintro ⟨hpending, rfl⟩
      obtain ⟨hmem, herase⟩ := erase_eq_nil_iff.mpr hpending
      exact ⟨.inr trivial, ⟨_, ⟨⟨hvalid id hmem, hmem⟩, rfl⟩, by rw [herase]⟩, .inr rfl⟩

theorem ToolTurn.Step.valid (h : turn.Step toolNames state next) : next.Valid := by
  cases turn with
  | calls =>
    obtain ⟨-, -, -, rfl⟩ := h
    exact fun id => mem_append_left _
  | result id =>
    obtain ⟨-, rfl⟩ := h
    exact fun _ hid => absurd hid (by simp)

theorem acceptsTurns_cons : AcceptsTurns toolNames state.seen state.pending (turn :: turns) ↔
      ∃ next, turn.Step toolNames state next ∧
        AcceptsTurns toolNames next.seen next.pending turns := by
  cases turn with
  | calls | result => simp [AcceptsTurns, ToolTurn.Step, and_assoc]

/-- The check of a whole conversation, turn by turn. The induction is on the shown messages; the
state is what the turns before have left. -/
theorem acceptsTurns_iff {shown : List Json} (hshown : Forall₂ ShowsTurn turns shown)
    (hvalid : state.Valid) :
    (∃ final, (shown.zipIdx start).foldlM (validateTurn toolNames) state = .ok final ∧
        final.pending = []) ↔
      AcceptsTurns toolNames state.seen state.pending turns := by
  induction hshown generalizing start state with
  | nil => simp [AcceptsTurns, pure_eq_ok]
  | @cons _ _ _ _ hmessage _ ih =>
    rw [zipIdx_cons, acceptsTurns_cons]
    simp only [foldlM_cons, bind_eq_ok_iff, hmessage.step_iff hvalid]
    constructor
    · rintro ⟨final, ⟨next, hstep, hrest⟩, hnone⟩
      exact ⟨next, hstep, (ih hstep.valid).mp ⟨final, hrest, hnone⟩⟩
    · rintro ⟨next, hstep, haccepts⟩
      obtain ⟨final, hrest, hnone⟩ := (ih hstep.valid).mpr haccepts
      exact ⟨final, ⟨next, hstep, hrest⟩, hnone⟩

end

end RouteSmith.Model

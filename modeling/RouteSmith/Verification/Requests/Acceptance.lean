import RouteSmith.Verification.Requests.Rendering

/-! # Which rendered chat requests pass the checks of an Anthropic request -/

namespace RouteSmith.Model

open Text Exchange AnthropicRequest Json Exchange.Request
open Option hiding all_eq_true map_id map_map
open List hiding isEmpty

/-! ## Transcripts -/

/-- A message with calls is followed by one tool message for each of them. -/
def Answered (messages : List Json) : Prop :=
  ∀ before m after, messages = before ++ m :: after → messageCalls m ≠ [] →
    ∃ tools rest, after = tools ++ rest ∧ (∀ t ∈ tools, isTool t = true) ∧
      (tools.map toolCallId).Perm (callIds m)

/-- The names and identifiers that a message has to carry for it to be parsed. -/
structure RegularMessage (m : Json) : Prop where
  result : isTool m = true → messageCalls m = [] ∧ ∃ id, toolCallId m = some id
  calls : ∀ call ∈ messageCalls m, ∃ id, call.text? "id" = some id ∧ isEmpty (trim id) = false

/-- What the conversation of a rendered request has to fulfil besides: a message makes one call at
most, all calls have different identifiers and name tools that are defined, and a tool message
stands right after the message that it answers. -/
structure SingleCalls (defined : String → Prop) (messages : List Json) : Prop where
  single : ∀ m ∈ messages, (messageCalls m).length ≤ 1
  distinct : (messages.flatMap callIds).Nodup
  defined : ∀ m ∈ messages, ∀ call ∈ messageCalls m, defined (callName call)
  adjacent : ∀ before m after, messages = before ++ m :: after → isTool m = true →
    ∃ before' caller, before = before' ++ [caller] ∧ messageCalls caller ≠ []

section

variable {toolNames : Option (List String)} {seen pending : List String} {messages : List Json}

variable {m : Json} {id : String} {shown : List Json} {u : Unit}

theorem Answered.tail (h : Answered (m :: messages)) : Answered messages :=
  fun _ m' _ hsplit hcalls => h (m :: _) m' _ (by rw [hsplit]; rfl) hcalls

theorem Answered.cons (h : Answered messages)
    (hm : messageCalls m ≠ [] → ∃ tools rest, messages = tools ++ rest ∧
      (∀ t ∈ tools, isTool t = true) ∧ (tools.map toolCallId).Perm (callIds m)) :
    Answered (m :: messages) := by
  intro before m' after hsplit hcalls
  cases before with
  | nil =>
    cases hsplit
    exact hm hcalls
  | cons _ before => exact h before m' after (cons.inj hsplit).2 hcalls

theorem regularMessage_of_parsed {parsed : ExchangeMessage} (h : ParsedMessage m parsed) :
    RegularMessage m := by
  cases h with
  | plain _ _ htool hcalls => exact ⟨by simp [htool], by simp [hcalls]⟩
  | assistant texts calls htool hcalls =>
    have hids : Forall₂ (fun call content => (∃ id, call.text? "id" = some id ∧
        isEmpty (trim id) = false) ∧ ParsedCall call content) (messageCalls m) calls :=
      hcalls.imp fun _ _ ⟨id, arguments, hcontent, hid, hblank⟩ =>
        ⟨⟨id, hid, hblank⟩, id, arguments, hcontent, hid, hblank⟩
    exact ⟨by simp [htool], ((forall₂_and_left _ _).mp hids).1⟩
  | tool id _ _ hid hcalls => exact ⟨fun _ => ⟨hcalls, id, hid⟩, by simp [hcalls]⟩

theorem forall_regularMessage {parsed : List ExchangeMessage}
    (h : Forall₂ ParsedMessage messages parsed) : ∀ m ∈ messages, RegularMessage m := by
  induction h with
  | nil => simp
  | cons hparsed _ ih => exact forall_mem_cons.mpr ⟨regularMessage_of_parsed hparsed, ih⟩

variable {turns : List ToolTurn} {defined : String → Prop} {before : List Json}

theorem AcceptsTurns.length_pending_le (h : AcceptsTurns toolNames seen pending turns) :
    pending.length ≤ 1 := by
  cases turns with
  | nil =>
    have hnone : pending = [] := h
    simp [hnone]
  | cons turn =>
    cases turn with
    | calls | result => simp [h.1]

/-- The identifiers of the calls of a message. -/
def madeIds (m : Json) : List String := (messageCalls m).map fun call => (call.text? "id").getD ""

theorem RegularMessage.callIds_eq (h : RegularMessage m) : callIds m = (madeIds m).map some := by
  rw [madeIds, map_map]
  refine map_congr_left fun call hcall => ?_
  obtain ⟨_, hid, -⟩ := h.calls call hcall
  simp [hid]

theorem acceptsTurns_calls (htool : isTool m = false) :
    AcceptsTurns toolNames seen pending ((m :: messages).map messageTurn) ↔
      pending = [] ∧ (madeIds m).Nodup ∧ (∀ id ∈ madeIds m, id ∉ seen) ∧
        (∀ call ∈ messageCalls m, Defined toolNames (callName call)) ∧
        AcceptsTurns toolNames ((madeIds m).reverse ++ seen) (madeIds m).reverse
          (messages.map messageTurn) := by
  simp [messageTurn, htool, AcceptsTurns, madeIds, Function.comp_def, forall_and, and_assoc]

theorem acceptsTurns_result (htool : isTool m = true) (hid : toolCallId m = some id) :
    AcceptsTurns toolNames seen pending ((m :: messages).map messageTurn) ↔
      pending = [id] ∧ AcceptsTurns toolNames seen [] (messages.map messageTurn) := by
  simp [messageTurn, htool, hid, AcceptsTurns]

/-- What accepted turns say of the messages. The induction is on the messages; the state is what
the messages before have left. -/
structure AcceptedFrom (toolNames : Option (List String)) (seen pending : List String)
    (messages : List Json) : Prop where
  single : ∀ m ∈ messages, (messageCalls m).length ≤ 1
  distinct : (messages.flatMap callIds).Nodup
  fresh : ∀ id ∈ seen, some id ∉ messages.flatMap callIds
  defined : ∀ m ∈ messages, ∀ call ∈ messageCalls m, Defined toolNames (callName call)
  adjacent : ∀ before m after, messages = before ++ m :: after → isTool m = true →
    (before = [] ∧ pending ≠ []) ∨
      ∃ before' caller, before = before' ++ [caller] ∧ messageCalls caller ≠ []

theorem AcceptedFrom.nil : AcceptedFrom toolNames seen pending [] :=
  ⟨by simp, by simp, by simp, by simp, by simp⟩

theorem AcceptedFrom.result (hcalls : messageCalls m = []) (hpending : pending ≠ [])
    (h : AcceptedFrom toolNames seen [] messages) :
    AcceptedFrom toolNames seen pending (m :: messages) where
  single := forall_mem_cons.mpr ⟨by simp [hcalls], h.single⟩
  distinct := by simpa [callIds, hcalls] using h.distinct
  fresh := by simpa [callIds, hcalls] using h.fresh
  defined := forall_mem_cons.mpr ⟨by simp [hcalls], h.defined⟩
  adjacent before m' after hsplit htool := by
    cases before with
    | nil => exact .inl ⟨rfl, hpending⟩
    | cons first before =>
      obtain ⟨rfl, hrest⟩ := cons.inj hsplit
      rcases h.adjacent before m' after hrest htool with ⟨-, hnone⟩ | ⟨_, caller, rfl, hcaller⟩
      · exact absurd rfl hnone
      · exact .inr ⟨m :: _, caller, rfl, hcaller⟩

theorem AcceptedFrom.calls (hregular : RegularMessage m) (htool : isTool m = false)
    (hnodup : (madeIds m).Nodup) (hfresh : ∀ id ∈ madeIds m, id ∉ seen)
    (hdefined : ∀ call ∈ messageCalls m, Defined toolNames (callName call))
    (hsingle : (madeIds m).length ≤ 1)
    (h : AcceptedFrom toolNames ((madeIds m).reverse ++ seen) (madeIds m).reverse messages) :
    AcceptedFrom toolNames seen pending (m :: messages) where
  single := forall_mem_cons.mpr ⟨by simpa [madeIds] using hsingle, h.single⟩
  distinct := by
    rw [flatMap_cons, hregular.callIds_eq]
    refine .append (hnodup.map (some_injective _)) h.distinct fun id hid hrest => ?_
    obtain ⟨id, hmem, rfl⟩ := mem_map.mp hid
    exact h.fresh id (by simp [hmem]) hrest
  fresh id hid hmem := by
    rw [flatMap_cons, hregular.callIds_eq, mem_append] at hmem
    rcases hmem with hmem | hmem
    · exact hfresh id (by simpa using hmem) hid
    · exact h.fresh id (by simp [hid]) hmem
  defined := forall_mem_cons.mpr ⟨hdefined, h.defined⟩
  adjacent before m' after hsplit hm' := by
    cases before with
    | nil =>
      obtain ⟨rfl, -⟩ := cons.inj hsplit
      exact absurd hm' (by simp [htool])
    | cons first before =>
      obtain ⟨rfl, hrest⟩ := cons.inj hsplit
      rcases h.adjacent before m' after hrest hm' with
        ⟨rfl, hsome⟩ | ⟨before', caller, rfl, hcaller⟩
      · exact .inr ⟨[], m, rfl, by simpa [madeIds] using hsome⟩
      · exact .inr ⟨m :: _, caller, rfl, hcaller⟩

theorem acceptedFrom_of_acceptsTurns (hregular : ∀ m ∈ messages, RegularMessage m)
    (h : AcceptsTurns toolNames seen pending (messages.map messageTurn)) :
    AcceptedFrom toolNames seen pending messages := by
  induction messages generalizing seen pending with
  | nil => exact .nil
  | cons m _ ih =>
    rw [forall_mem_cons] at hregular
    by_cases htool : isTool m = true
    · obtain ⟨hcalls, _, hid⟩ := hregular.1.result htool
      obtain ⟨rfl, hrest⟩ := (acceptsTurns_result htool hid).mp h
      exact .result hcalls (by simp) (ih hregular.2 hrest)
    · rw [Bool.not_eq_true] at htool
      obtain ⟨rfl, hnodup, hfresh, hdefined, hrest⟩ := (acceptsTurns_calls htool).mp h
      have hsingle : (madeIds m).length ≤ 1 := by simpa using hrest.length_pending_le
      exact .calls hregular.1 htool hnodup hfresh hdefined hsingle (ih hregular.2 hrest)

theorem SingleCalls.of_append (front : List Json) (h : SingleCalls defined (front ++ m :: messages))
    (hm : messageCalls m = []) : SingleCalls defined messages where
  single m' hm' := h.single m' (by simp [hm'])
  distinct := by
    have hdistinct := h.distinct
    rw [flatMap_append] at hdistinct
    exact hdistinct.of_append_right.of_append_right
  defined m' hm' := h.defined m' (by simp [hm'])
  adjacent before m' after hsplit htool := by
    obtain ⟨_, _, hbefore, hcaller⟩ :=
      h.adjacent (front ++ m :: before) m' after (by simp [hsplit]) htool
    rcases eq_nil_or_concat' before with rfl | ⟨before, last, rfl⟩
    · obtain ⟨-, hlast⟩ := append_inj' hbefore rfl
      exact absurd (singleton_inj.mp hlast ▸ hm) hcaller
    · rw [← cons_append, ← append_assoc] at hbefore
      obtain ⟨-, hlast⟩ := append_inj' hbefore rfl
      exact ⟨before, last, rfl, by rwa [singleton_inj.mp hlast]⟩

theorem SingleCalls.isTool_head (h : SingleCalls defined (m :: messages)) : isTool m = false := by
  by_contra htool
  obtain ⟨_, _, hbefore, -⟩ := h.adjacent [] m _ rfl (by simpa using htool)
  simp at hbefore

theorem not_mem_callIds_of_append (front : List Json)
    (h : some id ∉ (front ++ messages).flatMap callIds) : some id ∉ messages.flatMap callIds :=
  fun hmem => h (by rw [flatMap_append]; exact mem_append_right _ hmem)

/-- Answered messages with single calls are accepted. A call is taken together with its answer. -/
theorem acceptsTurns_of_singleCalls (messages : List Json) (seen : List String)
    (hregular : ∀ m ∈ messages, RegularMessage m)
    (hanswered : Answered messages) (h : SingleCalls (Defined toolNames) messages)
    (hfresh : ∀ id ∈ seen, some id ∉ messages.flatMap callIds) :
    AcceptsTurns toolNames seen [] (messages.map messageTurn) := by
  match messages with
  | [] => rfl
  | m :: rest =>
    have htool := h.isTool_head
    have hids := (hregular m mem_cons_self).callIds_eq
    have hlength := h.single m mem_cons_self
    rw [acceptsTurns_calls htool]
    rcases hcalls : messageCalls m with - | ⟨call, - | ⟨_, _⟩⟩
    · have hnone : madeIds m = [] := by simp [madeIds, hcalls]
      rw [hnone]
      refine ⟨rfl, nodup_nil, by simp, by simp, ?_⟩
      exact acceptsTurns_of_singleCalls rest seen
        (fun m' hm' => hregular m' (mem_cons_of_mem _ hm')) hanswered.tail
        (.of_append [] h hcalls)
        fun id hid => not_mem_callIds_of_append [m] (hfresh id hid)
    · obtain ⟨id, hid, -⟩ := (hregular m mem_cons_self).calls call (by simp [hcalls])
      have hmade : madeIds m = [id] := by simp [madeIds, hcalls, hid]
      obtain ⟨_, _, hrest, htools, hperm⟩ := hanswered [] m rest rfl (by simp [hcalls])
      rw [hids, hmade, map_singleton, perm_singleton] at hperm
      obtain ⟨t, rfl, ht⟩ := map_eq_singleton_iff.mp hperm
      subst hrest
      have htTool := htools t mem_cons_self
      obtain ⟨htCalls, -⟩ := (hregular t (by simp)).result htTool
      rw [hmade, singleton_append, acceptsTurns_result htTool ht]
      refine ⟨rfl, nodup_singleton id, ?_, ?_, rfl, ?_⟩
      · intro id' hid' hseen
        exact hfresh id' hseen (by simp [hids, hmade, mem_singleton.mp hid'])
      · exact hcalls ▸ h.defined m mem_cons_self
      · refine acceptsTurns_of_singleCalls _ _ (fun m' hm' => hregular m' (by simp [hm']))
          hanswered.tail.tail (.of_append [m] h htCalls) ?_
        intro id' hid'
        rcases mem_append.mp hid' with hsame | hseen
        · have hdistinct := h.distinct
          rw [flatMap_cons, hids, hmade, map_singleton, singleton_append, nodup_cons] at hdistinct
          rw [mem_singleton.mp (mem_reverse.mp hsame)]
          exact not_mem_callIds_of_append [t] hdistinct.1
        · exact not_mem_callIds_of_append [m, t] (hfresh id' hseen)
    · simp [hcalls] at hlength
termination_by messages.length

theorem acceptsTurns_append (h : ∀ m ∈ before, messageTurn m = .calls []) :
    AcceptsTurns toolNames seen [] ((before ++ messages).map messageTurn) ↔
      AcceptsTurns toolNames seen [] (messages.map messageTurn) := by
  induction before with
  | nil => rfl
  | cons _ _ ih =>
    rw [forall_mem_cons] at h
    rw [cons_append, map_cons, h.1, ← ih h.2]
    simp [AcceptsTurns]

theorem RegularMessage.blank_of_mem_madeIds (h : RegularMessage m) (hid : id ∈ madeIds m) :
    isEmpty (trim id) = false := by
  obtain ⟨call, hcall, rfl⟩ := mem_map.mp hid
  obtain ⟨_, hsome, hblank⟩ := h.calls call hcall
  rwa [hsome]

/-- The names of the calls are all that is left to check of the blocks: an answer carries the
identifier of a call. -/
theorem forall_named_iff (hregular : ∀ m ∈ messages, RegularMessage m)
    (hpending : ∀ id ∈ pending, isEmpty (trim id) = false)
    (h : AcceptsTurns toolNames seen pending (messages.map messageTurn)) :
    (∀ turn ∈ messages.map messageTurn, turn.Named) ↔
      ∀ m ∈ messages, ∀ call ∈ messageCalls m, ValidToolName (callName call) := by
  induction messages generalizing seen pending with
  | nil => simp
  | cons m _ ih =>
    rw [forall_mem_cons] at hregular
    rw [map_cons, forall_mem_cons]
    by_cases htool : isTool m = true
    · obtain ⟨hcalls, _, hid⟩ := hregular.1.result htool
      obtain ⟨rfl, hrest⟩ := (acceptsTurns_result htool hid).mp h
      rw [ih hregular.2 (by simp) hrest]
      have hnamed : (messageTurn m).Named := by
        simpa [messageTurn, htool, hid, ToolTurn.Named] using hpending
      simp [hnamed, hcalls]
    · rw [Bool.not_eq_true] at htool
      obtain ⟨rfl, -, -, -, hrest⟩ := (acceptsTurns_calls htool).mp h
      rw [ih hregular.2 (fun _ hid => hregular.1.blank_of_mem_madeIds (by simpa using hid)) hrest]
      simp [messageTurn, htool, ToolTurn.Named]

theorem forM_blocks_iff {start : ℕ} (hshown : Forall₂ ShowsTurn turns shown) :
    (shown.zipIdx start).forM validateMessageToolBlocks = .ok u ↔ ∀ turn ∈ turns, turn.Named := by
  induction hshown generalizing start with
  | nil => simp [pure_eq_ok]
  | cons hturn _ ih =>
    rw [zipIdx_cons, List.forM, bind_eq_ok_iff, forall_mem_cons]
    simp only [hturn.blocks_iff, ih]
    exact exists_const _

theorem validateToolTurnReferences_eq_ok : validateToolTurnReferences shown toolNames = .ok u ↔
      ∃ final, shown.zipIdx.foldlM (validateTurn toolNames) {} = .ok final ∧
        final.pending = [] := by
  simp [validateToolTurnReferences, bind_eq_ok_iff]

/-- The checks of the messages of a rendered request, in terms of the messages it was rendered
from. -/
theorem conversation_checks_iff (toolNames : Option (List String)) {conversation : List Json}
    {v : Unit} (hregular : ∀ m ∈ before ++ conversation, RegularMessage m)
    (hanswered : Answered (before ++ conversation))
    (hbefore : ∀ m ∈ before, messageTurn m = .calls [])
    (hshown : Forall₂ ShowsTurn (conversation.map messageTurn) shown) :
    (shown.zipIdx.forM validateMessageToolBlocks = .ok u ∧
        validateToolTurnReferences shown toolNames = .ok v) ↔
      (∀ m ∈ before ++ conversation, ∀ call ∈ messageCalls m, ValidToolName (callName call)) ∧
        SingleCalls (Defined toolNames) (before ++ conversation) := by
  have hvalid : TurnState.Valid {} := fun _ hid => absurd hid (by simp)
  rw [forM_blocks_iff hshown, validateToolTurnReferences_eq_ok, acceptsTurns_iff hshown hvalid,
    ← acceptsTurns_append hbefore]
  have hnamed : (∀ turn ∈ (before ++ conversation).map messageTurn, turn.Named) ↔
      ∀ turn ∈ conversation.map messageTurn, turn.Named := by
    rw [map_append, forall_mem_append]
    refine and_iff_right fun _ hturn => ?_
    obtain ⟨m, hm, rfl⟩ := mem_map.mp hturn
    rw [hbefore m hm]
    simp [ToolTurn.Named]
  rw [← hnamed]
  constructor
  · rintro ⟨hall, haccepts⟩
    obtain ⟨single, distinct, -, defined, adjacent⟩ :=
      acceptedFrom_of_acceptsTurns hregular haccepts
    refine ⟨(forall_named_iff hregular (by simp) haccepts).mp hall, single, distinct, defined, ?_⟩
    intro front m after hsplit htool
    rcases adjacent front m after hsplit htool with ⟨-, hsome⟩ | hcaller
    · exact absurd rfl hsome
    · exact hcaller
  · rintro ⟨hnames, hsingle⟩
    have haccepts := acceptsTurns_of_singleCalls _ [] hregular hanswered hsingle (by simp)
    exact ⟨(forall_named_iff hregular (by simp) haccepts).mpr hnames, haccepts⟩

end

/-! ## Tools -/

mutual

theorem rejectExternalSchemaReferences_path (path path' : String) :
    ∀ json, rejectExternalSchemaReferences path json = .ok () →
      rejectExternalSchemaReferences path' json = .ok ()
  | .object members, h => rejectExternalMembers_path path path' members h
  | .array items, h => rejectExternalItems_path path path' 0 items h
  | .null, _ | .bool _, _ | .number _, _ | .string _, _ => rfl

theorem rejectExternalMembers_path (path path' : String) :
    ∀ members, rejectExternalMembers path members = .ok () →
      rejectExternalMembers path' members = .ok ()
  | [], _ => rfl
  | member :: members, h => by
    rw [rejectExternalMembers, bind_eq_ok_iff] at h ⊢
    obtain ⟨_, hfirst, hrest⟩ := h
    exact ⟨(), rejectExternalMember_path path path' member hfirst,
      rejectExternalMembers_path path path' members hrest⟩

theorem rejectExternalMember_path (path path' : String) :
    ∀ member, rejectExternalMember path member = .ok () → rejectExternalMember path' member = .ok ()
  | (key, child), h => by
    rw [rejectExternalMember] at h ⊢
    split_ifs at h ⊢ with hexternal
    exact rejectExternalSchemaReferences_path _ _ child h

theorem rejectExternalItems_path (path path' : String) (index : ℕ) :
    ∀ items, rejectExternalItems path index items = .ok () →
      rejectExternalItems path' index items = .ok ()
  | [], _ => rfl
  | item :: items, h => by
    rw [rejectExternalItems, bind_eq_ok_iff] at h ⊢
    obtain ⟨_, hfirst, hrest⟩ := h
    exact ⟨(), rejectExternalSchemaReferences_path _ _ item hfirst,
      rejectExternalItems_path path path' (index + 1) items hrest⟩

end

theorem exists_compileToolSchema_path {validatorFor : SchemaCompiler} {schema : Json}
    {path path' : String}
    (h : ∃ validator, compileToolSchema validatorFor schema path = .ok validator) :
    ∃ validator, compileToolSchema validatorFor schema path' = .ok validator := by
  obtain ⟨validator, h⟩ := h
  rw [compileToolSchema, bind_eq_ok_iff] at h
  obtain ⟨_, hlocal, hcompile⟩ := h
  refine ⟨validator, ?_⟩
  rw [compileToolSchema, rejectExternalSchemaReferences_path path _ _ hlocal]
  cases hschema : validatorFor schema with
  | error =>
    rw [hschema] at hcompile
    cases hcompile
  | ok =>
    rw [hschema] at hcompile
    exact hcompile

/-- The function that a tool is. -/
def functionOf (tool : Json) : Json := (tool.get? "function").getD .null

def functionSchema (function : Json) : Json := (function.get? "parameters").getD defaultParameters

/-- What a parsed tool says of the tool it was parsed from. -/
structure ParsedTool (raw : Json) (tool : ExchangeTool) : Prop where
  name : (functionOf raw).text? "name" = some tool.name
  validName : ValidToolName tool.name
  description : tool.description.isSome = ((functionOf raw).get? "description").isSome
  inputSchema : tool.inputSchema = functionSchema (functionOf raw)
  isObject : tool.inputSchema.isObject = true

theorem validToolName_of_exchange {name path : String} {u : Unit}
    (h : Exchange.validateToolName name path = .ok u) : ValidToolName name := by
  simp only [Exchange.validateToolName, ensure_eq_ok, Bool.and_eq_true, decide_eq_true_eq,
    all_eq_true, Bool.or_eq_true] at h
  obtain ⟨⟨hempty, hsize⟩, hall⟩ := h
  have hlength : name.toList.length ≤ (name.toList.map Char.utf8Size).sum := by
    have hle := length_le_sum_of_one_le (name.toList.map Char.utf8Size)
      (forall_mem_map.mpr fun c _ => Char.utf8Size_pos c)
    rwa [length_map] at hle
  refine ⟨?_, hlength.trans hsize, fun c hc => ?_⟩
  · simpa [isEmpty] using hempty
  · exact or_assoc.mp (hall c hc)

theorem optionalMember_eq_ok {α : Type} {value : Json} {key message : String}
    {read : Json → Option α} {result : Option α}
    (h : optionalMember value key read message = .ok result) :
    result.isSome = (value.get? key).isSome := by
  rw [optionalMember] at h
  cases hget : value.get? key with
  | none =>
    rw [hget] at h
    cases h
    rfl
  | some member =>
    simp only [hget] at h
    cases hread : read member with
    | none =>
      rw [hread] at h
      cases h
    | some =>
      rw [hread] at h
      cases h
      rfl

theorem parsedTool_of_parseOpenaiTool {tools mid : List ExchangeTool} {raw : Json} {index : ℕ}
    (h : parseOpenaiTool tools (raw, index) = .ok mid) :
    ∃ tool, mid = tools ++ [tool] ∧ tool.name ∉ tools.map (·.name) ∧ ParsedTool raw tool := by
  rw [parseOpenaiTool] at h
  simp only [bind_eq_ok_iff, ensure_eq_ok, orInvalid_eq_ok, requiredString_eq_ok, pure_eq_ok] at h
  obtain ⟨-, -, -, -, -, -, function, hfunction, -, -, -, -, _, ⟨hname, -⟩, _, hvalid, -, hnew,
    _, hdescription, -, hobject, _, -, rfl⟩ := h
  have hof : functionOf raw = function := by rw [functionOf, hfunction, getD_some]
  refine ⟨_, rfl, by simpa using hnew, ?_, validToolName_of_exchange hvalid, ?_, ?_, hobject⟩
  · rw [hof, hname]
  · rw [hof]
    exact optionalMember_eq_ok hdescription
  · rw [hof]
    rfl

theorem parsedTools_of_foldlM {raws : List Json} {start : ℕ} {tools tools' : List ExchangeTool}
    (hnodup : (tools.map (·.name)).Nodup)
    (h : (raws.zipIdx start).foldlM parseOpenaiTool tools = .ok tools') :
    (tools'.map (·.name)).Nodup ∧
      ∃ added, tools' = tools ++ added ∧ Forall₂ ParsedTool raws added := by
  induction raws generalizing start tools with
  | nil =>
    cases h
    exact ⟨hnodup, [], by simp, .nil⟩
  | cons _ _ ih =>
    rw [zipIdx_cons, foldlM_cons, bind_eq_ok_iff] at h
    obtain ⟨_, htool, hrest⟩ := h
    obtain ⟨tool, rfl, hnew, hparsed⟩ := parsedTool_of_parseOpenaiTool htool
    have hmid : ((tools ++ [tool]).map (·.name)).Nodup := by
      rw [map_append]
      exact hnodup.append (nodup_singleton _) (by simpa using hnew)
    obtain ⟨hall, _, rfl, hadded⟩ := ih hmid hrest
    exact ⟨hall, tool :: _, by rw [append_assoc, singleton_append], .cons hparsed hadded⟩

/-- What the rendered form of a tool has to fulfil. -/
def Renderable (validatorFor : SchemaCompiler) (tool : ExchangeTool) : Prop :=
  tool.description.isSome = true ∧ tool.inputSchema.text? "type" = some "object" ∧
    ∃ validator, compileToolSchema validatorFor tool.inputSchema "" = .ok validator

section

variable {validatorFor : SchemaCompiler} {names names' : List String} {index start : ℕ}

theorem validateToolDefinition_iff {tool : ExchangeTool} (hname : ValidToolName tool.name)
    (hobject : tool.inputSchema.isObject = true) :
    validateToolDefinition validatorFor names (renderTool tool, index) = .ok names' ↔
      (tool.name ∉ names ∧ Renderable validatorFor tool) ∧ names' = names ++ [tool.name] := by
  have hfields : (renderTool tool).isObject = true ∧
      (renderTool tool).text? "name" = some tool.name ∧
      (renderTool tool).get? "description" = some (tool.description.elim .null .string) ∧
      (renderTool tool).get? "input_schema" = some tool.inputSchema ∧
      (renderTool tool).get? "strict" = none := by
    simp [renderTool, isObject, text?, get?, asStr]
  obtain ⟨hrendered, hname', hdescription, hschema, hstrict⟩ := hfields
  have hstring : (tool.description.elim null string).isString = tool.description.isSome := by
    cases tool.description <;> rfl
  have hpath : (∃ validator, compileToolSchema validatorFor tool.inputSchema
      ("tools[" ++ toString index ++ "]" ++ ".input_schema") = .ok validator) ↔
      ∃ validator, compileToolSchema validatorFor tool.inputSchema "" = .ok validator :=
    ⟨exists_compileToolSchema_path, exists_compileToolSchema_path⟩
  rw [Renderable, ← hpath]
  simp only [validateToolDefinition, bind_eq_ok_iff, ensure_eq_ok, orInvalid_eq_ok, pure_eq_ok,
    hrendered, hname', hdescription, hschema, hstrict, hobject, hstring, validateToolName_eq_ok,
    some.injEq, all_some, all_none, filter_some, exists_const, true_and,
    exists_eq_left', hname, if_true, Bool.not_eq_true', contains_eq_mem,
    decide_eq_false_iff_not, decide_eq_true_eq]
  simp [and_assoc]

theorem validateTools_iff {tools : List ExchangeTool}
    (htools : ∀ tool ∈ tools, ValidToolName tool.name ∧ tool.inputSchema.isObject = true)
    (hnodup : (names ++ tools.map (·.name)).Nodup) :
    ((tools.map renderTool).zipIdx start).foldlM (validateToolDefinition validatorFor) names =
        .ok names' ↔
      (∀ tool ∈ tools, Renderable validatorFor tool) ∧ names' = names ++ tools.map (·.name) := by
  induction tools generalizing names start with
  | nil => simp [pure_eq_ok]
  | cons tool tools ih =>
    rw [forall_mem_cons] at htools
    rw [map_cons, ← singleton_append, ← append_assoc] at hnodup
    have hnew := fun hmem =>
      (nodup_append.mp hnodup.of_append_left).2.2 _ hmem _ mem_cons_self rfl
    rw [map_cons, zipIdx_cons, foldlM_cons, bind_eq_ok_iff, forall_mem_cons]
    simp only [validateToolDefinition_iff htools.1.1 htools.1.2]
    constructor
    · rintro ⟨_, ⟨⟨-, hfirst⟩, rfl⟩, hrest⟩
      obtain ⟨hall, rfl⟩ := (ih htools.2 hnodup).mp hrest
      exact ⟨⟨hfirst, hall⟩, by simp⟩
    · rintro ⟨⟨hfirst, hall⟩, rfl⟩
      exact ⟨_, ⟨⟨hnew, hfirst⟩, rfl⟩, (ih htools.2 hnodup).mpr ⟨hall, by simp⟩⟩

end

/-! ## Choices -/

/-- The rendered choice passes its check: a choice that asks for a call comes with tools, and a
tool that it names is among them. -/
theorem renderToolChoice_ok (names : List String) {choice : ExchangeToolChoice}
    {parallel : Option Bool} {toolNames : Option (List String)} (hchoice : choice ≠ .none)
    (hnamed : ∀ name ∈ choice.name?, ValidToolName name ∧ toolNames = some names ∧ name ∈ names)
    (hrequired : choice = .required → toolNames = some names ∧ names ≠ []) :
    validateToolChoiceShape (.object (choice.members ++ parallelMember parallel)) toolNames =
      .ok () := by
  cases choice with
  | none => exact absurd rfl hchoice
  | auto => cases parallel <;> rfl
  | required =>
    obtain ⟨rfl, hsome⟩ := hrequired rfl
    obtain ⟨first, rest, rfl⟩ := exists_cons_of_ne_nil hsome
    cases parallel <;> rfl
  | function name =>
    obtain ⟨hvalid, rfl, hmem⟩ := hnamed name rfl
    have hname : validateChosenName (some names) name = .ok () := by
      simp [validateChosenName, validateToolNameIsDefined, bind_eq_ok_iff, validateToolName_eq_ok,
        hvalid, hmem]
    obtain ⟨first, rest, rfl⟩ := exists_cons_of_ne_nil (ne_nil_of_mem hmem)
    have hchosen : ∀ toolChoice, toolChoice.text? "name" = some name →
        validateToolChoiceName toolChoice "tool" (some (first :: rest)) = .ok () := by
      intro _ htext
      rw [validateToolChoiceName, htext]
      exact hname
    simp only [validateToolChoiceShape, bind_eq_ok_iff, ensure_eq_ok]
    cases parallel <;>
      exact ⟨(), rfl, "tool", rfl, (), rfl, (), hchosen _ rfl, (), rfl, rfl⟩

/-! ## Bodies -/

section

open Numeric

theorem ofBody_eq (model : String) (maxTokens : U64) (messages : List Json) (stream : Bool)
    {system others : List (String × Json)}
    (hsystem : system = [] ∨ ∃ text, system = [("system", .string text)])
    (hothers : ∀ m ∈ others, m.1 ∉ fieldNames) :
    ∃ system', ofBody (.object ([("model", .string model),
        ("max_tokens", u64Json maxTokens), ("messages", .array messages),
        ("stream", .bool stream)] ++ system ++ others)) =
      some { model, maxTokens := some maxTokens, messages, system := system', stream := some stream,
             extra := .object others } := by
  generalize hbase : ([("model", .string model), ("max_tokens", u64Json maxTokens),
    ("messages", .array _), ("stream", .bool _)] : List _) ++ _ = base
  have hget : ∀ name ∈ fieldNames,
      (object (base ++ others)).get? name = (object base).get? name := fun name hname => by
    have hnone : (object others).get? name = none := get?_eq_none fun hmem => by
      obtain ⟨m, hm, rfl⟩ := mem_map.mp hmem
      exact hothers m hm hname
    rw [get?_append, hnone, none_or]
  have hfilter : (base ++ others).filter (fun m => !fieldNames.contains m.1) =
      others := by
    have hself : others.filter (fun m => !fieldNames.contains m.1) = others :=
      filter_eq_self.mpr fun m hm => by simpa using hothers m hm
    rw [filter_append, hself]
    rcases hsystem with rfl | ⟨text, rfl⟩ <;> subst hbase <;> rfl
  have hfields : Decoder.fields fieldNames (.object (base ++ others)) =
      some fun name => (object (base ++ others)).get? name := by
    refine if_pos fun name _ => ?_
    have hcount : others.countP (fun m => m.1 = name) = 0 := countP_eq_zero.mpr
      fun m hm heq => hothers m hm (by rwa [decide_eq_true_eq.mp heq])
    rw [countP_append, hcount]
    revert name
    rcases hsystem with rfl | ⟨_, rfl⟩ <;> subst hbase <;> simp [fieldNames]
  have hmessages : Decoder.defaulted (.list .value) [] (some (.array messages)) =
      some messages := by
    have hpure : messages.mapM (fun m => (pure (id m) : Option Json)) = some (messages.map id) :=
      mapM_pure
    rwa [map_id] at hpure
  simp only [ofBody, hfields, hfilter, bind_eq_bind, bind_some,
    hget "model" (by decide), hget "max_tokens" (by decide), hget "messages" (by decide),
    hget "system" (by decide), hget "stream" (by decide)]
  have hvalues : (object base).get? "model" = some (.string model) ∧
      (object base).get? "max_tokens" = some (u64Json maxTokens) ∧
      (object base).get? "messages" = some (.array messages) ∧
      (object base).get? "stream" = some (.bool stream) ∧
      ∃ system', Decoder.defaulted (.option .value) none ((object base).get? "system") =
        some system' := by
    rcases hsystem with rfl | ⟨_, rfl⟩ <;> subst hbase <;>
      exact ⟨rfl, rfl, rfl, rfl, _, rfl⟩
  obtain ⟨hmodel, hmax, hmess, hstream, system', hsys⟩ := hvalues
  refine ⟨system', ?_⟩
  simp only [hmodel, hmax, hmess, hstream, hsys, hmessages]
  rfl

end

/-! ## Rendered requests -/

/-- The functions that are offered to an Anthropic upstream. -/
def shownFunctions (request : OpenAiChatRequest) : List Json :=
  if request.extra.text? "tool_choice" = some "none" then []
  else (requestTools request.extra).map functionOf

/-- What an answered chat request has to fulfil for the request that it is rendered to to pass the
checks of an Anthropic request. -/
structure AnthropicReady (validatorFor : SchemaCompiler) (request : OpenAiChatRequest) : Prop where
  described : ∀ f ∈ shownFunctions request, (f.get? "description").isSome = true
  schemas : ∀ f ∈ shownFunctions request, (functionSchema f).text? "type" = some "object" ∧
    ∃ validator, compileToolSchema validatorFor (functionSchema f) "" = .ok validator
  named : ∀ m ∈ request.messages, ∀ call ∈ messageCalls m, ValidToolName (callName call)
  transcript : SingleCalls (fun name => shownFunctions request ≠ [] →
    some name ∈ (shownFunctions request).map (Json.text? "name")) request.messages

section

variable {validatorFor : SchemaCompiler} {reader : Json.Reader} {request : OpenAiChatRequest}
  {exchange : Exchange.Request} {model : String} {stream : Bool} {body : Json}

/-- What a parsed request says of the request it was parsed from. -/
structure ParsedRequest (request : OpenAiChatRequest) (exchange : Exchange.Request) : Prop where
  source : exchange.source = .openAiChat request
  messages : List.Forall₂ ParsedMessage request.messages exchange.messages
  tools : List.Forall₂ ParsedTool (requestTools request.extra) exchange.tools
  toolNames : (exchange.tools.map (·.name)).Nodup
  disabled : exchange.toolChoice = some .none ↔ request.extra.text? "tool_choice" = some "none"
  chosen : ∀ choice ∈ exchange.toolChoice, ∀ name ∈ choice.name?,
    name ∈ exchange.tools.map (·.name)
  required : exchange.toolChoice = some .required → exchange.tools ≠ []

theorem parseOpenaiToolChoice_none {value : Json} {choice : ExchangeToolChoice}
    (h : parseOpenaiToolChoice value = .ok choice) :
    choice = .none ↔ value.asStr = some "none" := by
  unfold parseOpenaiToolChoice at h
  split at h
  · cases h
    simp [asStr]
  · cases h
    simp [asStr]
  · cases h
    simp [asStr]
  · cases h
  · simp only [bind_eq_ok_iff, ensure_eq_ok, pure_eq_ok] at h
    obtain ⟨-, hobject, -, -, -, -, -, -, -, -, -, -, _, -, rfl⟩ := h
    cases value with
    | object => simp [asStr]
    | _ => cases hobject

theorem parsedRequest_of_fromOpenai (h : fromOpenai request = .ok exchange) :
    ParsedRequest request exchange := by
  rw [fromOpenai] at h
  simp only [bind_eq_ok_iff, ensure_eq_ok, pure_eq_ok] at h
  obtain ⟨-, -, _, hmessages, tools, htools, choice, hchoice, -, hchosen, -, hrequired,
    _, -, -, -, rfl⟩ := h
  obtain ⟨hnodup, hparsed⟩ : (tools.map (·.name)).Nodup ∧
      Forall₂ ParsedTool (requestTools request.extra) tools := by
    rw [requestTools]
    cases hget : request.extra.get? "tools" with
    | none =>
      rw [hget] at htools
      cases htools
      exact ⟨nodup_nil, .nil⟩
    | some =>
      simp only [hget, elim_some, parseOpenaiTools, bind_eq_ok_iff, orInvalid_eq_ok] at htools
      obtain ⟨_, hraws, htools⟩ := htools
      obtain ⟨hnodup, _, hadded, hparsed⟩ := parsedTools_of_foldlM (by simp) htools
      subst hadded
      rw [bind_some, hraws]
      exact ⟨hnodup, hparsed⟩
  have hdisabled : choice = some .none ↔ request.extra.text? "tool_choice" = some "none" := by
    rw [text?]
    cases hget : request.extra.get? "tool_choice" with
    | none =>
      rw [hget] at hchoice
      cases hchoice
      simp
    | some value =>
      simp only [hget, elim_some] at hchoice
      cases hvalue : parseOpenaiToolChoice value with
      | error =>
        rw [hvalue] at hchoice
        cases hchoice
      | ok =>
        rw [hvalue] at hchoice
        cases hchoice
        rw [bind_some, ← parseOpenaiToolChoice_none hvalue, some.injEq]
  refine ⟨rfl, forall₂_of_mapM_zipIdx (fun _ _ => parsedMessage_of_parseOpenaiMessage) hmessages,
    hparsed, hnodup, hdisabled, ?_, ?_⟩
  · rintro _ hchosen' _ hname
    cases hchosen'
    rw [mem_def] at hname
    simpa [hname] using hchosen
  · rintro rfl
    simpa using hrequired

theorem get?_eq_none_of_fst {members : List (String × Json)} {allowed : List String}
    {key : String} (h : ∀ m ∈ members, m.1 ∈ allowed) (hkey : key ∉ allowed) :
    (object members).get? key = none :=
  get?_eq_none fun hmem => by
    obtain ⟨m, hm, rfl⟩ := mem_map.mp hmem
    exact hkey (h m hm)

theorem fst_of_mem_renderToolChoice {toolChoice : Option ExchangeToolChoice}
    {parallel : Option Bool} {m : String × Json} (h : m ∈ renderToolChoice toolChoice parallel) :
    m.1 ∈ ["tool_choice"] := by
  unfold renderToolChoice at h
  split at h
  · simp at h
  · simp [mem_singleton.mp h]
  · split_ifs at h
    · simp [mem_singleton.mp h]
    · simp at h

theorem exists_rendered (hsource : exchange.source = .openAiChat request)
    (hrender : exchange.toAnthropicRequest reader model stream = .ok body) :
    ∃ outs rendered, exchange.messages.mapM (renderMessage reader) = .ok outs ∧
      ofBody body = some rendered ∧ rendered.messages = outs.flatten ∧
      rendered.extra.get? "tools" =
        (if exchange.tools.isEmpty || exchange.toolChoice = some .none then none
          else some (.array (exchange.tools.map renderTool))) ∧
      rendered.extra.get? "tool_choice" = (object (renderToolChoice exchange.toolChoice
        exchange.parallelToolCalls)).get? "tool_choice" := by
  rw [toAnthropicRequest, hsource] at hrender
  simp only [bind_eq_ok_iff, pure_eq_ok] at hrender
  obtain ⟨outs, houts, rfl⟩ := hrender
  rw [append_assoc, append_assoc, append_assoc]
  generalize hparams : (["temperature", "top_p", "top_k"].flatMap fun key =>
    ((parameter _ key).map fun value => (key, value)).toList) = params
  generalize hstop : ((parameter exchange.parameters "stop").map fun stop =>
    ("stop_sequences", stopSequences stop)).toList = stop
  generalize htools :
    (if (exchange.tools.isEmpty || decide (exchange.toolChoice = some .none)) = true
    then [] else [("tools", array _)]) = tools
  have hkeyParams : ∀ m ∈ params, m.1 ∈ ["temperature", "top_p", "top_k"] := by
    subst hparams
    intro m hm
    obtain ⟨key, hkey, hm⟩ := mem_flatMap.mp hm
    simp only [mem_toList, map_eq_some_iff] at hm
    obtain ⟨_, -, rfl⟩ := hm
    exact hkey
  have hkeyStop : ∀ m ∈ stop, m.1 ∈ ["stop_sequences"] := by
    subst hstop
    intro m hm
    simp only [mem_toList, map_eq_some_iff] at hm
    obtain ⟨_, -, rfl⟩ := hm
    exact mem_cons_self
  have hkeyTools : ∀ m ∈ tools, m.1 ∈ ["tools"] := by
    subst htools
    intro m hm
    split_ifs at hm
    · simp at hm
    · simp [mem_singleton.mp hm]
  have hkeyChoice : ∀ m ∈ renderToolChoice exchange.toolChoice exchange.parallelToolCalls,
      m.1 ∈ ["tool_choice"] := fun m => fst_of_mem_renderToolChoice
  have hothers : ∀ m ∈ params ++ (stop ++ (tools ++ renderToolChoice exchange.toolChoice
      exchange.parallelToolCalls)), m.1 ∉ fieldNames := by
    intro m hm hfield
    simp only [mem_append] at hm
    have hkey : m.1 ∈ ["temperature", "top_p", "top_k", "stop_sequences", "tools",
        "tool_choice"] := by
      rcases hm with hm | hm | hm | hm
      · exact mem_append_left ["stop_sequences", "tools", "tool_choice"] (hkeyParams m hm)
      · rw [mem_singleton.mp (hkeyStop m hm)]; decide
      · rw [mem_singleton.mp (hkeyTools m hm)]; decide
      · rw [mem_singleton.mp (hkeyChoice m hm)]; decide
    revert hfield
    generalize m.1 = key at hkey
    revert key
    decide
  generalize hsystem : (if exchange.systemParts.isEmpty then []
    else [("system", string ("\n\n".intercalate _))]) = system
  have hsystem' : system = [] ∨ ∃ text, system = [("system", .string text)] := by
    subst hsystem
    split_ifs
    · exact .inl rfl
    · exact .inr ⟨_, rfl⟩
  obtain ⟨_, hbody⟩ := ofBody_eq _
    (exchange.maxOutputTokens.getD _) _ _ hsystem' hothers
  refine ⟨outs, _, houts, hbody, rfl, ?_, ?_⟩
  · rw [get?_append, get?_append, get?_append,
      get?_eq_none_of_fst hkeyChoice (by decide), get?_eq_none_of_fst hkeyStop (by decide),
      get?_eq_none_of_fst hkeyParams (by decide), or_none, or_none, none_or]
    subst htools
    split_ifs
    · rfl
    · rfl
  · rw [get?_append, get?_append, get?_append,
      get?_eq_none_of_fst hkeyTools (by decide), get?_eq_none_of_fst hkeyStop (by decide),
      get?_eq_none_of_fst hkeyParams (by decide), or_none, or_none, or_none]

/-- The names of the tools that are shown. -/
def Exchange.Request.shownNames (exchange : Exchange.Request) : Option (List String) :=
  if exchange.tools.isEmpty || exchange.toolChoice = some .none then none
  else some (exchange.tools.map (·.name))

variable {raws : List Json} {tools : List ExchangeTool}

theorem ParsedTool.of_mem (h : Forall₂ ParsedTool raws tools) :
    ∀ tool ∈ tools, ValidToolName tool.name ∧ tool.inputSchema.isObject = true := by
  induction h with
  | nil => simp
  | cons hparsed _ ih => exact forall_mem_cons.mpr ⟨⟨hparsed.validName, hparsed.isObject⟩, ih⟩

/-- The tools are rendered as they have to be if the functions say so. -/
theorem forall_renderable_iff (h : Forall₂ ParsedTool raws tools) :
    (∀ tool ∈ tools, Renderable validatorFor tool) ↔
      (∀ f ∈ raws.map functionOf, (f.get? "description").isSome = true) ∧
        ∀ f ∈ raws.map functionOf, (functionSchema f).text? "type" = some "object" ∧
          ∃ validator, compileToolSchema validatorFor (functionSchema f) "" = .ok validator := by
  induction h with
  | nil => simp
  | cons hparsed _ ih =>
    rw [forall_mem_cons, ih, Renderable, hparsed.description, hparsed.inputSchema, map_cons,
      forall_mem_cons, forall_mem_cons]
    tauto

theorem map_name_eq (h : Forall₂ ParsedTool raws tools) :
    (raws.map functionOf).map (text? "name") = (tools.map (·.name)).map some := by
  induction h with
  | nil => rfl
  | cons hparsed _ ih => simp [hparsed.name, ih]

section

variable (h : ParsedRequest request exchange)

include h

theorem ParsedRequest.shownFunctions_eq_nil_iff : shownFunctions request = [] ↔
      (exchange.tools.isEmpty || exchange.toolChoice = some .none) = true := by
  have hnil : requestTools request.extra = [] ↔ exchange.tools = [] := by
    rw [← length_eq_zero_iff, h.tools.length_eq, length_eq_zero_iff]
  rw [shownFunctions]
  split_ifs with hdisabled
  · simp [h.disabled.mpr hdisabled]
  · have hchoice : exchange.toolChoice ≠ some .none := fun hchoice =>
      hdisabled (h.disabled.mp hchoice)
    simp [hchoice, hnil]

theorem ParsedRequest.defined_iff (name : String) : Defined exchange.shownNames name ↔
      (shownFunctions request ≠ [] → some name ∈ (shownFunctions request).map (text? "name")) := by
  rw [Ne, h.shownFunctions_eq_nil_iff, shownNames, Defined]
  split_ifs with hnone
  · simp [hnone]
  · have hshown : shownFunctions request = (requestTools request.extra).map functionOf := by
      rw [shownFunctions, if_neg fun hdisabled => hnone (by simp [h.disabled.mpr hdisabled])]
    rw [hshown, map_name_eq h.tools]
    simp [hnone]

theorem ParsedRequest.requestToolNames_iff {extra : Json} (hextra : extra.get? "tools" =
      if exchange.tools.isEmpty || exchange.toolChoice = some .none then none
      else some (.array (exchange.tools.map renderTool))) {toolNames : Option (List String)} :
    requestToolNames validatorFor extra = .ok toolNames ↔
      ((∀ f ∈ shownFunctions request, (f.get? "description").isSome = true) ∧
        ∀ f ∈ shownFunctions request, (functionSchema f).text? "type" = some "object" ∧
          ∃ validator, compileToolSchema validatorFor (functionSchema f) "" = .ok validator) ∧
        toolNames = exchange.shownNames := by
  rw [requestToolNames, hextra, shownNames]
  split_ifs with hnone
  · rw [h.shownFunctions_eq_nil_iff.mpr hnone]
    simp [@eq_comm _ none]
  · have hshown : shownFunctions request = (requestTools request.extra).map functionOf := by
      rw [shownFunctions, if_neg fun hdisabled => hnone (by simp [h.disabled.mpr hdisabled])]
    rw [hshown, ← forall_renderable_iff h.tools]
    have htools : validateToolDefinitions validatorFor (.array (exchange.tools.map renderTool)) =
        (exchange.tools.map renderTool).zipIdx.foldlM
          (validateToolDefinition validatorFor) [] := rfl
    have hdefinitions : ∀ names, validateToolDefinitions validatorFor
        (.array (exchange.tools.map renderTool)) = .ok names ↔
          (∀ tool ∈ exchange.tools, Renderable validatorFor tool) ∧
            names = exchange.tools.map (·.name) := fun names => by
      rw [htools, validateTools_iff (ParsedTool.of_mem h.tools) (by simpa using h.toolNames),
        nil_append]
    dsimp only
    cases hresult : validateToolDefinitions validatorFor
      (.array (exchange.tools.map renderTool)) with
    | error =>
      refine ⟨fun heq => (by cases heq), fun hready => ?_⟩
      rw [(hdefinitions _).mpr ⟨hready.1, rfl⟩] at hresult
      cases hresult
    | ok names =>
      obtain ⟨hall, rfl⟩ := (hdefinitions _).mp hresult
      refine ⟨fun heq => ?_, fun heq => ?_⟩
      · cases heq
        exact ⟨hall, rfl⟩
      · rw [heq.2]
        rfl

theorem ParsedRequest.choice_ok {extra : Json}
    (hextra : extra.get? "tool_choice" = (object (renderToolChoice exchange.toolChoice
      exchange.parallelToolCalls)).get? "tool_choice") :
    ((extra.get? "tool_choice").elim (.ok ()) fun toolChoice =>
      validateToolChoiceShape toolChoice exchange.shownNames) = .ok () := by
  have hget : ∀ value, (object [("tool_choice", value)]).get? "tool_choice" = some value :=
    fun _ => rfl
  rw [hextra]
  cases hchoice : exchange.toolChoice with
  | none =>
    rw [renderToolChoice]
    split_ifs
    · exact renderToolChoice_ok [] (by simp) (by simp [ExchangeToolChoice.name?]) (by simp)
    · rfl
  | some choice =>
    by_cases hnone : choice = .none
    · rw [hnone]
      rfl
    · have hrender : renderToolChoice (some choice) exchange.parallelToolCalls = [("tool_choice",
          .object (choice.members ++ parallelMember exchange.parallelToolCalls))] := by
        rw [renderToolChoice]
        exact hnone
      have hshown : exchange.tools ≠ [] →
          exchange.shownNames = some (exchange.tools.map (·.name)) :=
        fun hsome => if_neg (by simp [hsome, hchoice, hnone])
      rw [hrender]
      refine renderToolChoice_ok (exchange.tools.map (·.name)) hnone (fun name hname => ?_)
        fun hrequired => ?_
      · have hmem := h.chosen _ hchoice name hname
        obtain ⟨tool, htool, rfl⟩ := mem_map.mp hmem
        exact ⟨(ParsedTool.of_mem h.tools tool htool).1, hshown (ne_nil_of_mem htool), hmem⟩
      · have hsome := h.required (by rw [hchoice, hrequired])
        exact ⟨hshown hsome, by simpa using hsome⟩

end

/-- A rendered request passes the checks of an Anthropic request exactly if every message makes one
call at most, all calls have different identifiers and valid names of shown tools, and the shown
tools are described by a text and an object schema. -/
theorem rendered_accepted_iff (hparse : Exchange.Request.fromOpenai request = .ok exchange)
    (hfidelity : exchange.validateOpenaiToAnthropicFidelity = .ok ())
    (hanswered : Answered request.messages)
    (hrender : exchange.toAnthropicRequest reader model stream = .ok body) :
    ∃ rendered, AnthropicRequest.ofBody body = some rendered ∧
      (validateAnthropicTooling validatorFor rendered = .ok () ↔
        AnthropicReady validatorFor request) := by
  have hparsed := parsedRequest_of_fromOpenai hparse
  obtain ⟨_, rendered, houts, hbody, hmessages, htools, hchoice⟩ :=
    exists_rendered hparsed.source hrender
  have hconversation : ∀ m ∈ exchange.messages.dropWhile fun m => !m.role.isConversation,
      m.role.isConversation = true := by
    simp only [validateOpenaiToAnthropicFidelity, bind_eq_ok_iff] at hfidelity
    obtain ⟨-, -, -, -, -, -, hlast⟩ := hfidelity
    simpa using hlast
  obtain ⟨_, _, hsplit, hbefore, hshown⟩ :=
    exists_shown hparsed.messages hconversation houts
  have hregular := hsplit ▸ forall_regularMessage hparsed.messages
  have hchecks := conversation_checks_iff exchange.shownNames (u := ()) (v := ()) hregular
    (hsplit ▸ hanswered) hbefore hshown
  rw [← hsplit, ← hmessages] at hchecks
  have hdefined := funext fun name => propext (hparsed.defined_iff name)
  rw [hdefined] at hchecks
  refine ⟨rendered, hbody, ?_⟩
  simp only [validateAnthropicTooling, bind_eq_ok_iff, hparsed.requestToolNames_iff htools]
  constructor
  · rintro ⟨_, ⟨⟨hdescribed, hschemas⟩, rfl⟩, _, -, _, hblocks, hturns⟩
    obtain ⟨hnamed, htranscript⟩ := hchecks.mp ⟨hblocks, hturns⟩
    exact ⟨hdescribed, hschemas, hnamed, htranscript⟩
  · rintro ⟨hdescribed, hschemas, hnamed, htranscript⟩
    obtain ⟨hblocks, hturns⟩ := hchecks.mpr ⟨hnamed, htranscript⟩
    exact ⟨_, ⟨⟨hdescribed, hschemas⟩, rfl⟩, (), hparsed.choice_ok hchoice, (), hblocks, hturns⟩

end

/-! ## Samples -/

def chatReader : Json.Reader where
  parse := fun _ => some (.object [])
  report := id
  first := fun _ => none

def chatCall (id : String) : Json :=
  .object [("id", .string id), ("type", .string "function"),
    ("function", .object [("name", .string "list"), ("arguments", .string "\x7b\x7d")])]

def chatRequest (ids : List String) (tool : List (String × Json)) : OpenAiChatRequest where
  model := "m"
  messages := [plainMessage "user" "go",
    .object [("role", .string "assistant"), ("tool_calls", .array (ids.map chatCall))]] ++
    ids.map fun id => .object [("role", .string "tool"), ("tool_call_id", .string id),
      ("content", .string "ok")]
  extra := .object [("tools", .array [.object [("type", .string "function"),
    ("function", .object ([("name", .string "list")] ++ tool))]])]

theorem chatRequest_answered (ids : List String) (tool : List (String × Json)) :
    Answered (chatRequest ids tool).messages := by
  refine .cons (.cons (fun before m after hsplit hcalls => ?_) fun _ =>
    ⟨_, [], (append_nil _).symm, ?_, ?_⟩) fun hcalls => absurd messageCalls_plainMessage hcalls
  · have hmem : m ∈ before ++ m :: after := by simp
    rw [← hsplit] at hmem
    obtain ⟨_, -, rfl⟩ := mem_map.mp hmem
    exact absurd rfl hcalls
  · simp [isTool, text?, get?, asStr]
  · simp [callIds, messageCalls, chatCall, toolCallId, text?, get?, asArray, Function.comp_def]

theorem described_single_call_accepted : ∃ exchange body rendered,
      Exchange.Request.fromOpenai (chatRequest ["a"] [("description", .string "d")]) =
        .ok exchange ∧
      exchange.validateOpenaiToAnthropicFidelity = .ok () ∧
      exchange.toAnthropicRequest chatReader "m" false = .ok body ∧
      AnthropicRequest.ofBody body = some rendered ∧
      validateAnthropicTooling pairingConverter.validatorFor rendered = .ok () ∧
      AnthropicReady pairingConverter.validatorFor
        (chatRequest ["a"] [("description", .string "d")]) := by
  obtain ⟨_, hbody, hiff⟩ := @rendered_accepted_iff _ chatReader
    (chatRequest ["a"] [("description", .string "d")]) _ "m" false _ rfl rfl
    (chatRequest_answered _ _) rfl
  cases hbody
  exact ⟨_, _, _, rfl, rfl, rfl, rfl, rfl, hiff.mp rfl⟩

/-- Results of two calls in a row are refused, and so is a tool without a description. -/
theorem parallel_results_refused : (∃ exchange body rendered,
      Exchange.Request.fromOpenai (chatRequest ["a", "b"] [("description", .string "d")]) =
        .ok exchange ∧
      exchange.validateOpenaiToAnthropicFidelity = .ok () ∧
      Answered (chatRequest ["a", "b"] [("description", .string "d")]).messages ∧
      exchange.toAnthropicRequest chatReader "m" false = .ok body ∧
      AnthropicRequest.ofBody body = some rendered ∧
      validateAnthropicTooling pairingConverter.validatorFor rendered = .error (.invalidRequest
        "messages[2] must return every pending tool_result in one user message")) ∧
    ∃ exchange body rendered, Exchange.Request.fromOpenai (chatRequest ["a"] []) = .ok exchange ∧
      exchange.validateOpenaiToAnthropicFidelity = .ok () ∧
      Answered (chatRequest ["a"] []).messages ∧
      exchange.toAnthropicRequest chatReader "m" false = .ok body ∧
      AnthropicRequest.ofBody body = some rendered ∧
      validateAnthropicTooling pairingConverter.validatorFor rendered =
        .error (.invalidRequest "tools[0].description must be a string") :=
  ⟨⟨_, _, _, rfl, rfl, chatRequest_answered _ _, rfl, rfl, rfl⟩,
    ⟨_, _, _, rfl, rfl, chatRequest_answered _ _, rfl, rfl, rfl⟩⟩

end RouteSmith.Model

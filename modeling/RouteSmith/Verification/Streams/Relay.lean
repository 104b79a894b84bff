import RouteSmith.Verification.Streams.Endings
import RouteSmith.Verification.Streams.Loop

/-! # The relay follows its upstream

Step by step, the state of the relay tracks the digest of what was read. The one way out of the
loop that is not announced to the client is the first name of a tool call that the policy does
not accept.
-/

namespace RouteSmith.Model

open Control Text ToolState List

def anthropicProtocol : StreamProtocol AnthropicEvent where
  terminates
    | .messageStop => true
    | _ => false
  fails
    | .error _ _ => true
    | _ => false
  fails_of_terminates event h := by
    cases event with
    | error => cases h
    | _ => rfl

namespace AnthropicRelay

/-- The name that a call has so far passes the policy. -/
abbrev accepts (relay : AnthropicRelay) (state : ToolState) : Bool :=
  (relay.toolPolicy.validateName state.name).isOk

/-- The state after reading the choices of a digest, while nothing has decided how the stream
ends. -/
structure Tracks (relay : AnthropicRelay) (d : Digest) (done started : Bool) (s : RelayState) :
    Prop where
  stream_done : s.streamDone = done
  messageStarted : s.messageStarted = started
  text : s.textSeen = d.text
  finishReason : s.upstreamFinishReason = d.finishReason
  saw : s.sawFinishReason = d.finishReason.isSome
  finished : d.finishReason.isSome = true → done = true
  accepted : ¬NameRejected relay.toolPolicy d.fragments
  tools : ∀ key : ℕ, (s.tools[key]?).map (·.described relay.deduplicateToolArguments) =
    ((collectTools relay.deduplicateToolArguments d.fragments)[key]?).map
      (·.described relay.deduplicateToolArguments)
  named : ∀ (key : ℕ) state, s.tools[key]? = some state → state.started = state.name.isSome
  plain : ∀ a ∈ s.trace, anthropicProtocol.plain a = true

/-- The error that leaves the loop: a call was given a name that the policy does not accept. -/
structure Escapes (relay : AnthropicRelay) (fragments : List ToolFragment) (h : Halt)
    (s : RelayState) : Prop where
  failed : ∃ e, h = .failed e
  rejected : NameRejected relay.toolPolicy fragments
  plain : ∀ a ∈ s.trace, anthropicProtocol.plain a = true

section

variable {relay : AnthropicRelay} {d : Digest} {done started : Bool} {s : RelayState}

variable {a : StreamAction AnthropicEvent} {Q : PUnit → RelayState → Prop}

theorem Tracks.act (h : Tracks relay d done started s) (ha : anthropicProtocol.plain a = true) :
    Tracks relay d done started { s with trace := s.trace ++ [a] } :=
  { h with plain := forall_mem_append.mpr ⟨h.plain, forall_mem_singleton.mpr ha⟩ }

variable {E : Halt → RelayState → Prop}

@[simp] theorem ensures_act :
    Ensures (act a) Q E s ↔ Q ⟨⟩ { s with trace := s.trace ++ [a] } := Iff.rfl

@[simp] theorem ensures_emit {event : AnthropicEvent} :
    Ensures (emit event) Q E s ↔ Q ⟨⟩ { s with trace := s.trace ++ [.event event] } := Iff.rfl

/-! ## Steady conditions -/

/-- A condition that plain actions and the handing out of identifiers leave true. -/
structure Steady (P : RelayState → Prop) : Prop where
  act : ∀ {s : RelayState} {a : StreamAction AnthropicEvent}, P s →
    anthropicProtocol.plain a = true →
    P { s with trace := s.trace ++ [a] }
  uuids : ∀ {s : RelayState} (n : ℕ), P s → P { s with uuids := n }

theorem steady_tracks : Steady (Tracks relay d done started) where
  act h ha := h.act ha
  uuids _ h := { h with }

variable {P : RelayState → Prop}

theorem Steady.startToolState (hP : Steady P) (h : P s) (state : ToolState) :
    Ensures (relay.startToolState state)
      (fun r t => P t ∧ relay.accepts state = true ∧ r = { state with started := true })
      (fun e t => P t ∧ (∃ error, e = .failed error) ∧ relay.accepts state = false) s := by
  have hid : Ensures (relay.toolId state) (fun _ => P) (fun _ _ => False) s := by
    rw [toolId]
    cases state.upstreamId with
    | some => exact h
    | none => exact hP.uuids (s.uuids + 1) h
  rw [AnthropicRelay.startToolState, ensures_bind]
  refine hid.mono (fun _ t ht => ?_) fun _ _ => False.elim
  unfold accepts
  cases relay.toolPolicy.validateName state.name with
  | error e => exact ⟨ht, ⟨e, rfl⟩, rfl⟩
  | ok => exact ⟨hP.act ht (by rfl), rfl, rfl⟩

theorem Steady.flushToolArguments (hP : Steady P) (h : P s) (state : ToolState) :
    Ensures (relay.flushToolArguments state) (fun r t => P t ∧
        r.started = state.started ∧ r.name = state.name ∧
        r.described relay.deduplicateToolArguments =
          state.described relay.deduplicateToolArguments) E s := by
  rw [AnthropicRelay.flushToolArguments]
  split_ifs with hkept
  · exact ⟨h, rfl, rfl, rfl⟩
  · simp only [Bool.or_eq_true, not_or] at hkept
    exact ⟨hP.act h (by rfl), rfl, rfl, by simp [described, hkept.1]⟩

/-! ## Tool calls -/

variable (h : Tracks relay d done started s)

include h

theorem Tracks.toolEntry (key : ℕ) :
    Ensures (toolEntry key) (fun state t => Tracks relay d done started t ∧
        state.started = state.name.isSome ∧
        state.described relay.deduplicateToolArguments =
          (((collectTools relay.deduplicateToolArguments d.fragments)[key]?).getD
            { index := 0 }).described relay.deduplicateToolArguments) E s := by
  have htools := h.tools key
  rw [AnthropicRelay.toolEntry, ensures_bind, ensures_get]
  cases hstate : s.tools[key]? with
  | some state =>
    rw [hstate] at htools
    obtain ⟨call, hcall, heq⟩ := Option.map_eq_some_iff.mp htools.symm
    refine ⟨h, h.named key state hstate, ?_⟩
    rw [hcall, Option.getD_some, heq]
  | none =>
    rw [hstate, Option.map_none, eq_comm, Option.map_eq_none_iff] at htools
    refine ⟨{ h with }, rfl, ?_⟩
    rw [htools]
    rfl

theorem Tracks.insert {fragment : ToolFragment} {state : ToolState}
    (hstarted : state.started = state.name.isSome)
    (hdescribed : state.described relay.deduplicateToolArguments =
      ((((collectTools relay.deduplicateToolArguments d.fragments)[fragment.key]?).getD
        { index := 0 }).take fragment relay.deduplicateToolArguments).described
          relay.deduplicateToolArguments)
    (haccepted : ¬NameRejected relay.toolPolicy (d.fragments ++ [fragment])) :
    Tracks relay { d with fragments := d.fragments ++ [fragment] } done started
      { s with tools := s.tools.insert fragment.key state } where
  stream_done := h.stream_done
  messageStarted := h.messageStarted
  text := h.text
  finishReason := h.finishReason
  saw := h.saw
  finished := h.finished
  accepted := haccepted
  tools key := by
    rw [collectTools_append_singleton, Std.TreeMap.getElem?_insert, Std.TreeMap.getElem?_insert]
    split_ifs
    · simp [hdescribed]
    · exact h.tools key
  named key state' hstate' := by
    rw [Std.TreeMap.getElem?_insert] at hstate'
    split_ifs at hstate'
    · cases hstate'
      exact hstarted
    · exact h.named key _ hstate'
  plain := h.plain

theorem Tracks.startNamedTool (observed : ℕ) (state : ToolState)
    (hnamed : state.started = true → state.name.isSome = true) :
    Ensures (relay.startNamedTool observed state)
      (fun r t => Tracks relay d done started t ∧ r.started = r.name.isSome ∧
        r.described relay.deduplicateToolArguments =
          state.described relay.deduplicateToolArguments ∧
        (state.started = false → state.name.isSome = true → relay.accepts state = true))
      (fun e t => (∀ a ∈ t.trace, anthropicProtocol.plain a = true) ∧ (∃ error, e = .failed error) ∧
        state.started = false ∧ state.name.isSome = true ∧ relay.accepts state = false) s := by
  rw [AnthropicRelay.startNamedTool]
  split_ifs with hstart
  · obtain ⟨hstarted, hname⟩ : state.started = false ∧ state.name.isSome = true := by
      simpa using hstart
    simp only [ensures_bind, ensures_get, ensures_act]
    refine (steady_tracks.startToolState (h.act (by rfl)) _).mono (fun r t hr => ?_)
      fun e t he => ⟨he.1.plain, he.2.1, hstarted, hname, he.2.2⟩
    obtain ⟨ht, hok, rfl⟩ := hr
    refine (steady_tracks.flushToolArguments ht _).imp fun r u hu => ?_
    obtain ⟨hu, hrstarted, hrname, hrdescribed⟩ := hu
    refine ⟨hu, ?_, hrdescribed, fun _ _ => hok⟩
    rw [hrstarted, hrname, hname]
  · refine ⟨h, ?_, rfl, fun hstarted hname => absurd (by simp [hstarted, hname]) hstart⟩
    cases hstarted : state.started with
    | true => exact (hnamed hstarted).symm
    | false => simpa [hstarted] using hstart

theorem Tracks.flushToolArgumentsIfStarted (wasStarted : Bool) (state : ToolState) :
    Ensures (relay.flushToolArgumentsIfStarted wasStarted state)
      (fun r t => Tracks relay d done started t ∧ r.started = state.started ∧ r.name = state.name ∧
        r.described relay.deduplicateToolArguments =
          state.described relay.deduplicateToolArguments) E s := by
  rw [AnthropicRelay.flushToolArgumentsIfStarted]
  split_ifs
  · exact steady_tracks.flushToolArguments h _
  · exact ⟨h, rfl, rfl, rfl⟩

theorem Tracks.relayToolFragment (fragment : ToolFragment) :
    Ensures (relay.relayToolFragment fragment)
      (fun _ t => Tracks relay { d with fragments := d.fragments ++ [fragment] } done started t)
      (Escapes relay (d.fragments ++ [fragment])) s := by
  refine (h.toolEntry _).bind fun entry t h => ?_
  obtain ⟨ht, hentry, hdescribed⟩ := h
  have hearlier : entry.name = none ↔
      ∀ earlier ∈ d.fragments, earlier.key = fragment.key → earlier.name = none := by
    rw [← name_collectTools_eq_none]
    have hname := congrArg name hdescribed
    simp only [described] at hname
    rw [hname]
    cases (collectTools relay.deduplicateToolArguments d.fragments)[fragment.key]? <;> rfl
  -- the call has no name before this fragment as long as it is not started
  have hunnamed : entry.started = false → entry.name = none := fun hstarted => by
    simpa [hstarted] using hentry
  refine (ht.flushToolArgumentsIfStarted _ _).bind fun flushed u hu => ?_
  obtain ⟨hu, hstarted, hname, hflushed⟩ := hu
  rw [started_take] at hstarted
  rw [name_take] at hname
  have hnamed : flushed.started = true → flushed.name.isSome = true := fun hflushedStarted => by
    rw [hstarted, hentry] at hflushedStarted
    simp [hname, hflushedStarted]
  rw [ensures_bind]
  refine (hu.startNamedTool _ _ hnamed).mono (fun _ v hv => ?_) fun e v he => ⟨he.2.1, ?_, he.1⟩
  · obtain ⟨hv, hstate, hstateDescribed, hok⟩ := hv
    refine hv.insert hstate ?_ ?_
    · rw [hstateDescribed, hflushed, described_take_congr hdescribed]
    · rw [nameRejected_append_singleton]
      rintro (hrejected | ⟨name, hfragment, hrejected, hfirst⟩)
      · exact h.accepted hrejected
      · have hnone := hearlier.mpr hfirst
        have hfresh : flushed.started = false := by rw [hstarted, hentry, hnone]; rfl
        have hflushedName : flushed.name = some name := by rw [hname, hfragment]; rfl
        have := hok hfresh (by rw [hflushedName]; rfl)
        rw [accepts, hflushedName, hrejected] at this
        cases this
  · obtain ⟨-, -, hfresh, hsome, hrejected⟩ := he
    have hnone := hunnamed (hstarted ▸ hfresh)
    rw [hnone, Option.or_none] at hname
    obtain ⟨name, hfragment⟩ := Option.isSome_iff_exists.mp (hname ▸ hsome)
    rw [accepts, hname, hfragment] at hrejected
    exact nameRejected_append_singleton.mpr (.inr ⟨name, hfragment, hrejected, hearlier.mp hnone⟩)

omit h in
theorem Escapes.mono {fragments all : List ToolFragment} {e : Halt}
    (h : Escapes relay fragments e s) (hfragments : fragments <+: all) : Escapes relay all e s :=
  { h with rejected := h.rejected.mono hfragments }

theorem Tracks.relayToolFragments (delta : OpenAiStreamDelta) :
    Ensures (relay.relayToolFragments delta)
      (fun _ t => Tracks relay { d with fragments := d.fragments ++ delta.fragments }
        done started t)
      (Escapes relay (d.fragments ++ delta.fragments)) s := by
  refine ensures_for (I := fun before t =>
      Tracks relay { d with fragments := d.fragments ++ before } done started t)
    (by simpa using h) fun before fragment after t hsplit ht => ?_
  refine (ht.relayToolFragment fragment).mono (fun _ u hu => ?_) fun e u he => ?_
  · simpa using hu
  · exact he.mono (by simp [hsplit])

/-! ## Choices -/

theorem Tracks.textBlock : Ensures textBlock (fun _ t => Tracks relay d done started t) E s := by
  rw [AnthropicRelay.textBlock, ensures_bind, ensures_get]
  cases s.textIndex with
  | some => exact h
  | none =>
    refine Tracks.act (a := .event (.textBlockStart s.nextIndex)) ?_ rfl
    exact { h with }

theorem Tracks.relayContent (content : String) (delta : OpenAiStreamDelta) :
    let read := textDelta d.text content relay.deduplicateStreamText
    let fragments := d.fragments ++ (if isEmpty read.1 then [] else delta.fragments)
    Ensures (relay.relayContent content delta)
      (fun _ t => Tracks relay ⟨read.2, fragments, d.finishReason⟩ done started t)
      (Escapes relay fragments) s := by
  intro read fragments
  have hseen : Tracks relay { d with text := read.2 } done started { s with textSeen := read.2 } :=
    { h with text := rfl }
  rw [AnthropicRelay.relayContent, ensures_bind, ensures_get, h.text]
  dsimp only
  rw [ensures_bind, ensures_set]
  by_cases hempty : isEmpty read.1
  · rw [if_pos hempty]
    simpa [fragments, hempty] using hseen
  · have hobserved :=
      hseen.act (a := .update (.fragment s.tools.size true s.upstreamFinishReason)) rfl
    rw [if_neg hempty, ensures_bind, ensures_act]
    refine hobserved.textBlock.bind fun index t ht => ?_
    rw [ensures_bind, ensures_emit]
    have hemitted := ht.act (a := .event (.textDelta index read.1)) rfl
    simpa [fragments, hempty] using hemitted.relayToolFragments _

theorem Tracks.noteFinishReason (reason : Option String) : Ensures (noteFinishReason reason)
      (fun _ t => Tracks relay { d with finishReason := reason.or d.finishReason }
        (done || reason.isSome) started t) E s := by
  cases reason with
  | none => simpa [AnthropicRelay.noteFinishReason] using h
  | some =>
    exact { h with stream_done := by simp, finishReason := rfl, saw := rfl, finished := by simp }

theorem Tracks.relayChoice (choice : OpenAiStreamChoice) : Ensures (relay.relayChoice choice)
      (fun _ t => Tracks relay (d.add relay.deduplicateStreamText choice)
        (done || choice.finishReason.isSome) started t)
      (Escapes relay (d.add relay.deduplicateStreamText choice).fragments) s := by
  refine (h.noteFinishReason _).bind fun _ t ht => ?_
  rw [Digest.add]
  cases choice.delta.content with
  | none => exact ht.relayToolFragments choice.delta
  | some content => exact ht.relayContent content choice.delta

/-! ## Chunks -/

theorem Tracks.startMessage :
    Ensures relay.startMessage (fun _ t => Tracks relay d done true t) E s := by
  rw [AnthropicRelay.startMessage, ensures_bind, ensures_get]
  split_ifs with hstarted
  · exact { h with messageStarted := hstarted }
  · have hemitted := h.act (a := .event (.messageStart relay.messageId relay.model)) rfl
    exact { hemitted with messageStarted := rfl }

theorem Tracks.noteUsage (usage : Option Json) :
    Ensures (noteUsage usage) (fun _ t => Tracks relay d done started t) E s := by
  rw [AnthropicRelay.noteUsage]
  split
  · exact h
  · exact h.act (by rfl)

end

/-! ## Frames -/

variable {relay : AnthropicRelay} {r : Reading} {s : RelayState}

/-- The reading goes on. -/
structure Live (relay : AnthropicRelay) (r : Reading) (s : RelayState) : Prop where
  ending : r.ending = none
  tracks : ∃ started, Tracks relay (digest relay.deduplicateStreamText r.choices) false started s

/-- The upstream has terminated the stream. -/
structure Over (relay : AnthropicRelay) (r : Reading) (s : RelayState) : Prop where
  ending : r.ending = some .terminated
  tracks : Tracks relay (digest relay.deduplicateStreamText r.choices) true true s

/-- The client was told of a failure, and nothing else was decided before. -/
structure Reports (e : Halt) (s : RelayState) : Prop where
  returned : e = .returned
  fails : anthropicProtocol.Fails s.trace

/-- The ways out of the loop. -/
inductive Exits (relay : AnthropicRelay) (r : Reading) (e : Halt) (s : RelayState) : Prop
  | escapes (h : Escapes relay (digest relay.deduplicateStreamText r.choices).fragments e s)
  | reports (h : Reports e s) (hending : r.ending.isSome = true)
      (hterminated : r.ending ≠ some .terminated)
      (haccepted : ¬NameRejected relay.toolPolicy
        (digest relay.deduplicateStreamText r.choices).fragments)

variable {E : Halt → RelayState → Prop} {tools : List ToolState}

theorem ensures_fail {α : Type} {error : AppError} {Q : α → RelayState → Prop}
    (hplain : ∀ a ∈ s.trace, anthropicProtocol.plain a = true)
    (hE : ∀ t, Reports .returned t → E .returned t) : Ensures (fail error) Q E s :=
  hE _ ⟨rfl, s.trace, error.display, anthropicErrorEvent error, by simp, hplain, rfl⟩

theorem loopInvariant_tracks (relay : AnthropicRelay) :
    LoopInvariant relay (Tracks relay) (Escapes relay)
      (fun d e t => Reports e t ∧ ¬NameRejected relay.toolPolicy d.fragments) where
  startMessage h := h.startMessage
  noteUsage usage h := h.noteUsage _
  relayChoice choice h := h.relayChoice _
  fail _ h := ensures_fail h.plain fun _ ht => ⟨ht, h.accepted⟩
  finish h := { h with stream_done := rfl, finished := fun _ => rfl }
  streamDone h := h.stream_done
  unfinished h := by
    rw [h.saw]
    simpa using mt h.finished Bool.false_ne_true
  mono h hfragments := h.mono hfragments

theorem Live.relayFrames (h : Live relay r s) (frames : SseFrameStream) :
    Ensures (relay.relayFrames frames)
      (fun _ t => Live relay (frames.foldl (.frame relay.decodeChunk) r) t ∨
        Over relay (frames.foldl (.frame relay.decodeChunk) r) t)
      (Exits relay (frames.foldl (.frame relay.decodeChunk) r)) s := by
  refine ((loopInvariant_tracks _).relayFrames ⟨h.ending, h.tracks⟩ _).mono
    (fun _ t ht => ?_) fun e t he => ?_
  · rcases ht with ⟨hending, htracks⟩ | ⟨hending, htracks⟩
    · exact .inl ⟨hending, htracks⟩
    · exact .inr ⟨hending, htracks⟩
  · rcases he with he | ⟨hending, hterminated, hreports, haccepted⟩
    · exact .escapes he
    · exact .reports hreports hending hterminated haccepted

/-! ## The end of a stream -/

/-- The record was marked completed, and nothing but plain actions surround the mark. -/
structure Closing (s : RelayState) : Prop where
  trace : ∃ before after, s.trace = before ++ .update .completed :: after ∧
    (∀ a ∈ before, anthropicProtocol.plain a = true) ∧ ∀ a ∈ after, anthropicProtocol.plain a = true

theorem steady_closing : Steady Closing where
  act h ha := by
    obtain ⟨before, after, htrace, hbefore, hafter⟩ := h.trace
    refine ⟨before, after ++ [_], ?_, hbefore,
      forall_mem_append.mpr ⟨hafter, forall_mem_singleton.mpr ha⟩⟩
    simp [htrace]
  uuids _ h := ⟨h.trace⟩

variable {state : ToolState} {finishReason : Option String}

theorem Closing.closeTool (h : Closing s) (hname : relay.accepts state = true) :
    Ensures (relay.closeTool state) (fun _ t => Closing t) E s := by
  have hlate : Ensures (relay.startLateTool state) (fun _ => Closing) E s := by
    rw [startLateTool]
    split_ifs
    · refine (steady_closing.startToolState h _).mono (fun _ _ ht => ht.1) fun _ _ he => ?_
      rw [hname] at he
      cases he.2.2
    · exact h
  refine hlate.bind fun started t ht => ?_
  split_ifs
  · rw [ensures_bind]
    have harguments : Ensures (relay.closeToolArguments started) (fun _ => Closing) E t := by
      rw [closeToolArguments]
      split
      · exact steady_closing.act ht (by rfl)
      · exact (steady_closing.flushToolArguments ht _).bind fun _ _ hu => hu.1
    exact harguments.imp fun _ u hu => steady_closing.act hu (by rfl)
  · exact ht

theorem Over.complete (h : Over relay r s)
    (hnames : ∀ state ∈ toolStates s.tools, relay.accepts state = true) :
    Ensures relay.complete (fun _ t => anthropicProtocol.Completes t.trace) E s := by
  have hclosing : Closing { s with trace := s.trace ++
      [.update (.fragment s.tools.size (!isEmpty s.textSeen) s.upstreamFinishReason)] ++
      [.update .completed] } := by
    refine ⟨_, [], rfl, ?_, by simp⟩
    exact (h.tracks.act (by rfl)).plain
  have htext : ∀ {t}, Closing t →
      Ensures (closeText s.textIndex) (fun _ => Closing) E t := by
    intro t ht
    cases s.textIndex with
    | none => exact ht
    | some => exact steady_closing.act ht (by rfl)
  refine (htext hclosing).bind fun _ t ht => ?_
  refine (ensures_forIn (I := fun _ => Closing) (R := fun _ => False) ht
    fun before _ after u hsplit hu => ?_).bind fun _ u hu => ?_
  · rw [ensures_bind]
    exact hu.closeTool (hnames _ (by simp [hsplit]))
  · obtain ⟨before, after, htrace, hbefore, hafter⟩ :=
      (steady_closing.act (a := .event (.messageDelta s.finishReason)) (hu.resolve_right id)
        rfl).trace
    refine ⟨before, after, .messageStop, ?_, hbefore, hafter, rfl⟩
    dsimp only at htrace
    simp [htrace]

/-! ## The checks before the end -/

theorem toolArguments_described (state : ToolState) :
    relay.toolArguments (state.described relay.deduplicateToolArguments) =
      relay.toolArguments state := by
  rw [toolArguments, toolArguments]
  cases hdeduplicate : relay.deduplicateToolArguments <;>
    simp [described, completeArguments]

theorem validateTool_described (ids : List String) (state : ToolState) :
    relay.validateTool ids (state.described relay.deduplicateToolArguments) =
      relay.validateTool ids state := by
  rw [validateTool, toolArguments_described]
  rfl

theorem validateTools_congr {tools' : List ToolState}
    (h : tools.map (·.described relay.deduplicateToolArguments) =
      tools'.map (·.described relay.deduplicateToolArguments)) (finishReason : Option String) :
    relay.validateTools tools finishReason = relay.validateTools tools' finishReason := by
  have hmap : ∀ tools, relay.validateTools
      (tools.map (·.described relay.deduplicateToolArguments)) finishReason =
        relay.validateTools tools finishReason := fun _ => by
    simp only [validateTools, foldlM_map, validateTool_described, length_map]
  rw [← hmap, h, hmap]

theorem forall_mem_of_foldlM_ok {α β : Type} {f : β → α → Except AppError β} {p : α → Prop}
    (hf : ∀ b x b', f b x = .ok b' → p x) {xs : List α} {b b' : β}
    (h : xs.foldlM f b = .ok b') : ∀ x ∈ xs, p x := by
  induction xs generalizing b with
  | nil => simp
  | cons x xs ih =>
    rw [foldlM_cons, bind_eq_ok_iff] at h
    obtain ⟨b₁, hx, hxs⟩ := h
    exact forall_mem_cons.mpr ⟨hf b x b₁ hx, ih hxs⟩

theorem validateTool_ok {ids ids' : List String} (h : relay.validateTool ids state = .ok ids') :
    ∃ name value, relay.toolPolicy.validateName state.name = .ok name ∧
      relay.toolPolicy.parseArguments relay.reader name (relay.toolArguments state) =
        .ok value := by
  rw [validateTool, bind_eq_ok_iff] at h
  obtain ⟨name, hname, h⟩ := h
  -- whatever becomes of the identifiers, the arguments are parsed behind them
  have hparsed : ∀ {x}, (x >>= fun ids => do
      let _ ← relay.toolPolicy.parseArguments relay.reader name (relay.toolArguments state)
      pure ids) = .ok ids' → ∃ name value, relay.toolPolicy.validateName state.name = .ok name ∧
        relay.toolPolicy.parseArguments relay.reader name (relay.toolArguments state) =
          .ok value := by
    intro x hx
    obtain ⟨_, -, hx⟩ := bind_eq_ok_iff.mp hx
    obtain ⟨value, hvalue, -⟩ := bind_eq_ok_iff.mp hx
    exact ⟨name, value, hname, hvalue⟩
  split at h
  · split_ifs at h
    · exact hparsed h
    · exact hparsed h
    · exact hparsed h
  · exact hparsed h

theorem validateTools_ok (h : (relay.validateTools tools finishReason).isOk = true) :
    ∃ ids, tools.foldlM relay.validateTool [] = .ok ids ∧
      relay.toolPolicy.validateCallSummary tools.length finishReason = .ok () := by
  cases hresult : relay.validateTools tools finishReason with
  | error =>
    rw [hresult] at h
    cases h
  | ok => rwa [validateTools, bind_eq_ok_iff] at hresult

theorem validateName_of_validateTools {u : Unit}
    (h : relay.validateTools tools finishReason = .ok u) :
    ∀ state ∈ tools, relay.accepts state = true := by
  obtain ⟨_, hids, -⟩ := validateTools_ok (by rw [h]; rfl)
  refine forall_mem_of_foldlM_ok (fun _ _ _ hstate => ?_) hids
  obtain ⟨_, -, hname, -⟩ := validateTool_ok hstate
  rw [accepts, hname]
  rfl

/-! ## Whole streams -/

/-- What the frames of an upstream say. -/
def digestOf (relay : AnthropicRelay) (frames : List (Except AppError SseFrame)) : Digest :=
  digest relay.deduplicateStreamText (readFrames relay.decodeChunk frames).choices

/-- The upstream terminates the stream, the calls are named acceptably from the start, and pass
the checks of the policy in the end. -/
structure Succeeds (relay : AnthropicRelay) (frames : List (Except AppError SseFrame)) : Prop where
  terminated : (readFrames relay.decodeChunk frames).ending = some .terminated
  accepted : ¬NameRejected relay.toolPolicy (relay.digestOf frames).fragments
  validated : (relay.validateTools (toolStates (collectTools relay.deduplicateToolArguments
    (relay.digestOf frames).fragments)) (relay.digestOf frames).finishReason).isOk = true

theorem ensures_run (frames : SseFrameStream) : Ensures (relay.run frames)
      (fun _ t => anthropicProtocol.Completes t.trace ∧ Succeeds relay frames)
      (fun e t => Escapes relay (relay.digestOf frames).fragments e t ∨
        (Reports e t ∧ ¬Succeeds relay frames ∧
          ¬NameRejected relay.toolPolicy (relay.digestOf frames).fragments)) {} := by
  have hinit : Live relay {} {} := by
    refine ⟨rfl, false, rfl, rfl, rfl, rfl, rfl, by simp [digest], ?_,
      by simp [digest, collectTools], by simp, by simp⟩
    rintro ⟨_, _, _, _, hsplit, -⟩
    simp [digest] at hsplit
  rw [run, ensures_bind]
  refine (hinit.relayFrames _).mono (fun _ t ht => ?_) fun e t he => ?_
  · rw [ensures_bind, ensures_get]
    rcases ht with ⟨hending, _, htracks⟩ | hover
    · have hunfinished : t.sawFinishReason = false := by
        rw [htracks.saw]
        simpa using mt htracks.finished Bool.false_ne_true
      rw [if_pos (by simp [htracks.stream_done, hunfinished])]
      refine ensures_fail htracks.plain fun u hu =>
        .inr ⟨hu, fun hsucceeds => ?_, htracks.accepted⟩
      have hterminated := hsucceeds.terminated
      rw [readFrames, hending] at hterminated
      cases hterminated
    · have htracks := hover.tracks
      rw [if_neg (by simp [htracks.stream_done]), if_neg (by simp [htracks.messageStarted])]
      have hvalidated := validateTools_congr (map_toolStates_congr htracks.tools)
        t.upstreamFinishReason
      cases hvalid : relay.validateTools (toolStates t.tools) t.upstreamFinishReason with
      | error =>
        refine ensures_fail htracks.plain fun u hu =>
          .inr ⟨hu, fun hsucceeds => ?_, htracks.accepted⟩
        have hok := hsucceeds.validated
        rw [hvalid, htracks.finishReason] at hvalidated
        rw [digestOf, readFrames, ← hvalidated] at hok
        cases hok
      | ok =>
        refine (hover.complete (validateName_of_validateTools hvalid)).imp
          fun _ v hv => ⟨hv, hover.ending, htracks.accepted, ?_⟩
        rw [hvalid, htracks.finishReason] at hvalidated
        rw [digestOf, readFrames, ← hvalidated]
        rfl
  · cases he with
    | escapes h => exact .inl h
    | reports h _ hterminated haccepted =>
      exact .inr ⟨h, fun hsucceeds => hterminated hsucceeds.terminated, haccepted⟩

/-- The three ways in which a stream ends. -/
inductive Ends (relay : AnthropicRelay) (frames : List (Except AppError SseFrame))
    (trace : List (StreamAction AnthropicEvent)) : Prop
  | completes (htrace : anthropicProtocol.Completes trace) (h : Succeeds relay frames)
  | fails (htrace : anthropicProtocol.Fails trace) (h : ¬Succeeds relay frames)
      (haccepted : ¬NameRejected relay.toolPolicy (relay.digestOf frames).fragments)
  | raises (htrace : anthropicProtocol.Raises trace)
      (hrejected : NameRejected relay.toolPolicy (relay.digestOf frames).fragments)

end AnthropicRelay

theorem ends_openaiStreamToAnthropic (relay : AnthropicRelay)
    (frames : SseFrameStream) :
    relay.Ends frames (openaiStreamToAnthropic relay frames) := by
  have hrun := @AnthropicRelay.ensures_run relay frames
  rw [Ensures] at hrun
  rw [openaiStreamToAnthropic]
  cases hresult : relay.run frames {} with
  | ok =>
    rw [hresult] at hrun
    exact .completes hrun.1 hrun.2
  | error e s =>
    rw [hresult] at hrun
    rcases hrun with ⟨⟨error, rfl⟩, hrejected, hplain⟩ | ⟨⟨rfl, hfails⟩, hsucceeds, haccepted⟩
    · exact .raises ⟨s.trace, error, rfl, hplain⟩ hrejected
    · exact .fails hfails hsucceeds haccepted

namespace AnthropicRelay

variable {relay : AnthropicRelay} {frames : SseFrameStream}

theorem messageStop_mem_of_any {items : List (Except AppError AnthropicEvent)}
    (h : items.any anthropicProtocol.isTerminator = true) : .ok .messageStop ∈ items := by
  obtain ⟨item, hmem, hterminator⟩ := any_eq_true.mp h
  cases item with
  | error => cases hterminator
  | ok event =>
    cases event with
    | messageStop => exact hmem
    | _ => cases hterminator

theorem messageStop_mem_iff :
    .ok .messageStop ∈ itemsOf (openaiStreamToAnthropic relay frames) ↔
      Succeeds relay frames := by
  cases ends_openaiStreamToAnthropic relay frames with
  | completes htrace h =>
    obtain ⟨_, event, hitems, hevent, -⟩ := htrace.items
    cases event with
    | messageStop => simp [hitems, h]
    | _ => cases hevent
  | fails htrace h =>
    obtain ⟨_, _, hitems, hevent, hrest⟩ := htrace.items
    refine iff_of_false (fun hmem => ?_) h
    rw [hitems, mem_append, mem_singleton] at hmem
    rcases hmem with hmem | ⟨⟨⟩⟩
    · cases hrest _ hmem
    · cases hevent
  | raises htrace hrejected =>
    exact iff_of_false (fun hmem => nomatch htrace.items _ hmem) (·.accepted hrejected)

theorem state_eq_completed_iff (elapsed : ℕ → ℕ) :
    (lifecycleAfter elapsed (openaiStreamToAnthropic relay frames)).state = .completed ↔
      Succeeds relay frames := by
  cases ends_openaiStreamToAnthropic relay frames with
  | completes htrace h => simp [htrace.state, h]
  | fails htrace h =>
    obtain ⟨_, hstate⟩ := htrace.state elapsed
    simp [hstate, h]
  | raises htrace hrejected =>
    rw [htrace.state]
    exact iff_of_false nofun (·.accepted hrejected)

end AnthropicRelay

end RouteSmith.Model

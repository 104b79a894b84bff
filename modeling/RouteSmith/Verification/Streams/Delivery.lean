import RouteSmith.Verification.Streams.Blocks

/-! # What the client of a relay puts together

The message of the client follows the digest of what was read, from choice to choice and to the
end, where all blocks are closed. From this follows what the message of a complete stream holds,
and that a stream that breaks off is the beginning of one.
-/

namespace RouteSmith.Model

open Control Text Function Option AnthropicRelay ToolState StreamProtocol
open Assembled hiding take
open List hiding isEmpty

namespace AnthropicRelay

section

variable {C D : ℕ → ToolState → Option Block → Prop} {keys : List ℕ} {text : String}
  {textClosed : Bool} {m : Assembled} {calls : ℕ → Option ToolState} {s : RelayState}
  {relay : AnthropicRelay} {key : ℕ} {state : ToolState} {d : Digest}

/-! ## Choices and chunks -/

/-- The state follows the digest, and so does the message of the client. -/
structure Follows (relay : AnthropicRelay) (d : Digest) (done started : Bool) (s : RelayState) :
    Prop where
  tracks : Tracks relay d done started s
  relays : Relays relay d s

variable {done started : Bool}

theorem Follows.relayToolFragments (h : Follows relay d done true s) (delta : OpenAiStreamDelta) :
    Ensures (relay.relayToolFragments delta)
      (fun _ t => Follows relay { d with fragments := d.fragments ++ delta.fragments } done true t)
      (fun e t => Escapes relay (d.fragments ++ delta.fragments) e t ∧ Sound t.trace) s := by
  refine ensures_for (I := fun before t =>
      Follows _ { d with fragments := d.fragments ++ before } done true t)
    (by simpa using h) fun _ _ _ t hsplit ht => ?_
  refine ((ht.tracks.relayToolFragment _).and (ht.relays.relayToolFragment _
    ht.tracks.named ht.tracks.messageStarted)).mono (fun _ u hu => ?_) fun e u he => ?_
  · simpa using mk hu.1 hu.2
  · exact ⟨he.1.mono (by simp [hsplit]), he.2⟩

theorem Relays.act (h : Relays relay d s) {a : StreamAction AnthropicEvent} (ha : a.event? = none) :
    Relays relay d { s with trace := s.trace ++ [a] } :=
  let ⟨m, h⟩ := h
  ⟨m, h.act ha⟩

variable {E : Halt → RelayState → Prop} {o : Opening}

theorem Relays.textBlock (h : Relays relay d s) (hstarted : s.messageStarted = true) :
    Ensures textBlock (fun i t => Relays relay d t ∧ t.textIndex = some i) E s := by
  rw [AnthropicRelay.textBlock, ensures_bind, ensures_get]
  cases htext : s.textIndex with
  | some => exact ⟨h, htext⟩
  | none =>
    obtain ⟨m, h⟩ := h
    have htake : m.take (.textBlockStart s.nextIndex) =
        some (m.put s.nextIndex ⟨.text, d.text, false⟩) := by
      rw [h.noText htext]
      exact openBlock_eq_some.mpr ⟨h.live hstarted, h.blocks_nextIndex, rfl⟩
    exact ⟨⟨_, h.setText ((h.events_emit _).trans htake) (.inr ⟨htext, rfl, rfl⟩)⟩, rfl⟩

theorem Relays.emitText (h : Relays relay d s) (hstarted : s.messageStarted = true) {i : ℕ}
    (hi : s.textIndex = some i) (text : String) :
    Relays relay { d with text := d.text ++ text }
      { s with trace := s.trace ++ [.event (.textDelta i text)] } := by
  obtain ⟨m, h⟩ := h
  exact ⟨_, h.changeText hi (take_delta (h.textBlock i hi) (h.live hstarted) text)⟩

theorem Follows.relayContent (h : Follows relay d done true s) (content : String)
    (delta : OpenAiStreamDelta) :
    let read := textDelta d.text content relay.deduplicateStreamText
    let fragments := d.fragments ++ (if isEmpty read.1 then [] else delta.fragments)
    Ensures (relay.relayContent content delta)
      (fun _ => Follows relay ⟨read.2, fragments, d.finishReason⟩ done true)
      (fun e t => Escapes relay fragments e t ∧ Sound t.trace) s := by
  intro read fragments
  obtain ⟨htracks, hrelays⟩ := h
  have hread : read.2 = d.text ++ read.1 := textDelta_snd ..
  have hseen : Tracks relay { d with text := read.2 } done true { s with textSeen := read.2 } :=
    { htracks with text := rfl }
  have hkept : Relays relay d { s with textSeen := read.2 } := hrelays.imp fun _ hm => { hm with }
  rw [AnthropicRelay.relayContent, ensures_bind, ensures_get, htracks.text]
  rw [ensures_bind, ensures_set]
  by_cases hempty : isEmpty read.1
  · rw [if_pos hempty]
    have htext : read.2 = d.text := by
      rw [hread, String.toList_eq_nil_iff.mp (isEmpty_iff.mp hempty), String.append_empty]
    have hfollows : Follows relay { d with text := read.2 } done true
        { s with textSeen := read.2 } := ⟨hseen, by rwa [htext] at hkept ⊢⟩
    simpa [fragments, hempty] using hfollows
  · rw [if_neg hempty, ensures_bind]
    refine ((hseen.act (by rfl)).textBlock.both
      ((hkept.act (by rfl)).textBlock htracks.messageStarted)).bind fun i t h => ?_
    obtain ⟨ht, hrt, hi⟩ := h
    have hsent := hrt.emitText ht.messageStarted hi read.1
    rw [← hread] at hsent
    simpa [fragments, hempty] using
      relayToolFragments ⟨ht.act rfl, hsent⟩ _

theorem Follows.relayChoice (h : Follows relay d done true s) (choice : OpenAiStreamChoice) :
    Ensures (relay.relayChoice choice)
      (fun _ t => Follows relay (d.add relay.deduplicateStreamText choice)
        (done || choice.finishReason.isSome) true t)
      (fun e t => Escapes relay (d.add relay.deduplicateStreamText choice).fragments e t ∧
        Sound t.trace) s := by
  have hnoted : Ensures (noteFinishReason choice.finishReason) (fun _ t =>
      Relays relay { d with finishReason := choice.finishReason.or d.finishReason } t)
      (fun _ _ => False) s := by
    obtain ⟨m, hm⟩ := h.relays
    cases choice.finishReason with
    | none => exact ⟨m, hm⟩
    | some => exact ⟨m, { hm with finishReason := rfl }⟩
  rw [AnthropicRelay.relayChoice, ensures_bind]
  refine ((h.tracks.noteFinishReason _).both hnoted).mono (fun _ t ht => ?_)
    fun _ _ => False.elim
  rw [Digest.add]
  cases choice.delta.content with
  | none => exact relayToolFragments ⟨ht.1, ht.2⟩ choice.delta
  | some content => exact relayContent ⟨ht.1, ht.2⟩ content choice.delta

theorem Relays.startMessage (h : Relays relay d s) :
    Ensures relay.startMessage (fun _ t => Relays relay d t) E s := by
  obtain ⟨m, h⟩ := h
  rw [AnthropicRelay.startMessage, ensures_bind, ensures_get]
  split_ifs with hstarted
  · exact ⟨m, h⟩
  · have hunstarted : m.started = false := by simpa [h.started] using hstarted
    have htake : m.take (.messageStart relay.messageId relay.model) =
        some { m with started := true } := by
      rw [Assembled.take, hunstarted]
      rfl
    exact ⟨{ m with started := true },
      { h with events := (h.events_emit _).trans htake, started := rfl }⟩

/-- The client was told of a failure behind what it accepts. -/
def Announces (trace : List (StreamAction AnthropicEvent)) : Prop :=
  ∃ before error, trace = before ++ [.update (.failed error.display),
    .event (anthropicErrorEvent error)] ∧ Sound before

theorem loopInvariant_follows (relay : AnthropicRelay) : LoopInvariant relay (Follows relay)
      (fun fragments e t => Escapes relay fragments e t ∧ Sound t.trace)
      (fun d e t => (Reports e t ∧ ¬NameRejected relay.toolPolicy d.fragments) ∧
        Announces t.trace) where
  startMessage h := (h.tracks.startMessage.both h.relays.startMessage).imp
    fun _ _ ht => ⟨ht.1, ht.2⟩
  noteUsage usage h := by
    refine (h.tracks.noteUsage _).both ?_ |>.imp fun _ _ ht => ⟨ht.1, ht.2⟩
    rw [noteUsage]
    split
    · exact h.relays
    · exact h.relays.act (by rfl)
  relayChoice choice h := h.relayChoice _
  fail error h := ⟨(loopInvariant_tracks _).fail (α := Unit) _ h.tracks, _, error, by simp,
    h.relays.sound⟩
  finish h := ⟨(loopInvariant_tracks _).finish h.tracks,
    let ⟨m, hm⟩ := h.relays
    ⟨m, { hm with }⟩⟩
  streamDone h := h.tracks.stream_done
  unfinished h := (loopInvariant_tracks _).unfinished h.tracks
  mono h hfragments := ⟨h.1.mono hfragments, h.2⟩

/-! ## The end of a stream -/

/-- Whether a call gets a block. -/
def shown (state : ToolState) : Bool := state.name.isSome || state.hasArgumentData

/-- A call and its block at the end of a stream. -/
structure CallClosed (relay : AnthropicRelay) (o : Opening) (state : ToolState)
    (block : Option Block) : Prop where
  block_of_shown : shown state = true → ∃ id name, OpensAs relay o.upstreamId o.name id name ∧
    block = some ⟨.toolUse id name, relay.toolArguments state, true⟩
  hidden : shown state = false → block = none

theorem CallClosed.of_some {b : Block} (h : CallClosed relay o state (some b)) :
    shown state = true ∧ ∃ id name, OpensAs relay o.upstreamId o.name id name ∧
      b = ⟨.toolUse id name, relay.toolArguments state, true⟩ := by
  cases hshown : shown state with
  | false => cases h.hidden hshown
  | true =>
    obtain ⟨id, name, hopens, hblock⟩ := h.block_of_shown hshown
    exact ⟨rfl, id, name, hopens, some.inj hblock⟩

theorem Assembles.imp (h : Assembles C keys text textClosed m calls s)
    (hC : ∀ k x b, C k x b → D k x b) : Assembles D keys text textClosed m calls s :=
  { h with call := fun k x hx => hC k x _ (h.call k x hx) }

/-- The block of a call holds its arguments. -/
abbrev Filled (relay : AnthropicRelay) (C : ℕ → ToolState → Option Block → Prop) (keys : List ℕ)
    (text : String) (textClosed : Bool) (calls : ℕ → Option ToolState) (key : ℕ)
    (state : ToolState) (id name : String) (s : RelayState) : Prop :=
  s.messageStarted = true ∧ ∃ m : Assembled, m.blocks[state.index]? =
      some ⟨.toolUse id name, relay.toolArguments state, false⟩ ∧
    Assembles (update C key fun _ _ => True) keys text textClosed m calls s

theorem Assembles.closeToolArguments (h : Assembles C keys text textClosed m calls s)
    (hstarted : s.messageStarted = true) (hkey : calls key = some state) {id name content : String}
    (hblock : m.blocks[state.index]? = some ⟨.toolUse id name, content, false⟩)
    (hcontent : content ++ relay.relayed state.pendingArguments =
      relay.relayed state.allArguments) : Ensures (relay.closeToolArguments state)
      (fun _ => Filled relay C keys text textClosed calls key state id name) E s := by
  have hother : ∀ k ≠ key, ∀ x b, C k x b → update C key (fun _ _ => True) k x b :=
    fun k hk x b hb => by rwa [update_of_ne hk]
  have hself : ∀ x b, update C key (fun _ _ => True) key x b := by simp
  have hsend : ∀ arguments, content ++ arguments = relay.toolArguments state →
      Ensures (emit (.inputJsonDelta state.index arguments))
        (fun _ => Filled relay C keys text textClosed calls key state id name) E s := by
    intro arguments harguments
    have hsent := h.put hkey _ rfl (take_delta hblock (h.live hstarted) arguments) (hself ..)
      hother
    rw [← hkey, update_eq_self] at hsent
    exact ⟨hstarted, _, by rw [put_self, harguments], hsent⟩
  have hkeep : content = relay.toolArguments state →
      Filled relay C keys text textClosed calls key state id name s :=
    fun hall => ⟨hstarted, m, by rw [hblock, hall], h.imp fun k x b hb => by
      by_cases hk : k = key
      · exact hk ▸ hself x b
      · exact hother k hk x b hb⟩
  rw [AnthropicRelay.closeToolArguments]
  cases hdeduplicate : relay.deduplicateToolArguments with
  | true =>
    obtain rfl : content = "" := by simpa [relayed, hdeduplicate] using hcontent
    have htotal : relay.toolArguments state = (state.completeArguments relay.reader).getD "" := by
      simp [toolArguments, hdeduplicate]
    rw [if_pos rfl]
    split
    · next arguments hcomplete => exact hsend _ (by simp [htotal, hcomplete])
    · next hcomplete =>
      rw [AnthropicRelay.flushToolArguments, if_pos (by simp [hdeduplicate])]
      exact hkeep (by simp [htotal, hcomplete])
  | false =>
    have htotal : content ++ state.pendingArguments = relay.toolArguments state := by
      simpa [relayed, toolArguments, hdeduplicate] using hcontent
    rw [if_neg Bool.false_ne_true]
    rw [AnthropicRelay.flushToolArguments]
    split_ifs with hkept
    · have hpending : state.pendingArguments = "" := by
        simpa [hdeduplicate, isEmpty] using hkept
      exact hkeep (by simpa [hpending] using htotal)
    · exact (hsend _ htotal).bind fun _ _ ht => ht

/-- A call whose block is open, with the arguments that still wait. -/
structure CallOpen (relay : AnthropicRelay) (o : Opening) (state : ToolState)
    (block : Option Block) (id name content : String) : Prop where
  opens : OpensAs relay o.upstreamId o.name id name
  block : block = some ⟨.toolUse id name, content, false⟩
  content : content ++ relay.relayed state.pendingArguments = relay.relayed state.allArguments

theorem CallShown.callOpen {block : Option Block} (h : CallShown relay o state block)
    (hopen : state.started = true) :
    ∃ id name content, CallOpen relay o state block id name content := by
  obtain ⟨_, id, name, content, hopened, hopens, rfl⟩ := h.opened hopen
  exact ⟨id, name, content, by rwa [Opening.upstreamId, Opening.name, hopened], rfl, h.arguments⟩

theorem Assembles.startLateTool (h : Assembles C keys text textClosed m calls s)
    (hstarted : s.messageStarted = true) (hkey : calls key = some state)
    (hshown : CallShown relay o state m.blocks[state.index]?)
    (hnamed : state.started = state.name.isSome) (hok : relay.accepts state = true) :
    Ensures (relay.startLateTool state) (fun r t => if shown state then
          r = { state with started := true } ∧ t.messageStarted = true ∧
          ∃ m', Assembles (update C key fun x b =>
              ∃ id name content, CallOpen relay o x b id name content)
            keys text textClosed m' (update calls key (some r)) t
        else r = state ∧ t = s) E s := by
  have hother : ∀ {P}, ∀ k ≠ key, ∀ x b, C k x b →
      update C key P k x b := fun k hk x b hb => by rwa [update_of_ne hk]
  rw [AnthropicRelay.startLateTool]
  cases hopen : state.started with
  | true =>
    have hname := hnamed ▸ hopen
    have hstate : { state with started := true } = state := by rw [← hopen]
    rw [if_neg (by simp), ensures_pure, if_pos (by simp [shown, hname])]
    refine ⟨hstate.symm, hstarted, m, h.replace hkey _ _ rfl h.events rfl h.unstopped
      (fun _ _ => rfl) ?_ hother⟩
    rw [update_self]
    exact hshown.callOpen hopen
  | false =>
    have hname : state.name = none := by simpa [hopen] using hnamed
    obtain ⟨hnone, hopened⟩ := hshown.unopened hopen
    by_cases hdata : shown state = true
    · rw [if_pos (by simpa [shown] using hdata)]
      have hopens : ∀ id name, OpensAs relay state.upstreamId state.name id name →
          update C key (fun x b => ∃ id name content, CallOpen relay o x b id name content)
            key { state with started := true } (some ⟨.toolUse id name, "", false⟩) := by
        intro id name hopens
        rw [update_self]
        refine ⟨id, name, "", ?_, rfl, ?_⟩
        · rw [hname, map_none] at hopened
          rwa [Opening.upstreamId, Opening.name, hopened, elim_none, map_none,
            ← hname, ← hshown.upstreamId]
        · simpa [hnone] using hshown.arguments
      have hsteady : Steady fun _ => True := ⟨fun _ _ => trivial, fun _ _ => trivial⟩
      refine ((h.startToolState hstarted hkey hnone hopens hother).and
        (hsteady.startToolState trivial _)).mono (fun r t ht => ?_) fun _ _ he => ?_
      · obtain ⟨hr, hunmoved, hm'⟩ := ht.1
        rw [if_pos hdata]
        exact ⟨hr, hunmoved.messageStarted.trans hstarted, hm'⟩
      · rw [hok] at he
        cases he.2.2.2
    · rw [if_neg (by simpa [shown] using hdata), ensures_pure, if_neg hdata]
      exact ⟨rfl, rfl⟩

theorem Assembles.closeTool (h : Assembles C keys text textClosed m calls s)
    (hstarted : s.messageStarted = true) (hkey : calls key = some state)
    (hshown : CallShown relay o state m.blocks[state.index]?)
    (hnamed : state.started = state.name.isSome) (hok : relay.accepts state = true) :
    Ensures (relay.closeTool state) (fun _ t => t.messageStarted = true ∧ ∃ m',
      Assembles (update C key (CallClosed relay o)) keys text textClosed m' calls t)
      E s := by
  refine (h.startLateTool hstarted hkey hshown hnamed hok).bind fun r t ht => ?_
  by_cases hdata : shown state = true
  · rw [if_pos hdata] at ht
    obtain ⟨rfl, htstarted, m', hm'⟩ := ht
    have hkey' : update calls key (some { state with started := true }) key = _ :=
      update_self ..
    obtain ⟨id, name, content, hopen⟩ : ∃ id name content, CallOpen relay o
        { state with started := true } m'.blocks[state.index]? id name content := by
      have hcall := hm'.call key _ hkey'
      rwa [update_self] at hcall
    refine (hm'.closeToolArguments htstarted hkey' hopen.block hopen.content).bind
      fun _ u ⟨hustarted, _, hblock, hm₂⟩ => ?_
    have hclosed := hm₂.put (D := update C key (CallClosed _ o)) hkey' state rfl
      (take_stop hblock (hm₂.live hustarted) rfl)
      (by
        rw [update_self]
        exact ⟨fun _ => ⟨id, name, hopen.opens, rfl⟩,
          fun hhidden => absurd hdata (by simp [hhidden])⟩)
      fun k hk x b hb => by simpa [update_of_ne hk] using hb
    rw [update_idem, ← hkey, update_eq_self] at hclosed
    exact ⟨hustarted, _, hclosed⟩
  · rw [if_neg hdata] at ht
    obtain ⟨rfl, rfl⟩ := ht
    have hunnamed : r.name.isSome = false := by
      simp only [shown, Bool.or_eq_true, not_or] at hdata
      simpa using hdata.1
    have hopen := hnamed.trans hunnamed
    rw [if_neg (by simp [hopen])]
    refine ⟨hstarted, m, ?_⟩
    have hhidden := h.replace hkey (update C key (CallClosed relay o)) r rfl
      h.events rfl h.unstopped (fun _ _ => rfl)
      (by
        rw [update_self]
        exact ⟨(absurd · hdata), fun _ => (hshown.unopened hopen).1⟩)
      fun k hk x b _ => by rwa [update_of_ne hk]
    rwa [← hkey, update_eq_self] at hhidden

theorem Assembles.closeText (h : Assembles C keys text false m calls s)
    (hstarted : s.messageStarted = true) :
    Ensures (closeText s.textIndex) (fun _ t => t.messageStarted = true ∧
      ∃ m', Assembles C keys text true m' calls t) E s := by
  cases hi : s.textIndex with
  | none =>
    exact ⟨hstarted, m, { h with textBlock := fun i htext => by rw [hi] at htext; cases htext }⟩
  | some i =>
    exact ⟨hstarted, _, h.changeText hi (take_stop (h.textBlock i hi) (h.live hstarted) rfl)⟩

/-- The calls behind the loop at the end are closed, those ahead are as they were. -/
def ClosedBehind (relay : AnthropicRelay) (fragments : List ToolFragment) (behind : List ℕ)
    (key : ℕ) (state : ToolState) (block : Option Block) : Prop :=
  if key ∈ behind then CallClosed relay (openingOf fragments key) state block
  else CallShown relay (openingOf fragments key) state block

theorem Relays.closeTools (hnamed : OpenByName s)
    (hnames : ∀ state ∈ toolStates s.tools, relay.accepts state = true)
    {t : RelayState} (hstarted : t.messageStarted = true)
    (h : Assembles (fun key => CallShown relay (openingOf d.fragments key))
      keys text textClosed m (fun key => s.tools[key]?) t) :
    Ensures (forIn (toolStates s.tools) .unit fun state _ => do
        relay.closeTool state
        pure (.yield PUnit.unit))
      (fun _ u => u.messageStarted = true ∧ ∃ m', Assembles
        (fun key => CallClosed relay (openingOf d.fragments key)) keys text textClosed m'
        (fun key => s.tools[key]?) u) E t := by
  let behind := fun before : List ToolState => (s.tools.toList.take before.length).map Prod.fst
  refine (ensures_forIn_yield (I := fun before u => u.messageStarted = true ∧
    ∃ m', Assembles (ClosedBehind relay d.fragments (behind before)) keys text textClosed m'
      (fun key => s.tools[key]?) u) ⟨hstarted, m, ?_⟩ fun before _ _ u hsplit hu => ?_).imp
    fun _ u hu => ?_
  · exact h.imp fun k x b hb => by simpa [behind, ClosedBehind] using hb
  · obtain ⟨hustarted, m', hm'⟩ := hu
    obtain ⟨pre, _, htoList, hpre, hrest⟩ := map_eq_append_iff.mp hsplit
    obtain ⟨⟨key, state'⟩, post, rfl, rfl, -⟩ := map_eq_cons_iff.mp hrest
    have hkey : s.tools[key]? = some state' :=
      Std.TreeMap.mem_toList_iff_getElem?_eq_some.mp (by simp [htoList])
    have hbehind : behind before = pre.map Prod.fst := by simp [behind, htoList, ← hpre]
    have hbehind' : behind (before ++ [state']) = pre.map Prod.fst ++ [key] := by
      simp [behind, htoList, ← hpre, take_append]
    have hfresh : key ∉ pre.map Prod.fst := by
      have hkeys : (pre ++ (key, state') :: post).Pairwise fun p q => ¬compare p.1 q.1 = .eq := by
        rw [← htoList]
        exact Std.TreeMap.distinct_keys_toList
      intro hmem
      obtain ⟨⟨k, x⟩, hk, rfl⟩ := mem_map.mp hmem
      exact (pairwise_append.mp hkeys).2.2 _ hk _ (mem_cons_self ..) (by simp)
    have hshown := hm'.call key _ hkey
    rw [ClosedBehind, hbehind, if_neg hfresh] at hshown
    refine (hm'.closeTool hustarted hkey hshown (hnamed key _ hkey)
      (hnames _ (by simp [hsplit]))).imp fun _ v ⟨hvstarted, m₂, hm₂⟩ =>
        ⟨hvstarted, m₂, hm₂.imp fun k x b hb => ?_⟩
    rw [ClosedBehind, hbehind']
    by_cases hk : k = key
    · subst hk
      rw [update_self] at hb
      rwa [if_pos (by simp)]
    · have hmem : k ∈ pre.map Prod.fst ++ [key] ↔ k ∈ pre.map Prod.fst := by simp [hk]
      rw [update_of_ne hk, ClosedBehind, hbehind] at hb
      simpa only [hmem] using hb
  · obtain ⟨hustarted, m', hm'⟩ := hu
    refine ⟨hustarted, m', { hm' with call := fun k x hx => ?_ }⟩
    have hclosed := hm'.call k x hx
    rwa [ClosedBehind, if_pos] at hclosed
    simp only [behind, toolStates, length_map, take_length]
    exact mem_map.mpr ⟨(k, x), Std.TreeMap.mem_toList_iff_getElem?_eq_some.mpr hx, rfl⟩

/-! ## Complete messages -/

/-- A call of the upstream as the client sees it. -/
structure Shows (relay : AnthropicRelay) (fragments : List ToolFragment) (key : ℕ)
    (use : ToolUse) : Prop where
  opens : OpensAs relay (openingOf fragments key).upstreamId (openingOf fragments key).name use.id
    use.name
  arguments : use.arguments =
    relay.toolArguments (callOf relay.deduplicateToolArguments fragments key)

/-- The message of a complete stream. -/
structure Delivered (relay : AnthropicRelay) (d : Digest) (m : Assembled) : Prop where
  stopped : m.stopped = true
  stopReason : m.stopReason = some (d.finishReason.elim "end_turn" mapFinishReason)
  text : m.text = d.text
  toolUses : List.Forall₂ (Shows relay d.fragments)
    (shownKeys relay.deduplicateToolArguments d.fragments) m.toolUses

theorem Follows.described_eq (h : Follows relay d done started s)
    (hkey : s.tools[key]? = some state) :
    state.described relay.deduplicateToolArguments =
      (callOf relay.deduplicateToolArguments d.fragments key).described
        relay.deduplicateToolArguments := by
  have htools := h.tracks.tools key
  rw [hkey, map_some, eq_comm, map_eq_some_iff] at htools
  obtain ⟨_, hcall, hdescribed⟩ := htools
  rw [callOf, hcall, getD_some, hdescribed]

/-- A call gets a block exactly if what the upstream said makes it visible. -/
theorem Follows.shown_eq (h : Follows relay d done started s) (hkey : s.tools[key]? = some state) :
    shown state = (callOf relay.deduplicateToolArguments d.fragments key).visible := by
  have hdescribed := h.described_eq hkey
  have htidy := tidy_callOf relay.deduplicateToolArguments d.fragments key
  have hnamed := h.tracks.named key _ hkey
  obtain ⟨m, hm⟩ := h.relays
  have hcall := hm.call key _ hkey
  generalize callOf relay.deduplicateToolArguments d.fragments key = call at hdescribed htidy
  obtain ⟨_, _, _, _, _, _, _, _⟩ := call
  cases hname : state.name with
  | some =>
    have hsame := congrArg name hdescribed
    simp only [described] at hsame
    simp [shown, visible, hname, ← hsame]
  | none =>
    rw [hname] at hnamed
    have hnone := (hcall.unopened hnamed).1
    have harguments := hcall.arguments
    cases hdeduplicate : relay.deduplicateToolArguments with
    | true =>
      simp only [hdeduplicate, if_true, Tidy, hasArgumentData] at hdescribed htidy
      obtain ⟨-, -, rfl, -, rfl, rfl, rfl, rfl⟩ := hdescribed
      rw [shown, visible, hasArgumentData, htidy]
    | false =>
      have hpending : state.pendingArguments = state.allArguments := by
        simpa [relayed, hdeduplicate, hnone] using harguments
      simp only [hdeduplicate, described, Tidy] at hdescribed htidy
      obtain ⟨-, -, rfl, -, rfl, rfl, -, rfl⟩ := hdescribed
      simp [shown, visible, hasArgumentData, htidy.1, htidy.2, hpending, isEmpty]

theorem forall₂_filterMap {α β : Type} {R : α → β → Prop} {g : α → Option β} {l : List α}
    (h : ∀ a ∈ l, ∃ b, g a = some b ∧ R a b) : Forall₂ R l (l.filterMap g) := by
  induction l with
  | nil => exact .nil
  | cons a l ih =>
    obtain ⟨⟨b, hb, hR⟩, hl⟩ := forall_mem_cons.mp h
    rw [filterMap_cons_some hb]
    exact .cons hR (ih hl)

theorem Assembles.text_eq (h : Assembles C keys text textClosed m calls s)
    (hC : ∀ k x b, calls k = some x → C k x (some b) → b.text? = none) : m.text = text := by
  have hcollect : m.collect Block.text? = (s.textIndex.toList.map (·, text)).map Prod.snd := by
    refine collect_eq_map_snd ?_ fun i x => ?_
    · cases s.textIndex <;> simp
    constructor
    · intro hmem
      obtain ⟨j, hj, heq⟩ := mem_map.mp hmem
      cases heq
      exact ⟨_, h.textBlock i (mem_toList.mp hj), rfl⟩
    · rintro ⟨b, hb, hx⟩
      rcases h.owned i b hb with htext | ⟨key, _, hkey, rfl⟩
      · cases (h.textBlock i htext).symm.trans hb
        cases hx
        simp [htext]
      · have hnone := hC key _ b hkey (hb ▸ h.call key _ hkey)
        rw [hx] at hnone
        cases hnone
  rw [Assembled.text, hcollect]
  cases hi : s.textIndex with
  | none => simp [h.noText hi]
  | some => simp

/-- The blocks of the visible calls, in the order of their first appearance, are all the tool
blocks there are. -/
theorem Follows.toolUses (h : Follows relay d done started s) {t : RelayState}
    (hm : Assembles (fun key => CallClosed relay (openingOf d.fragments key))
      (firstKeys d.fragments) d.text true m (fun key => s.tools[key]?) t) :
    Forall₂ (Shows relay d.fragments)
      (shownKeys relay.deduplicateToolArguments d.fragments) m.toolUses := by
  have hclosed : ∀ {key} {state b}, s.tools[key]? = some state →
      m.blocks[state.index]? = some b → shown state = true ∧
        ∃ use, b.toolUse? = some use ∧ Shows relay d.fragments key use := by
    intro key state b hkey hb
    have hcall := hm.call key _ hkey
    rw [hb] at hcall
    obtain ⟨hshown, id, name, hopens, rfl⟩ := hcall.of_some
    refine ⟨hshown, ⟨id, name, relay.toolArguments _⟩, rfl, hopens, ?_⟩
    rw [← toolArguments_described, h.described_eq hkey, toolArguments_described]
  let entry : ℕ → Option (ℕ × ToolUse) := fun key =>
    (s.tools[key]?).bind fun state => (m.blocks[state.index]?).bind fun b =>
      b.toolUse?.map (state.index, ·)
  have hentry : ∀ {key i use}, entry key = some (i, use) ↔ ∃ state, s.tools[key]? = some state ∧
      state.index = i ∧ ∃ b, m.blocks[i]? = some b ∧ b.toolUse? = some use := by
    intro key i use
    simp only [entry, bind_eq_some_iff, map_eq_some_iff, Prod.mk.injEq]
    constructor
    · rintro ⟨state, hstate, b, hb, _, huse, rfl, rfl⟩
      exact ⟨state, hstate, rfl, b, hb, huse⟩
    · rintro ⟨state, hstate, rfl, b, hb, huse⟩
      exact ⟨state, hstate, b, hb, use, huse, rfl, rfl⟩
  have hmem : ∀ {key}, key ∈ shownKeys relay.deduplicateToolArguments d.fragments ↔
      ∃ state, s.tools[key]? = some state ∧ shown state = true := by
    intro key
    rw [shownKeys, mem_filter, ← hm.mem_keys, isSome_iff_exists]
    constructor
    · rintro ⟨⟨state, hstate⟩, hvisible⟩
      exact ⟨state, hstate, (h.shown_eq hstate).trans hvisible⟩
    · rintro ⟨state, hstate, hshown⟩
      exact ⟨⟨state, hstate⟩, (h.shown_eq hstate).symm.trans hshown⟩
  have hcollect : m.toolUses = ((shownKeys relay.deduplicateToolArguments
      d.fragments).filterMap entry).map Prod.snd := by
    refine collect_eq_map_snd ?_ fun i use => ?_
    · refine pairwise_filterMap.mpr ((hm.ordered.filter _).imp ?_)
      rintro key _ hlt ⟨i, use⟩ hi ⟨j, _⟩ hj
      obtain ⟨state, hstate, rfl, -⟩ := hentry.mp hi
      obtain ⟨_, hstate', rfl, -⟩ := hentry.mp hj
      exact hlt _ _ hstate hstate'
    · rw [mem_filterMap]
      constructor
      · rintro ⟨key, -, hkey⟩
        obtain ⟨-, -, -, hblock⟩ := hentry.mp hkey
        exact hblock
      · rintro ⟨b, hb, huse⟩
        rcases hm.owned i b hb with htext | ⟨key, state, hkey, rfl⟩
        · cases (hm.textBlock i htext).symm.trans hb
          cases huse
        · exact ⟨key, hmem.mpr ⟨state, hkey, (hclosed hkey hb).1⟩,
            hentry.mpr ⟨state, hkey, rfl, b, hb, huse⟩⟩
  rw [hcollect, forall₂_map_right_iff]
  refine forall₂_filterMap fun key hkey => ?_
  obtain ⟨state, hstate, hshown⟩ := hmem.mp hkey
  obtain ⟨_, _, -, hblock⟩ := (hm.call key _ hstate).block_of_shown hshown
  obtain ⟨-, use, huse, hshows⟩ := hclosed hstate hblock
  exact ⟨(state.index, use), hentry.mpr ⟨state, hstate, rfl, _, hblock, huse⟩, hshows⟩

theorem Follows.complete (h : Follows relay d true true s)
    (hnames : ∀ state ∈ toolStates s.tools, relay.accepts state = true) :
    Ensures relay.complete
      (fun _ t => ∃ m, assemble (eventsOf t.trace) = some m ∧ Delivered relay d m) E s := by
  obtain ⟨m, hm⟩ := h.relays
  have hstarted := h.tracks.messageStarted
  refine (((hm.act (by rfl)).act (by rfl)).closeText hstarted).bind
    fun _ t ⟨htstarted, _, hm₁⟩ => ?_
  refine (Relays.closeTools h.tracks.named hnames htstarted hm₁).bind
    fun _ u ⟨hustarted, m₂, hm₂⟩ => ?_
  have hclosed : m₂.allClosed = true := by
    refine allClosed_iff.mpr fun i b hb => ?_
    rcases hm₂.owned i b hb with htext | ⟨key, _, hkey, rfl⟩
    · cases (hm₂.textBlock i htext).symm.trans hb
      rfl
    · have hcall := hm₂.call key _ hkey
      rw [hb] at hcall
      obtain ⟨-, _, _, -, rfl⟩ := hcall.of_some
      rfl
  have hreason : s.finishReason = d.finishReason.elim "end_turn" mapFinishReason := by
    rw [hm.finishReason, h.tracks.finishReason]
  have htext := hm₂.text_eq fun k x b _ hcall => by
    obtain ⟨-, _, _, -, rfl⟩ := hcall.of_some
    rfl
  have huses := h.toolUses hm₂
  refine ⟨{ m₂ with stopReason := some s.finishReason, stopped := true }, ?_, rfl, ?_, htext, huses⟩
  · rw [← assemble_ending hm₂.events (hm₂.live hustarted) hclosed]
    simp [eventsOf, StreamAction.event?]
  · rw [← hreason]

/-! ## Whole streams -/

theorem follows_init (relay : AnthropicRelay) :
    Follows relay (digest relay.deduplicateStreamText []) false false {} := by
  refine ⟨⟨rfl, rfl, rfl, rfl, rfl, by simp [digest], ?_, by simp [digest, collectTools], by simp,
    by simp⟩, {}, rfl, rfl, rfl, rfl, fun _ => rfl, nofun, nofun, ?_, ?_, ?_, ?_, ?_, ?_⟩
  · rintro ⟨_, _, _, _, hsplit, -⟩
    simp [digest] at hsplit
  all_goals simp [digest, firstKeys]

/-- A stream that returns has delivered a message, one that does not has sent the client nothing
but the beginning of one before it fails. -/
theorem ensures_run_delivers (relay : AnthropicRelay) (frames : SseFrameStream) :
    Ensures (relay.run frames) (fun _ t => ∃ m, assemble (eventsOf t.trace) = some m ∧
        Delivered relay (relay.digestOf frames) m)
      (fun e t => if e matches .returned then Announces t.trace else Sound t.trace) {} := by
  have hfail : ∀ {α} {d} {done started} {t}
      {Q : α → RelayState → Prop} error, Follows relay d done started t →
      Ensures (fail error) Q
        (fun e t => if e matches .returned then Announces t.trace else Sound t.trace) t :=
    fun error h => ⟨_, error, by simp, h.relays.sound⟩
  rw [run, ensures_bind]
  have hinit : LiveWith relay (Follows relay) {} {} := ⟨rfl, false, follows_init _⟩
  refine ((loopInvariant_follows _).relayFrames hinit _).mono
    (fun _ t ht => ?_) fun e t he => ?_
  · rw [ensures_bind, ensures_get]
    rcases ht with ⟨-, _, hfollows⟩ | ⟨-, hfollows⟩
    · rw [if_pos (by simp [hfollows.tracks.stream_done,
        (loopInvariant_follows _).unfinished hfollows])]
      exact hfail _ hfollows
    · rw [if_neg (by simp [hfollows.tracks.stream_done]),
        if_neg (by simp [hfollows.tracks.messageStarted])]
      cases hvalid : relay.validateTools (toolStates t.tools) t.upstreamFinishReason with
      | error => exact hfail _ hfollows
      | ok => exact hfollows.complete (validateName_of_validateTools hvalid)
  · rcases he with ⟨hescapes, hsound⟩ | ⟨-, -, hreports, hannounces⟩
    · obtain ⟨_, rfl⟩ := hescapes.failed
      exact hsound
    · rw [hreports.1.returned]
      exact hannounces

/-- How the items of a stream end. -/
inductive Outcome (relay : AnthropicRelay) (frames : List (Except AppError SseFrame))
    (trace : List (StreamAction AnthropicEvent)) : Prop
  | delivers (m : Assembled) (hsucceeds : Succeeds relay frames)
      (hitems : itemsOf trace = (eventsOf trace).map .ok)
      (hm : assemble (eventsOf trace) = some m) (h : Delivered relay (relay.digestOf frames) m)
  | breaksOff (before : List (StreamAction AnthropicEvent))
      (last : Except AppError AnthropicEvent) (hsucceeds : ¬Succeeds relay frames)
      (hitems : itemsOf trace = (eventsOf before).map .ok ++ [last])
      (hlast : anthropicProtocol.isFailure last = true) (hsound : Sound before)

end

end AnthropicRelay

theorem outcome_openaiStreamToAnthropic (relay : AnthropicRelay)
    (frames : SseFrameStream) :
    relay.Outcome frames (openaiStreamToAnthropic relay frames) := by
  have hrun := @ensures_run relay frames
  have hdelivers := ensures_run_delivers relay frames
  rw [Ensures] at hrun hdelivers
  rw [openaiStreamToAnthropic]
  cases hresult : relay.run frames {} with
  | ok _ =>
    rw [hresult] at hrun hdelivers
    obtain ⟨⟨before, _, _, htrace, hbefore, hafter, -⟩, hsucceeds⟩ := hrun
    obtain ⟨m, hm, h⟩ := hdelivers
    refine .delivers m hsucceeds (itemsOf_eq_map_ok fun a ha => ?_) hm h
    simp only [htrace, mem_append, mem_cons, not_mem_nil, or_false] at ha
    rcases ha with ha | rfl | ha | rfl
    · exact ne_error_of_plain (hbefore a ha)
    · simp
    · exact ne_error_of_plain (hafter a ha)
    · simp
  | error e s =>
    rw [hresult] at hrun hdelivers
    rcases hrun with ⟨⟨error, rfl⟩, hrejected, hplain⟩ | ⟨⟨rfl, hfails⟩, hsucceeds, -⟩
    · refine .breaksOff _ (.error error) (·.accepted hrejected) ?_ rfl hdelivers
      rw [← itemsOf_eq_map_ok fun a ha => ne_error_of_plain (hplain a ha)]
      simp [itemsOf, StreamAction.item?]
    · obtain ⟨_, error, htrace, hsound⟩ := hdelivers
      obtain ⟨_, _, _, htrace', hplain, -⟩ := hfails
      obtain ⟨rfl, -⟩ := append_inj' (htrace.symm.trans htrace') rfl
      refine .breaksOff _ (.ok (anthropicErrorEvent error)) hsucceeds ?_ rfl hsound
      rw [← itemsOf_eq_map_ok fun a ha => ne_error_of_plain (hplain a ha)]
      simp [htrace, itemsOf, StreamAction.item?, filterMap_cons]

end RouteSmith.Model

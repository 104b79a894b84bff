import RouteSmith.Verification.Streams.Assembly
import RouteSmith.Verification.Streams.Calls
import RouteSmith.Verification.Streams.Relay

/-! # Calls and their blocks

Beside the state of the relay stands the message as the client has it so far: the text block holds
the text of the digest, and each call owns the block at its index. A fragment of a call changes the
block of that call, and no other.
-/

namespace RouteSmith.Model

open Control Text Function Option ToolState
open Assembled hiding extend

/-- All the text seen is the text seen before and the text a fragment adds. -/
theorem textDelta_snd (seen content : String) (deduplicate : Bool) :
    (textDelta seen content deduplicate).2 = seen ++ (textDelta seen content deduplicate).1 := by
  rw [textDelta]
  split_ifs with _ _ hstart
  · simp
  · simp
  · obtain ⟨_, hrest⟩ := List.isPrefixOf_iff_prefix.mp hstart
    rw [← String.toList_inj, String.toList_append, dropChars, String.toList_ofList, ← hrest,
      List.drop_left]
  all_goals simp

namespace AnthropicRelay

/-! ## The blocks of the message -/

/-- The message beside the state: the text block holds the text, and each call stands in the
relation `C` to the block at its index. The keys are those of the calls, in the order of their
indices. -/
structure Assembles (C : ℕ → ToolState → Option Block → Prop) (keys : List ℕ) (text : String)
    (textClosed : Bool) (m : Assembled) (calls : ℕ → Option ToolState) (s : RelayState) :
    Prop where
  events : assemble (eventsOf s.trace) = some m
  started : m.started = s.messageStarted
  unstopped : m.stopReason = none
  finishReason : s.finishReason = s.upstreamFinishReason.elim "end_turn" mapFinishReason
  noText : s.textIndex = none → text = ""
  textBlock : ∀ i : ℕ, s.textIndex = some i → m.blocks[i]? = some ⟨.text, text, textClosed⟩
  textIndex_lt : ∀ i, s.textIndex = some i → i < s.nextIndex
  call : ∀ key state, calls key = some state → C key state m.blocks[state.index]?
  index_lt : ∀ key state, calls key = some state → state.index < s.nextIndex
  index_ne : ∀ key state, calls key = some state → s.textIndex ≠ some state.index
  mem_keys : ∀ key, (calls key).isSome = true ↔ key ∈ keys
  ordered : keys.Pairwise fun key key' => ∀ state state', calls key = some state →
    calls key' = some state' → state.index < state'.index
  owned : ∀ (i : ℕ) b, m.blocks[i]? = some b →
    s.textIndex = some i ∨ ∃ key state, calls key = some state ∧ state.index = i

section

variable {C D : ℕ → ToolState → Option Block → Prop} {keys : List ℕ} {text : String}
  {textClosed : Bool} {m m' : Assembled} {calls : ℕ → Option ToolState} {s : RelayState}

variable {i key : ℕ} {state : ToolState} {trace : List (StreamAction AnthropicEvent)}
  {id name text' : String} {textClosed' : Bool}

section

variable (h : Assembles C keys text textClosed m calls s)

include h

theorem Assembles.key_eq_of_index_eq {key' : ℕ} {state' : ToolState} (hkey : calls key = some state)
    (hkey' : calls key' = some state') (hindex : state.index = state'.index) : key = key' := by
  by_contra hne
  let distinct : ℕ → ℕ → Prop := fun a b => ∀ x y, calls a = some x → calls b = some y →
    x.index ≠ y.index
  have hsymm : Std.Symm distinct := ⟨fun a b hab x y hx hy => (hab y x hy hx).symm⟩
  have hdistinct := h.ordered.imp fun hlt x y hx hy => (hlt x y hx hy).ne
  have hmem : ∀ {k x}, calls k = some x → k ∈ keys := fun {k x} hk =>
    (h.mem_keys k).mp (by rw [hk]; rfl)
  exact hdistinct.forall (hmem hkey) (hmem hkey') hne _ _ hkey hkey' hindex

theorem Assembles.replace (hkey : calls key = some state) (D : ℕ → ToolState → Option Block → Prop)
    (state' : ToolState) (hindex : state'.index = state.index)
    (hevents : assemble (eventsOf trace) = some m') (hstarted : m'.started = m.started)
    (hreason : m'.stopReason = none) (hblocks : ∀ j ≠ state.index, m'.blocks[j]? = m.blocks[j]?)
    (hcall : D key state' m'.blocks[state.index]?) (hcalls : ∀ k ≠ key, ∀ x b, C k x b → D k x b) :
    Assembles D keys text textClosed m' (update calls key (some state'))
      { s with trace := trace } := by
  have hupdate : ∀ {k x}, update calls key (some state') k = some x →
      (k = key ∧ x = state') ∨ (k ≠ key ∧ calls k = some x) := by
    intro k x hx
    by_cases hk : k = key
    · subst hk
      rw [update_self] at hx
      exact .inl ⟨rfl, (some.inj hx).symm⟩
    · rw [update_of_ne hk] at hx
      exact .inr ⟨hk, hx⟩
  have hold : ∀ {k x}, update calls key (some state') k = some x →
      ∃ y, calls k = some y ∧ y.index = x.index := by
    intro k x hx
    rcases hupdate hx with ⟨rfl, rfl⟩ | ⟨-, hx⟩
    · exact ⟨state, hkey, hindex.symm⟩
    · exact ⟨x, hx, rfl⟩
  refine ⟨hevents, hstarted.trans h.started, hreason, h.finishReason, h.noText, fun i hi => ?_,
    h.textIndex_lt, fun k x hx => ?_, fun k x hx => ?_, fun k x hx => ?_, fun k => ?_, ?_,
    fun i b hb => ?_⟩
  · rw [hblocks i fun heq => h.index_ne key _ hkey (heq ▸ hi), h.textBlock i hi]
  · rcases hupdate hx with ⟨rfl, rfl⟩ | ⟨hne, hx⟩
    · rwa [hindex]
    · rw [hblocks _ fun heq => hne (h.key_eq_of_index_eq hx hkey heq)]
      exact hcalls k hne x _ (h.call k x hx)
  · obtain ⟨y, hy, heq⟩ := hold hx
    exact heq ▸ h.index_lt k y hy
  · obtain ⟨y, hy, heq⟩ := hold hx
    exact heq ▸ h.index_ne k y hy
  · rw [← h.mem_keys]
    by_cases hk : k = key
    · simp [hk, hkey]
    · rw [update_of_ne hk]
  · refine h.ordered.imp fun hlt x y hx hy => ?_
    obtain ⟨x', hx', heqx⟩ := hold hx
    obtain ⟨y', hy', heqy⟩ := hold hy
    exact heqx ▸ heqy ▸ hlt x' y' hx' hy'
  · by_cases hi : i = state.index
    · exact .inr ⟨key, state', update_self .., hi ▸ hindex⟩
    · rw [hblocks i hi] at hb
      rcases h.owned i b hb with htext | ⟨k, x, hx, heq⟩
      · exact .inl htext
      · have hk : k ≠ key := by
          rintro rfl
          rw [hkey] at hx
          exact hi (by rw [← heq, ← some.inj hx])
        exact .inr ⟨k, x, by rwa [update_of_ne hk], heq⟩

theorem Assembles.blocks_nextIndex : m.blocks[s.nextIndex]? = none := by
  by_contra hsome
  obtain ⟨b, hb⟩ := ne_none_iff_exists'.mp hsome
  rcases h.owned _ b hb with htext | ⟨key, _, hkey, hindex⟩
  · exact (h.textIndex_lt _ htext).false
  · exact (h.index_lt key _ hkey).ne hindex

theorem Assembles.newCall (hkey : calls key = none) (hindex : state.index = s.nextIndex)
    (hcall : D key state none) (hcalls : ∀ k ≠ key, ∀ x b, C k x b → D k x b) :
    Assembles D (keys ++ [key]) text textClosed m (update calls key (some state))
      { s with nextIndex := s.nextIndex + 1 } := by
  have hfresh : ∀ {k x}, calls k = some x → k ≠ key := by
    rintro k x hx rfl
    rw [hkey] at hx
    cases hx
  have hupdate : ∀ {k x}, update calls key (some state) k = some x →
      (k = key ∧ x = state) ∨ calls k = some x := by
    intro k x hx
    by_cases hk : k = key
    · subst hk
      rw [update_self] at hx
      exact .inl ⟨rfl, (some.inj hx).symm⟩
    · rw [update_of_ne hk] at hx
      exact .inr hx
  have hnone := h.blocks_nextIndex
  refine ⟨h.events, h.started, h.unstopped, h.finishReason, h.noText, h.textBlock,
    fun i hi => Nat.lt_succ_of_lt (h.textIndex_lt i hi), fun k x hx => ?_, fun k x hx => ?_,
    fun k x hx => ?_, fun k => ?_, ?_, fun i b hb => ?_⟩
  · rcases hupdate hx with ⟨rfl, rfl⟩ | hx
    · rwa [hindex, hnone]
    · exact hcalls k (hfresh hx) x _ (h.call k x hx)
  · rcases hupdate hx with ⟨rfl, rfl⟩ | hx
    · rw [hindex]
      exact Nat.lt_succ_self _
    · exact Nat.lt_succ_of_lt (h.index_lt k x hx)
  · rcases hupdate hx with ⟨rfl, rfl⟩ | hx
    · exact fun htext => (h.textIndex_lt _ htext).ne hindex
    · exact h.index_ne k x hx
  · rw [List.mem_append, ← h.mem_keys]
    by_cases hk : k = key
    · simp [hk]
    · simp [hk]
  · refine List.pairwise_append.mpr ⟨?_, List.pairwise_singleton .., ?_⟩
    · refine h.ordered.imp_of_mem fun {a b} ha hb hlt x y hx hy => ?_
      have hne : ∀ {k}, k ∈ keys → k ≠ key := by
        rintro k hk rfl
        simpa [hkey] using (h.mem_keys k).mpr hk
      rw [update_of_ne (hne ha)] at hx
      rw [update_of_ne (hne hb)] at hy
      exact hlt x y hx hy
    · intro k hk _ hk' x y hx hy
      rw [List.mem_singleton.mp hk', update_self] at hy
      cases hy
      rcases hupdate hx with ⟨rfl, rfl⟩ | hx
      · simpa [hkey] using (h.mem_keys k).mpr hk
      · rw [hindex]
        exact h.index_lt k x hx
  · rcases h.owned i b hb with htext | ⟨k, x, hx, heq⟩
    · exact .inl htext
    · exact .inr ⟨k, x, by rwa [update_of_ne (hfresh hx)], heq⟩

theorem Assembles.act {a : StreamAction AnthropicEvent} (ha : a.event? = none) :
    Assembles C keys text textClosed m calls { s with trace := s.trace ++ [a] } :=
  { h with
    events := by
      rw [eventsOf_append_singleton, ha]
      simpa using h.events }

theorem Assembles.events_emit (event : AnthropicEvent) :
    assemble (eventsOf (s.trace ++ [.event event])) = m.take event := by
  rw [eventsOf_append_singleton]
  exact assemble_append_singleton h.events _

theorem Assembles.put (hkey : calls key = some state) (state' : ToolState)
    (hindex : state'.index = state.index) {event : AnthropicEvent} {b : Block}
    (htake : m.take event = some (m.put state.index b)) (hcall : D key state' (some b))
    (hcalls : ∀ k ≠ key, ∀ x b, C k x b → D k x b) :
    Assembles D keys text textClosed (m.put state.index b) (update calls key (some state'))
      { s with trace := s.trace ++ [.event event] } :=
  h.replace hkey D _ hindex ((h.events_emit _).trans htake) rfl h.unstopped
    (fun _ => put_of_ne) (by rwa [put_self]) hcalls

theorem Assembles.setText {nextIndex : ℕ}
    (hevents : assemble (eventsOf trace) = some (m.put i ⟨.text, text', textClosed'⟩))
    (hi : s.textIndex = some i ∧ nextIndex = s.nextIndex ∨
      s.textIndex = none ∧ i = s.nextIndex ∧ nextIndex = s.nextIndex + 1) :
    Assembles C keys text' textClosed' (m.put i ⟨.text, text', textClosed'⟩) calls
      { s with trace := trace, textIndex := some i, nextIndex := nextIndex } := by
  have hne : ∀ {k x}, calls k = some x → x.index ≠ i := by
    rintro k x hx rfl
    rcases hi with ⟨htext, -⟩ | ⟨-, hnext, -⟩
    · exact h.index_ne k x hx htext
    · exact (h.index_lt k x hx).ne hnext
  have hlt : s.nextIndex ≤ nextIndex ∧ i < nextIndex := by
    rcases hi with ⟨htext, rfl⟩ | ⟨-, rfl, rfl⟩
    · exact ⟨le_rfl, h.textIndex_lt i htext⟩
    · exact ⟨Nat.le_succ _, Nat.lt_succ_self _⟩
  refine ⟨hevents, h.started, h.unstopped, h.finishReason, nofun, fun j hj => ?_, fun j hj => ?_,
    fun k x hx => ?_, fun k x hx => (h.index_lt k x hx).trans_le hlt.1,
    fun k x hx heq => hne hx (some.inj heq).symm, h.mem_keys, h.ordered, fun j b hb => ?_⟩
  · cases hj
    exact put_self
  · cases hj
    exact hlt.2
  · rw [put_of_ne (hne hx)]
    exact h.call k x hx
  · rw [put_blocks] at hb
    split_ifs at hb with hji
    · exact .inl (by rw [hji])
    · rcases h.owned j b hb with htext | howned
      · rcases hi with ⟨hi, -⟩ | ⟨hi, -⟩
        · exact absurd (some.inj (htext.symm.trans hi)) hji
        · rw [htext] at hi
          cases hi
      · exact .inr howned

theorem Assembles.changeText (hi : s.textIndex = some i) {event : AnthropicEvent}
    (htake : m.take event = some (m.put i ⟨.text, text', textClosed'⟩)) :
    Assembles C keys text' textClosed' (m.put i ⟨.text, text', textClosed'⟩) calls
      { s with trace := s.trace ++ [.event event] } := by
  have hset := h.setText ((h.events_emit _).trans htake) (.inl ⟨hi, rfl⟩)
  rw [← hi] at hset
  exact hset

end

/-! ## Calls and their blocks -/

/-- A block's identifier and name, for what is known of the call when it is opened. -/
structure OpensAs (relay : AnthropicRelay) (upstreamId upstreamName : Option String)
    (id name : String) : Prop where
  name : relay.toolPolicy.validateName upstreamName = .ok name
  id : upstreamId = some id ∨ upstreamId = none ∧ ∃ n, id = "toolu_" ++ relay.uuid n

/-- Arguments that are relayed as they come. -/
def relayed (relay : AnthropicRelay) (arguments : String) : String :=
  if relay.deduplicateToolArguments then "" else arguments

/-- A call beside the block at its index: the block is opened with the first name, and holds the
arguments that do not wait. -/
structure CallShown (relay : AnthropicRelay) (o : Opening) (state : ToolState)
    (block : Option Block) : Prop where
  upstreamId : state.upstreamId = o.id
  arguments : block.elim "" Block.content ++ relay.relayed state.pendingArguments =
    relay.relayed state.allArguments
  unopened : state.started = false →
    block = none ∧ o.opened = state.name.map (state.upstreamId, ·)
  opened : state.started = true → ∃ known id name content, o.opened = some known ∧
    OpensAs relay known.1 (some known.2) id name ∧ block = some ⟨.toolUse id name, content, false⟩

variable {relay : AnthropicRelay} {o : Opening} {state : ToolState} {block : Option Block}

theorem callShown_new (relay : AnthropicRelay) (i : ℕ) : CallShown relay {} { index := i } none :=
  ⟨rfl, by simp, fun _ => ⟨rfl, rfl⟩, nofun⟩

theorem CallShown.take (h : CallShown relay o state block)
    (hnamed : state.started = state.name.isSome) (fragment : ToolFragment) :
    CallShown relay (o.take fragment) (state.take fragment relay.deduplicateToolArguments)
      block where
  upstreamId := by rw [upstreamId_take, h.upstreamId, Opening.take]
  arguments := by
    have harguments := h.arguments
    cases hdeduplicate : relay.deduplicateToolArguments with
    | true => simpa [relayed, hdeduplicate] using harguments
    | false =>
      simp only [relayed, hdeduplicate, Bool.false_eq_true, if_false] at harguments ⊢
      rw [pendingArguments_take, allArguments_take, ← String.append_assoc, harguments]
  unopened hstarted := by
    rw [started_take] at hstarted
    obtain ⟨hblock, hopened⟩ := h.unopened hstarted
    have hname : state.name = none := by simpa [hstarted] using hnamed
    refine ⟨hblock, ?_⟩
    rw [Opening.take, hopened, name_take, hname, upstreamId_take, h.upstreamId]
    simp
  opened hstarted := by
    rw [started_take] at hstarted
    obtain ⟨known, id, name, content, hopened, hopens, hblock⟩ := h.opened hstarted
    exact ⟨known, id, name, content, by rw [Opening.take, hopened, some_or], hopens, hblock⟩

theorem CallShown.flush {content : String}
    (h : CallShown relay o state (some ⟨.toolUse id name, content, false⟩))
    (hdeduplicate : relay.deduplicateToolArguments = false) :
    CallShown relay o { state with pendingArguments := "" }
      (some ⟨.toolUse id name, content ++ state.pendingArguments, false⟩) where
  upstreamId := h.upstreamId
  arguments := by simpa [relayed, hdeduplicate] using h.arguments
  unopened hstarted := by cases (h.unopened hstarted).1
  opened hstarted := by
    obtain ⟨known, id, name, _, hopened, hopens, hblock⟩ := h.opened hstarted
    cases hblock
    exact ⟨known, id, name, _, hopened, hopens, rfl⟩

theorem CallShown.start (h : CallShown relay o state none) (hname : state.name.isSome = true)
    (hstarted : state.started = false)
    (hopens : OpensAs relay state.upstreamId state.name id name) :
    CallShown relay o { state with started := true } (some ⟨.toolUse id name, "", false⟩) where
  upstreamId := h.upstreamId
  arguments := h.arguments
  unopened := nofun
  opened _ := by
    obtain ⟨_, hupstreamName⟩ := isSome_iff_exists.mp hname
    rw [hupstreamName] at hopens
    exact ⟨_, id, name, "", by rw [(h.unopened hstarted).2, hupstreamName]; rfl, hopens, rfl⟩

end

/-! ## Steps of one call -/

/-- The calls and the start of the message stay as they are. -/
structure Unmoved (s t : RelayState) : Prop where
  tools : t.tools = s.tools
  messageStarted : t.messageStarted = s.messageStarted

/-- What was sent so far is accepted by the client, and leaves the message open. -/
def Sound (trace : List (StreamAction AnthropicEvent)) : Prop :=
  ∃ m, assemble (eventsOf trace) = some m ∧ m.stopReason = none

section

variable {C D : ℕ → ToolState → Option Block → Prop} {keys : List ℕ} {text : String}
  {textClosed : Bool} {m : Assembled} {calls : ℕ → Option ToolState} {s : RelayState}
  {relay : AnthropicRelay} {openings : ℕ → Opening} {key : ℕ} {state : ToolState}

theorem Assembles.sound (h : Assembles C keys text textClosed m calls s) : Sound s.trace :=
  ⟨m, h.events, h.unstopped⟩

theorem Assembles.live (h : Assembles C keys text textClosed m calls s)
    (hstarted : s.messageStarted = true) : m.live = true := by
  simp [Assembled.live, h.started, hstarted, h.unstopped]

variable {E : Halt → RelayState → Prop}

theorem ensures_toolId :
    Ensures (relay.toolId state) (fun id t => (∃ n, t = { s with uuids := n }) ∧
      (state.upstreamId = some id ∨
        state.upstreamId = none ∧ ∃ n, id = "toolu_" ++ relay.uuid n)) E s := by
  rw [toolId]
  cases state.upstreamId with
  | some => exact ⟨⟨s.uuids, rfl⟩, .inl rfl⟩
  | none => exact ⟨⟨s.uuids + 1, rfl⟩, .inr ⟨rfl, s.uuids, rfl⟩⟩

theorem Assembles.startToolState (h : Assembles C keys text textClosed m calls s)
    (hstarted : s.messageStarted = true) (hkey : calls key = some state)
    (hnone : m.blocks[state.index]? = none)
    (hcall : ∀ id name, OpensAs relay state.upstreamId state.name id name →
      D key { state with started := true } (some ⟨.toolUse id name, "", false⟩))
    (hcalls : ∀ k ≠ key, ∀ x b, C k x b → D k x b) :
    Ensures (relay.startToolState state)
      (fun r t => r = { state with started := true } ∧ Unmoved s t ∧
        ∃ m', Assembles D keys text textClosed m' (update calls key (some r)) t)
      (fun _ t => Sound t.trace) s := by
  refine ensures_toolId.bind fun id t ⟨⟨n, ht⟩, hid⟩ => ?_
  subst ht
  cases hname : relay.toolPolicy.validateName state.name with
  | error => exact h.sound
  | ok name =>
    have hassembles : Assembles C keys text textClosed m calls { s with uuids := n } := { h with }
    exact ⟨rfl, ⟨rfl, rfl⟩, _, hassembles.put hkey { state with started := true } rfl
      (openBlock_eq_some.mpr ⟨h.live hstarted, hnone, rfl⟩) (hcall id name ⟨hname, hid⟩) hcalls⟩

theorem Assembles.flushToolArguments
    (h : Assembles (fun key => CallShown relay (openings key)) keys text textClosed m calls s)
    (hstarted : s.messageStarted = true) (hkey : calls key = some state)
    (hopen : state.started = true) : Ensures (relay.flushToolArguments state)
      (fun r t => Unmoved s t ∧ ∃ m', Assembles (fun key => CallShown relay (openings key)) keys
        text textClosed m' (update calls key (some r)) t) E s := by
  rw [AnthropicRelay.flushToolArguments]
  split_ifs with hkept
  · refine ⟨⟨rfl, rfl⟩, m, ?_⟩
    rwa [← hkey, update_eq_self]
  · obtain ⟨hdeduplicate, -⟩ : relay.deduplicateToolArguments = false ∧
        isEmpty state.pendingArguments = false := by simpa using hkept
    have hshown := h.call key _ hkey
    obtain ⟨_, _, _, _, -, -, hblock⟩ := hshown.opened hopen
    rw [hblock] at hshown
    exact ⟨⟨rfl, rfl⟩, _, h.put hkey _ (by rfl) (take_delta hblock (h.live hstarted) _)
      (hshown.flush hdeduplicate) fun _ _ _ _ hb => hb⟩

/-- What holds between two fragments. -/
def Relays (relay : AnthropicRelay) (d : Digest) (s : RelayState) : Prop :=
  ∃ m, Assembles (fun key => CallShown relay (openingOf d.fragments key)) (firstKeys d.fragments)
    d.text false m (fun key => s.tools[key]?) s

/-- What holds while the state of one call is changed, before it is stored. -/
def Handles (relay : AnthropicRelay) (d : Digest) (key : ℕ) (state : ToolState) (s : RelayState) :
    Prop :=
  ∃ m, Assembles (fun key => CallShown relay (openingOf d.fragments key)) (firstKeys d.fragments)
    d.text false m (Function.update (fun key => s.tools[key]?) key (some state)) s

variable {d : Digest}

theorem Relays.sound (h : Relays relay d s) : Sound s.trace :=
  let ⟨_, h⟩ := h
  h.sound

theorem Handles.store (h : Handles relay d key state s) :
    Relays relay d { s with tools := s.tools.insert key state } := by
  obtain ⟨m, h⟩ := h
  have hcalls : (fun k => (s.tools.insert key state)[k]?) =
      update (fun k => s.tools[k]?) key (some state) := by
    funext k
    rw [Std.TreeMap.getElem?_insert, update_apply]
    simp [eq_comm (a := k)]
  refine ⟨m, ?_⟩
  rw [hcalls]
  exact { h with }

/-- The calls with a name, and only these, have a block. -/
abbrev OpenByName (s : RelayState) : Prop :=
  ∀ (key : ℕ) state, s.tools[key]? = some state → state.started = state.name.isSome

theorem Relays.toolEntry (h : Relays relay d s) (fragment : ToolFragment)
    (hnamed : OpenByName s) :
    Ensures (toolEntry fragment.key) (fun entry t => t.messageStarted = s.messageStarted ∧
      entry.started = entry.name.isSome ∧
      Handles relay { d with fragments := d.fragments ++ [fragment] } fragment.key
        (entry.take fragment relay.deduplicateToolArguments) t) E s := by
  obtain ⟨m, h⟩ := h
  have hother : ∀ k ≠ fragment.key, ∀ x b, CallShown relay (openingOf d.fragments k) x b →
      CallShown relay (openingOf (d.fragments ++ [fragment]) k) x b := fun k hk x b hb => by
    rwa [openingOf_append_singleton, if_neg hk.symm]
  have hopening : openingOf (d.fragments ++ [fragment]) fragment.key =
      (openingOf d.fragments fragment.key).take fragment := by
    rw [openingOf_append_singleton, if_pos rfl]
  have hmem := h.mem_keys fragment.key
  rw [AnthropicRelay.toolEntry, ensures_bind, ensures_get]
  cases hentry : s.tools[fragment.key]? with
  | some entry =>
    have hkeys : firstKeys (d.fragments ++ [fragment]) = firstKeys d.fragments := by
      rw [firstKeys_append_singleton, if_pos (hmem.mp (by rw [hentry]; rfl))]
    have hshown := (h.call _ entry hentry).take (hnamed _ entry hentry) fragment
    refine ⟨rfl, hnamed _ entry hentry, m, ?_⟩
    dsimp only
    rw [hkeys]
    exact h.replace hentry _ _ (index_take ..) h.events rfl h.unstopped (fun _ _ => rfl)
      (by rwa [hopening]) hother
  | none =>
    have hfresh : fragment.key ∉ firstKeys d.fragments :=
      fun hin => by simpa [hentry] using hmem.mpr hin
    have hkeys : firstKeys (d.fragments ++ [fragment]) =
        firstKeys d.fragments ++ [fragment.key] := by
      rw [firstKeys_append_singleton, if_neg hfresh]
    have hshown := (callShown_new relay s.nextIndex).take rfl fragment
    refine ⟨rfl, rfl, m, ?_⟩
    dsimp only
    rw [hkeys]
    exact h.newCall hentry (index_take ..) (by rwa [hopening, openingOf_of_notMem hfresh]) hother

theorem Handles.flushToolArguments (h : Handles relay d key state s)
    (hstarted : s.messageStarted = true) (hopen : state.started = true) :
    Ensures (relay.flushToolArguments state)
      (fun r t => t.messageStarted = true ∧ Handles relay d key r t) E s := by
  obtain ⟨m, h⟩ := h
  refine (h.flushToolArguments hstarted (update_self ..) hopen).imp
    fun r t ⟨ht, m', hm'⟩ => ⟨ht.messageStarted.trans hstarted, m', ?_⟩
  rw [update_idem] at hm'
  rwa [ht.tools]

theorem Handles.flushToolArgumentsIfStarted (h : Handles relay d key state s)
    (hstarted : s.messageStarted = true) :
    Ensures (relay.flushToolArgumentsIfStarted state.started state)
      (fun r t => t.messageStarted = true ∧ Handles relay d key r t) E s := by
  rw [AnthropicRelay.flushToolArgumentsIfStarted]
  split_ifs with hopen
  · exact h.flushToolArguments hstarted hopen
  · exact ⟨hstarted, h⟩

theorem Handles.startNamedTool (h : Handles relay d key state s)
    (hstarted : s.messageStarted = true) (observed : ℕ) :
    Ensures (relay.startNamedTool observed state)
      (fun r t => Handles relay d key r t) (fun _ t => Sound t.trace) s := by
  rw [AnthropicRelay.startNamedTool]
  split_ifs with hstart
  · obtain ⟨hopen, hname⟩ : state.started = false ∧ state.name.isSome = true := by
      simpa using hstart
    obtain ⟨m, h⟩ := h
    have hkey := update_self key (some state) fun key => s.tools[key]?
    have hshown := h.call key _ hkey
    have hnone := (hshown.unopened hopen).1
    simp only [ensures_bind, ensures_get, ensures_act]
    refine ((h.act (by rfl)).startToolState hstarted hkey hnone
      (fun _ _ => (hnone ▸ hshown).start hname hopen)
      fun _ _ _ _ hb => hb).imp fun r t hstart => ?_
    obtain ⟨hr, ht, m', hm'⟩ := hstart
    rw [update_idem] at hm'
    refine (flushToolArguments ⟨m', by rwa [ht.tools]⟩
      (ht.messageStarted.trans hstarted) (by rw [hr])).imp fun _ _ hu => hu.2
  · exact h

theorem Relays.relayToolFragment (h : Relays relay d s) (fragment : ToolFragment)
    (hnamed : OpenByName s) (hstarted : s.messageStarted = true) :
    Ensures (relay.relayToolFragment fragment)
      (fun _ t => Relays relay { d with fragments := d.fragments ++ [fragment] } t)
      (fun _ t => Sound t.trace) s := by
  refine (h.toolEntry _ hnamed).bind fun _ t ⟨htstarted, _, ht⟩ => ?_
  rw [ensures_bind, ← started_take]
  refine (ht.flushToolArgumentsIfStarted (htstarted.trans hstarted)).imp
    fun _ u ⟨hustarted, hu⟩ => ?_
  exact (hu.startNamedTool hustarted _).bind fun _ _ hv => hv.store

end

end AnthropicRelay

end RouteSmith.Model

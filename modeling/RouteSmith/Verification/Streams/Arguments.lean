import RouteSmith.Verification.Responses.StrictPolicy
import RouteSmith.Verification.Streams.Delivery

/-! # The arguments that a strict relay delivers

What is checked at the end of a stream is not what the client is sent: blank arguments and those
without a complete object are checked as an empty object, and a call that was renamed is checked
for its last name.
-/

namespace RouteSmith.Model

open Text ToolResponsePolicy
open List hiding isEmpty

def isBlank (text : String) : Bool := isEmpty (trim text)

theorem ne_empty_of_isBlank {text : String} (h : isBlank text = false) : text ≠ "" := by
  rintro rfl
  exact absurd h (by decide)

/-! ## Calls without arguments -/

theorem callOf_eq_foldl (deduplicate : Bool) (fragments : List ToolFragment) (key : ℕ) :
    callOf deduplicate fragments key = (fragments.filter (·.key = key)).foldl
      (fun state fragment => state.take fragment deduplicate) { index := 0 } := by
  induction fragments using reverseRecOn with
  | nil => simp [callOf, collectTools]
  | append_singleton _ _ ih =>
    rw [callOf_append_singleton, filter_append, ih]
    split_ifs with hkey
    · simp [hkey]
    · simp [hkey]

theorem collectCompleteJsonObjects_empty (reader : Json.Reader) (best : Option String) :
    collectCompleteJsonObjects reader "" best = best := by
  simp [collectCompleteJsonObjects]

/-- No object is found in arguments that were never sent. -/
theorem ToolState.completeArguments_of_not_hasArgumentData (reader : Json.Reader)
    {state : ToolState} (h : state.hasArgumentData = false) :
    state.completeArguments reader = none := by
  simp only [hasArgumentData, Bool.or_eq_false_iff, Bool.not_eq_false', isEmpty,
    List.isEmpty_iff, String.toList_eq_nil_iff] at h
  obtain ⟨⟨hseen, hraw⟩, hpending⟩ := h
  simp [completeArguments, bestCompleteJsonObject, hseen, hraw, hpending,
    collectCompleteJsonObjects_empty]

theorem join_eq_empty_iff {texts : List String} :
    String.join texts = "" ↔ ∀ text ∈ texts, text = "" := by
  induction texts with
  | nil => simp
  | cons _ _ ih => simp [ih]

theorem Digest.fragments_sublist (deduplicate : Bool) (choices : List OpenAiStreamChoice) :
    (digest deduplicate choices).fragments.Sublist (choices.flatMap (·.delta.fragments)) := by
  induction choices using reverseRecOn with
  | nil => exact .refl _
  | append_singleton _ choice ih =>
    rw [digest_append, foldl_cons, foldl_nil, add]
    split
    · simpa using ih.append (.refl choice.delta.fragments)
    · dsimp only
      split_ifs
      · simpa using ih.trans (sublist_append_left ..)
      · simpa using ih.append (.refl choice.delta.fragments)

namespace AnthropicRelay

/-! ## What was sent and what is delivered -/

/-- All fragments of the choices that were read, whatever stands beside them. -/
def sentFragments (relay : AnthropicRelay) (frames : List (Except AppError SseFrame)) :
    List ToolFragment :=
  (readFrames relay.decodeChunk frames).choices.flatMap (·.delta.fragments)

/-- A complete JSON object can be obtained from the arguments of a call. -/
def obtainable (relay : AnthropicRelay) (fragments : List ToolFragment) (key : ℕ) : Bool :=
  if relay.deduplicateToolArguments then
    ((callOf true fragments key).completeArguments relay.reader).isSome
  else (relay.reader.parse (argumentsOf fragments key)).any Json.isObject

/-- The arguments of a block are an object that satisfies the schema of its tool; where nothing
was emitted and no argument text sent, they are the empty object. -/
def Satisfies (relay : AnthropicRelay) (sent : String) (use : ToolUse) : Prop :=
  ∃ members validator,
    (if use.arguments = "" ∧ sent = "" then members = []
      else relay.reader.parse use.arguments = some (.object members)) ∧
    relay.toolPolicy.inputValidators.lookup use.name = some validator ∧
    validator (.object members) = none

/-- Each tool block has valid arguments, and no call was sent arguments without an object. -/
structure DeliversValidArguments (relay : AnthropicRelay)
    (frames : List (Except AppError SseFrame)) : Prop where
  blocks : ∃ m, assemble (eventsOf (openaiStreamToAnthropic relay frames)) = some m ∧
    List.Forall₂ (fun key use => relay.Shows (relay.digestOf frames).fragments key use ∧
        relay.Satisfies (argumentsOf (relay.sentFragments frames) key) use)
      (shownKeys relay.deduplicateToolArguments (relay.digestOf frames).fragments) m.toolUses
  obtained : ∀ key ∈ firstKeys (relay.sentFragments frames),
    isBlank (argumentsOf (relay.sentFragments frames) key) = false →
      relay.obtainable (relay.sentFragments frames) key = true

/-- The call of a key as the relay sees it. -/
def seenCall (relay : AnthropicRelay) (frames : List (Except AppError SseFrame)) (key : ℕ) :
    ToolState :=
  callOf relay.deduplicateToolArguments (relay.digestOf frames).fragments key

/-- What the upstream must keep to. -/
structure KeepsArguments (relay : AnthropicRelay) (frames : List (Except AppError SseFrame)) :
    Prop where
  /-- Arguments that come to nothing were never sent. -/
  unsent : ∀ key ∈ shownKeys relay.deduplicateToolArguments (relay.digestOf frames).fragments,
    isBlank (relay.toolArguments (relay.seenCall frames key)) = true →
      argumentsOf (relay.sentFragments frames) key = ""
  /-- Arguments of a renamed call are also valid for its first name. -/
  renamed : ∀ key ∈ shownKeys relay.deduplicateToolArguments (relay.digestOf frames).fragments,
    ∀ name, (openingOf (relay.digestOf frames).fragments key).name = some name →
      (relay.seenCall frames key).name ≠ some name →
      (relay.toolPolicy.parseArguments relay.reader name
        (relay.toolArguments (relay.seenCall frames key))).isOk = true
  /-- Arguments sent beside content that adds no text are passed over, but hold an object. -/
  passedOver : ∀ key ∈ firstKeys (relay.sentFragments frames),
    (relay.sentFragments frames).filter (·.key = key) ≠
      (relay.digestOf frames).fragments.filter (·.key = key) →
    isBlank (argumentsOf (relay.sentFragments frames) key) = false →
      relay.obtainable (relay.sentFragments frames) key = true

variable {relay : AnthropicRelay} {frames : SseFrameStream} {key : ℕ}

section

variable (h : Succeeds relay frames) (hstrict : relay.toolPolicy.validation = .strict)
  (hreader : ∀ text, isBlank text = true → relay.reader.parse text = none)

include h hstrict in
theorem Succeeds.validated_call
    (hkey : key ∈ firstKeys (relay.digestOf frames).fragments) :
    ∃ name, (relay.seenCall frames key).name = some name ∧ relay.toolPolicy.Declares name ∧
      (relay.toolPolicy.parseArguments relay.reader name
        (relay.toolArguments (relay.seenCall frames key))).isOk = true := by
  rw [← isSome_collectTools relay.deduplicateToolArguments, Option.isSome_iff_exists] at hkey
  obtain ⟨call, hcall⟩ := hkey
  have hmem : call ∈ toolStates (collectTools relay.deduplicateToolArguments
      (relay.digestOf frames).fragments) :=
    mem_map.mpr ⟨(key, call), Std.TreeMap.mem_toList_iff_getElem?_eq_some.mpr hcall, rfl⟩
  obtain ⟨_, hids, -⟩ := validateTools_ok h.validated
  rw [seenCall, callOf, hcall, Option.getD_some]
  refine forall_mem_of_foldlM_ok (p := fun state => ∃ name, state.name = some name ∧
    relay.toolPolicy.Declares name ∧
    (relay.toolPolicy.parseArguments relay.reader name (relay.toolArguments state)).isOk = true)
    (fun _ _ _ hstate => ?_) hids _ hmem
  obtain ⟨name, _, hname, hvalue⟩ := validateTool_ok hstate
  obtain ⟨hgiven, -, hdeclares⟩ := (validateName_strict hstrict).mp hname
  exact ⟨name, hgiven, hdeclares, by rw [hvalue]; rfl⟩

theorem toolArguments_of_unsent (h : argumentsOf (relay.sentFragments frames) key = "") :
    relay.toolArguments (relay.seenCall frames key) = "" := by
  have hseen : argumentsOf (relay.digestOf frames).fragments key = "" := by
    rw [argumentsOf, join_eq_empty_iff] at h ⊢
    refine fun text htext => h text (Sublist.mem htext ?_)
    exact ((Digest.fragments_sublist _ _).filter _).filterMap _
  have hall := allArguments_callOf relay.deduplicateToolArguments (relay.digestOf frames).fragments
    key
  rw [hseen] at hall
  rw [seenCall, toolArguments]
  cases hdeduplicate : relay.deduplicateToolArguments with
  | false => rwa [hdeduplicate] at hall
  | true =>
    have htidy := tidy_callOf true (relay.digestOf frames).fragments key
    rw [hdeduplicate] at hall
    rw [ToolState.Tidy, hall] at htidy
    rw [ToolState.completeArguments_of_not_hasArgumentData _ htidy]
    rfl

include hstrict hreader in
/-- A block is satisfactory if its arguments do not come to nothing, and are valid for the name
that the client sees. -/
theorem satisfies_iff {use : ToolUse}
    (huse : use.arguments = relay.toolArguments (relay.seenCall frames key)) :
    relay.Satisfies (argumentsOf (relay.sentFragments frames) key) use ↔
      (isBlank use.arguments = true → argumentsOf (relay.sentFragments frames) key = "") ∧
      (relay.toolPolicy.parseArguments relay.reader use.name use.arguments).isOk = true := by
  rw [parseArguments_strict hstrict, Satisfies]
  cases hblank : isBlank use.arguments with
  | true =>
    rw [isBlank] at hblank
    simp only [hblank, if_true, true_imp_iff]
    by_cases hsent : argumentsOf (relay.sentFragments frames) key = ""
    · simp [huse, toolArguments_of_unsent hsent, hsent]
    · simp [hsent, hreader _ hblank]
  | false =>
    have hne := ne_empty_of_isBlank hblank
    rw [isBlank] at hblank
    simp [hblank, hne]

include h hstrict hreader in
theorem satisfies_iff_kept
    (hkey : key ∈ firstKeys (relay.digestOf frames).fragments) {use : ToolUse}
    (hshows : relay.Shows (relay.digestOf frames).fragments key use) :
    relay.Satisfies (argumentsOf (relay.sentFragments frames) key) use ↔
      (isBlank (relay.toolArguments (relay.seenCall frames key)) = true →
        argumentsOf (relay.sentFragments frames) key = "") ∧
      ∀ name, (openingOf (relay.digestOf frames).fragments key).name = some name →
        (relay.seenCall frames key).name ≠ some name →
        (relay.toolPolicy.parseArguments relay.reader name
          (relay.toolArguments (relay.seenCall frames key))).isOk = true := by
  obtain ⟨last, hlast, -, hvalid⟩ := h.validated_call hstrict hkey
  obtain ⟨hfirst, -, -⟩ := (validateName_strict hstrict).mp hshows.opens.name
  have huse := hshows.arguments
  rw [satisfies_iff hstrict hreader huse, huse]
  refine and_congr_right fun _ => ⟨fun hok _ hname _ => ?_, fun hrenamed => ?_⟩
  · cases hfirst.symm.trans hname
    exact hok
  · by_cases hsame : use.name = last
    · rw [hsame]
      exact hvalid
    · exact hrenamed _ hfirst fun heq => hsame (Option.some.inj (heq.symm.trans hlast))

include h hstrict in
/-- From all that was sent for a call and not passed over, an object was obtained. -/
theorem obtainable_of_seen (hkeeps : relay.KeepsArguments frames)
    (hkey : key ∈ firstKeys (relay.sentFragments frames))
    (hseen : (relay.sentFragments frames).filter (·.key = key) =
      (relay.digestOf frames).fragments.filter (·.key = key))
    (hblank : isBlank (argumentsOf (relay.sentFragments frames) key) = false) :
    relay.obtainable (relay.sentFragments frames) key = true := by
  have harguments : argumentsOf (relay.sentFragments frames) key =
      argumentsOf (relay.digestOf frames).fragments key := by rw [argumentsOf, hseen, argumentsOf]
  have hne := ne_empty_of_isBlank hblank
  have hcall : ∀ deduplicate, callOf deduplicate (relay.sentFragments frames) key =
      callOf deduplicate (relay.digestOf frames).fragments key := fun _ => by
    rw [callOf_eq_foldl, hseen, callOf_eq_foldl]
  have hall : (relay.seenCall frames key).allArguments =
      argumentsOf (relay.sentFragments frames) key := by
    rw [harguments]
    exact allArguments_callOf ..
  have hvisible : (relay.seenCall frames key).visible = true := by
    simp [ToolState.visible, hall, isEmpty, hne]
  have hfirst : key ∈ firstKeys (relay.digestOf frames).fragments := by
    rw [mem_firstKeys] at hkey ⊢
    obtain ⟨f, hf, hfkey⟩ := hkey
    have hfilter : f ∈ (relay.sentFragments frames).filter (·.key = key) :=
      mem_filter.mpr ⟨hf, by simpa using hfkey⟩
    rw [hseen] at hfilter
    exact ⟨f, mem_of_mem_filter hfilter, hfkey⟩
  have hshown : key ∈ shownKeys relay.deduplicateToolArguments
      (relay.digestOf frames).fragments := mem_filter.mpr ⟨hfirst, hvisible⟩
  have hkept : isBlank (relay.toolArguments (relay.seenCall frames key)) = false := by
    cases hcase : isBlank (relay.toolArguments (relay.seenCall frames key)) with
    | false => rfl
    | true => exact absurd (hkeeps.unsent key hshown hcase) hne
  obtain ⟨_, -, -, hvalid⟩ := h.validated_call hstrict hfirst
  obtain ⟨_, -, hmembers, -⟩ := (parseArguments_strict hstrict).mp hvalid
  rw [← isBlank, hkept, if_neg Bool.false_ne_true] at hmembers
  rw [obtainable]
  cases hdeduplicate : relay.deduplicateToolArguments with
  | true =>
    rw [if_pos rfl, hcall]
    cases hcomplete : (callOf true (relay.digestOf frames).fragments key).completeArguments
        relay.reader with
    | some arguments => rfl
    | none =>
      rw [toolArguments, hdeduplicate, if_pos rfl, seenCall, hdeduplicate, hcomplete] at hkept
      exact absurd hkept (by decide)
  | false =>
    rw [toolArguments, hdeduplicate, if_neg Bool.false_ne_true, hall] at hmembers
    rw [if_neg Bool.false_ne_true, hmembers]
    rfl

end

theorem forall₂_and_iff {α β : Type} {R S : α → β → Prop} {p : α → Prop} {l : List α}
    {l' : List β} (h : Forall₂ R l l') (hp : ∀ a ∈ l, ∀ b, R a b → (S a b ↔ p a)) :
    Forall₂ (fun a b => R a b ∧ S a b) l l' ↔ ∀ a ∈ l, p a := by
  induction h with
  | nil => simp
  | cons hab _ ih =>
    rw [forall₂_cons, forall_mem_cons,
      ih fun a ha => hp a (mem_cons_of_mem _ ha), hp _ (mem_cons_self ..) _ hab,
      and_iff_right hab]

/-- A complete stream of a strict relay delivers valid arguments exactly if the upstream keeps to
the condition. -/
theorem delivered_arguments_valid_iff (hstrict : relay.toolPolicy.validation = .strict)
    (hreader : ∀ text, isBlank text = true → relay.reader.parse text = none)
    (hstop : Except.ok .messageStop ∈ itemsOf (openaiStreamToAnthropic relay frames)) :
    relay.DeliversValidArguments frames ↔ relay.KeepsArguments frames := by
  have hsucceeds := messageStop_mem_iff.mp hstop
  cases outcome_openaiStreamToAnthropic relay frames with
  | breaksOff _ _ hfails => exact absurd hsucceeds hfails
  | delivers m _ _ hm hdelivered =>
    have hblocks := forall₂_and_iff hdelivered.toolUses fun key hkey _ hshows =>
      satisfies_iff_kept hsucceeds hstrict hreader (mem_of_mem_filter hkey) hshows
    constructor
    · rintro ⟨⟨_, hm', huses⟩, hobtained⟩
      cases hm.symm.trans hm'
      exact ⟨fun key hkey => (hblocks.mp huses key hkey).1,
        fun key hkey => (hblocks.mp huses key hkey).2, fun key hkey _ => hobtained key hkey⟩
    · intro hkeeps
      refine ⟨⟨m, hm, hblocks.mpr fun key hkey =>
        ⟨hkeeps.unsent key hkey, hkeeps.renamed key hkey⟩⟩, fun key hkey hblank => ?_⟩
      by_cases hseen : (relay.sentFragments frames).filter (·.key = key) =
          (relay.digestOf frames).fragments.filter (·.key = key)
      · exact obtainable_of_seen hsucceeds hstrict hkeeps hkey hseen hblank
      · exact hkeeps.passedOver key hkey hseen hblank

/-- A chunk with one call, and the empty object. -/
def oneCallReader (arguments : String) : Json.Reader where
  parse text :=
    if text = "call" then
      some (.object [("choices", .array [.object [
        ("delta", .object [("tool_calls", .array [.object [("index", .ofNat 0),
          ("id", .string "call_1"), ("function", .object [("name", .string "get"),
            ("arguments", .string arguments)])]])]),
        ("finish_reason", .string "tool_calls")]])])
    else if text = "\x7b\x7d" then some (.object [])
    else none
  report _ := "expected value"
  first _ := none

/-- A strict relay of a tool that takes any object. -/
def oneCallRelay (deduplicate : Bool) (arguments : String) : AnthropicRelay where
  reader := oneCallReader arguments
  uuid := toString
  model := "m"
  deduplicateStreamText := false
  deduplicateToolArguments := deduplicate
  toolPolicy := {
    validation := .strict
    allowedNames := some ["get"]
    inputValidators := AList.singleton "get" fun _ => none }

theorem delivered_arguments_valid_sample :
    (oneCallRelay false "\x7b\x7d").DeliversValidArguments [.ok { data := "call" }] := by
  have hreader : ∀ text, isBlank text = true →
      (oneCallRelay false "\x7b\x7d").reader.parse text = none := by
    intro text hblank
    have hcall : text ≠ "call" := fun h => absurd (h ▸ hblank) (by decide)
    have hobject : text ≠ "\x7b\x7d" := fun h => absurd (h ▸ hblank) (by decide)
    exact (if_neg hcall).trans (if_neg hobject)
  refine (delivered_arguments_valid_iff rfl hreader
    (messageStop_mem_of_any (by decide))).mpr ⟨by decide, ?_, ?_⟩
  · have hsame : ∀ key ∈ shownKeys false
        ((oneCallRelay false "\x7b\x7d").digestOf [.ok { data := "call" }]).fragments,
        ((oneCallRelay false "\x7b\x7d").seenCall [.ok { data := "call" }] key).name =
          (openingOf ((oneCallRelay false "\x7b\x7d").digestOf
            [.ok { data := "call" }]).fragments key).name := by decide
    exact fun key hkey _ hname => absurd ((hsame key hkey).trans hname)
  · have hseen : ∀ key ∈ firstKeys ((oneCallRelay false "\x7b\x7d").sentFragments
        [.ok { data := "call" }]),
        ((oneCallRelay false "\x7b\x7d").sentFragments [.ok { data := "call" }]).filter
            (·.key = key) =
          ((oneCallRelay false "\x7b\x7d").digestOf [.ok { data := "call" }]).fragments.filter
            (·.key = key) := by decide
    exact fun key hkey => absurd (hseen key hkey)

/-- Arguments that hold no object are delivered as none at all. -/
theorem arguments_without_object_delivered :
    Except.ok .messageStop ∈ itemsOf (openaiStreamToAnthropic (oneCallRelay true "oops")
        [.ok { data := "call" }]) ∧
      ¬(oneCallRelay true "oops").DeliversValidArguments [.ok { data := "call" }] := by
  refine ⟨messageStop_mem_of_any (by decide), fun h => ?_⟩
  have hobtained := h.obtained 0 (by decide) (by decide)
  exact absurd hobtained (by decide)

end AnthropicRelay

end RouteSmith.Model

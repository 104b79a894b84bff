import Mathlib.Data.Prod.Lex
import RouteSmith.Verification.Routing.Plans

/-! # Selectors and groups in a plan

A name that selects a provider is planned on other providers too if blanks stand before it. The
plan of a group is made of its eligible candidates.
-/

namespace RouteSmith.Model

open Store Text List AppConfig

variable {env : String → Option String} {request : RoutingRequest}

/-! ## Selectors -/

theorem resolve_selector {config : AppConfig} {requested id model : String}
    (hselector : splitOnce ':' (trim requested) = some (id, model)) (hid : id ∈ config.providers)
    (hmodel : isEmpty (trim model) = false) : ∃ provider,
      config.resolve requested = .ok ⟨id, provider, trim model⟩ := by
  obtain ⟨provider, hprovider⟩ := NameMap.mem_iff_exists_lookup.mp hid
  have hnonempty : isEmpty (trim requested) = false := by
    rw [← Bool.not_eq_true]
    intro hempty
    rw [Text.isEmpty, List.isEmpty_iff] at hempty
    simp [splitOnce, hempty] at hselector
  have hparse : config.parseProviderModel (trim requested) = some (id, trim model) := by
    simp [parseProviderModel, hselector, hid]
  refine ⟨provider, ?_⟩
  simp [resolve, resolveInner, hnonempty, hparse, resolveForProvider_some hprovider, selectedModel,
    isEmpty_trim_trim, hmodel]

/-- The plan of a name that selects a provider keeps to the provider iff the name does so as it
stands, blanks included, or no other provider takes over. -/
theorem selector_kept_iff {id model : String}
    (hgroup : request.config.smartRouteGroup request.requestedModel = none)
    (hselector : splitOnce ':' (trim request.requestedModel) = some (id, model))
    (hid : id ∈ request.config.providers) (hmodel : isEmpty (trim model) = false) :
    ∃ attempts, plan env request = .ok attempts ∧ ((∀ a ∈ attempts, a.providerId = id) ↔
      isExplicitProviderSelector request.config request.requestedModel = true ∨
        ¬TakesOver env request id (trim model)) := by
  obtain ⟨primary, hresolve⟩ := resolve_selector hselector hid hmodel
  refine ⟨_, by rw [plan, hgroup, staticPlan, hresolve]; rfl, ?_⟩
  simp only [mem_staticRouteAttempts]
  constructor
  · intro hkept
    by_contra hnot
    obtain ⟨hexplicit, hover⟩ := not_or.mp hnot
    obtain ⟨a, ha⟩ := exists_mem_of_ne_nil _
      ((takesOver_iff ⟨id, primary, trim _⟩).mp (not_not.mp hover))
    have hid := hkept a (.inr ⟨Bool.eq_false_iff.mpr hexplicit, ha⟩)
    obtain ⟨_, -, hne, -, _, -, _, -, rfl⟩ := mem_fallbackAttempts.mp ha
    exact hne hid
  · rintro hcondition a (⟨rfl, -⟩ | ⟨hexplicit, ha⟩)
    · rfl
    · rw [hexplicit] at hcondition
      exact absurd ((takesOver_iff _).mpr (ne_nil_of_mem ha))
        (hcondition.resolve_left Bool.false_ne_true)

/-- Two providers of the same model. -/
def pairedRouting (requestedModel : String) : RoutingRequest :=
  let provider : ProviderConfig :=
    { protocol := .openaiCompat, baseUrl := "http://127.0.0.1:8080/v1"
      defaultModel := "m", models := ["m"] }
  { sampleRouting requestedModel with config :=
    { defaultProvider := "a", providerOrder := ["a", "b"]
      providers := (AList.singleton "b" provider).insert "a" provider } }

theorem selector_kept : ∃ attempts, plan (fun _ => none) (pairedRouting "a:m") = .ok attempts ∧
    ∀ a ∈ attempts, a.providerId = "a" := by
  obtain ⟨attempts, hplan, hkept⟩ := @selector_kept_iff (fun _ => none) (pairedRouting "a:m")
    "a" "m" (by decide) (by decide) (by decide) (by decide)
  exact ⟨attempts, hplan, hkept.mpr (.inl (by decide))⟩

/-- A blank before the selector brings the other provider into the plan. -/
theorem blank_before_selector : (plan (fun _ => none) (pairedRouting " a:m")).toOption.map
    (·.map (·.providerId)) = some ["a", "b"] := by
  decide

/-! ## Groups -/

/-- The plan of a group takes the eligible candidates: by descending score with ties in the order
of the group if the route is active, and in that order if not. Where there is none, planning fails;
and one in cooldown is eligible only if every other ready one is in cooldown, too. -/
theorem group_plan_ordered {S : Type} [LinearOrder S] (score : ScoredCandidate → S)
    (hscore : ∀ left right, request.scoresAbove left right = decide (score right < score left))
    {groupId : String} {group : RouteGroupConfig}
    (hgroup : request.config.smartRouteGroup request.requestedModel = some (groupId, group)) :
    let eligible := request.scored (Chosen env request group.candidates) group.candidates
    let active := request.config.smartRouting.mode = .active ∧
      request.activationBucket < request.config.smartRouting.activationPercent
    (eligible = [] → ∃ e, plan env request = .error e) ∧
    (eligible ≠ [] → ∃ order, plan env request = .ok (order.map (·.resolved)) ∧ order ~ eligible ∧
      (¬active → order = eligible) ∧ (active → order.Pairwise fun left right =>
        score right < score left ∨
          score left = score right ∧ left.originalIndex ≤ right.originalIndex)) ∧
    ∀ candidate ∈ group.candidates, ∀ provider,
      Chosen env request group.candidates candidate provider →
      request.inCooldown env candidate.provider = true → ∀ other ∈ group.candidates, ∀ provider,
        Ready env request other provider → request.inCooldown env other.provider = true := by
  intro eligible active
  have hplan : plan env request = groupPlan env request groupId group := by rw [plan, hgroup]
  let key (s : ScoredCandidate) : Sᵒᵈ ×ₗ ℕ := toLex (.toDual (score s), s.originalIndex)
  have hbefore : ∀ left right, request.before left right ↔ key left ≤ key right := by
    intro left right
    simp only [RoutingRequest.before, hscore, decide_eq_true_eq, decide_eq_false_iff_not, not_lt,
      key, Prod.Lex.toLex_le_toLex, OrderDual.toDual_inj]
    exact ⟨fun h => h.elim .inl fun h => h.1.lt_or_eq.imp_right fun heq => ⟨heq.symm, h.2⟩,
      .imp_right fun h => ⟨h.1.ge, h.2⟩⟩
  have htotal : Std.Total request.before :=
    ⟨fun _ _ => by simpa only [hbefore] using le_total _ _⟩
  have htrans : IsTrans _ request.before :=
    ⟨fun _ _ _ => by simpa only [hbefore] using le_trans⟩
  rw [hplan, groupPlan]
  dsimp only
  rw [eligible_groupVerdicts]
  refine ⟨fun hnone => ?_, fun hsome => ?_, fun _ _ _ hchosen hcooldown => ?_⟩
  · rw [if_pos (isEmpty_iff.mpr hnone)]
    split
    · exact ⟨_, rfl⟩
    · split_ifs <;> exact ⟨_, rfl⟩
  · rw [if_neg fun h => hsome (isEmpty_iff.mp h)]
    by_cases hactive : active
    · refine ⟨eligible.insertionSort _, by rw [if_pos hactive], perm_insertionSort ..,
        absurd hactive, fun _ => (pairwise_insertionSort _ _).imp fun h => ?_⟩
      simpa only [key, Prod.Lex.toLex_le_toLex, OrderDual.toDual_lt_toDual, OrderDual.toDual_inj]
        using (hbefore _ _).mp h
    · exact ⟨eligible, by rw [if_neg hactive], .refl _, fun _ => rfl, (absurd · hactive)⟩
  · exact hchosen.2.resolve_left (by simp [hcooldown])

/-- Three providers of a model in an active group, each quicker than the one before it. The last one
is in cooldown. -/
def scoredRouting : RoutingRequest :=
  let provider : ProviderConfig :=
    { protocol := .openaiCompat, baseUrl := "http://127.0.0.1:8080/v1"
      defaultModel := "m", models := ["m"] }
  { sampleRouting "smart" with
    config := {
      defaultProvider := "a", providerOrder := ["a", "b", "c"]
      providers := ((AList.singleton "c" provider).insert "b" provider).insert "a" provider
      smartRouting := {
        mode := .active, activationPercent := 100
        groups := AList.singleton "auto" {
          aliases := ["smart"]
          candidates := [⟨"a", "m", .ofRat 0.8, 300, true⟩, ⟨"b", "m", .ofRat 0.8, 200, true⟩,
            ⟨"c", "m", .ofRat 0.8, 100, true⟩] } } }
    control := { providerHealth := AList.singleton "c" { cooldownUntilMs := some 1 } }
    scoresAbove := fun left right => left.latencyHintMs < right.latencyHintMs }

theorem smart_group_planned : ∃ order : List ScoredCandidate,
    plan (fun _ => none) scoredRouting = .ok (order.map (·.resolved)) ∧
      order.map (·.resolved.providerId) = ["b", "a"] ∧
      order.Pairwise (fun left right => left.latencyHintMs ≤ right.latencyHintMs) ∧
      scoredRouting.inCooldown (fun _ => none) "c" = true := by
  obtain ⟨hnone, hsome, -⟩ := @group_plan_ordered (fun _ => none) scoredRouting ℕᵒᵈ _
    (fun s => .toDual s.latencyHintMs) (fun _ _ => rfl) _ _ rfl
  have hids : (plan (fun _ => none) scoredRouting).toOption.map (·.map (·.providerId)) =
      some ["b", "a"] := by
    decide
  obtain ⟨order, horder, -, -, hsorted⟩ := hsome fun hempty => by
    obtain ⟨e, he⟩ := hnone hempty
    rw [he] at hids
    cases hids
  rw [horder] at hids
  refine ⟨order, horder, map_map.symm.trans (Option.some.inj hids),
    (hsorted (by decide)).imp fun h => ?_, by decide⟩
  rcases h with hlt | ⟨heq, -⟩
  · exact Nat.le_of_lt hlt
  · exact (OrderDual.toDual_inj.mp heq).le

end RouteSmith.Model

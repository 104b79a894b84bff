import Mathlib.Data.Finset.Lattice.Fold
import Mathlib.Order.Lattice.Nat
import RouteSmith.Model.Providers.OpenAiClientStream

/-! # Usage reports

Of each token count the record of a stream keeps the largest that was reported, in whatever order.
What is written for an OpenAI client is read back with the same totals.
-/

namespace RouteSmith.Model

open Numeric List

variable {ε : Type}

def StreamAction.report? : StreamAction ε → Option TokenUsageBreakdown
  | update (.usage reported) => some reported
  | _ => none

/-- The usage that was reported, without the order of the reports and their repetitions. -/
def reportsOf (trace : List (StreamAction ε)) : Finset TokenUsageBreakdown :=
  (trace.filterMap StreamAction.report?).toFinset

def tokenCounts : List (TokenUsageBreakdown → U64) :=
  [(·.inputTokens), (·.outputTokens), (·.cacheWriteTokens), (·.cacheReadTokens)]

/-- `usage` has the largest of each count, and is missing when there are no reports. -/
def KeepsLargest (reports : Finset TokenUsageBreakdown) (usage : Option TokenUsageBreakdown) :
    Prop :=
  (usage = none ↔ reports = ∅) ∧ ∀ count ∈ tokenCounts,
    (count (usage.getD {})).val = reports.sup fun reported => (count reported).val

def TokenUsageBreakdown.prompt (usage : TokenUsageBreakdown) : ℕ :=
  usage.inputTokens.val + usage.cacheWriteTokens.val + usage.cacheReadTokens.val

theorem lifecycleAfter_append_singleton (elapsed : ℕ → ℕ) (trace : List (StreamAction ε))
    (action : StreamAction ε) : lifecycleAfter elapsed (trace ++ [action]) =
      action.apply (elapsed trace.length) (lifecycleAfter elapsed trace) := by
  simp [lifecycleAfter, zipIdx_append]

theorem StreamAction.usage_apply {action : StreamAction ε} (h : action.report? = none)
    (elapsed : ℕ) (l : StreamLifecycle) : (action.apply elapsed l).usage = l.usage := by
  cases action with
  | event | error => rfl
  | update u =>
    cases u with
    | usage => cases h
    | semanticEvent => rfl
    | completed | failed => exact apply_ite StreamLifecycle.usage .. |>.trans (ite_self _)
    | fragment =>
      exact apply_ite StreamLifecycle.usage _ _ _ |>.trans (ite_self _)
    | openaiResponse response =>
      change (l.observeOpenaiResponse response).usage = _
      rw [StreamLifecycle.observeOpenaiResponse]
      split <;> rfl

theorem count_mergeUsage {count : TokenUsageBreakdown → U64} (h : count ∈ tokenCounts)
    (l : StreamLifecycle) (reported : TokenUsageBreakdown) :
    (count ((l.mergeUsage reported).usage.getD {})).val =
      max (count (l.usage.getD {})).val (count reported).val := by
  have hmax : ∀ a b : U64, (max a b).val = max a.val b.val := fun a b =>
    (apply_ite Saturating.val _ b a).trans (max_def ..).symm
  simp only [tokenCounts, mem_cons, not_mem_nil, or_false] at h
  rcases h with rfl | rfl | rfl | rfl <;> exact hmax _ _

theorem usage_lifecycleAfter (elapsed : ℕ → ℕ) (trace : List (StreamAction ε)) :
    KeepsLargest (reportsOf trace) (lifecycleAfter elapsed trace).usage := by
  induction trace using reverseRecOn with
  | nil => exact ⟨iff_of_true rfl rfl, by simp [tokenCounts, lifecycleAfter, reportsOf]⟩
  | append_singleton trace action ih =>
    rw [lifecycleAfter_append_singleton]
    cases hreport : action.report? with
    | none => simpa [StreamAction.usage_apply, reportsOf, hreport] using ih
    | some reported =>
      obtain rfl : action = .update (.usage reported) := by
        cases action with
        | event | error => cases hreport
        | update u => cases u <;> cases hreport; rfl
      have hreports : reportsOf (trace ++ [.update (.usage reported)]) =
          insert reported (reportsOf trace) := by
        ext
        simp [reportsOf, hreport]
      rw [hreports]
      refine ⟨iff_of_false nofun (Finset.insert_ne_empty _ _), fun _ hcount => ?_⟩
      rw [Finset.sup_insert, ← ih.2 _ hcount, sup_comm]
      exact count_mergeUsage hcount _ _

/-- However usage is reported, the record keeps the largest of each count. And a usage whose
prompt tokens fit is read back with its output, its cached tokens and the sum of the prompt. -/
theorem usage_kept : (∀ (elapsed : ℕ → ℕ) (trace : List (StreamAction ε)),
      KeepsLargest (reportsOf trace) (lifecycleAfter elapsed trace).usage) ∧
    ∀ (usage : TokenUsageBreakdown) (response : Json), usage.prompt < 2 ^ 64 →
      response.get? "usage" = some (openaiUsageValue usage) →
      (openaiUsage response).outputTokens = usage.outputTokens ∧
        (openaiUsage response).cacheReadTokens = usage.cacheReadTokens ∧
        (openaiUsage response).prompt = usage.prompt := by
  refine ⟨usage_lifecycleAfter, fun usage response hfits hresponse => ?_⟩
  have hread : openaiUsage response = ⟨usage.inputTokens + usage.cacheWriteTokens +
      usage.cacheReadTokens - usage.cacheReadTokens, usage.outputTokens, 0,
      usage.cacheReadTokens⟩ := by
    rw [openaiUsage, hresponse]
    rfl
  rw [hread]
  refine ⟨rfl, rfl, ?_⟩
  change min (min (usage.inputTokens.val + usage.cacheWriteTokens.val) _ +
    usage.cacheReadTokens.val) _ - _ + 0 + usage.cacheReadTokens.val = _
  rw [TokenUsageBreakdown.prompt] at *
  omega

theorem usage_read_back : (openaiUsage (.object [("usage", openaiUsageValue
      ⟨.ofNat _ 7, .ofNat _ 4, .ofNat _ 2, .ofNat _ 1⟩)])).cacheReadTokens = .ofNat _ 1 :=
  ((usage_kept (ε := Empty)).2 ⟨.ofNat _ 7, .ofNat _ 4, .ofNat _ 2, .ofNat _ 1⟩ _ (by decide)
    rfl).2.1

end RouteSmith.Model

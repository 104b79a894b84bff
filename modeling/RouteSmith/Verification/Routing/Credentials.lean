import RouteSmith.Model.Routing

/-! # Credential pools

Routing asks whether a pool has a usable credential; a request then selects one from it.
-/

namespace RouteSmith.Model.ControlInner

open List

variable {available : List ProviderCredentialRecord}

theorem mem_of_roundRobinProviderCredential {currentId : Option String}
    {credential : ProviderCredentialRecord}
    (h : credential ∈ roundRobinProviderCredential available currentId) :
    credential ∈ available := by
  unfold roundRobinProviderCredential at h
  split at h
  · cases h
  · simp_all
  · rcases Option.or_eq_some_iff.mp h with hfind | ⟨-, hfirst⟩
    · rcases mem_append.mp (mem_of_find?_eq_some hfind) with hmem | hmem
      · exact (dropWhile_sublist _).subset (mem_of_mem_drop hmem)
      · exact hmem
    · simp_all

theorem any_or_head? {preferred : Option ProviderCredentialRecord}
    (hmem : ∀ c ∈ preferred, c ∈ available) {p : ProviderCredentialRecord → Bool}
    (hp : ∀ c ∈ available, p c = true) :
    (preferred.or available.head?).any p = !available.isEmpty := by
  cases preferred with
  | none => cases available <;> simp_all
  | some c =>
    have hc := hmem c rfl
    simp [hp c hc, ne_nil_of_mem hc]

/-- Routing takes a pool for available exactly if the credential selected from it has a key. -/
theorem routeAvailable_eq_selected (env : String → Option String) (inner : ControlInner)
    (providerId : String) (now : ℕ) :
    inner.providerCredentialRouteAvailable env providerId now =
      if (inner.providerCredentials.lookup providerId).any (!·.entries.isEmpty) then
        some ((inner.selectProviderCredential env providerId now).1.any fun credential =>
          (secret env credential.apiKeyEnv).isSome)
      else none := by
  rw [providerCredentialRouteAvailable, selectProviderCredential, hasUsableProviderCredential]
  cases inner.providerCredentials.lookup providerId with
  | none => rfl
  | some pool =>
    by_cases hempty : pool.entries.isEmpty = true
    · simp [hempty]
    obtain ⟨available, havailable⟩ : ∃ available, available = pool.values.filter fun c =>
      providerCredentialIsUsable env c (inner.providerCredentialHealth.lookup providerId) now :=
      ⟨_, rfl⟩
    have hkeys : ∀ c ∈ available, (secret env c.apiKeyEnv).isSome = true := by
      simp +contextual [havailable, providerCredentialIsUsable]
    have husable : (pool.values.any fun c => providerCredentialIsUsable env c
        (inner.providerCredentialHealth.lookup providerId) now) = !available.isEmpty := by
      rw [havailable, Bool.eq_iff_iff]
      simp
    simp only [hempty, Bool.false_eq_true, if_false, Option.any_some, Bool.not_false, if_true,
      husable, ← havailable]
    -- the choice is the same whether or not it becomes the active one
    by_cases hmode : inner.providerCredentialPoolMode providerId = "manual"
    · simp only [hmode, ne_eq, not_true_eq_false, if_false]
      split <;> rename_i hselected <;> simp only [hselected, apply_ite Prod.fst, ite_self]
    · rw [if_pos hmode]
      split <;> simp only [apply_ite Prod.fst, ite_self] <;> rename_i hselected <;>
        rw [← hselected] <;> split
      all_goals first
        | contradiction
        | rw [any_or_head? (fun _ => mem_of_roundRobinProviderCredential) hkeys]
        | rw [any_or_head? (fun _ hc => ?_) hkeys]
          obtain ⟨_, -, hfind⟩ := Option.bind_eq_some_iff.mp hc
          exact mem_of_find?_eq_some hfind

end RouteSmith.Model.ControlInner

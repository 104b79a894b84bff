import RouteSmith.Model.Routing

/-! # The merged catalog

Whatever the control plane holds, the effective configuration keeps to providers of the reviewed
catalog that are neither disabled nor deleted, and lists none of the models it has disabled.
-/

namespace RouteSmith.Model

open Store List NameMap

/-- The control plane has disabled the model for the provider. -/
def ControlInner.modelDisabled (control : ControlInner) (providerId model : String) : Bool :=
  (control.providerModelOverrides.lookup providerId).any fun overrides =>
    (overrides.lookup model).any fun record => record.status = "disabled"

/-! ## Model overrides -/

variable {provider : ProviderConfig} {model : String}

theorem mem_models_applyModelOverride {entry : Σ _ : String, ProviderModelOverrideRecord} :
    model ∈ (applyModelOverride provider entry).models ↔
      if entry.1 = model then entry.2.status ≠ "disabled" else model ∈ provider.models := by
  rw [applyModelOverride]
  split_ifs <;> simp_all [eq_comm]

theorem mem_models_foldl_of_notMem {entries : List (Σ _ : String, ProviderModelOverrideRecord)}
    (hkey : model ∉ entries.keys) :
    model ∈ (entries.foldl applyModelOverride provider).models ↔ model ∈ provider.models := by
  induction entries generalizing provider with
  | nil => rfl
  | cons _ _ ih =>
    rw [keys_cons, mem_cons, not_or] at hkey
    rw [foldl_cons, ih hkey.2, mem_models_applyModelOverride, if_neg (Ne.symm hkey.1)]

/-- A model with an override is listed iff the override does not disable it. -/
theorem mem_models_applyModelOverrides {overrides : NameMap ProviderModelOverrideRecord}
    {record : ProviderModelOverrideRecord} (hrecord : overrides.lookup model = some record)
    (provider : ProviderConfig) :
    model ∈ (applyModelOverrides overrides provider).models ↔ record.status ≠ "disabled" := by
  obtain ⟨_, _, hentries⟩ :=
    append_of_mem (AList.mem_lookup_iff.mp hrecord)
  have hnodup := overrides.nodupKeys
  rw [hentries, NodupKeys, keys, map_append, nodup_append] at hnodup
  -- no later entry has the key again
  have hafter := (nodup_cons.mp hnodup.2.1).1
  rw [applyModelOverrides, hentries, foldl_append, foldl_cons,
    mem_models_foldl_of_notMem hafter, mem_models_applyModelOverride, if_pos rfl]

/-! ## Providers -/

/-- The providers are reviewed ones, without those deleted. -/
def Catalog.Within (approved : NameMap ProviderConfig) (deleted : List String)
    (catalog : Catalog) : Prop :=
  ∀ id ∈ catalog.providers, id ∈ approved ∧ id ∉ deleted

section

variable {env : String → Option String} {approved : NameMap ProviderConfig} {deleted : List String}

theorem Catalog.Within.applyProviderOverride {catalog : Catalog}
    (h : catalog.Within approved deleted) (entry : Σ _ : String, ProviderOverrideRecord) :
    (applyProviderOverride env approved deleted catalog entry).Within approved deleted := by
  rw [Model.applyProviderOverride]
  by_cases hdeleted : entry.1 ∈ deleted
  · rw [if_pos hdeleted]
    exact h
  · rw [if_neg hdeleted]
    split
    · exact h
    · next provider hprovider =>
      obtain ⟨config, hconfig, -⟩ := Option.bind_eq_some_iff.mp hprovider
      intro id hid
      rcases AList.mem_insert _ |>.mp hid with rfl | hid
      · exact ⟨mem_iff_exists_lookup.mpr ⟨config, hconfig⟩, hdeleted⟩
      · exact h id hid

theorem Catalog.Within.foldl_applyProviderOverride
    (entries : List (Σ _ : String, ProviderOverrideRecord)) {catalog : Catalog}
    (h : catalog.Within approved deleted) :
    (entries.foldl (Model.applyProviderOverride env approved deleted) catalog).Within
      approved deleted := by
  induction entries generalizing catalog with
  | nil => exact h
  | cons entry _ ih => exact ih (h.applyProviderOverride entry)

end

/-- What the effective configuration guarantees of its providers. -/
structure Reviewed (control : ControlInner) (config : AppConfig) : Prop where
  not_deleted : ∀ id ∈ config.providers, id ∉ control.deletedProviders
  enabled : ∀ id ∈ config.providers, id ∉ control.disabledProviders
  exact_names : ∀ id provider, config.providers.lookup id = some provider →
    provider.modelPrefixes = [] ∧ provider.passthroughUnknownModels = false
  listed : ∀ id provider, config.providers.lookup id = some provider →
    ∀ model ∈ provider.models, control.modelDisabled id model = false

variable (env : String → Option String)

variable {base : AppConfig} {control : ControlInner} {id : String}

theorem mem_mergedCatalog (h : id ∈ (mergedCatalog env base control false).providers) :
    id ∈ base.providers ∧ id ∉ control.deletedProviders ∧ id ∉ control.disabledProviders := by
  simp only [mergedCatalog, mem_adjustEach, mem_mapValues, Bool.false_eq_true,
    if_false, Catalog.remove, mem_eraseEach] at h
  have hwithin : (Catalog.remove ⟨base.providers, base.providerOrder⟩
      control.deletedProviders).Within base.providers control.deletedProviders :=
    fun id => mem_eraseEach.mp
  obtain ⟨hbase, hdeleted⟩ :=
    hwithin.foldl_applyProviderOverride _ id h.1
  exact ⟨hbase, hdeleted, h.2⟩

/-- The last two steps of the merge: the model overrides, then the reviewed models. -/
theorem lookup_mergedCatalog
    (h : (mergedCatalog env base control false).providers.lookup id = some provider) :
    ∃ approved merged, provider = restrictToApproved approved
      ((control.providerModelOverrides.lookup id).elim merged fun overrides =>
        applyModelOverrides overrides merged) := by
  obtain ⟨approved, happroved⟩ := mem_iff_exists_lookup.mp
    (mem_mergedCatalog env (mem_iff_exists_lookup.mpr ⟨_, h⟩)).1
  rw [mergedCatalog, lookup_adjustEach, happroved, lookup_adjustEach] at h
  obtain ⟨_, h, hprovider⟩ := Option.map_eq_some_iff.mp h
  obtain ⟨merged, -, hmerged⟩ := Option.map_eq_some_iff.mp h
  refine ⟨approved, merged, ?_⟩
  rw [← hprovider, ← hmerged]
  rfl

theorem effectiveConfig_reviewed (base : AppConfig) (control : ControlInner) :
    Reviewed control (effectiveConfig env base control) where
  not_deleted _ hid := (mem_mergedCatalog env hid).2.1
  enabled _ hid := (mem_mergedCatalog env hid).2.2
  exact_names id _ hprovider := by
    obtain ⟨_, merged, rfl⟩ := lookup_mergedCatalog env hprovider
    exact ⟨rfl, rfl⟩
  listed id _ hprovider model hmodel := by
    obtain ⟨_, _, rfl⟩ := lookup_mergedCatalog env hprovider
    have hmodel := (mem_filter.mp hmodel).1
    rw [ControlInner.modelDisabled]
    cases hoverrides : control.providerModelOverrides.lookup id with
    | none => rfl
    | some overrides =>
      rw [hoverrides] at hmodel
      cases hrecord : overrides.lookup model with
      | none => simp [hrecord]
      | some =>
        simpa [hrecord] using (mem_models_applyModelOverrides hrecord _).mp hmodel

end RouteSmith.Model

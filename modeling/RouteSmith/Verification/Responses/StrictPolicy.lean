import RouteSmith.Model.ToolUse

/-! # What a strict policy accepts -/

namespace RouteSmith.Model

open Text

namespace ToolResponsePolicy

variable {policy : ToolResponsePolicy}

/-- A name is declared if it is allowed where names are restricted. -/
def Declares (policy : ToolResponsePolicy) (name : String) : Prop :=
  ∀ allowed, policy.allowedNames = some allowed → name ∈ allowed

theorem not_any_iff_declares {name : String} :
    ¬(policy.allowedNames.any fun allowed => !allowed.contains name) = true ↔
      policy.Declares name := by
  rw [Declares]
  cases policy.allowedNames <;> simp

theorem validateName_strict (hstrict : policy.validation = .strict) {given : Option String}
    {name : String} : policy.validateName given = .ok name ↔
      given = some name ∧ isEmpty (trim name) = false ∧ policy.Declares name := by
  rw [validateName, hstrict, if_neg nofun]
  cases hgiven : given.filter fun name => !isEmpty (trim name) with
  | none =>
    refine iff_of_false nofun fun ⟨hname, hblank, _⟩ => ?_
    rw [hname, Option.filter_some_pos (by simp [hblank])] at hgiven
    cases hgiven
  | some =>
    obtain ⟨rfl, hblank⟩ := Option.filter_eq_some_iff.mp hgiven
    dsimp only
    split_ifs with hallowed
    · refine iff_of_false nofun fun ⟨hname, _, hdeclares⟩ => ?_
      cases hname
      exact not_any_iff_declares.mpr hdeclares hallowed
    · rw [not_any_iff_declares] at hallowed
      simp only [Except.ok.injEq, Option.some.injEq]
      constructor
      · rintro rfl
        exact ⟨rfl, by simpa using hblank, hallowed⟩
      · exact (·.1)

/-- Arguments are accepted for a tool if they are blank or an object, and the schema of the tool
accepts the object, an empty one for blank arguments. -/
theorem parseArguments_strict (hstrict : policy.validation = .strict) {reader : Json.Reader}
    {name arguments : String} : (policy.parseArguments reader name arguments).isOk = true ↔
      ∃ members validator, (if isEmpty (trim arguments) then members = []
          else reader.parse arguments = some (.object members)) ∧
        policy.inputValidators.lookup name = some validator ∧
        validator (.object members) = none := by
  have hvalue : ∀ value, policy.argumentsValue reader arguments = .ok value ↔
      ∃ members, value = .object members ∧ if isEmpty (trim arguments) then members = []
        else reader.parse arguments = some (.object members) := by
    intro _
    rw [argumentsValue, hstrict]
    split_ifs
    · simp [eq_comm]
    · cases reader.parse arguments with
      | none => simp
      | some json =>
        cases json with
        | object members =>
          simp only [Except.ok.injEq, Option.some.injEq, Json.object.injEq]
          constructor
          · rintro rfl
            exact ⟨members, rfl, rfl⟩
          · rintro ⟨_, rfl, rfl⟩
            rfl
        | _ => simp
  constructor
  · intro h
    cases hresult : policy.parseArguments reader name arguments with
    | error =>
      rw [hresult] at h
      cases h
    | ok =>
      rw [parseArguments, bind_eq_ok_iff] at hresult
      obtain ⟨_, hvalue', hresult⟩ := hresult
      obtain ⟨members, rfl, hmembers⟩ := (hvalue _).mp hvalue'
      rw [hstrict, if_neg nofun] at hresult
      split at hresult
      · cases hresult
      · next validator hlookup =>
        split at hresult
        · cases hresult
        · next hvalid => exact ⟨members, validator, hmembers, hlookup, hvalid⟩
  · rintro ⟨members, _, hmembers, hlookup, hvalid⟩
    rw [parseArguments, (hvalue _).mpr ⟨members, rfl, hmembers⟩]
    change Except.isOk (if policy.validation = .bestEffort then _ else _) = true
    rw [hstrict, hlookup]
    dsimp only
    rw [hvalid]
    rfl

end ToolResponsePolicy

end RouteSmith.Model

import RouteSmith.Model.Error
import RouteSmith.Text.IpAddr

/-! # Policy lists

Lists of models, providers and addresses as administrators write them.
-/

namespace RouteSmith.Model

open Text

/-- A check that fails if the condition holds. -/
def refuseIf (condition : Prop) [Decidable condition] (message : String) : Except AppError Unit :=
  if condition then .error (.invalidRequest message) else .ok ()

@[simp] theorem refuseIf_eq_ok {condition : Prop} [Decidable condition] {message : String}
    {u : Unit} : refuseIf condition message = .ok u ↔ ¬condition := by
  by_cases h : condition <;> simp [refuseIf, h]

/-- The loop of `normalize_policy_list` and `normalize_ip_rules`: blank entries are skipped, the
others are checked and kept once each. -/
def collectRules (check : String → Except AppError Unit) (output : List String) :
    List String → Except AppError (List String)
  | [] => pure output
  | value :: values =>
    let value := trim value
    if isEmpty value then collectRules check output values
    else do
      check value
      collectRules check (if value ∈ output then output else output ++ [value]) values

def normalizePolicyList (values : List String) : Except AppError (List String) :=
  collectRules (fun value =>
    refuseIf (160 < len value) "policy entries must be 160 characters or shorter") [] values

def validateIpRule (value : String) : Except AppError Unit :=
  let invalid : Except AppError Unit :=
    .error (.invalidRequest ("invalid IP allowlist entry: " ++ value))
  if (IpAddr.parse value).isSome then pure ()
  else
    match splitOnce '/' value with
    | none => invalid
    | some (addr, bits) =>
      match IpAddr.parse addr, (parseU64 bits).filter (· < 256) with
      | some (.v4 _), some bits => if 32 < bits then invalid else pure ()
      | some (.v6 _), some bits => if 128 < bits then invalid else pure ()
      | _, _ => invalid

def normalizeIpRules (values : List String) : Except AppError (List String) :=
  collectRules validateIpRule [] values

end RouteSmith.Model

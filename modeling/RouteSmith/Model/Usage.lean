import RouteSmith.Json.Value
import RouteSmith.Text.Chars

/-! # Token usage and its price -/

namespace RouteSmith.Model

open Numeric Text

@[ext] structure TokenUsageBreakdown where
  inputTokens : U64 := 0
  outputTokens : U64 := 0
  cacheWriteTokens : U64 := 0
  cacheReadTokens : U64 := 0
  deriving DecidableEq, Inhabited

instance : Zero TokenUsageBreakdown := ⟨{}⟩

instance : Add TokenUsageBreakdown where
  add a b := ⟨a.inputTokens + b.inputTokens, a.outputTokens + b.outputTokens,
    a.cacheWriteTokens + b.cacheWriteTokens, a.cacheReadTokens + b.cacheReadTokens⟩

/-- Token counts add up component by component, each saturating. -/
instance : AddCommMonoid TokenUsageBreakdown where
  add_assoc a b c := TokenUsageBreakdown.ext (add_assoc ..) (add_assoc ..) (add_assoc ..)
    (add_assoc ..)
  zero_add a := TokenUsageBreakdown.ext (zero_add _) (zero_add _) (zero_add _) (zero_add _)
  add_zero a := TokenUsageBreakdown.ext (add_zero _) (add_zero _) (add_zero _) (add_zero _)
  add_comm a b := TokenUsageBreakdown.ext (add_comm ..) (add_comm ..) (add_comm ..) (add_comm ..)
  nsmul := nsmulRec

structure UsageEstimate where
  inputTokens : U64 := 0
  outputTokens : U64 := 0
  cacheWriteTokens : U64 := 0
  cacheReadTokens : U64 := 0
  costEstimate : F64 := 0
  deriving DecidableEq, Inhabited

/-- The four token counts of an estimate. -/
def UsageEstimate.tokens (e : UsageEstimate) : TokenUsageBreakdown :=
  ⟨e.inputTokens, e.outputTokens, e.cacheWriteTokens, e.cacheReadTokens⟩

def mergeUsageEstimates (left right : UsageEstimate) : UsageEstimate where
  inputTokens := left.inputTokens + right.inputTokens
  outputTokens := left.outputTokens + right.outputTokens
  cacheWriteTokens := left.cacheWriteTokens + right.cacheWriteTokens
  cacheReadTokens := left.cacheReadTokens + right.cacheReadTokens
  costEstimate := left.costEstimate + right.costEstimate

theorem tokens_mergeUsageEstimates (left right : UsageEstimate) :
    (mergeUsageEstimates left right).tokens = left.tokens + right.tokens := rfl

@[simp] theorem mergeUsageEstimates_default (right : UsageEstimate) :
    mergeUsageEstimates {} right = right := by
  cases right
  simp [mergeUsageEstimates]

/-! ## Usage reports -/

def getU64 (value : Json) (fields : List String) : U64 :=
  (fields.findSome? fun field => (value.get? field).bind Json.asU64).getD 0

def getNestedU64 (value : Json) (paths : List (List String)) : U64 :=
  (paths.findSome? fun path =>
    (path.foldl (fun current segment => current.bind (·.get? segment)) (some value)).bind
      Json.asU64).getD 0

def openaiUsage (response : Json) : TokenUsageBreakdown :=
  match response.get? "usage" with
  | none => {}
  | some usage =>
    let promptTokens := getU64 usage ["prompt_tokens", "input_tokens"]
    let cacheMiss := getU64 usage ["prompt_cache_miss_tokens"]
    let cacheRead := max (getU64 usage ["prompt_cache_hit_tokens"])
      (getNestedU64 usage [["prompt_tokens_details", "cached_tokens"],
        ["input_tokens_details", "cached_tokens"]])
    { inputTokens := if 0 < cacheMiss.val then cacheMiss else promptTokens - cacheRead
      outputTokens := getU64 usage ["completion_tokens", "output_tokens"]
      cacheWriteTokens :=
        getU64 usage ["cache_creation_input_tokens", "prompt_cache_write_tokens"]
      cacheReadTokens := cacheRead }

def openaiUsageFields : List String :=
  ["prompt_tokens", "input_tokens", "completion_tokens", "output_tokens",
    "prompt_cache_hit_tokens", "prompt_cache_miss_tokens", "cache_creation_input_tokens",
    "prompt_cache_write_tokens", "prompt_tokens_details", "input_tokens_details"]

def openaiUsageIfPresent (response : Json) : Option TokenUsageBreakdown :=
  match response.get? "usage" with
  | none => none
  | some usage =>
    if usage.isObject && openaiUsageFields.any fun field => (usage.get? field).isSome then
      some (openaiUsage response)
    else none

def anthropicUsage (response : Json) : TokenUsageBreakdown :=
  match response.get? "usage" with
  | none => {}
  | some usage =>
    { inputTokens := getU64 usage ["input_tokens"]
      outputTokens := getU64 usage ["output_tokens"]
      cacheWriteTokens := getU64 usage ["cache_creation_input_tokens"]
      cacheReadTokens := getU64 usage ["cache_read_input_tokens"] }

def anthropicUsageFields : List String :=
  ["input_tokens", "output_tokens", "cache_creation_input_tokens", "cache_read_input_tokens"]

def anthropicUsageIfPresent (response : Json) : Option TokenUsageBreakdown :=
  match response.get? "usage" with
  | none => none
  | some usage =>
    if usage.isObject && anthropicUsageFields.any fun field => (usage.get? field).isSome then
      some (anthropicUsage response)
    else none

/-! ## Prices -/

structure ModelPricing where
  inputPerMillion : F64
  outputPerMillion : F64
  cacheWritePerMillion : F64
  cacheReadPerMillion : F64
  deriving DecidableEq

/-- A price list entry, from the decimal literals of the source. -/
def pricingOf (input output cacheWrite cacheRead : ℚ) : ModelPricing :=
  ⟨.ofRat input, .ofRat output, .ofRat cacheWrite, .ofRat cacheRead⟩

/-- The built-in price list: the first entry one of whose names occurs in the model. -/
def pricingTable : List (List String × ModelPricing) :=
  [(["deepseek-v4-pro"], pricingOf 0.435 0.87 0.435 0.003625),
   (["deepseek-v4-flash", "deepseek-chat", "deepseek-reasoner"], pricingOf 0.14 0.28 0.14 0.0028),
   (["claude-fable-5", "claude-mythos-5"], pricingOf 10 50 12.5 1),
   (["claude-opus-4"], pricingOf 5 25 6.25 0.5),
   (["claude-sonnet-4"], pricingOf 3 15 3.75 0.3),
   (["claude-3-5-haiku", "claude-haiku"], pricingOf 0.8 4 1 0.08),
   (["gpt-5.5-pro", "gpt-5.4-pro"], pricingOf 15 90 15 15),
   (["gpt-5.5"], pricingOf 2.5 15 2.5 0.25),
   (["gpt-5.4-mini"], pricingOf 0.375 2.25 0.375 0.0375),
   (["gpt-5.4-nano"], pricingOf 0.10 0.625 0.10 0.01),
   (["gpt-5.4"], pricingOf 1.25 7.5 1.25 0.13),
   (["mimo-"], pricingOf 0.14 0.28 0 0.0028),
   (["gpt-4o"], pricingOf 2.5 10 2.5 1.25),
   (["gpt-", "openai/"], pricingOf 1.25 7.5 1.25 0.125),
   (["gemini-"], pricingOf 1.25 10 1.25 0.125),
   (["qwen-", "kimi-", "glm-"], pricingOf 0.6 2.4 0.6 0.06)]

def pricingForModel (model : String) : ModelPricing :=
  let normalized := toAsciiLowercase model
  match pricingTable.find? fun entry => entry.1.any (contains normalized) with
  | some entry => entry.2
  | none => pricingOf 1 4 1 0.1

def costComponent (tokens : U64) (pricePerMillion : F64) : F64 :=
  (F64.ofNat tokens.val).divRat 1000000 * pricePerMillion

def costForModelWithPricing (model : String) (usage : TokenUsageBreakdown)
    (configured : Option ModelPricing) : F64 :=
  let pricing := configured.getD (pricingForModel model)
  costComponent usage.inputTokens pricing.inputPerMillion +
    costComponent usage.outputTokens pricing.outputPerMillion +
    costComponent usage.cacheWriteTokens pricing.cacheWritePerMillion +
    costComponent usage.cacheReadTokens pricing.cacheReadPerMillion

/-- `charge_for_model_with_pricing`; the charge has the fields of an estimate. -/
def chargeForModelWithPricing (model : String) (usage : TokenUsageBreakdown)
    (configured : Option ModelPricing) : UsageEstimate :=
  ⟨usage.inputTokens, usage.outputTokens, usage.cacheWriteTokens, usage.cacheReadTokens,
    costForModelWithPricing model usage configured⟩

/-! ## Ledger units -/

/-- `cost_microunits`. -/
def costMicrounits (value : F64) : ℤ :=
  if !value.isFinite || value.leRat 0 then 0
  else
    let scaled := (value * F64.ofRat 1000000).round
    (if scaled.leRat (2 ^ 63) then scaled else F64.ofRat (2 ^ 63)).toI64

/-- `to_i64`. -/
def toI64 (value : U64) : ℤ := min value.val (2 ^ 63 - 1)

end RouteSmith.Model

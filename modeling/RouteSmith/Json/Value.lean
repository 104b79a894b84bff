import RouteSmith.Numeric.F64
import RouteSmith.Numeric.Saturating

/-! # JSON values

A value as it is written: the members of an object stand in the order of the text, repeats
included. Looking a member up finds the last of its name, so a value with repeats reads as the
value without them.
-/

namespace RouteSmith

open Numeric List

/-- A number as a reader classifies it. -/
inductive Json.Number where
  | posInt (n : U64)
  | negInt (n : ℤ)
  | float (x : F64)
  deriving DecidableEq

inductive Json where
  | null
  | bool (b : Bool)
  | number (n : Json.Number)
  | string (s : String)
  | array (items : List Json)
  | object (members : List (String × Json))

namespace Json

/-- What a reader makes of a text: the value it is, what is reported where it is none, and the
value it starts with together with the number of characters that value takes. -/
structure Reader where
  parse : String → Option Json
  report : String → String
  first : String → Option (Json × ℕ)

def ofNat (n : ℕ) : Json := number (.posInt (.ofNat _ n))

/-! ## Access -/

def get? (key : String) : Json → Option Json
  | object members => (members.reverse.find? (·.1 = key)).map (·.2)
  | _ => none

def asStr : Json → Option String
  | string s => some s
  | _ => none

/-- A string member of an object. -/
def text? (key : String) (json : Json) : Option String := (json.get? key).bind asStr

def asArray : Json → Option (List Json)
  | array items => some items
  | _ => none

def asU64 : Json → Option U64
  | number (.posInt n) => some n
  | _ => none

def asBool : Json → Option Bool
  | bool b => some b
  | _ => none

def isNull : Json → Bool
  | null => true
  | _ => false

def isObject : Json → Bool
  | object _ => true
  | _ => false

def isString : Json → Bool
  | string _ => true
  | _ => false

def isBool : Json → Bool
  | bool _ => true
  | _ => false

/-- A member of an object replaced, or added. -/
def set (json : Json) (key : String) (value : Json) : Json :=
  match json with
  | object members => object (members.filter (·.1 ≠ key) ++ [(key, value)])
  | json => json

variable {key other : String}

theorem get?_set_of_ne (h : other ≠ key) (json value : Json) :
    (json.set key value).get? other = json.get? other := by
  cases json with
  | object =>
    have hlast : (decide (key = other)) = false := by simpa using symm h
    simp only [set, get?, reverse_append, reverse_singleton, singleton_append,
      find?_cons, hlast, ← filter_reverse, find?_filter]
    congr 2
    funext m
    by_cases hm : m.1 = other <;> simp [hm, h]
  | _ => rfl

theorem get?_set_self (members : List (String × Json)) (key : String) (value : Json) :
    ((object members).set key value).get? key = some value := by
  simp [set, get?]

theorem get?_append (xs ys : List (String × Json)) (key : String) :
    (object (xs ++ ys)).get? key = ((object ys).get? key).or ((object xs).get? key) := by
  simp only [get?, reverse_append, find?_append]
  cases ys.reverse.find? (fun m => decide (m.1 = key)) <;> rfl

theorem get?_eq_none {members : List (String × Json)} (h : key ∉ members.map (·.1)) :
    (object members).get? key = none := by
  rw [get?, Option.map_eq_none_iff, find?_eq_none]
  intro m hm heq
  exact h (mem_map.mpr ⟨m, by simpa using hm, by simpa using heq⟩)

theorem get?_of_append {xs ys : List (String × Json)} {value : Json} (h : ∀ m ∈ ys, m.1 ≠ key) :
    (object (xs ++ (key, value) :: ys)).get? key = some value := by
  have hnone : ys.reverse.find? (fun m => decide (m.1 = key)) = none := by
    simpa using h
  simp [get?, hnone]

theorem text?_set_of_ne (h : other ≠ key) (json value : Json) :
    (json.set key value).text? other = json.text? other := by
  rw [text?, text?, get?_set_of_ne h]

theorem exists_eq_object {json : Json} {text : String} (h : json.text? key = some text) :
    ∃ members, json = object members := by
  cases json with
  | object members => exact ⟨members, rfl⟩
  | _ => cases h

/-! ## Decoding records

Records are decoded by position from an array or by name from an object, where members of other
names are passed over.
-/

abbrev Decoder (α : Type) := Json → Option α

namespace Decoder

variable {α : Type}

def string : Decoder String := asStr

def u64 : Decoder U64 := asU64

def value : Decoder Json := some

/-- A `null` stands for no value. -/
def option (decode : Decoder α) : Decoder (Option α)
  | null => some none
  | json => (decode json).map some

def list (decode : Decoder α) : Decoder (List α)
  | array items => items.mapM decode
  | _ => none

/-- The fields of a record: no field may be given twice, and an array has no more items than
the record has fields. -/
def fields (names : List String) : Json → Option (String → Option Json)
  | object members =>
    if ∀ name ∈ names, members.countP (·.1 = name) ≤ 1 then
      some fun name => (object members).get? name
    else none
  | array items =>
    if items.length ≤ names.length then some fun name => items[names.idxOf name]? else none
  | _ => none

def required (decode : Decoder α) (field : Option Json) : Option α := field.bind decode

def defaulted (decode : Decoder α) (default : α) : Option Json → Option α
  | none => some default
  | some json => decode json

end Decoder

end Json

end RouteSmith

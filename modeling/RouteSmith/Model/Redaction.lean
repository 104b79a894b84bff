import RouteSmith.Json.Render
import RouteSmith.Text.Chars

/-! # Error bodies without secrets

What an upstream says of an error is shown to clients and kept in logs. Values under names that
speak of secrets, and what follows the marks of a secret in a text, are replaced before.
-/

namespace RouteSmith.Model

open Text

def maxErrorBodyChars : ℕ := 8192

def truncate (value : String) : String :=
  if value.toList.length ≤ maxErrorBodyChars then value
  else String.ofList (value.toList.take maxErrorBodyChars) ++ "... [truncated]"

/-! ## Texts -/

/-- The text before the first place of a mark, and the text from there on. -/
def splitAtMarker (marker : List Char) : List Char → Option (List Char × List Char)
  | [] => none
  | c :: cs =>
    if marker.isPrefixOf (c :: cs) then some ([], c :: cs)
    else (splitAtMarker marker cs).map fun (before, rest) => (c :: before, rest)

def isSecretChar (c : Char) : Bool := c.isAlphanum || c = '-' || c = '_' || c = '.'

def redacted : List Char := "[redacted]".toList

/-- Each round passes a mark, so that there are no more of them than characters. -/
def redactRounds (marker : List Char) : (fuel : ℕ) → List Char → List Char
  | 0, rest => rest
  | fuel + 1, rest =>
    match splitAtMarker marker rest with
    | none => rest
    | some (before, fromMarker) =>
      let afterMarker := fromMarker.drop marker.length
      let secret := afterMarker.takeWhile isSecretChar
      if 8 ≤ secret.length then
        before ++ marker ++ redacted ++
          redactRounds marker fuel (afterMarker.drop secret.length)
      else before ++ marker ++ redactRounds marker fuel afterMarker

def redactAfterMarker (value marker : String) : String :=
  String.ofList (redactRounds marker.toList value.toList.length value.toList)

def redactSecretFragments (value : String) : String :=
  redactAfterMarker (redactAfterMarker (redactAfterMarker value "Bearer ") "sk-") "sk_m"

/-! ## Values -/

def sensitiveKey (key : String) : Bool :=
  let key := toAsciiLowercase key
  contains key "api_key" || contains key "apikey" || contains key "authorization" ||
    contains key "access_token" || contains key "refresh_token" || contains key "secret" ||
    contains key "password" || contains key "credential"

mutual

def redactJsonValue : Json → Json
  | .object members => .object (redactMembers members)
  | .array items => .array (redactItems items)
  | .string value => .string (redactSecretFragments value)
  | json => json

def redactMembers : List (String × Json) → List (String × Json)
  | [] => []
  | member :: members => redactMember member :: redactMembers members

def redactMember : String × Json → String × Json
  | (key, value) =>
    (key, if sensitiveKey key then .string "[redacted]" else redactJsonValue value)

def redactItems : List Json → List Json
  | [] => []
  | item :: items => redactJsonValue item :: redactItems items

end

def sanitizeErrorText (reader : Json.Reader) (writer : Json.Writer) (value : String) : String :=
  match reader.parse value with
  | some parsed => truncate (writer.write (redactJsonValue parsed))
  | none => truncate (redactSecretFragments value)

end RouteSmith.Model

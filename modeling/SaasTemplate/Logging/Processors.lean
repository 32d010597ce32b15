import Mathlib.Data.List.DropRight
import Mathlib.Data.List.Infix
import SaasTemplate.Python.Value
import SaasTemplate.Text.Regex

/-! # The redaction of log events

Before an event is written, values under sensitive keys and strings that look like credentials
are replaced, and the local parts of e-mail addresses are masked, at any depth of the event.
`isWord` (the characters that `\w` stands for) and `lower` (`str.lower`) are parameters: both
go by tables of Unicode.
-/

namespace SaasTemplate.Logging

open SaasTemplate.CodePoints SaasTemplate.Python SaasTemplate.Regex SaasTemplate.Regex.Re

/-! ## The patterns -/

def isAsciiLower (c : Nat) : Bool := 97 ≤ c && c ≤ 122

def isAsciiUpper (c : Nat) : Bool := 65 ≤ c && c ≤ 90

/-- `[^@\s]`. -/
def inWord (c : Nat) : Bool := c != 64 && !isSpace c

/-- `[A-Za-z0-9_-]`. -/
def inToken (c : Nat) : Bool :=
  isAsciiUpper c || isAsciiLower c || isAsciiDigit c || c == 95 || c == 45

/-- A small letter under `re.IGNORECASE`: the dotted and the dotless i and the long s fold to
ASCII too. -/
def ignoreCase (letter c : Nat) : Bool :=
  c == letter || c + 32 == letter || (letter == 105 && (c == 0x130 || c == 0x131)) ||
    (letter == 115 && c == 0x17f)

/-- A literal under `re.IGNORECASE`. -/
def literalIgnoreCase : Nat → Text → Re
  | letter, [] => char (ignoreCase letter)
  | letter, next :: letters => (char (ignoreCase letter)).seq (literalIgnoreCase next letters)

/-- `(?P<name>[^@\s]+)@(?P<domain>[^@\s]+\.[^@\s]+)`. -/
def emailRe : Re :=
  ((many inWord 1).group "name").seq <| (char (· == 64)).seq <|
    ((many inWord 1).seq ((char (· == 46)).seq (many inWord 1))).group "domain"

/-- `(?<=[a-z0-9])(?=[A-Z])`. -/
def camelCaseBoundaryRe : Re :=
  (lookbehind fun c => isAsciiLower c || isAsciiDigit c).seq (lookahead isAsciiUpper)

/-- `[^a-z0-9]+`. -/
def keySeparatorRe : Re := many (fun c => !(isAsciiLower c || isAsciiDigit c)) 1

/-- `\b(?:bearer|basic)\s+`, where case is ignored. -/
def authHeaderValueRe (isWord : Nat → Bool) : Re :=
  ((boundary isWord).seq
    ((literalIgnoreCase 98 (ofString "earer")).alt (literalIgnoreCase 98 (ofString "asic")))).seq
    (many isSpace 1)

/-- `\b[A-Za-z0-9_-]{8,}\.[A-Za-z0-9_-]{8,}\.[A-Za-z0-9_-]{8,}\b`. -/
def jwtCompactRe (isWord : Nat → Bool) : Re :=
  (boundary isWord).seq <| (many inToken 8).seq <| (char (· == 46)).seq <|
    (many inToken 8).seq <| (char (· == 46)).seq <| (many inToken 8).seq (boundary isWord)

def redacted : Text := ofString "[REDACTED]"

def sensitiveKeys : List Text :=
  ["password", "token", "access_token", "refresh_token", "id_token", "authorization", "cookie",
    "set_cookie", "secret", "api_key", "apikey", "client_secret", "private_key", "raw_token",
    "token_hash", "encrypted_raw_token", "session", "csrf"].map ofString

def sensitiveKeyMarkers : List Text :=
  ["token", "password", "secret", "authorization", "cookie", "api_key", "apikey",
    "client_secret", "private_key", "access_token", "refresh_token", "id_token", "raw_token",
    "token_hash", "encrypted_raw_token", "set_cookie", "session", "csrf"].map ofString

/-! ## Keys -/

/-- `text.strip("_")`. -/
def stripUnderscores (text : Text) : Text :=
  (text.dropWhile (· == 95)).rdropWhile (· == 95)

/-- `text.replace("_", "")`. -/
def removeUnderscores (text : Text) : Text := text.filter (· != 95)

section Redaction

variable (isWord : Nat → Bool) (lower : Text → Text)

def normalizeLogKey (key : Text) : Text :=
  let separated := camelCaseBoundaryRe.sub (fun _ => ofString "_") 0 none key
  stripUnderscores (keySeparatorRe.sub (fun _ => ofString "_") 0 none (lower separated))

def isSensitiveKey : Key → Bool
  | .str key =>
      let normalizedKey := normalizeLogKey lower key
      let compactKey := removeUnderscores normalizedKey
      sensitiveKeys.contains normalizedKey ||
        sensitiveKeyMarkers.any fun marker =>
          marker <:+: normalizedKey || removeUnderscores marker <:+: compactKey
  | _ => false

/-! ## Strings -/

def isSensitiveStringValue (value : Text) : Bool :=
  ((authHeaderValueRe isWord).search none value).isSome ||
    ((jwtCompactRe isWord).search none value).isSome

def maskName (name : Text) : Text :=
  if name.length ≤ 2 then List.replicate name.length 42
  else name.take 1 ++ ofString "***" ++ name.drop (name.length - 1)

def maskEmailMatch (m : Match) : Text := maskName (m.group "name") ++ 64 :: m.group "domain"

def maskEmail (value : Text) : Text := emailRe.sub maskEmailMatch 0 none value

/-- `_sanitize_value` of a `str`. -/
def sanitizeString (value : Text) : Text :=
  if isSensitiveStringValue isWord value then redacted
  else if value.contains 64 then maskEmail value
  else value

/-! ## Events -/

mutual

def sanitizeValue : Value → Value
  | .dict items => .dict (sanitizeMapping items)
  | .list items => .list (sanitizeItems items)
  | .tuple items => .tuple (sanitizeItems items)
  | .str text => .str (sanitizeString isWord text)
  | value => value

def sanitizeItems : List Value → List Value
  | [] => []
  | item :: items => sanitizeValue item :: sanitizeItems items

def sanitizeMapping : List (Key × Value) → List (Key × Value)
  | [] => []
  | (key, value) :: items =>
      (key, if isSensitiveKey lower key then .str redacted else sanitizeValue value) ::
        sanitizeMapping items

end

def redactSensitiveFields (eventDict : List (Key × Value)) : List (Key × Value) :=
  sanitizeMapping isWord lower eventDict

end Redaction

end SaasTemplate.Logging

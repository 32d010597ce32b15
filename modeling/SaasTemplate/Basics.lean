/-! # Ids, times, strings and errors

Ids, times and strings are as in the source; what Python and the database compute on
strings is a parameter.
-/

namespace SaasTemplate

abbrev Uuid := Nat
abbrev Time := Int
abbrev Duration := Int

/-- `text.startswith(head)`. -/
def startsWith (text head : String) : Bool := head.toList.isPrefixOf text.toList

/-- `text.endswith(tail)`. -/
def endsWith (text tail : String) : Bool := tail.toList.isSuffixOf text.toList

theorem startsWith_append (head tail : String) : startsWith (head ++ tail) head = true := by
  simp [startsWith]

theorem endsWith_append (head tail : String) : endsWith (head ++ tail) tail = true := by
  simp [endsWith]

/-- The string functions of Python and of the database, and the token digest. -/
structure TextOps where
  strip : String → String
  lower : String → String
  sqlLower : String → String
  slugPattern : String → Bool
  sha256 : String → String

inductive AppError where
  | badRequest (detail : String)
  | forbidden (detail : String)
  | notFound (detail : String)
  | conflict (detail : String)
  | valueError (detail : String)
  | integrityError
  | staleDataError
  | databaseError
  | external (typeName : String)
  deriving DecidableEq, Repr

/-- `type(exc).__name__`. -/
def AppError.typeName : AppError → String
  | .badRequest _ => "BadRequestError"
  | .forbidden _ => "ForbiddenError"
  | .notFound _ => "NotFoundError"
  | .conflict _ => "ConflictError"
  | .valueError _ => "ValueError"
  | .integrityError => "IntegrityError"
  | .staleDataError => "StaleDataError"
  | .databaseError => "DBAPIError"
  | .external typeName => typeName

/-- Strings that are stripped and in lower case already, and the digests of two tokens. -/
def plainText : TextOps where
  strip := id
  lower := id
  sqlLower := id
  slugPattern _ := true
  sha256 token :=
    if token = "token" then "3c469e9d6c5875d37a43f353d4f88e61fcf812c66eee3457465a40b0da4153e0"
    else if token = "second" then "16367aacb67a4a017c8da8ab95682ccb390863780f7114dda0a0e0c55644c7c4"
    else "no digest of " ++ token

end SaasTemplate

import SaasTemplate.Basics
import SaasTemplate.Isolation.RelyGuarantee

/-! # Publication to an object store

The adapter publishes with conditional requests: a reservation is an empty object that only
its archive may replace. Keys are object keys that passed validation. What the store and
Python compute on bytes is a parameter.
-/

namespace SaasTemplate.Storage

open SaasTemplate.Isolation SaasTemplate.Isolation.Prog

abbrev Bytes := List UInt8

/-- The revision the store gives to a body, digests, and `bytes.fromhex` of a checksum of 32
    bytes. -/
structure ByteOps where
  etag : Bytes → String
  sha256 : Bytes → Bytes
  fromHex : String → Option Bytes

inductive StorageObjectState where
  | missing | reserved | matching | conflict
  deriving DecidableEq, Repr

structure StoragePublicationReservation where
  key : String
  ownerToken : String
  revision : String
  deriving DecidableEq, Repr

/-- What may be raised: by the adapter, and by the client of the store. -/
inductive StorageError where
  | objectConflict (message : String)
  | stateUnknown (message : String)
  | valueError (message : String)
  | preconditionFailed
  | conditionalRequestConflict
  | missingObject
  | clientError
  | httpClientError
  | botoCoreError
  deriving DecidableEq, Repr

/-- A prepared file, and the checksum that is passed along with it. -/
structure ArchiveFile where
  body : Bytes
  contentType : String
  checksumSha256 : String
  deriving DecidableEq

/-! ## The store -/

/-- An object with the metadata entries the adapter writes. -/
structure StoredObject where
  body : Bytes
  contentType : String
  publicationReservationOwner : Option String
  checksumSha256 : Option String
  deriving DecidableEq

abbrev Objects := String → Option StoredObject

def reservationObject (ownerToken : String) : StoredObject :=
  ⟨[], "application/octet-stream", some ownerToken, none⟩

def ArchiveFile.object (file : ArchiveFile) : StoredObject :=
  ⟨file.body, file.contentType, none, some file.checksumSha256⟩

/-- The method of the adapter that deletes. -/
inductive DeleteCaller where
  | cancelFilePublication | delete | deleteFileIfNotMatching
  deriving DecidableEq

/-- A request to the store. -/
inductive Request where
  /-- `put_object(Body=b"", IfNoneMatch="*")` -/
  | putReservation (key ownerToken : String)
  /-- `put_object(Body=body, IfMatch=revision, ChecksumSHA256=...)` -/
  | putArchive (key revision : String) (file : ArchiveFile)
  /-- `delete_object(IfMatch=revision)` -/
  | deleteObject (caller : DeleteCaller) (key revision : String)
  | headObject (key : String)
  deriving DecidableEq

structure ObjectHead where
  etag : Option String
  contentLength : Nat
  publicationReservationOwner : Option String
  checksumSha256 : Option String
  deriving DecidableEq

def Response : Request → Type
  | .putReservation .. => Option String
  | .putArchive .. => Unit
  | .deleteObject .. => Unit
  | .headObject _ => ObjectHead

section Requests

variable (ops : ByteOps)

/-- The file of a request is the one its checksum was taken of. -/
def Request.digestAccepted : Request → Bool
  | .putArchive _ _ file => ops.fromHex file.checksumSha256 == some (ops.sha256 file.body)
  | _ => true

/-- `If-Match`: the error of a request, unless the object has the revision. -/
def matchError (found : Option StoredObject) (revision : String) : Option StorageError :=
  match found with
  | none => some .missingObject
  | some o => if ops.etag o.body = revision then none else some .preconditionFailed

/-- The error with which the store refuses a request. -/
def Request.refusal (objects : Objects) : Request → Option StorageError
  | .putReservation key _ => if (objects key).isSome then some .preconditionFailed else none
  | .putArchive key revision file => matchError ops (objects key) revision <|>
      if (Request.putArchive key revision file).digestAccepted ops then none else some .clientError
  | .deleteObject _ key revision => matchError ops (objects key) revision
  | .headObject key => if (objects key).isSome then none else some .missingObject

/-- What a request that is not refused leaves. -/
def Request.effect (objects : Objects) : Request → Objects
  | .putReservation key ownerToken =>
      Function.update objects key (some (reservationObject ownerToken))
  | .putArchive key _ file => Function.update objects key (some file.object)
  | .deleteObject _ key _ => Function.update objects key none
  | .headObject _ => objects

def StoredObject.head (o : StoredObject) : ObjectHead :=
  ⟨some (ops.etag o.body), o.body.length, o.publicationReservationOwner, o.checksumSha256⟩

def headOf (found : Option StoredObject) : ObjectHead :=
  match found with
  | none => ⟨none, 0, none, none⟩
  | some o => o.head ops

def Request.response (objects : Objects) : (s : Request) → Response s
  | .putReservation .. => some (ops.etag [])
  | .putArchive .. => ()
  | .deleteObject .. => ()
  | .headObject key => headOf ops (objects key)

/-- The objects, and whether the next response is lost on its way, and how that is seen. -/
structure Db where
  objects : Objects
  lost : Option StorageError

def exec {τ : Type} (_ : τ) (s : Request) (db : Db) :
    Option (Except StorageError (Response s) × Db) :=
  let answer := match s.refusal ops db.objects with
    | some e => (.error e, db)
    | none => (.ok (s.response ops db.objects), { db with objects := s.effect db.objects })
  some (match db.lost with
    | none => answer
    | some e => (.error e, answer.2))

/-- Any request may fail on its way to the store. -/
def machine (τ : Type) : Machine τ Request Response StorageError Db where
  exec := exec ops
  fallible _ := True
  crash _ db := db
  env db db' := db'.objects = db.objects

end Requests

/-! ## The adapter -/

abbrev Tx := Prog Request Response StorageError

/-- A request whose failure is looked at. -/
def request (s : Request) : Tx (Except StorageError (Response s)) := (stmt s).attempt

/-- `_head_object`. -/
def headObject (key : String) : Tx (Option ObjectHead) := do
  let answer ← request (.headObject key)
  match answer with
  | .ok head => pure (some head)
  | .error .missingObject => pure none
  | .error _ => raise (.stateUnknown "Storage object state could not be inspected")

/-- `_reconcile_reservation`. -/
def reconcileReservation (key ownerToken : String) : Tx (Option StoragePublicationReservation) := do
  let existing ← headObject key
  match existing with
  | none => pure none
  | some head => match head.publicationReservationOwner, head.etag with
      | some owner, some revision =>
          if owner = ownerToken then pure (some ⟨key, ownerToken, revision⟩)
          else raise (.objectConflict "Storage key is reserved or published by another writer")
      | _, _ => raise (.objectConflict "Storage key is reserved or published by another writer")

/-- `reserve_file_publication`, with the attempts that are left. -/
def reserveFilePublication (key ownerToken : String) : Nat → Tx StoragePublicationReservation
  | 0 => raise (.objectConflict "Conditional storage reservation did not settle")
  | attempts + 1 => do
      let answer ← request (.putReservation key ownerToken)
      match answer with
      | .ok (some revision) => pure ⟨key, ownerToken, revision⟩
      | .ok none => raise (.objectConflict "Storage reservation response omitted its revision")
      | .error e =>
          if e = .preconditionFailed ∨ e = .httpClientError then do
            let reservation ← reconcileReservation key ownerToken
            match reservation with
            | some reservation => pure reservation
            | none => reserveFilePublication key ownerToken attempts
          else if e = .conditionalRequestConflict then
            reserveFilePublication key ownerToken attempts
          else raise e

/-- `_state_from_head_object`. -/
def stateFromHead (head : Option ObjectHead) (checksumSha256 : String) (sizeBytes : Nat) :
    StorageObjectState :=
  match head with
  | none => .missing
  | some head =>
      if head.publicationReservationOwner.any (· ≠ "") then .reserved
      else if head.checksumSha256 = some checksumSha256 ∧ head.contentLength = sizeBytes then
        .matching
      else .conflict

def inspectFile (key checksumSha256 : String) (sizeBytes : Nat) : Tx StorageObjectState := do
  let head ← headObject key
  pure (stateFromHead head checksumSha256 sizeBytes)

/-- A conditional request found another revision, another request or nothing. -/
def StorageError.isConditional : StorageError → Bool
  | .preconditionFailed | .conditionalRequestConflict | .missingObject => true
  | _ => false

def publishReservedFile (ops : ByteOps) (reservation : StoragePublicationReservation)
    (file : ArchiveFile) : Tx Unit := do
  raiseIf (ops.fromHex file.checksumSha256 = none) (.valueError "Invalid SHA-256 checksum")
  let answer ← request (.putArchive reservation.key reservation.revision file)
  match answer with
  | .ok _ => pure ()
  | .error e =>
      if e.isConditional ∨ e = .httpClientError then do
        let state ← inspectFile reservation.key file.checksumSha256 file.body.length
        raiseIf (state ≠ .matching) (if e = .httpClientError then e
          else .objectConflict "Storage publication reservation is no longer active")
      else raise e

def cancelFilePublication (reservation : StoragePublicationReservation) : Tx Unit := do
  let answer ← request (.deleteObject .cancelFilePublication reservation.key reservation.revision)
  match answer with
  | .ok _ => pure ()
  | .error e => raiseIf (e.isConditional = false) e

/-- `delete_file_if_not_matching`, with the attempts that are left. -/
def deleteFileIfNotMatching (key checksumSha256 : String) (sizeBytes : Nat) :
    Nat → Tx StorageObjectState
  | 0 => raise (.stateUnknown "Conditional storage deletion outcome could not be verified")
  | attempts + 1 => do
      let existing ← headObject key
      let state := stateFromHead existing checksumSha256 sizeBytes
      if state = .missing ∨ state = .matching then pure state
      else do
        let revision ← orRaise (existing.bind (·.etag))
          (.objectConflict "Stored object metadata omitted its revision")
        let answer ← request (.deleteObject .deleteFileIfNotMatching key revision)
        match answer with
        | .ok _ => pure .missing
        | .error e =>
            if e = .missingObject then pure .missing
            else deleteFileIfNotMatching key checksumSha256 sizeBytes attempts

/-- `delete`, with the attempts that are left. -/
def delete (key : String) : Nat → Tx Unit
  | 0 => raise (.objectConflict "Conditional storage deletion did not settle")
  | attempts + 1 => do
      let existing ← headObject key
      match existing with
      | none => pure ()
      | some head => do
          let revision ← orRaise head.etag
            (.objectConflict "Stored object metadata omitted its revision")
          let answer ← request (.deleteObject .delete key revision)
          match answer with
          | .ok _ => pure ()
          | .error e =>
              if e = .missingObject then pure ()
              else if e = .preconditionFailed ∨ e = .conditionalRequestConflict then
                delete key attempts
              else raise e

/-! ## Owners -/

/-- A call of an owner. Reservations are numbered in the order in which they were made. -/
inductive Call where
  | reserve (key : String)
  | publish (reservation : Nat) (file : ArchiveFile)
  | cancel (reservation : Nat)
  | inspect (key checksumSha256 : String) (sizeBytes : Nat)
  | delete (key : String)
  | deleteIfNotMatching (key checksumSha256 : String) (sizeBytes : Nat)

/-- What one call does; a reservation is kept. -/
def Call.run (ops : ByteOps) (attempts : Nat) (ownerToken : String)
    (held : List StoragePublicationReservation) :
    Call → Tx (List StoragePublicationReservation)
  | .reserve key => do
      let reservation ← reserveFilePublication key ownerToken attempts
      pure (held ++ [reservation])
  | .publish n file => match held[n]? with
      | some reservation => do
          publishReservedFile ops reservation file
          pure held
      | none => pure held
  | .cancel n => match held[n]? with
      | some reservation => do
          cancelFilePublication reservation
          pure held
      | none => pure held
  | .inspect key checksumSha256 sizeBytes => do
      let _ ← inspectFile key checksumSha256 sizeBytes
      pure held
  | .delete key => do
      Storage.delete key attempts
      pure held
  | .deleteIfNotMatching key checksumSha256 sizeBytes => do
      let _ ← deleteFileIfNotMatching key checksumSha256 sizeBytes attempts
      pure held

/-- The calls of one owner, who goes on after a call that raises. -/
def session (ops : ByteOps) (attempts : Nat) (ownerToken : String) :
    List Call → List StoragePublicationReservation → Tx Unit
  | [], _ => pure ()
  | next :: rest, held => do
      let answer ← (next.run ops attempts ownerToken held).attempt
      match answer with
      | .ok held => session ops attempts ownerToken rest held
      | .error _ => session ops attempts ownerToken rest held

end SaasTemplate.Storage

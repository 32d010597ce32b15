import SaasTemplate.Storage.ObjectStore
import SaasTemplate.Isolation.Faults

/-! # Publication to local files

The adapter keeps each key as a directory that holds a reservation, an object or both. It
works under a lock of the key, so that operations on a key follow one another; each of its
file-system steps may fail. No key is a prefix of another or lies with the locks, and the
directories that are staged or set aside have names of their own next to the key.
-/

namespace SaasTemplate.Storage.Local

open SaasTemplate.Isolation SaasTemplate.Isolation.Prog

/-! ## Files -/

/-- What there is at a path: a plain file, or a directory with its two files. -/
inductive Node where
  | absent
  | file (bytes : Bytes)
  | directory (reservation : Option String) (object : Option Bytes)
  deriving DecidableEq

/-- The paths of the keys, and those that are staged or set aside. -/
structure Files where
  target : String → Node
  aside : String → Node

inductive LocalError where
  | fileNotFound
  | notADirectory
  | fileExists
  | osError
  | objectConflict (message : String)
  | valueError (message : String)
  deriving DecidableEq, Repr

/-- A file-system step; `name` stands for the fresh name of a path next to the key. -/
inductive FileStep where
  /-- `_lock_for_key`, entered -/
  | lock (key : String)
  /-- `target.parent.mkdir(parents=True, exist_ok=True)` -/
  | makeParents (key : String)
  /-- `staged.mkdir()` -/
  | makeStaged (name : String)
  /-- `(staged / "reservation").write_text(owner_token)` -/
  | writeReservation (name ownerToken : String)
  /-- `staged.rename(target)` -/
  | renameStaged (name key : String)
  /-- `shutil.rmtree` or `unlink(missing_ok=True)` -/
  | removeAside (name : String)
  /-- `object_path.is_file()`; also `object_path.exists()` -/
  | objectIsFile (key : String)
  /-- `target.is_file()` -/
  | targetIsFile (key : String)
  /-- `(target / "reservation").is_file()` -/
  | reservationIsFile (key : String)
  /-- `target.is_dir()` -/
  | targetIsDirectory (key : String)
  /-- `target.exists()` -/
  | targetExists (key : String)
  /-- `quarantine.is_dir()` -/
  | asideIsDirectory (name : String)
  /-- `reservation_path.read_text()` -/
  | readReservation (key : String)
  /-- the bytes of the prepared file -/
  | readPrepared (body : Bytes)
  /-- the bytes of `object_path` -/
  | readObject (key : String)
  /-- the bytes of `target`, where that is a plain file -/
  | readTarget (key : String)
  /-- `os.link(path, object_path)` -/
  | linkObject (key : String) (body : Bytes)
  /-- `reservation_path.unlink()` -/
  | unlinkReservation (key : String)
  /-- `target.rename(quarantine)` -/
  | renameTarget (key name : String)

abbrev Answer : FileStep → Type
  | .objectIsFile _ => Bool
  | .targetIsFile _ => Bool
  | .reservationIsFile _ => Bool
  | .targetIsDirectory _ => Bool
  | .targetExists _ => Bool
  | .asideIsDirectory _ => Bool
  | .readReservation _ => String
  | .readPrepared _ => Bytes
  | .readObject _ => Bytes
  | .readTarget _ => Bytes
  | _ => Unit

namespace Node

def hasObject : Node → Bool
  | .directory _ object => object.isSome
  | _ => false

def isFile : Node → Bool
  | .file _ => true
  | _ => false

def hasReservation : Node → Bool
  | .directory reservation _ => reservation.isSome
  | _ => false

def isDirectory : Node → Bool
  | .directory .. => true
  | _ => false

/-- The error with which a file of the directory is missing. -/
def missing : Node → LocalError
  | .file _ => .notADirectory
  | _ => .fileNotFound

def readReservation : Node → Except LocalError String
  | .directory (some ownerToken) _ => .ok ownerToken
  | node => .error node.missing

def readObject : Node → Except LocalError Bytes
  | .directory _ (some bytes) => .ok bytes
  | node => .error node.missing

/-- The error with which another directory may not be renamed to this path. -/
def keepsPath : Node → Option LocalError
  | .absent => none
  | .directory none none => none
  | .directory .. => some .osError
  | .file _ => some .notADirectory

end Node

def Files.setTarget (fs : Files) (key : String) (node : Node) : Files :=
  { fs with target := Function.update fs.target key node }

def Files.setAside (fs : Files) (name : String) (node : Node) : Files :=
  { fs with aside := Function.update fs.aside name node }

/-- What a step does when nothing fails. -/
def exec : (s : FileStep) → Files → Except LocalError (Answer s) × Files
  | .lock _, fs => (.ok (), fs)
  | .makeParents _, fs => (.ok (), fs)
  | .makeStaged name, fs =>
      if fs.aside name = .absent then (.ok (), fs.setAside name (.directory none none))
      else (.error .fileExists, fs)
  | .writeReservation name ownerToken, fs =>
      match fs.aside name with
      | .directory _ object => (.ok (), fs.setAside name (.directory (some ownerToken) object))
      | node => (.error node.missing, fs)
  | .renameStaged name key, fs =>
      match fs.aside name, (fs.target key).keepsPath with
      | .directory reservation object, none => (.ok (),
          (fs.setTarget key (.directory reservation object)).setAside name .absent)
      | .directory .., some e => (.error e, fs)
      | node, _ => (.error node.missing, fs)
  | .removeAside name, fs => (.ok (), fs.setAside name .absent)
  | .objectIsFile key, fs => (.ok (fs.target key).hasObject, fs)
  | .targetIsFile key, fs => (.ok (fs.target key).isFile, fs)
  | .reservationIsFile key, fs => (.ok (fs.target key).hasReservation, fs)
  | .targetIsDirectory key, fs => (.ok (fs.target key).isDirectory, fs)
  | .targetExists key, fs => (.ok (fs.target key != .absent), fs)
  | .asideIsDirectory name, fs => (.ok (fs.aside name).isDirectory, fs)
  | .readReservation key, fs => ((fs.target key).readReservation, fs)
  | .readPrepared body, fs => (.ok body, fs)
  | .readObject key, fs => ((fs.target key).readObject, fs)
  | .readTarget key, fs =>
      (match fs.target key with
        | .file bytes => .ok bytes
        | _ => .error .osError, fs)
  | .linkObject key body, fs =>
      match fs.target key with
      | .directory reservation none => (.ok (), fs.setTarget key (.directory reservation (some body)))
      | .directory .. => (.error .fileExists, fs)
      | node => (.error node.missing, fs)
  | .unlinkReservation key, fs =>
      match fs.target key with
      | .directory (some _) object => (.ok (), fs.setTarget key (.directory none object))
      | node => (.error node.missing, fs)
  | .renameTarget key name, fs =>
      if fs.target key = .absent then (.error .fileNotFound, fs)
      else if fs.aside name = .absent then
        (.ok (), (fs.setTarget key .absent).setAside name (fs.target key))
      else (.error .osError, fs)

/-- A step that fails leaves the keys alone; what it leaves aside is open. -/
def device : Device FileStep Answer LocalError Files where
  exec := exec
  fails _ fs e left := e = .osError ∧ left.target = fs.target

/-! ## The adapter -/

abbrev Tx := Prog FileStep Answer LocalError

def fileStep (s : FileStep) : Tx (Answer s) := stmt s

/-- After a rename that failed: whose reservation is there? `again` are the attempts left. -/
def reconcileReservation (key ownerToken staged : String)
    (again : Tx StoragePublicationReservation) : Tx StoragePublicationReservation := do
  let _ ← (fileStep (.removeAside staged)).attempt
  let published ← fileStep (.objectIsFile key)
  let published ← if published then pure true else fileStep (.targetIsFile key)
  raiseIf (published = true) (.objectConflict "Storage key already contains a published object")
  let existingOwner ← (fileStep (.readReservation key)).attempt
  match existingOwner with
  | .ok existingOwner =>
      if existingOwner = ownerToken then pure ⟨key, ownerToken, ownerToken⟩
      else raise (.objectConflict "Storage key is reserved by another publisher")
  | .error e => if e = .fileNotFound then again else raise e

/-- `reserve_file_publication`, with the fresh names of the attempts that are left. -/
def reserveAttempts (key ownerToken : String) : List String → Tx StoragePublicationReservation
  | [] => raise (.objectConflict "Storage publication reservation did not settle")
  | staged :: rest => do
      fileStep (.makeStaged staged)
      fileStep (.writeReservation staged ownerToken)
      let renamed ← (fileStep (.renameStaged staged key)).attempt
      match renamed with
      | .ok _ => pure ⟨key, ownerToken, ownerToken⟩
      | .error _ => reconcileReservation key ownerToken staged (reserveAttempts key ownerToken rest)

/-- `names` are fresh, one for each of the three attempts. -/
def reserveFilePublication (key ownerToken : String) (names : Vector String 3) :
    Tx StoragePublicationReservation := do
  fileStep (.lock key)
  fileStep (.makeParents key)
  reserveAttempts key ownerToken names.toList

section Checksums

-- The checksum of bytes, as a hexadecimal number.
variable (sha256 : Bytes → String)

/-- `_inspect_file_unlocked`. -/
def inspectFileUnlocked (key checksumSha256 : String) (sizeBytes : Nat) :
    Tx StorageObjectState := do
  let there ← fileStep (.targetExists key)
  if there = false then pure .missing
  else do
    let directory ← fileStep (.targetIsDirectory key)
    let object ← if directory then fileStep (.objectIsFile key) else pure true
    if object = false then do
      let reserved ← fileStep (.reservationIsFile key)
      pure (if reserved then .reserved else .conflict)
    else do
      let bytes ← if directory then fileStep (.readObject key) else fileStep (.readTarget key)
      pure (if sha256 bytes = checksumSha256 ∧ bytes.length = sizeBytes then .matching
        else .conflict)

def publishReservedFile (reservation : StoragePublicationReservation) (file : ArchiveFile) :
    Tx Unit := do
  let staged ← fileStep (.readPrepared file.body)
  raiseIf (sha256 staged ≠ file.checksumSha256)
    (.valueError "Prepared storage file checksum changed")
  fileStep (.lock reservation.key)
  let existingOwner ← (fileStep (.readReservation reservation.key)).attempt
  match existingOwner with
  | .error e =>
      if e = .fileNotFound ∨ e = .notADirectory then
        raise (.objectConflict "Storage publication reservation is no longer active")
      else raise e
  | .ok existingOwner => do
      raiseIf (existingOwner ≠ reservation.ownerToken ∨
          reservation.revision ≠ reservation.ownerToken)
        (.objectConflict "Storage publication reservation is no longer owned")
      let linked ← (fileStep (.linkObject reservation.key file.body)).attempt
      match linked with
      | .ok _ => pure ()
      | .error .fileExists => do
          let existing ← fileStep (.readObject reservation.key)
          raiseIf (sha256 existing ≠ sha256 staged ∨ existing.length ≠ staged.length)
            (.objectConflict "Storage key already contains different bytes")
      | .error .fileNotFound =>
          raise (.objectConflict "Storage publication reservation was removed")
      | .error e => raise e
      let unlinked ← (fileStep (.unlinkReservation reservation.key)).attempt
      match unlinked with
      | .ok _ => pure ()
      | .error .fileNotFound => do
          let state ← inspectFileUnlocked sha256 reservation.key file.checksumSha256 staged.length
          raiseIf (state ≠ .matching)
            (.objectConflict "Storage publication lost its cleanup race")
      | .error e => raise e

/-- `_remove_target_atomically`; `quarantine` is fresh. -/
def removeTargetAtomically (key quarantine : String) : Tx Unit := do
  let there ← fileStep (.targetExists key)
  if there = false then pure ()
  else do
    let renamed ← (fileStep (.renameTarget key quarantine)).attempt
    match renamed with
    | .ok _ => do
        let _ ← fileStep (.asideIsDirectory quarantine)
        fileStep (.removeAside quarantine)
    | .error e => if e = .fileNotFound then pure () else raise e

def cancelFilePublication (reservation : StoragePublicationReservation) (quarantine : String) :
    Tx Unit := do
  fileStep (.lock reservation.key)
  let ownerToken ← (fileStep (.readReservation reservation.key)).attempt
  match ownerToken with
  | .error e => if e = .fileNotFound ∨ e = .notADirectory then pure () else raise e
  | .ok ownerToken =>
      if ownerToken ≠ reservation.ownerToken then pure ()
      else do
        let published ← fileStep (.objectIsFile reservation.key)
        if published then pure () else removeTargetAtomically reservation.key quarantine

def inspectFile (key checksumSha256 : String) (sizeBytes : Nat) : Tx StorageObjectState := do
  fileStep (.lock key)
  inspectFileUnlocked sha256 key checksumSha256 sizeBytes

def deleteFileIfNotMatching (key checksumSha256 : String) (sizeBytes : Nat) (quarantine : String) :
    Tx StorageObjectState := do
  fileStep (.lock key)
  let state ← inspectFileUnlocked sha256 key checksumSha256 sizeBytes
  if state = .matching then pure state
  else do
    removeTargetAtomically key quarantine
    pure .missing

def delete (key quarantine : String) : Tx Unit := do
  fileStep (.lock key)
  removeTargetAtomically key quarantine

/-! ## Operations -/

/-- An operation with the fresh names it uses. -/
inductive Operation where
  | reserve (key ownerToken : String) (names : Vector String 3)
  | publish (reservation : StoragePublicationReservation) (file : ArchiveFile)
  | cancel (reservation : StoragePublicationReservation) (quarantine : String)
  | inspect (key checksumSha256 : String) (sizeBytes : Nat)
  | deleteIfNotMatching (key checksumSha256 : String) (sizeBytes : Nat) (quarantine : String)
  | delete (key quarantine : String)

/-- What an operation returns. -/
inductive Outcome where
  | reserved (reservation : StoragePublicationReservation)
  | state (state : StorageObjectState)
  | done
  deriving DecidableEq

def Operation.run : Operation → Tx Outcome
  | .reserve key ownerToken names => do
      let reservation ← reserveFilePublication key ownerToken names
      pure (.reserved reservation)
  | .publish reservation file => do
      publishReservedFile sha256 reservation file
      pure .done
  | .cancel reservation quarantine => do
      cancelFilePublication reservation quarantine
      pure .done
  | .inspect key checksumSha256 sizeBytes => do
      let state ← inspectFile sha256 key checksumSha256 sizeBytes
      pure (.state state)
  | .deleteIfNotMatching key checksumSha256 sizeBytes quarantine => do
      let state ← deleteFileIfNotMatching sha256 key checksumSha256 sizeBytes quarantine
      pure (.state state)
  | .delete key quarantine => do
      Local.delete key quarantine
      pure .done

/-- One operation, with its result and the files before and after. -/
def Does (op : Operation) (fs : Files) (r : Except LocalError Outcome) (fs' : Files) : Prop :=
  device.Ends (op.run sha256) fs r fs'

end Checksums

end SaasTemplate.Storage.Local

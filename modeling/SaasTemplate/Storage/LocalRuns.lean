import SaasTemplate.Storage.LocalFiles

/-! # Publications in every sequence of operations

What an operation may make of its key is said once for each operation, whatever step fails.
-/

namespace SaasTemplate.Storage.Local

open SaasTemplate.Isolation SaasTemplate.Isolation.Prog

variable {sha256 : Bytes → String} {T : String → Node} {fs : Files}

/-- What holds of the result and of the keys however a program ends. -/
abbrev Ends {α : Type} (fs : Files) (p : Tx α)
    (Q : Except LocalError α → (String → Node) → Prop) : Prop :=
  device.Always (fun r fs' => Q r fs'.target) p fs

/-! ## Steps -/

section Steps

variable {α : Type} {s : FileStep} {Q : Except LocalError α → (String → Node) → Prop}

/-- The next step is carried out, or it fails and so does the program. -/
theorem ends_ok {f : Answer s → Tx α} {a : Answer s} {fs' : Files} (runs : exec s fs = (.ok a, fs'))
    (fails : Q (.error .osError) fs.target) (rest : Ends fs' (f a) Q) :
    Ends fs (fileStep s >>= f) Q := by
  refine Device.always_bind.mpr (Device.always_stmt.mpr ⟨?_, ?_⟩)
  · simp only [device, runs]
    exact rest
  · rintro e left ⟨rfl, same⟩
    simpa [same] using fails

theorem ends_error {f : Answer s → Tx α} {e : LocalError} (runs : exec s fs = (.error e, fs))
    (fails : ∀ e, Q (.error e) fs.target) : Ends fs (fileStep s >>= f) Q := by
  refine Device.always_bind.mpr (Device.always_stmt.mpr ⟨?_, ?_⟩)
  · simp only [device, runs]
    exact fails e
  · rintro e left ⟨rfl, same⟩
    simpa [same] using fails .osError

/-- The next step is looked at: it is carried out, or it fails. -/
theorem ends_attempt {f : Except LocalError (Answer s) → Tx α}
    (runs : Ends (exec s fs).2 (f (exec s fs).1) Q)
    (fails : ∀ left : Files, left.target = fs.target → Ends left (f (.error .osError)) Q) :
    Ends fs ((fileStep s).attempt >>= f) Q := by
  refine Device.always_bind.mpr (Device.always_attempt.mpr (Device.always_stmt.mpr ⟨runs, ?_⟩))
  rintro e left ⟨rfl, same⟩
  exact fails left same

theorem ends_last {s : FileStep} {Q : Except LocalError (Answer s) → (String → Node) → Prop}
    (runs : Q (exec s fs).1 (exec s fs).2.target) (fails : Q (.error .osError) fs.target) :
    Ends fs (fileStep s) Q := by
  refine Device.always_stmt.mpr ⟨runs, ?_⟩
  rintro e left ⟨rfl, same⟩
  simpa [same] using fails

end Steps

/-! ## Removing and inspecting -/

/-- The key is gone, or nothing has happened and this is an exception. -/
def Removed {α : Type} (T : String → Node) (key : String) (r : Except LocalError α)
    (T' : String → Node) : Prop :=
  T' = Function.update T key .absent ∨ T' = T ∧ ∀ a, r ≠ .ok a

theorem removeTargetAtomically_ends {key quarantine : String} :
    Ends fs (removeTargetAtomically key quarantine) (Removed fs.target key) := by
  unfold removeTargetAtomically
  refine ends_ok rfl (.inr ⟨rfl, nofun⟩) ?_
  by_cases gone : fs.target key = .absent
  · simp only [gone, bne_self_eq_false, if_true]
    exact .inl (by rw [← gone, Function.update_eq_self])
  · rw [if_neg (by simpa using gone)]
    refine ends_attempt ?_ ?_
    · simp only [exec, if_neg gone]
      split
      · exact ends_ok rfl (.inl rfl) (ends_last (.inl rfl) (.inl rfl))
      · exact .inr ⟨rfl, nofun⟩
    · intro left same
      exact .inr ⟨same, nofun⟩

/-- `_inspect_file_unlocked`, when nothing fails. -/
def inspected (sha256 : Bytes → String) (checksumSha256 : String) (sizeBytes : Nat) :
    Node → StorageObjectState
  | .absent => .missing
  | .directory (some _) none => .reserved
  | .directory none none => .conflict
  | .directory _ (some bytes) =>
      if sha256 bytes = checksumSha256 ∧ bytes.length = sizeBytes then .matching else .conflict
  | .file bytes =>
      if sha256 bytes = checksumSha256 ∧ bytes.length = sizeBytes then .matching else .conflict

theorem inspectFileUnlocked_ends {key checksum : String} {size : Nat} :
    Ends fs (inspectFileUnlocked sha256 key checksum size) fun r T' =>
      T' = fs.target ∧ ∀ state, r = .ok state → state = inspected sha256 checksum size (fs.target key) := by
  unfold inspectFileUnlocked
  refine ends_ok rfl ⟨rfl, nofun⟩ ?_
  cases here : fs.target key with
  | absent => exact ⟨rfl, fun state is => by cases is; rfl⟩
  | file bytes =>
      rw [if_neg (by simp)]
      refine ends_ok rfl ⟨rfl, nofun⟩ ?_
      simp only [here, Node.isDirectory, Bool.false_eq_true, if_false, pure_bind_eq, Bool.true_eq_false]
      have read : exec (.readTarget key) fs = (.ok bytes, fs) := by simp [exec, here]
      refine ends_ok read ⟨rfl, nofun⟩ ?_
      exact ⟨rfl, fun state is => by cases is; rfl⟩
  | directory reservation object =>
      rw [if_neg (by simp)]
      refine ends_ok rfl ⟨rfl, nofun⟩ ?_
      simp only [here, Node.isDirectory, if_true]
      refine ends_ok rfl ⟨rfl, nofun⟩ ?_
      cases object with
      | none =>
          simp only [here, Node.hasObject, Option.isSome_none, if_true]
          refine ends_ok rfl ⟨rfl, nofun⟩ ⟨rfl, ?_⟩
          intro state is
          cases is
          cases reservation <;> simp [here, Node.hasReservation, inspected]
      | some bytes =>
          simp only [here, Node.hasObject, Option.isSome_some, Bool.true_eq_false, if_false]
          have read : exec (.readObject key) fs = (.ok bytes, fs) := by
            simp [exec, here, Node.readObject]
          refine ends_ok read ⟨rfl, nofun⟩ ?_
          exact ⟨rfl, fun state is => by cases is; cases reservation <;> rfl⟩

/-! ## One lemma for each operation -/

theorem inspectFile_ends {key checksum : String} {size : Nat} :
    Ends fs (inspectFile sha256 key checksum size) fun r T' =>
      T' = fs.target ∧ ∀ state, r = .ok state → state = inspected sha256 checksum size (fs.target key) :=
  ends_ok rfl ⟨rfl, nofun⟩ inspectFileUnlocked_ends

theorem delete_ends {key quarantine : String} :
    Ends fs (delete key quarantine) (Removed fs.target key) :=
  ends_ok rfl (.inr ⟨rfl, nofun⟩) removeTargetAtomically_ends

/-- A file that matches stays; another one is removed, or nothing has happened. -/
theorem deleteFileIfNotMatching_ends {key checksum quarantine : String} {size : Nat} :
    Ends fs (deleteFileIfNotMatching sha256 key checksum size quarantine) fun _ T' =>
      T' = fs.target ∨ inspected sha256 checksum size (fs.target key) ≠ .matching ∧
        T' = Function.update fs.target key .absent := by
  refine ends_ok rfl (.inl rfl) (Device.always_bind.mpr ?_)
  refine Device.always_mono ?_ inspectFileUnlocked_ends
  rintro r left ⟨same, is⟩
  cases r with
  | error e => exact .inl same
  | ok state =>
      obtain rfl := is state rfl
      by_cases matching : inspected sha256 checksum size (fs.target key) = .matching
      · simp only [matching, if_true]
        exact .inl same
      · simp only [matching, if_false]
        refine Device.always_bind.mpr (Device.always_mono ?_ removeTargetAtomically_ends)
        intro r left' removed
        rw [same] at removed
        have either : left'.target = fs.target ∨
            inspected sha256 checksum size (fs.target key) ≠ .matching ∧
              left'.target = Function.update fs.target key .absent := by
          rcases removed with gone | ⟨still, -⟩
          · exact .inr ⟨matching, gone⟩
          · exact .inl still
        cases r <;> exact either

/-- Only a reservation of the owner without an object is removed. -/
theorem cancelFilePublication_ends {reservation : StoragePublicationReservation}
    {quarantine : String} :
    Ends fs (cancelFilePublication reservation quarantine) fun _ T' =>
      T' = fs.target ∨ fs.target reservation.key = .directory (some reservation.ownerToken) none ∧
        T' = Function.update fs.target reservation.key .absent := by
  refine ends_ok rfl (.inl rfl) (ends_attempt ?_ fun left same => .inl same)
  simp only [exec]
  cases here : (fs.target reservation.key).readReservation with
  | error e =>
      dsimp only
      split <;> exact .inl rfl
  | ok ownerToken =>
      dsimp only
      split
      · exact .inl rfl
      · rename_i own
        refine ends_ok rfl (.inl rfl) ?_
        cases node : fs.target reservation.key with
        | absent => simp [node, Node.readReservation] at here
        | file bytes => simp [node, Node.readReservation] at here
        | directory owner object =>
            cases owner with
            | none => simp [node, Node.readReservation] at here
            | some owner =>
                cases object with
                | some bytes => exact .inl rfl
                | none =>
                    rw [node] at here
                    cases here
                    obtain rfl := not_ne_iff.mp own
                    refine Device.always_mono ?_ removeTargetAtomically_ends
                    rintro - left (gone | ⟨same, -⟩)
                    · exact .inr ⟨rfl, gone⟩
                    · exact .inl same

/-- The key is published by the owner of its reservation, which may be left if this is an
    exception; an object that was there stays. -/
def Published (sha256 : Bytes → String) (reservation : StoragePublicationReservation)
    (file : ArchiveFile) (T : String → Node) (r : Except LocalError Unit) (T' : String → Node) :
    Prop :=
  T' = T ∧ (∀ a, r ≠ .ok a) ∨ ∃ object bytes,
    T reservation.key = .directory (some reservation.ownerToken) object ∧
      (∀ old, object = some old → old = bytes) ∧
      sha256 bytes = file.checksumSha256 ∧ bytes.length = file.body.length ∧
      (T' = Function.update T reservation.key (.directory none (some bytes)) ∨
        (∀ a, r ≠ .ok a) ∧ T' = Function.update T reservation.key
          (.directory (some reservation.ownerToken) (some bytes)))

/-- With the object in place, the reservation is unlinked. -/
theorem unlinkReservation_ends {reservation : StoragePublicationReservation} {file : ArchiveFile}
    {object : Option Bytes} {bytes : Bytes} {size : Nat}
    (was : T reservation.key = .directory (some reservation.ownerToken) object)
    (stays : ∀ old, object = some old → old = bytes)
    (checksum : sha256 bytes = file.checksumSha256) (length : bytes.length = file.body.length)
    (linked : fs.target = Function.update T reservation.key
      (.directory (some reservation.ownerToken) (some bytes))) :
    Ends fs (do
      let unlinked ← (fileStep (.unlinkReservation reservation.key)).attempt
      match unlinked with
      | .ok _ => pure ()
      | .error .fileNotFound => do
          let state ← inspectFileUnlocked sha256 reservation.key file.checksumSha256 size
          raiseIf (state ≠ .matching) (.objectConflict "Storage publication lost its cleanup race")
      | .error e => raise e) (Published sha256 reservation file T) := by
  have here : fs.target reservation.key = .directory (some reservation.ownerToken) (some bytes) := by
    rw [linked, Function.update_self]
  refine ends_attempt ?_ fun left same => ?_
  · simp only [exec, here]
    refine .inr ⟨object, bytes, was, stays, checksum, length, .inl ?_⟩
    simp [Files.setTarget, linked]
  · exact .inr ⟨object, bytes, was, stays, checksum, length, .inr ⟨nofun, same.trans linked⟩⟩

theorem publishReservedFile_ends {reservation : StoragePublicationReservation}
    {file : ArchiveFile} :
    Ends fs (publishReservedFile sha256 reservation file)
      (Published sha256 reservation file fs.target) := by
  unfold publishReservedFile
  refine ends_ok rfl (.inl ⟨rfl, nofun⟩) ?_
  refine Device.always_bind.mpr (Device.always_raiseIf.mpr ⟨fun _ => .inl ⟨rfl, nofun⟩, ?_⟩)
  intro prepared
  have checksum := not_ne_iff.mp prepared
  refine ends_ok rfl (.inl ⟨rfl, nofun⟩) (ends_attempt ?_ fun left same => .inl ⟨same, nofun⟩)
  simp only [exec]
  cases here : fs.target reservation.key with
  | absent => exact .inl ⟨rfl, nofun⟩
  | file bytes => exact .inl ⟨rfl, nofun⟩
  | directory owner object =>
      cases owner with
      | none => exact .inl ⟨rfl, nofun⟩
      | some owner =>
          simp only [Node.readReservation]
          refine Device.always_bind.mpr
            (Device.always_raiseIf.mpr ⟨fun _ => .inl ⟨rfl, nofun⟩, fun mine => ?_⟩)
          obtain rfl : owner = reservation.ownerToken := by grind
          refine ends_attempt ?_ fun left same => .inl ⟨same, nofun⟩
          cases object with
          | none =>
              simp only [exec, here]
              exact unlinkReservation_ends here nofun checksum rfl rfl
          | some old =>
              simp only [exec, here]
              have read : exec (.readObject reservation.key) fs = (.ok old, fs) := by
                simp [exec, here, Node.readObject]
              refine ends_ok read (.inl ⟨rfl, nofun⟩) ?_
              refine Device.always_bind.mpr
                (Device.always_raiseIf.mpr ⟨fun _ => .inl ⟨rfl, nofun⟩, fun same => ?_⟩)
              obtain ⟨digest, length⟩ : sha256 old = sha256 file.body ∧
                  old.length = file.body.length := by grind
              refine unlinkReservation_ends here (by grind) (digest.trans checksum) length ?_
              rw [← here, Function.update_eq_self]

/-- The key is reserved where nothing was, or already has been by the owner. -/
def Reserved (key ownerToken : String) (T : String → Node)
    (r : Except LocalError StoragePublicationReservation) (T' : String → Node) : Prop :=
  T' = T ∨ (T key).keepsPath = none ∧ r = .ok ⟨key, ownerToken, ownerToken⟩ ∧
    T' = Function.update T key (.directory (some ownerToken) none)

/-- How `reconcileReservation` goes on once it knows whether the object is published. -/
def readOwner (key ownerToken : String) (again : Tx StoragePublicationReservation)
    (published : Bool) : Tx StoragePublicationReservation := do
  raiseIf (published = true) (.objectConflict "Storage key already contains a published object")
  let existingOwner ← (fileStep (.readReservation key)).attempt
  match existingOwner with
  | .ok existingOwner =>
      if existingOwner = ownerToken then pure ⟨key, ownerToken, ownerToken⟩
      else raise (.objectConflict "Storage key is reserved by another publisher")
  | .error e => if e = .fileNotFound then again else raise e

theorem reconcileReservation_eq (key ownerToken staged : String)
    (again : Tx StoragePublicationReservation) :
    reconcileReservation key ownerToken staged again = (do
      let _ ← (fileStep (.removeAside staged)).attempt
      let published ← fileStep (.objectIsFile key)
      let published ← if published then pure true else fileStep (.targetIsFile key)
      readOwner key ownerToken again published) := rfl

theorem reconcileReservation_ends {key ownerToken staged : String}
    {again : Tx StoragePublicationReservation}
    (rest : ∀ left : Files, left.target = fs.target →
      Ends left again (Reserved key ownerToken fs.target)) :
    Ends fs (reconcileReservation key ownerToken staged again)
      (Reserved key ownerToken fs.target) := by
  have looks : ∀ left : Files, left.target = fs.target →
      Ends left (readOwner key ownerToken again false) (Reserved key ownerToken fs.target) := by
    intro left same
    unfold readOwner
    refine ends_attempt ?_ fun left' same' => .inl (same'.trans same)
    simp only [exec]
    cases (left.target key).readReservation with
    | ok owner =>
        dsimp only
        split <;> exact .inl same
    | error e =>
        dsimp only
        split
        · exact rest left same
        · exact .inl same
  rw [reconcileReservation_eq]
  have checks : ∀ left : Files, left.target = fs.target → Ends left (do
      let published ← fileStep (.objectIsFile key)
      let published ← if published then pure true else fileStep (.targetIsFile key)
      readOwner key ownerToken again published) (Reserved key ownerToken fs.target) := by
    intro left same
    refine ends_ok rfl (.inl same) ?_
    cases (left.target key).hasObject with
    | true => exact .inl same
    | false =>
        refine ends_ok rfl (.inl same) ?_
        cases (left.target key).isFile with
        | true => exact .inl same
        | false => exact looks left same
  exact ends_attempt (checks _ rfl) checks

theorem exec_renameStaged {staged key ownerToken : String}
    (here : fs.aside staged = .directory (some ownerToken) none) :
    exec (.renameStaged staged key) fs = match (fs.target key).keepsPath with
      | none => (.ok (),
          (fs.setTarget key (.directory (some ownerToken) none)).setAside staged .absent)
      | some e => (.error e, fs) := by
  cases free : (fs.target key).keepsPath <;> simp [exec, here, free]

theorem reserveAttempts_ends {key ownerToken : String} {names : List String} :
    Ends fs (reserveAttempts key ownerToken names) (Reserved key ownerToken fs.target) := by
  induction names generalizing fs with
  | nil => exact .inl rfl
  | cons staged rest ih =>
      have again : ∀ left : Files, left.target = fs.target →
          Ends left (reconcileReservation key ownerToken staged
            (reserveAttempts key ownerToken rest)) (Reserved key ownerToken fs.target) := by
        intro left same
        rw [← same]
        exact reconcileReservation_ends fun left' same' => same' ▸ ih
      unfold reserveAttempts
      by_cases fresh : fs.aside staged = .absent
      · have made : exec (.makeStaged staged) fs =
            (.ok (), fs.setAside staged (.directory none none)) := by simp [exec, fresh]
        refine ends_ok made (.inl rfl) ?_
        have wrote : exec (.writeReservation staged ownerToken)
            (fs.setAside staged (.directory none none)) =
              (.ok (), fs.setAside staged (.directory (some ownerToken) none)) := by
          simp [exec, Files.setAside]
        refine ends_ok wrote (.inl rfl) ?_
        refine ends_attempt ?_ again
        have ready : (fs.setAside staged (.directory (some ownerToken) none)).aside staged =
            .directory (some ownerToken) none := by simp [Files.setAside]
        rw [exec_renameStaged ready]
        cases free : (fs.target key).keepsPath with
        | none =>
            simp only [Files.setAside, free]
            exact .inr ⟨free, rfl, rfl⟩
        | some e =>
            simp only [Files.setAside, free]
            exact again _ rfl
      · have clash : exec (.makeStaged staged) fs = (.error .fileExists, fs) := by
          simp [exec, fresh]
        exact ends_error clash fun e => .inl rfl

theorem reserveFilePublication_ends {key ownerToken : String} {names : Vector String 3} :
    Ends fs (reserveFilePublication key ownerToken names) (Reserved key ownerToken fs.target) :=
  ends_ok rfl (.inl rfl) (ends_ok rfl (.inl rfl) reserveAttempts_ends)

/-! ## What an operation may do -/

def Operation.key : Operation → String
  | .reserve key _ _ => key
  | .publish reservation _ => reservation.key
  | .cancel reservation _ => reservation.key
  | .inspect key _ _ => key
  | .deleteIfNotMatching key _ _ _ => key
  | .delete key _ => key

def Operation.deletes : Operation → Bool
  | .deleteIfNotMatching .. => true
  | .delete .. => true
  | _ => false

/-- What an operation may make of what is at its key. -/
inductive Change (sha256 : Bytes → String) :
    Operation → Node → Except LocalError Outcome → Node → Prop where
  | same {op node r} : (∀ reservation file, op = .publish reservation file → r ≠ .ok .done) →
      (∀ key checksum size state, op = .inspect key checksum size → r = .ok (.state state) →
        state = inspected sha256 checksum size node) → Change sha256 op node r node
  | reserved {key ownerToken names node} : node.keepsPath = none →
      Change sha256 (.reserve key ownerToken names) node
        (.ok (.reserved ⟨key, ownerToken, ownerToken⟩)) (.directory (some ownerToken) none)
  | published {reservation file object bytes r} : (∀ old, object = some old → old = bytes) →
      sha256 bytes = file.checksumSha256 → bytes.length = file.body.length →
      Change sha256 (.publish reservation file) (.directory (some reservation.ownerToken) object) r
        (.directory none (some bytes))
  | linked {reservation file object bytes r} : (∀ old, object = some old → old = bytes) →
      r ≠ .ok .done →
      Change sha256 (.publish reservation file) (.directory (some reservation.ownerToken) object) r
        (.directory (some reservation.ownerToken) (some bytes))
  | cancelled {reservation quarantine r} : Change sha256 (.cancel reservation quarantine)
      (.directory (some reservation.ownerToken) none) r .absent
  | removed {op node r} : op.deletes = true →
      (∀ key checksum size quarantine, op = .deleteIfNotMatching key checksum size quarantine →
        inspected sha256 checksum size node ≠ .matching) → Change sha256 op node r .absent

/-- The result of an operation, from that of its adapter function. -/
theorem ends_map {α : Type} {p : Tx α} {f : α → Outcome}
    {Q : Except LocalError Outcome → (String → Node) → Prop}
    (h : Ends fs p fun r => Q (r.map f)) :
    Ends fs (do let a ← p; pure (f a)) Q := by
  refine Device.always_bind.mpr (Device.always_mono ?_ h)
  intro r left held
  cases r <;> exact held

/-- Other keys are left alone; the operation's own key changes as it may. -/
structure Operates (sha256 : Bytes → String) (op : Operation) (T : String → Node)
    (r : Except LocalError Outcome) (T' : String → Node) : Prop where
  others : ∀ key, key ≠ op.key → T' key = T key
  own : Change sha256 op (T op.key) r (T' op.key)

section Operates

variable {op : Operation} {T' : String → Node} {r : Except LocalError Outcome}

theorem Operates.update {node : Node} (is : T' = Function.update T op.key node)
    (change : Change sha256 op (T op.key) r node) : Operates sha256 op T r T' := by
  subst is
  exact ⟨fun key other => Function.update_of_ne other _ _, by rwa [Function.update_self]⟩

theorem Operates.same (is : T' = T) (change : Change sha256 op (T op.key) r (T op.key)) :
    Operates sha256 op T r T' := by
  subst is
  exact ⟨fun _ _ => rfl, change⟩

end Operates

theorem run_ends (op : Operation) : Ends fs (op.run sha256) (Operates sha256 op fs.target) := by
  cases op with
  | reserve key ownerToken names =>
      refine ends_map (f := .reserved) (Device.always_mono ?_ reserveFilePublication_ends)
      rintro r left (same | ⟨free, rfl, is⟩)
      · exact .same same (.same nofun nofun)
      · exact .update is (.reserved free)
  | publish reservation file =>
      refine ends_map (f := fun _ => .done) (Device.always_mono ?_ publishReservedFile_ends)
      have raised {r : Except LocalError Unit} (raises : ∀ a, r ≠ .ok a) :
          r.map (fun _ => Outcome.done) ≠ .ok .done := by
        cases r with
        | ok a => exact absurd rfl (raises a)
        | error e => nofun
      rintro r left (⟨same, raises⟩ | ⟨object, bytes, was, stays, checksum, length, is | ⟨raises, is⟩⟩)
      · exact .same same (.same (fun _ _ _ => raised raises) nofun)
      · refine .update is ?_
        simp only [Operation.key, was]
        exact .published stays checksum length
      · refine .update is ?_
        simp only [Operation.key, was]
        exact .linked stays (raised raises)
  | cancel reservation quarantine =>
      refine ends_map (f := fun _ => .done) (Device.always_mono ?_ cancelFilePublication_ends)
      rintro r left (same | ⟨was, is⟩)
      · exact .same same (.same nofun nofun)
      · refine .update is ?_
        simp only [Operation.key, was]
        exact .cancelled
  | inspect key checksum size =>
      refine ends_map (f := .state) (Device.always_mono ?_ inspectFile_ends)
      rintro r left ⟨same, finds⟩
      refine .same same (.same nofun ?_)
      rintro _ _ _ state same' is
      cases same'
      cases r with
      | ok found =>
          cases is
          exact finds _ rfl
      | error e => cases is
  | deleteIfNotMatching key checksum size quarantine =>
      refine ends_map (f := .state) (Device.always_mono ?_ deleteFileIfNotMatching_ends)
      rintro r left (same | ⟨differs, is⟩)
      · exact .same same (.same nofun nofun)
      · refine .update is (.removed rfl ?_)
        intro _ _ _ _ same'
        cases same'
        exact differs
  | delete key quarantine =>
      refine ends_map (f := fun _ => .done) (Device.always_mono ?_ delete_ends)
      rintro r left (is | ⟨same, -⟩)
      · exact .update is (.removed rfl nofun)
      · exact .same same (.same nofun nofun)

/-- One lemma for all operations. -/
theorem Does.operates {op : Operation} {r : Except LocalError Outcome} {fs' : Files}
    (does : Does sha256 op fs r fs') : Operates sha256 op fs.target r fs'.target :=
  Device.Ends.always (Q := fun r fs' => Operates sha256 op fs.target r fs'.target) does (run_ends op)

/-! ## Sequences of operations -/

def Node.object : Node → Option Bytes
  | .directory _ object => object
  | _ => none

def Node.reservation : Node → Option String
  | .directory reservation _ => reservation
  | _ => none

/-- Operations one after the other, each of which is `allowed` with its result and with the
    files it leaves. -/
def Runs (sha256 : Bytes → String)
    (allowed : Operation → Except LocalError Outcome → Files → Prop) : Files → Files → Prop :=
  Relation.ReflTransGen fun fs fs' => ∃ op r, Does sha256 op fs r fs' ∧ allowed op r fs'

/-- What holds of a key after a sequence, if the operations on the key keep it. -/
theorem Runs.keeps {allowed : Operation → Except LocalError Outcome → Files → Prop} {key : String}
    {P : Node → Prop} {fs' : Files} (run : Runs sha256 allowed fs fs') (start : P (fs.target key))
    (step : ∀ op r node after, op.key = key → P node →
      Change sha256 op node r (after.target key) → allowed op r after → P (after.target key)) :
    P (fs'.target key) := by
  induction run with
  | refl => exact start
  | @tail middle last _ moves ih =>
      obtain ⟨op, r, does, fine⟩ := moves
      by_cases other : key = op.key
      · subst other
        exact step op r _ last rfl ih does.operates.own fine
      · rw [does.operates.others key other]
        exact ih

/-- A key with a published object changes only when it is deleted. -/
theorem Change.of_published {op : Operation} {r : Except LocalError Outcome} {bytes : Bytes}
    {node : Node} (change : Change sha256 op (.directory none (some bytes)) r node) :
    node = .directory none (some bytes) ∨ op.deletes = true ∧ node = .absent := by
  cases change with
  | same => exact .inl rfl
  | reserved free => cases free
  | removed deletes => exact .inr ⟨deletes, rfl⟩

/-- An owner comes to hold the reservation of a key only by reserving it. -/
theorem Change.not_reserved {op : Operation} {r : Except LocalError Outcome} {owner : String}
    {node node' : Node} (change : Change sha256 op node r node') (before : node.reservation ≠ some owner)
    (elsewhere : ∀ key names, op = .reserve key owner names →
      r ≠ .ok (.reserved ⟨key, owner, owner⟩)) : node'.reservation ≠ some owner := by
  cases change with
  | same => exact before
  | @reserved key owner' names node free =>
      intro mine
      cases mine
      exact elsewhere key names rfl rfl
  | published => nofun
  | linked => exact before
  | cancelled => nofun
  | removed => nofun

/-- The operation deletes the key. -/
def DeletesKey (key : String) (op : Operation) (after : Files) : Prop :=
  op.deletes = true ∧ op.key = key ∧ after.target key = .absent

/-- Publication to local files: a published file is there until it is deleted; neither a
    reservation nor a publication replaces it; a cancellation removes neither it nor the
    reservation of another owner; and a deletion ends the reservations from before it. -/
theorem local_publication {op : Operation} {r : Except LocalError Outcome} {fs' : Files}
    (does : Does sha256 op fs r fs') :
    (∀ reservation file, op = .publish reservation file → r = .ok .done →
      ∀ later, Runs sha256 (fun op _ after => ¬DeletesKey reservation.key op after) fs' later →
      ∀ last state, Does sha256 (.inspect reservation.key file.checksumSha256 file.body.length)
        later (.ok (.state state)) last → state = .matching) ∧
    ((∃ key ownerToken names, op = .reserve key ownerToken names) ∨
        (∃ reservation file, op = .publish reservation file) →
      ∀ key bytes, (fs.target key).object = some bytes → (fs'.target key).object = some bytes) ∧
    (∀ reservation quarantine, op = .cancel reservation quarantine → ∀ key,
      (∀ bytes, (fs.target key).object = some bytes → fs'.target key = fs.target key) ∧
      ∀ owner, (fs.target key).reservation = some owner → owner ≠ reservation.ownerToken →
        fs'.target key = fs.target key) ∧
    (DeletesKey op.key op fs' → ∀ owner later,
      Runs sha256 (fun other r _ => ∀ names, other = .reserve op.key owner names →
        r ≠ .ok (.reserved ⟨op.key, owner, owner⟩)) fs' later →
      ∀ reservation file r' last, reservation.key = op.key → reservation.ownerToken = owner →
        Does sha256 (.publish reservation file) later r' last →
        r' ≠ .ok .done ∧ last.target op.key = later.target op.key) := by
  have here := does.operates
  refine ⟨?_, ?_, ?_, ?_⟩
  · rintro reservation file rfl rfl later run last state inspects
    obtain ⟨bytes, is, checksum, length⟩ : ∃ bytes,
        fs'.target reservation.key = .directory none (some bytes) ∧
          sha256 bytes = file.checksumSha256 ∧ bytes.length = file.body.length := by
      have own := here.own
      simp only [Operation.key] at own
      generalize fs.target reservation.key = node at own
      generalize fs'.target reservation.key = node' at own
      cases own with
      | same raises => exact absurd rfl (raises reservation file rfl)
      | @published _ _ _ bytes _ stays checksum length => exact ⟨bytes, rfl, checksum, length⟩
      | linked _ raises => exact absurd rfl raises
      | removed deletes => cases deletes
    have still : later.target reservation.key = .directory none (some bytes) := by
      refine run.keeps (P := fun node => node = .directory none (some bytes)) is ?_
      rintro other r node after same rfl change spared
      rcases change.of_published with unchanged | ⟨deletes, gone⟩
      · exact unchanged
      · exact absurd ⟨deletes, same, gone⟩ spared
    have own := inspects.operates.own
    simp only [Operation.key, still] at own
    generalize last.target reservation.key = node at own
    cases own with
    | same _ finds =>
        rw [finds _ _ _ state rfl rfl]
        simp [inspected, checksum, length]
    | removed deletes => cases deletes
  · intro writes key bytes object
    by_cases other : key = op.key
    · subst other
      have own := here.own
      generalize fs.target op.key = node at own object
      generalize fs'.target op.key = node' at own
      cases own with
      | same => exact object
      | reserved free =>
          cases node with
          | absent => cases object
          | file => cases free
          | directory reservation old => cases reservation <;> cases object <;> cases free
      | published stays => exact congrArg some (stays bytes object).symm
      | linked stays => exact congrArg some (stays bytes object).symm
      | cancelled => cases object
      | removed deletes =>
          rcases writes with ⟨_, _, _, rfl⟩ | ⟨_, _, rfl⟩ <;> cases deletes
    · rw [here.others key other]
      exact object
  · rintro reservation quarantine rfl key
    by_cases other : key = reservation.key
    · subst other
      have own := here.own
      simp only [Operation.key] at own
      generalize fs.target reservation.key = node at own
      generalize fs'.target reservation.key = node' at own
      cases own with
      | same => exact ⟨fun _ _ => rfl, fun _ _ _ => rfl⟩
      | cancelled => exact ⟨nofun, fun owner is differs => absurd (Option.some.inj is).symm differs⟩
      | removed deletes => cases deletes
    · have same := here.others key other
      exact ⟨fun _ _ => same, fun _ _ _ => same⟩
  · rintro ⟨deletes, -, gone⟩ owner later run reservation file r' last key rfl publishes
    have apart : (later.target op.key).reservation ≠ some reservation.ownerToken := by
      refine run.keeps (P := fun node => node.reservation ≠ some reservation.ownerToken)
        (by rw [gone]; nofun) ?_
      intro other r node after same before change elsewhere
      refine change.not_reserved before fun key names is => ?_
      subst is
      cases same
      exact elsewhere names rfl
    have own := publishes.operates.own
    rw [show (Operation.publish reservation file).key = op.key from key] at own
    generalize later.target op.key = node at own apart
    generalize last.target op.key = node' at own
    cases own with
    | same raises => exact ⟨raises reservation file rfl, rfl⟩
    | published => exact absurd rfl apart
    | linked => exact absurd rfl apart
    | removed deletes => cases deletes

def exampleFile : ArchiveFile where
  body := [122, 105, 112]
  contentType := "application/zip"
  checksumSha256 := "4a70fe9aa6436e02c2dea340fbd1e352e4ef2d8ce6ca52ad25d4b95471fc8bf2"

/-- The checksum of the only file there is. -/
def exampleSha256 (_ : Bytes) : String := exampleFile.checksumSha256

def exampleReservation : StoragePublicationReservation := ⟨"exports/10.zip", "first", "first"⟩

/-- A key that the first owner has reserved. -/
def reservedFiles : Files :=
  (device.play ((Operation.reserve "exports/10.zip" "first" #v["a", "b", "c"]).run exampleSha256)
    ⟨fun _ => .absent, fun _ => .absent⟩).2

/-- The first owner publishes what it has reserved. -/
theorem local_publication_example :
    ∃ fs, Does exampleSha256 (.publish exampleReservation exampleFile) reservedFiles (.ok .done) fs ∧
      (fs.target "exports/10.zip").object = some exampleFile.body ∧
      ∀ last state, Does exampleSha256 (.inspect "exports/10.zip" exampleFile.checksumSha256 3) fs
        (.ok (.state state)) last → state = .matching := by
  have ends := device.ends_play ((Operation.publish exampleReservation exampleFile).run exampleSha256)
    reservedFiles
  have done : (device.play ((Operation.publish exampleReservation exampleFile).run exampleSha256)
      reservedFiles).1 = .ok .done := by decide
  rw [done] at ends
  exact ⟨_, ends, by decide, (local_publication ends).1 exampleReservation exampleFile rfl rfl _ .refl⟩

end SaasTemplate.Storage.Local

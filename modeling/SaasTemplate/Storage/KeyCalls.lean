import SaasTemplate.Storage.LocalRuns

/-! # Calls of a storage adapter, one key at a time

What a call of the adapter makes of its key when nothing fails, as one step. The local
adapter, any of whose file-system steps may fail, refines it: a call that returns has done
just that, and one that raises has done it, half of it or nothing.
-/

namespace SaasTemplate.Storage.Local

open SaasTemplate.Isolation SaasTemplate.Isolation.Prog

variable {sha256 : Bytes → String} {T : String → Node} {fs : Files}

/-! ## Calls -/

/-- The bytes that a look at the key finds. -/
def Node.bytes : Node → Option Bytes
  | .absent => none
  | .file bytes => some bytes
  | .directory _ object => object

inductive StorageCall where
  | reserve (key ownerToken : String)
  | publish (reservation : StoragePublicationReservation) (file : ArchiveFile)
  | cancel (reservation : StoragePublicationReservation)
  | inspect (key checksumSha256 : String) (sizeBytes : Nat)
  | deleteIfNotMatching (key checksumSha256 : String) (sizeBytes : Nat)
  | delete (key : String)
  deriving DecidableEq

def StorageCall.key : StorageCall → String
  | .reserve key _ => key
  | .publish reservation _ => reservation.key
  | .cancel reservation => reservation.key
  | .inspect key _ _ => key
  | .deleteIfNotMatching key _ _ => key
  | .delete key => key

/-- An operation without the fresh names it uses. -/
def Operation.call : Operation → StorageCall
  | .reserve key ownerToken _ => .reserve key ownerToken
  | .publish reservation file => .publish reservation file
  | .cancel reservation _ => .cancel reservation
  | .inspect key checksumSha256 sizeBytes => .inspect key checksumSha256 sizeBytes
  | .deleteIfNotMatching key checksumSha256 sizeBytes _ =>
      .deleteIfNotMatching key checksumSha256 sizeBytes
  | .delete key _ => .delete key

@[simp] theorem Operation.key_call (op : Operation) : op.call.key = op.key := by
  cases op <;> rfl

section Settle

variable (sha256)

def settleReservation (key ownerToken : String) : Node → Except LocalError Outcome × Node
  | .absent | .directory none none =>
      (.ok (.reserved ⟨key, ownerToken, ownerToken⟩), .directory (some ownerToken) none)
  | .directory (some owner) none =>
      if owner = ownerToken then
        (.ok (.reserved ⟨key, ownerToken, ownerToken⟩), .directory (some owner) none)
      else (.error (.objectConflict "Storage key is reserved by another publisher"),
        .directory (some owner) none)
  | node => (.error (.objectConflict "Storage key already contains a published object"), node)

def settlePublication (reservation : StoragePublicationReservation) (file : ArchiveFile)
    (node : Node) : Except LocalError Outcome × Node :=
  if sha256 file.body ≠ file.checksumSha256 then
    (.error (.valueError "Prepared storage file checksum changed"), node)
  else match node with
    | .directory (some owner) object =>
        if owner ≠ reservation.ownerToken ∨ reservation.revision ≠ reservation.ownerToken then
          (.error (.objectConflict "Storage publication reservation is no longer owned"), node)
        else match object with
          | none => (.ok .done, .directory none (some file.body))
          | some bytes =>
              if sha256 bytes = sha256 file.body ∧ bytes.length = file.body.length then
                (.ok .done, .directory none (some bytes))
              else
                (.error (.objectConflict "Storage key already contains different bytes"), node)
    | _ => (.error (.objectConflict "Storage publication reservation is no longer active"), node)

/-- What a call answers and makes of its key when nothing fails. -/
def StorageCall.settle (node : Node) : StorageCall → Except LocalError Outcome × Node
  | .reserve key ownerToken => settleReservation key ownerToken node
  | .publish reservation file => settlePublication sha256 reservation file node
  | .cancel reservation =>
      (.ok .done, if node = .directory (some reservation.ownerToken) none then .absent else node)
  | .inspect _ checksumSha256 sizeBytes =>
      (.ok (.state (inspected sha256 checksumSha256 sizeBytes node)), node)
  | .deleteIfNotMatching _ checksumSha256 sizeBytes =>
      if inspected sha256 checksumSha256 sizeBytes node = .matching then
        (.ok (.state .matching), node)
      else (.ok (.state .missing), .absent)
  | .delete _ => (.ok .done, .absent)

/-- The same for a publication that has put its object in place and not yet dropped its
    reservation. -/
def StorageCall.halfway (node : Node) : StorageCall → Node
  | .publish reservation file =>
      match settlePublication sha256 reservation file node with
      | (.ok _, .directory _ object) => .directory (some reservation.ownerToken) object
      | _ => node
  | other => (other.settle sha256 node).2

end Settle

/-! ## What a call may do to its key -/

section Effects

variable {node : Node}

theorem inspected_matching {checksum : String} {size : Nat} :
    inspected sha256 checksum size node = .matching ↔
      ∃ bytes, node.bytes = some bytes ∧ sha256 bytes = checksum ∧ bytes.length = size := by
  have compare : ∀ bytes : Bytes,
      (if sha256 bytes = checksum ∧ bytes.length = size then StorageObjectState.matching
        else .conflict) = .matching ↔ sha256 bytes = checksum ∧ bytes.length = size := by
    intro bytes
    split <;> simp_all
  rcases node with _ | bytes | ⟨_ | owner, _ | bytes⟩ <;>
    simp [inspected, Node.bytes, compare]

theorem settle_reserve {key ownerToken : String} :
    ((StorageCall.reserve key ownerToken).settle sha256 node).2 = node ∨ node.bytes = none ∧
      ((StorageCall.reserve key ownerToken).settle sha256 node).2 =
        .directory (some ownerToken) none := by
  rcases node with _ | bytes | ⟨_ | owner, _ | bytes⟩ <;>
    simp only [StorageCall.settle, settleReservation, Node.bytes] <;> grind

/-- What comes of a publication that finds its reservation. -/
structure Publishes (sha256 : Bytes → String) (reservation : StoragePublicationReservation)
    (file : ArchiveFile) (node next : Node) : Prop where
  reserved : node.reservation = some reservation.ownerToken
  owner : next.reservation = none ∨ next.reservation = some reservation.ownerToken
  published : ∃ bytes, next.bytes = some bytes ∧ (∀ old, node.bytes = some old → old = bytes) ∧
    sha256 bytes = file.checksumSha256 ∧ bytes.length = file.body.length

/-- The cases of a publication: it is refused, or its object is in place. -/
theorem settlePublication_cases (sha256 : Bytes → String)
    (reservation : StoragePublicationReservation) (file : ArchiveFile) (node : Node) :
    (∃ e, settlePublication sha256 reservation file node = (.error e, node)) ∨
      ∃ old bytes, node = .directory (some reservation.ownerToken) old ∧
        (∀ b, old = some b → b = bytes) ∧ sha256 bytes = file.checksumSha256 ∧
        bytes.length = file.body.length ∧
        settlePublication sha256 reservation file node =
          (.ok .done, .directory none (some bytes)) := by
  unfold settlePublication
  split
  · exact .inl ⟨_, rfl⟩
  · rename_i checksum
    replace checksum := not_ne_iff.mp checksum
    split
    · rename_i owner object
      split
      · exact .inl ⟨_, rfl⟩
      · rename_i mine
        obtain rfl : owner = reservation.ownerToken := by grind
        cases object with
        | none => exact .inr ⟨none, file.body, rfl, nofun, checksum, rfl, rfl⟩
        | some bytes =>
            dsimp only
            split
            · rename_i same
              exact .inr ⟨some bytes, bytes, rfl, fun b is => (Option.some.inj is).symm,
                same.1.trans checksum, same.2, rfl⟩
            · exact .inl ⟨_, rfl⟩
    · exact .inl ⟨_, rfl⟩

theorem settle_publish {reservation : StoragePublicationReservation} {file : ArchiveFile} :
    (((StorageCall.publish reservation file).settle sha256 node).2 = node ∧
        ∀ o, ((StorageCall.publish reservation file).settle sha256 node).1 ≠ .ok o) ∨
      Publishes sha256 reservation file node
        ((StorageCall.publish reservation file).settle sha256 node).2 := by
  simp only [StorageCall.settle]
  rcases settlePublication_cases sha256 reservation file node with
    ⟨e, is⟩ | ⟨old, bytes, rfl, stays, checksum, length, is⟩
  · exact .inl (by simp [is])
  · refine .inr ⟨rfl, .inl (by rw [is]; rfl), bytes, by rw [is]; rfl, stays, checksum, length⟩

theorem halfway_publish {reservation : StoragePublicationReservation} {file : ArchiveFile} :
    (StorageCall.publish reservation file).halfway sha256 node = node ∨
      Publishes sha256 reservation file node
        ((StorageCall.publish reservation file).halfway sha256 node) := by
  simp only [StorageCall.halfway]
  rcases settlePublication_cases sha256 reservation file node with
    ⟨e, is⟩ | ⟨old, bytes, rfl, stays, checksum, length, is⟩
  · exact .inl (by rw [is])
  · rw [is]
    exact .inr ⟨rfl, .inr rfl, bytes, rfl, stays, checksum, length⟩

end Effects

/-! ## The local adapter -/

/-- What a call has done that returns, or raises. -/
structure Settled (sha256 : Bytes → String) (call : StorageCall) (T : String → Node)
    (r : Except LocalError Outcome) (T' : String → Node) : Prop where
  others : ∀ key, key ≠ call.key → T' key = T key
  returns : ∀ o, r = .ok o → call.settle sha256 (T call.key) = (.ok o, T' call.key)
  raises : ∀ e, r = .error e →
    T' call.key = T call.key ∨ T' call.key = call.halfway sha256 (T call.key)

theorem settled_error {call : StorageCall} {T' : String → Node} {e : LocalError} (same : T' = T) :
    Settled sha256 call T (.error e) T' :=
  ⟨fun _ _ => by rw [same], nofun, fun _ _ => .inl (by rw [same])⟩

theorem settled_ok {call : StorageCall} {T' : String → Node} {o : Outcome} (node : Node)
    (settles : call.settle sha256 (T call.key) = (.ok o, node))
    (is : T' = Function.update T call.key node) : Settled sha256 call T (.ok o) T' := by
  subst is
  refine ⟨fun key other => Function.update_of_ne other _ _, ?_, nofun⟩
  rintro _ ⟨⟩
  rw [settles, Function.update_self]

/-- Where the call removes its key, and may fail afterwards. -/
theorem settled_removed {α : Type} {call : StorageCall} {T' : String → Node}
    {r : Except LocalError α} {o : Outcome}
    (settles : call.settle sha256 (T call.key) = (.ok o, .absent))
    (halfway : call.halfway sha256 (T call.key) = .absent)
    (removed : Removed T call.key r T') : Settled sha256 call T (r.map fun _ => o) T' := by
  rcases removed with gone | ⟨same, raises⟩
  · cases r with
    | ok a => exact settled_ok _ settles gone
    | error e =>
        subst gone
        refine ⟨fun key other => Function.update_of_ne other _ _, nofun, fun _ _ => .inr ?_⟩
        rw [Function.update_self, halfway]
  · cases r with
    | ok a => exact absurd rfl (raises a)
    | error e => exact settled_error same

theorem readReservation_bare {node : Node} {owner : String}
    (found : node.readReservation = .ok owner) (bare : node.hasObject = false) :
    node = .directory (some owner) none := by
  rcases node with _ | bytes | ⟨_ | other, _ | bytes⟩ <;>
    simp_all [Node.readReservation, Node.hasObject]

/-- After a rename that failed, a reservation of the owner is found, or the attempts go on. -/
theorem reconcileReservation_settled {key ownerToken staged : String}
    {again : Tx StoragePublicationReservation}
    (rest : ∀ left : Files, left.target = fs.target → Ends left again fun r T' =>
      Settled sha256 (.reserve key ownerToken) fs.target (r.map .reserved) T') :
    Ends fs (reconcileReservation key ownerToken staged again) fun r T' =>
      Settled sha256 (.reserve key ownerToken) fs.target (r.map .reserved) T' := by
  have looks : ∀ left : Files, left.target = fs.target → (left.target key).hasObject = false →
      Ends left (readOwner key ownerToken again false) fun r T' =>
        Settled sha256 (.reserve key ownerToken) fs.target (r.map .reserved) T' := by
    intro left same bare
    unfold readOwner
    refine ends_attempt ?_ fun left' same' => settled_error (same'.trans same)
    simp only [exec]
    cases found : (left.target key).readReservation with
    | ok owner =>
        dsimp only
        split
        · rename_i mine
          subst mine
          have node := readReservation_bare found bare
          rw [same] at node
          refine settled_ok (.directory (some owner) none) ?_ ?_
          · simp [StorageCall.settle, StorageCall.key, settleReservation, node]
          · rw [same, StorageCall.key, ← node, Function.update_eq_self]
        · exact settled_error same
    | error e =>
        dsimp only
        split
        · exact rest left same
        · exact settled_error same
  rw [reconcileReservation_eq]
  have checks : ∀ left : Files, left.target = fs.target → Ends left (do
      let published ← fileStep (.objectIsFile key)
      let published ← if published then pure true else fileStep (.targetIsFile key)
      readOwner key ownerToken again published) fun r T' =>
        Settled sha256 (.reserve key ownerToken) fs.target (r.map .reserved) T' := by
    intro left same
    refine ends_ok rfl (settled_error same) ?_
    cases bare : (left.target key).hasObject with
    | true => exact settled_error same
    | false =>
        refine ends_ok rfl (settled_error same) ?_
        cases (left.target key).isFile with
        | true => exact settled_error same
        | false => exact looks left same bare
  exact ends_attempt (checks _ rfl) checks

theorem settleReservation_free {key ownerToken : String} {node : Node}
    (free : node.keepsPath = none) : settleReservation key ownerToken node =
      (.ok (.reserved ⟨key, ownerToken, ownerToken⟩), .directory (some ownerToken) none) := by
  rcases node with _ | bytes | ⟨_ | owner, _ | bytes⟩ <;> first | rfl | cases free

theorem reserveAttempts_settled {key ownerToken : String} {names : List String} :
    Ends fs (reserveAttempts key ownerToken names) fun r T' =>
      Settled sha256 (.reserve key ownerToken) fs.target (r.map .reserved) T' := by
  induction names generalizing fs with
  | nil => exact settled_error rfl
  | cons staged rest ih =>
      have again : ∀ left : Files, left.target = fs.target →
          Ends left (reconcileReservation key ownerToken staged
            (reserveAttempts key ownerToken rest)) fun r T' =>
              Settled sha256 (.reserve key ownerToken) fs.target (r.map .reserved) T' := by
        intro left same
        rw [← same]
        exact reconcileReservation_settled fun left' same' => same' ▸ ih
      unfold reserveAttempts
      by_cases fresh : fs.aside staged = .absent
      · have made : exec (.makeStaged staged) fs =
            (.ok (), fs.setAside staged (.directory none none)) := by simp [exec, fresh]
        refine ends_ok made (settled_error rfl) ?_
        have wrote : exec (.writeReservation staged ownerToken)
            (fs.setAside staged (.directory none none)) =
              (.ok (), fs.setAside staged (.directory (some ownerToken) none)) := by
          simp [exec, Files.setAside]
        refine ends_ok wrote (settled_error rfl) ?_
        refine ends_attempt ?_ again
        have ready : (fs.setAside staged (.directory (some ownerToken) none)).aside staged =
            .directory (some ownerToken) none := by simp [Files.setAside]
        rw [exec_renameStaged ready]
        cases free : (fs.target key).keepsPath with
        | none =>
            simp only [Files.setAside, free]
            exact settled_ok _ (settleReservation_free free) rfl
        | some e =>
            simp only [Files.setAside, free]
            exact again _ rfl
      · have clash : exec (.makeStaged staged) fs = (.error .fileExists, fs) := by
          simp [exec, fresh]
        exact ends_error clash fun e => settled_error rfl

/-- The end of `publish_reserved_file`, where the object is in place. -/
def unlinkReservation (sha256 : Bytes → String) (reservation : StoragePublicationReservation)
    (file : ArchiveFile) (size : Nat) : Tx Unit := do
  let unlinked ← (fileStep (.unlinkReservation reservation.key)).attempt
  match unlinked with
  | .ok _ => pure ()
  | .error .fileNotFound => do
      let state ← inspectFileUnlocked sha256 reservation.key file.checksumSha256 size
      raiseIf (state ≠ .matching) (.objectConflict "Storage publication lost its cleanup race")
  | .error e => raise e

/-- With the object in place, the reservation is unlinked, or stays. -/
theorem unlinkReservation_settled {reservation : StoragePublicationReservation}
    {file : ArchiveFile} (bytes : Bytes) {size : Nat}
    (settles : settlePublication sha256 reservation file (T reservation.key) =
      (.ok .done, .directory none (some bytes)))
    (linked : fs.target = Function.update T reservation.key
      (.directory (some reservation.ownerToken) (some bytes))) :
    Ends fs (unlinkReservation sha256 reservation file size) fun r T' =>
      Settled sha256 (.publish reservation file) T (r.map fun _ => .done) T' := by
  refine ends_attempt ?_ fun left same => ?_
  · have here : fs.target reservation.key =
        .directory (some reservation.ownerToken) (some bytes) := by
      rw [linked, Function.update_self]
    simp only [exec, here]
    exact settled_ok _ settles (by simp [Files.setTarget, linked, StorageCall.key])
  · rw [linked] at same
    refine ⟨fun key other => ?_, by rintro _ ⟨⟩, fun _ _ => .inr ?_⟩
    · rw [same]
      exact Function.update_of_ne other _ _
    · rw [same]
      simp [StorageCall.key, StorageCall.halfway, settles]

theorem publishReservedFile_settled {reservation : StoragePublicationReservation}
    {file : ArchiveFile} :
    Ends fs (publishReservedFile sha256 reservation file) fun r T' =>
      Settled sha256 (.publish reservation file) fs.target (r.map fun _ => .done) T' := by
  unfold publishReservedFile
  refine ends_ok rfl (settled_error rfl) ?_
  refine Device.always_bind.mpr (Device.always_raiseIf.mpr ⟨fun _ => settled_error rfl, ?_⟩)
  intro prepared
  have checksum := not_ne_iff.mp prepared
  refine ends_ok rfl (settled_error rfl) (ends_attempt ?_ fun left same => settled_error same)
  simp only [exec]
  cases here : fs.target reservation.key with
  | absent => exact settled_error rfl
  | file bytes => exact settled_error rfl
  | directory owner object =>
      cases owner with
      | none => exact settled_error rfl
      | some owner =>
          simp only [Node.readReservation]
          refine Device.always_bind.mpr
            (Device.always_raiseIf.mpr ⟨fun _ => settled_error rfl, fun mine => ?_⟩)
          obtain ⟨rfl, revision⟩ : owner = reservation.ownerToken ∧
              reservation.revision = reservation.ownerToken := by grind
          refine ends_attempt ?_ fun left same => settled_error same
          cases object with
          | none =>
              simp only [exec, here]
              refine unlinkReservation_settled file.body ?_ rfl
              simp [settlePublication, here, checksum, revision]
          | some old =>
              simp only [exec, here]
              have read : exec (.readObject reservation.key) fs = (.ok old, fs) := by
                simp [exec, here, Node.readObject]
              refine ends_ok read (settled_error rfl) ?_
              refine Device.always_bind.mpr
                (Device.always_raiseIf.mpr ⟨fun _ => settled_error rfl, fun same => ?_⟩)
              have same : sha256 old = sha256 file.body ∧ old.length = file.body.length := by grind
              refine unlinkReservation_settled old ?_ ?_
              · simp [settlePublication, here, checksum, revision, same]
              · rw [← here, Function.update_eq_self]

theorem cancelFilePublication_settled {reservation : StoragePublicationReservation}
    {quarantine : String} :
    Ends fs (cancelFilePublication reservation quarantine) fun r T' =>
      Settled sha256 (.cancel reservation) fs.target (r.map fun _ => .done) T' := by
  -- what is not the owner's bare reservation is left as it is
  have kept : fs.target reservation.key ≠ .directory (some reservation.ownerToken) none →
      Settled sha256 (.cancel reservation) fs.target (.ok .done) fs.target := fun other =>
    settled_ok (fs.target reservation.key)
      (by simp [StorageCall.settle, StorageCall.key, other])
      (by rw [StorageCall.key, Function.update_eq_self])
  refine ends_ok rfl (settled_error rfl) (ends_attempt ?_ fun left same => settled_error same)
  simp only [exec]
  cases found : (fs.target reservation.key).readReservation with
  | error e =>
      dsimp only
      split
      · refine kept fun is => ?_
        simp [is, Node.readReservation] at found
      · exact settled_error rfl
  | ok ownerToken =>
      dsimp only
      split
      · rename_i other
        refine kept fun is => ?_
        simp only [is, Node.readReservation, Except.ok.injEq] at found
        exact other found.symm
      · rename_i own
        obtain rfl := not_ne_iff.mp own
        refine ends_ok rfl (settled_error rfl) ?_
        cases bare : (fs.target reservation.key).hasObject with
        | true =>
            refine kept fun is => ?_
            simp [is, Node.hasObject] at bare
        | false =>
            have node := readReservation_bare found bare
            refine Device.always_mono (fun r left => settled_removed ?_ ?_)
              removeTargetAtomically_ends
            · simp [StorageCall.settle, StorageCall.key, node]
            · simp [StorageCall.halfway, StorageCall.settle, StorageCall.key, node]

theorem deleteFileIfNotMatching_settled {key checksum quarantine : String} {size : Nat} :
    Ends fs (deleteFileIfNotMatching sha256 key checksum size quarantine) fun r T' =>
      Settled sha256 (.deleteIfNotMatching key checksum size) fs.target (r.map .state) T' := by
  refine ends_ok rfl (settled_error rfl) (Device.always_bind.mpr ?_)
  refine Device.always_mono ?_ inspectFileUnlocked_ends
  rintro r left ⟨same, is⟩
  cases r with
  | error e => exact settled_error same
  | ok state =>
      obtain rfl := is state rfl
      by_cases found : inspected sha256 checksum size (fs.target key) = .matching
      · simp only [found, if_true]
        refine settled_ok (fs.target key) ?_ ?_
        · simp [StorageCall.settle, StorageCall.key, found]
        · rw [same, StorageCall.key, Function.update_eq_self]
      · simp only [found, if_false]
        refine Device.always_bind.mpr (Device.always_mono ?_ removeTargetAtomically_ends)
        intro r left' removed
        rw [same] at removed
        have settled : Settled sha256 (.deleteIfNotMatching key checksum size) fs.target
            (r.map fun _ => .state .missing) left'.target := settled_removed
          (by simp [StorageCall.settle, StorageCall.key, found])
          (by simp [StorageCall.halfway, StorageCall.settle, StorageCall.key, found]) removed
        cases r <;> exact settled

theorem run_settled (op : Operation) :
    Ends fs (op.run sha256) (Settled sha256 op.call fs.target) := by
  cases op with
  | reserve key ownerToken names =>
      exact ends_map (f := .reserved) (ends_ok rfl (settled_error rfl)
        (ends_ok rfl (settled_error rfl) reserveAttempts_settled))
  | publish reservation file => exact ends_map publishReservedFile_settled
  | cancel reservation quarantine => exact ends_map cancelFilePublication_settled
  | inspect key checksum size =>
      refine ends_map (f := .state) (Device.always_mono ?_ inspectFile_ends)
      rintro r left ⟨same, finds⟩
      cases r with
      | error e => exact settled_error same
      | ok state =>
          refine settled_ok (fs.target key) ?_ ?_
          · simp [StorageCall.settle, Operation.call, StorageCall.key, finds state rfl]
          · rw [same, Operation.call, StorageCall.key, Function.update_eq_self]
  | deleteIfNotMatching key checksum size quarantine =>
      exact ends_map deleteFileIfNotMatching_settled
  | delete key quarantine =>
      exact ends_map (f := fun _ => .done)
        (Device.always_mono (fun r left => settled_removed rfl rfl) delete_ends)

/-- Whatever file-system steps fail: an operation of the local adapter leaves the other keys
    alone; one that returns has answered as the call does and made of its key what the call
    does; one that raises has left its key alone, has done the same, or has put the object of
    a publication in place without dropping the reservation. -/
theorem local_operation_settles {op : Operation} {r : Except LocalError Outcome} {fs' : Files}
    (does : Does sha256 op fs r fs') : Settled sha256 op.call fs.target r fs'.target :=
  Device.Ends.always (Q := fun r fs' => Settled sha256 op.call fs.target r fs'.target) does
    (run_settled op)

/-- A publication whose steps all work. -/
theorem local_operation_settles_example :
    ∃ fs, Does exampleSha256 (.publish exampleReservation exampleFile) reservedFiles (.ok .done)
        fs ∧
      (StorageCall.publish exampleReservation exampleFile).settle exampleSha256
        (reservedFiles.target "exports/10.zip") = (.ok .done, fs.target "exports/10.zip") := by
  have ends := device.ends_play
    ((Operation.publish exampleReservation exampleFile).run exampleSha256) reservedFiles
  have done : (device.play ((Operation.publish exampleReservation exampleFile).run exampleSha256)
      reservedFiles).1 = .ok .done := by decide
  rw [done] at ends
  exact ⟨_, ends, (local_operation_settles ends).returns .done rfl⟩

end SaasTemplate.Storage.Local

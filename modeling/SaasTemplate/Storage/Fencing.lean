import SaasTemplate.Storage.ObjectStore

/-! # What the revision of a reservation fences off

Every reservation is an empty object, so the revisions of all reservations are the same. A
conditional request of an owner therefore lands on the reservation of any owner, and on
anything else with the revision of an empty body.
-/

set_option linter.unusedSectionVars false

namespace SaasTemplate.Storage

open SaasTemplate.Isolation SaasTemplate.Isolation.Prog

variable {τ : Type} [DecidableEq τ] {ops : ByteOps} {attempts : Nat} {token : τ → String}

/-! ## Reservations in the store and in the hands of owners -/

/-- A reservation has an empty body. -/
def ReservationsEmpty (objects : Objects) : Prop :=
  ∀ key o, objects key = some o → o.publicationReservationOwner ≠ none → o.body = []

theorem reservationsEmpty_update {objects : Objects} (h : ReservationsEmpty objects)
    {key : String} {o : Option StoredObject}
    (empty : ∀ object, o = some object → object.publicationReservationOwner ≠ none →
      object.body = []) : ReservationsEmpty (Function.update objects key o) := by
  intro other object here
  by_cases same : other = key
  · subst same
    exact empty object (by simpa using here)
  · exact h other object (by simpa [Function.update_of_ne same] using here)

theorem reservationsEmpty_effect {objects : Objects} (h : ReservationsEmpty objects) (s : Request) :
    ReservationsEmpty (s.effect objects) := by
  cases s with
  | putReservation key ownerToken =>
      exact reservationsEmpty_update h fun o is _ => by cases is; rfl
  | putArchive key revision file =>
      exact reservationsEmpty_update h fun o is reserved => by cases is; exact absurd rfl reserved
  | deleteObject caller key revision => exact reservationsEmpty_update h nofun
  | headObject key => exact h

/-- The request is sent by `publish_reserved_file` or `cancel_file_publication`. -/
def Request.publishesOrCancels : Request → Bool
  | .putArchive .. => true
  | .deleteObject caller .. => caller == .cancelFilePublication
  | _ => false

def Request.key : Request → String
  | .putReservation key _ => key
  | .putArchive key .. => key
  | .deleteObject _ key _ => key
  | .headObject key => key

def Request.revision : Request → Option String
  | .putArchive _ revision _ => some revision
  | .deleteObject _ _ revision => some revision
  | _ => none

/-- An owner reserves under its own token, and publishes and cancels by the revision of an
    empty body. -/
def Request.IsFenced (ops : ByteOps) (ownerToken : String) : Request → Prop
  | .putReservation _ owner => owner = ownerToken
  | s => s.publishesOrCancels = true → s.revision = some (ops.etag [])

def fenceContract (ops : ByteOps) (token : τ → String) : Contract τ Request Db where
  inv db := ReservationsEmpty db.objects
  guar _ _ _ := True
  rely _ _ _ := True
  shows t s _ := s.IsFenced ops (token t)

theorem fenceContract_sound : (fenceContract ops token).Sound (machine ops τ) where
  rely_refl _ _ := trivial
  rely_trans _ {_ _ _} _ _ := trivial
  guar_rely _ _ _ _ := trivial
  env_inv holds same := by
    change ReservationsEmpty _
    rw [same]
    exact holds
  env_rely _ _ := trivial
  crash_inv holds := holds
  crash_guar _ := trivial

/-- A request is refused, or it is carried out; its response may get lost. -/
theorem exec_cases {t : τ} {s : Request} {db db' : Db} {r : Except StorageError (Response s)}
    (executed : exec ops t s db = some (r, db')) :
    (∃ e, s.refusal ops db.objects = some e) ∧ db' = db ∧ (∃ e, r = .error e) ∨
    s.refusal ops db.objects = none ∧ db' = { db with objects := s.effect db.objects } ∧
      ∀ a, r = .ok a → a = s.response ops db.objects := by
  unfold exec at executed
  cases refused : s.refusal ops db.objects <;> cases lost : db.lost <;>
    simp only [refused, lost, Option.some.injEq, Prod.mk.injEq] at executed <;>
    obtain ⟨rfl, rfl⟩ := executed <;> simp [eq_comm]

/-! ## What the adapter asks the store for -/

/-- What the owner learns from a response about revisions. -/
def Request.Learns (ops : ByteOps) : (s : Request) → Response s → Prop
  | .putReservation .., revision => revision = some (ops.etag [])
  | .headObject _, head =>
      head.publicationReservationOwner ≠ none → head.etag = some (ops.etag [])
  | _, _ => True

theorem learns_response {objects : Objects} (empty : ReservationsEmpty objects) (s : Request) :
    s.Learns ops (s.response ops objects) := by
  cases s with
  | putReservation key ownerToken => rfl
  | putArchive key revision file => trivial
  | deleteObject caller key revision => trivial
  | headObject key =>
      change (headOf ops (objects key)).publicationReservationOwner ≠ none →
        (headOf ops (objects key)).etag = some (ops.etag [])
      intro reserved
      cases here : objects key with
      | none => simp [headOf, here] at reserved
      | some o =>
          rw [here] at reserved
          simp [headOf, StoredObject.head, empty key o here reserved]

/-- The programs of client `t` that keep to the fence and end with `B`. -/
abbrev Fenced {α : Type} (ops : ByteOps) (token : τ → String) (t : τ) (p : Tx α) (B : α → Prop) :
    Prop :=
  Triple (machine ops τ) (fenceContract ops token) t (fun _ => True) p fun a _ => B a

variable {t : τ} {α β : Type}

theorem Fenced.bind {p : Tx α} {f : α → Tx β} {A : α → Prop} {B : β → Prop}
    (first : Fenced ops token t p A) (rest : ∀ a, A a → Fenced ops token t (f a) B) :
    Fenced ops token t (p >>= f) B :=
  Triple.bind first fun a db held => rest a held db trivial

theorem Fenced.pure {a : α} {B : α → Prop} (h : B a) : Fenced ops token t (pure a) B :=
  Triple.pure fun _ _ => h

theorem Fenced.raise {e : StorageError} {B : α → Prop} : Fenced ops token t (raise e) B :=
  Triple.raise

theorem Fenced.raiseIf {cond : Prop} [Decidable cond] {e : StorageError} :
    Fenced ops token t (raiseIf cond e) fun _ => True :=
  Triple.raiseIf.weaken (fun _ _ => trivial) fun _ _ _ => trivial

theorem Fenced.attempt {p : Tx α} {B : α → Prop} (h : Fenced ops token t p B) :
    Fenced ops token t p.attempt fun r => ∀ a, r = .ok a → B a :=
  Triple.attempt h

theorem request_fenced {s : Request} (fenced : s.IsFenced ops (token t)) :
    Fenced ops token t (request s) fun r => ∀ a, r = .ok a → s.Learns ops a := by
  have stable : (fenceContract ops token).Stable t fun _ => True := fun _ _ _ _ _ => trivial
  have shown : ∀ db, True → (fenceContract ops token).inv db →
      (fenceContract ops token).shows t s db := fun _ _ _ => fenced
  refine Triple.attempt (Triple.stmt stable shown fun db r db' _ empty _ executed => ?_)
  rcases exec_cases (t := t) executed with ⟨-, rfl, e, rfl⟩ | ⟨-, rfl, answers⟩
  · exact ⟨empty, trivial, nofun⟩
  · refine ⟨reservationsEmpty_effect empty s, trivial, fun a is => ?_⟩
    rw [answers a is]
    exact learns_response empty s

theorem headObject_fenced {key : String} : Fenced ops token t (headObject key) fun found =>
    ∀ head, found = some head → head.publicationReservationOwner ≠ none →
      head.etag = some (ops.etag []) := by
  refine (request_fenced (s := .headObject key) nofun).bind fun answer learns => ?_
  split
  · exact .pure fun head is => Option.some.inj is ▸ learns _ rfl
  · exact .pure nofun
  · exact .raise

theorem reconcileReservation_fenced {key ownerToken : String} :
    Fenced ops token t (reconcileReservation key ownerToken) fun found =>
      ∀ reservation, found = some reservation → reservation.revision = ops.etag [] := by
  refine Fenced.bind headObject_fenced fun existing known => ?_
  cases existing with
  | none => exact .pure nofun
  | some head =>
      dsimp only
      split
      · rename_i owner revision reserved etag
        split
        · refine .pure fun reservation is => ?_
          cases is
          have learned := known head rfl (by simp [reserved])
          exact Option.some.inj (etag.symm.trans learned)
        · exact .raise
      · exact .raise

theorem reserveFilePublication_fenced {key : String} : ∀ attempts,
    Fenced ops token t (reserveFilePublication key (token t) attempts)
      fun reservation => reservation.revision = ops.etag []
  | 0 => .raise
  | attempts + 1 => by
      have again := @reserveFilePublication_fenced key attempts
      refine (request_fenced (s := .putReservation key (token t)) rfl).bind
        fun answer learns => ?_
      cases answer with
      | ok response => cases response with
        | some revision => exact .pure (Option.some.inj (learns _ rfl))
        | none => exact .raise
      | error e =>
          dsimp only
          split
          · refine Fenced.bind reconcileReservation_fenced fun found known => ?_
            cases found with
            | some reservation => exact .pure (known reservation rfl)
            | none => exact again
          · split
            · exact again
            · exact .raise

theorem inspectFile_fenced {key checksum : String} {size : Nat} :
    Fenced ops token t (inspectFile key checksum size) fun _ => True :=
  Fenced.bind headObject_fenced fun _ _ => .pure trivial

theorem publishReservedFile_fenced {reservation : StoragePublicationReservation}
    {file : ArchiveFile} (own : reservation.revision = ops.etag []) :
    Fenced ops token t (publishReservedFile ops reservation file) fun _ => True := by
  refine Fenced.bind .raiseIf fun _ _ => ?_
  refine (request_fenced (s := .putArchive reservation.key reservation.revision file)
    fun _ => congrArg some own).bind fun answer _ => ?_
  cases answer with
  | ok _ => exact .pure trivial
  | error e =>
      dsimp only
      split
      · exact Fenced.bind inspectFile_fenced fun _ _ => .raiseIf
      · exact .raise

theorem cancelFilePublication_fenced {reservation : StoragePublicationReservation}
    (own : reservation.revision = ops.etag []) :
    Fenced ops token t (cancelFilePublication reservation) fun _ => True := by
  refine (request_fenced (s := .deleteObject .cancelFilePublication reservation.key
    reservation.revision) fun _ => congrArg some own).bind fun answer _ => ?_
  cases answer with
  | ok _ => exact .pure trivial
  | error _ => exact .raiseIf

theorem delete_fenced {key : String} : ∀ attempts,
    Fenced ops token t (delete key attempts) fun _ => True
  | 0 => .raise
  | attempts + 1 => by
      have again := @delete_fenced key attempts
      refine Fenced.bind headObject_fenced fun existing _ => ?_
      cases existing with
      | none => exact .pure trivial
      | some head =>
        cases is : head.etag with
        | none =>
            simp only [is]
            exact .raise
        | some revision =>
            simp only [is]
            refine (request_fenced (s := .deleteObject .delete key revision) nofun).bind
              fun answer _ => ?_
            cases answer with
            | ok _ => exact .pure trivial
            | error e =>
                dsimp only
                split
                · exact .pure trivial
                · split
                  · exact again
                  · exact .raise

theorem deleteFileIfNotMatching_fenced {key checksum : String} {size : Nat} : ∀ attempts,
    Fenced ops token t (deleteFileIfNotMatching key checksum size attempts) fun _ => True
  | 0 => .raise
  | attempts + 1 => by
      have again := @deleteFileIfNotMatching_fenced key checksum size attempts
      refine Fenced.bind headObject_fenced fun existing _ => ?_
      dsimp only
      split
      · exact .pure trivial
      · cases existing.bind (·.etag) with
        | none => exact .raise
        | some revision =>
            refine (request_fenced (s := .deleteObject .deleteFileIfNotMatching key revision)
              nofun).bind fun answer _ => ?_
            cases answer with
            | ok _ => exact .pure trivial
            | error e =>
                dsimp only
                split
                · exact .pure trivial
                · exact again

/-- Every reservation that is kept has the revision of an empty body. -/
def OwnReservations (ops : ByteOps) (held : List StoragePublicationReservation) : Prop :=
  ∀ reservation ∈ held, reservation.revision = ops.etag []

theorem Call.run_fenced {held : List StoragePublicationReservation}
    (own : OwnReservations ops held) (call : Call) :
    Fenced ops token t (call.run ops attempts (token t) held) (OwnReservations ops) := by
  cases call with
  | reserve key =>
      refine (reserveFilePublication_fenced attempts).bind fun reservation is => .pure ?_
      intro other member
      rcases List.mem_append.mp member with before | new
      · exact own other before
      · rw [List.mem_singleton.mp new]
        exact is
  | publish n file =>
      simp only [Call.run]
      cases here : held[n]? with
      | some reservation =>
          exact (publishReservedFile_fenced (own _ (List.mem_of_getElem? here))).bind
            fun _ _ => .pure own
      | none => exact .pure own
  | cancel n =>
      simp only [Call.run]
      cases here : held[n]? with
      | some reservation =>
          exact (cancelFilePublication_fenced (own _ (List.mem_of_getElem? here))).bind
            fun _ _ => .pure own
      | none => exact .pure own
  | inspect key checksum size => exact Fenced.bind inspectFile_fenced fun _ _ => .pure own
  | delete key => exact (delete_fenced attempts).bind fun _ _ => .pure own
  | deleteIfNotMatching key checksum size =>
      exact (deleteFileIfNotMatching_fenced attempts).bind fun _ _ => .pure own

theorem session_fenced {calls : List Call} {held : List StoragePublicationReservation}
    (own : OwnReservations ops held) :
    Fenced ops token t (session ops attempts (token t) calls held) fun _ => True := by
  induction calls generalizing held with
  | nil => exact .pure trivial
  | cons call rest ih =>
      refine (Call.run_fenced own call).attempt.bind fun answer kept => ?_
      cases answer with
      | ok held => exact ih (kept held rfl)
      | error e => exact ih own

/-! ## Runs -/

/-- Any number of owners, each with a token of its own, and a store whose reservations are
    empty. -/
structure StorageStart (ops : ByteOps) (attempts : Nat) (token : τ → String)
    (calls : τ → List Call) (c : Config τ Request Response StorageError Db Unit) : Prop where
  distinct : Function.Injective token
  empty : ReservationsEmpty c.db.objects
  sessions : ∀ t, c.run t = some (session ops attempts (token t) (calls t) [])

/-- The request of the owner, if it takes effect, meets the owner's own reservation. -/
def MeetsOwnReservation (ops : ByteOps) (ownerToken : String) (s : Request) (objects : Objects) :
    Prop :=
  s.refusal ops objects = none →
    ∃ o, objects s.key = some o ∧ o.publicationReservationOwner = some ownerToken

/-- At the key there is nothing with the revision of an empty body but the owner's own
    reservation: nobody else has reserved it, and what is published there has another
    revision. (Or the file that is sent does not have its checksum.) -/
def NothingElseEmpty (ops : ByteOps) (ownerToken : String) (s : Request) (objects : Objects) :
    Prop :=
  s.digestAccepted ops = true → ∀ o, objects s.key = some o → match o.publicationReservationOwner with
    | some owner => owner = ownerToken
    | none => ops.etag o.body ≠ ops.etag []

theorem refusal_eq_none_iff {s : Request} {objects : Objects} (publishes : s.publishesOrCancels = true)
    (revision : s.revision = some (ops.etag [])) :
    s.refusal ops objects = none ↔ s.digestAccepted ops = true ∧
      ∃ o, objects s.key = some o ∧ ops.etag o.body = ops.etag [] := by
  cases s with
  | putReservation key ownerToken => cases publishes
  | headObject key => cases publishes
  | putArchive key revision file =>
      cases revision
      cases here : objects key <;>
        simp [Request.refusal, matchError, Request.key, here, Request.digestAccepted, and_comm]
  | deleteObject caller key revision =>
      cases revision
      cases here : objects key <;>
        simp [Request.refusal, matchError, Request.key, here, Request.digestAccepted]

/-- A publication or cancellation meets the owner's own reservation exactly if there is
    nothing else with the revision of an empty body at the key. -/
theorem publication_fenced {calls : τ → List Call}
    {start c : Config τ Request Response StorageError Db Unit}
    (h : StorageStart ops attempts token calls start)
    (run : (machine ops τ).Reaches (fun _ _ _ => True) start c) {t : τ} {s : Request}
    (sends : c.waiting t = some s) (publishes : s.publishesOrCancels = true) :
    MeetsOwnReservation ops (token t) s c.db.objects ↔
      NothingElseEmpty ops (token t) s c.db.objects := by
  have safe : Contract.Sound.Safe (machine ops τ) (fenceContract ops token)
      (fun _ _ _ => True) start := by
    refine ⟨h.empty, fun t s k running => ?_⟩
    have fenced : Fenced ops token t (session ops attempts (token t) (calls t) []) fun _ => True :=
      session_fenced nofun
    rw [Option.some.inj (running.symm.trans (h.sessions t))]
    exact wp_mono (fun _ _ _ => trivial) (fenced start.db trivial)
  have safe := fenceContract_sound.invariant safe run
  obtain ⟨k, running⟩ := Config.run_of_waiting sends
  have empty : ReservationsEmpty c.db.objects := safe.1
  have shown : s.IsFenced ops (token t) := fenceContract_sound.shown safe running
  have revision : s.revision = some (ops.etag []) := by
    cases s <;> first | exact shown publishes | cases publishes
  have lands : s.refusal ops c.db.objects = none ↔ _ := refusal_eq_none_iff publishes revision
  constructor
  · intro meets accepted o here
    split
    · rename_i owner reserved
      have body := empty _ o here (by simp [reserved])
      obtain ⟨own, there, is⟩ := meets (lands.mpr ⟨accepted, o, here, by rw [body]⟩)
      cases here.symm.trans there
      exact Option.some.inj (reserved.symm.trans is)
    · rename_i published
      intro same
      obtain ⟨own, there, is⟩ := meets (lands.mpr ⟨accepted, o, here, same⟩)
      cases here.symm.trans there
      cases published.symm.trans is
  · intro nothing unrefused
    obtain ⟨accepted, o, here, same⟩ := lands.mp unrefused
    have is := nothing accepted o here
    split at is
    · rename_i owner reserved
      exact ⟨o, here, is ▸ reserved⟩
    · exact absurd same is

/-! ### Two owners of one key -/

/-- The revision and the digest of the file of the example, and of an empty body. -/
def exampleOps : ByteOps where
  etag body := if body = [] then "d41d8cd98f00b204e9800998ecf8427e"
    else "adcdbd79a8d84175c229b192aadc02f2"
  sha256 _ := [74, 112, 254, 154, 166, 67, 110, 2, 194, 222, 163, 64, 251, 209, 227, 82, 228, 239,
    45, 140, 230, 202, 82, 173, 37, 212, 185, 84, 113, 252, 139, 242]
  fromHex checksum :=
    if checksum = "4a70fe9aa6436e02c2dea340fbd1e352e4ef2d8ce6ca52ad25d4b95471fc8bf2" then
      some [74, 112, 254, 154, 166, 67, 110, 2, 194, 222, 163, 64, 251, 209, 227, 82, 228, 239,
        45, 140, 230, 202, 82, 173, 37, 212, 185, 84, 113, 252, 139, 242]
    else none

def exampleFile : ArchiveFile where
  body := [122, 105, 112]
  contentType := "application/zip"
  checksumSha256 := "4a70fe9aa6436e02c2dea340fbd1e352e4ef2d8ce6ca52ad25d4b95471fc8bf2"

def exampleToken : Bool → String
  | false => "first"
  | true => "second"

/-- The first owner reserves and publishes; the second deletes the key and reserves it. -/
def exampleCalls : Bool → List Call
  | false => [.reserve "exports/10.zip", .publish 0 exampleFile]
  | true => [.delete "exports/10.zip", .reserve "exports/10.zip"]

def exampleStart : Config Bool Request Response StorageError Db Unit :=
  ⟨⟨fun _ => none, none⟩, fun t =>
    some (session exampleOps 3 (exampleToken t) (exampleCalls t) [])⟩

theorem exampleStart_start : StorageStart exampleOps 3 exampleToken exampleCalls exampleStart where
  distinct t u same := by cases t <;> cases u <;> simp_all [exampleToken]
  empty := nofun
  sessions _ := rfl

/-- The object at the key, and the request the first owner is about to send. -/
def exampleView (c : Config Bool Request Response StorageError Db Unit) :
    Option StoredObject × Option Request :=
  (c.db.objects "exports/10.zip", c.waiting false)

theorem anything_sent (_ : Bool) (_ : Request) (_ : Db) (_ : true = true) : True := trivial

/-- The first owner publishes before anybody else moves. -/
theorem publication_fenced_example :
    ∃ c s, (machine exampleOps Bool).Reaches (fun _ _ _ => True) exampleStart c ∧
      c.waiting false = some s ∧ s.publishesOrCancels = true ∧
      c.db.objects "exports/10.zip" = some (reservationObject "first") ∧
      (MeetsOwnReservation exampleOps "first" s c.db.objects ↔
        NothingElseEmpty exampleOps "first" s c.db.objects) := by
  have played : ((machine exampleOps Bool).play (fun _ _ _ => true) [false] exampleStart).map
      exampleView = some (some (reservationObject "first"),
        some (.putArchive "exports/10.zip" "d41d8cd98f00b204e9800998ecf8427e" exampleFile)) := by
    decide
  obtain ⟨c, run, seen⟩ := Machine.run_of_play anything_sent played
  obtain ⟨here, sends⟩ := Prod.mk.inj seen
  exact ⟨c, _, run, sends, rfl, here, publication_fenced exampleStart_start run sends rfl⟩

/-- The second owner has deleted the reservation of the first and made its own: the archive
    of the first owner replaces it. -/
theorem archive_replaces_other_reservation :
    ¬∀ (calls : Bool → List Call) (start c : Config Bool Request Response StorageError Db Unit)
      (t : Bool) (s : Request), StorageStart exampleOps 3 exampleToken calls start →
      (machine exampleOps Bool).Reaches (fun _ _ _ => True) start c → c.waiting t = some s →
      s.publishesOrCancels = true →
      MeetsOwnReservation exampleOps (exampleToken t) s c.db.objects := by
  intro claim
  have played : ((machine exampleOps Bool).play (fun _ _ _ => true) [false, true, true, true]
      exampleStart).map exampleView = some (some (reservationObject "second"),
        some (.putArchive "exports/10.zip" "d41d8cd98f00b204e9800998ecf8427e" exampleFile)) := by
    decide
  obtain ⟨c, run, seen⟩ := Machine.run_of_play anything_sent played
  obtain ⟨here, sends⟩ := Prod.mk.inj seen
  have lands : (Request.putArchive "exports/10.zip" "d41d8cd98f00b204e9800998ecf8427e"
      exampleFile).refusal exampleOps c.db.objects = none := by
    simp only [Request.refusal, here]
    decide
  obtain ⟨o, there, own⟩ := claim exampleCalls exampleStart c false _ exampleStart_start run sends
    rfl lands
  cases here.symm.trans there
  exact absurd own (by decide)

end SaasTemplate.Storage

import Mathlib.Data.List.Sort
import SaasTemplate.Basics

/-! # Consent and processing authorisations

Purposes, authorisations and consents as the governance service reads and writes them, and
what `assert_processing_allowed` says after any sequence of grants, withdrawals and manual
authorisations. The decision looks for an authorisation that is valid at the time and for a
consent that is not withdrawn; it compares neither the time of the consent nor the two with
each other.
-/

namespace SaasTemplate.Privacy

inductive LawfulBasis where
  | consent | contract | legalObligation | vitalInterests | publicTask | legitimateInterests
  | recognisedLegitimateInterests
  deriving DecidableEq, Repr

inductive SpecialCategoryCondition where
  | explicitConsent | employmentSocialSecuritySocialProtection | vitalInterests | nonprofitBody
  | manifestlyPublic | legalClaims | substantialPublicInterest | regulatedServiceProvision
  | publicInterestSafeguarding | archivingResearchStatistics
  deriving DecidableEq, Repr

inductive ProcessingPurposeFamily where
  | account | invite | audit | marketing | productAnalytics | regulatedServiceDelivery
  | legalCompliance
  deriving DecidableEq, Repr

inductive GovernanceError where
  | configuration (detail : String)
  | processingDenied (detail : String)
  | integrity
  deriving DecidableEq, Repr

structure ProcessingPurpose where
  id : Uuid
  code : String
  family : ProcessingPurposeFamily
  defaultLawfulBasis : LawfulBasis
  isSpecialCategory : Bool
  defaultSpecialCategoryCondition : Option SpecialCategoryCondition
  requiresActiveConsent : Bool
  active : Bool
  deriving DecidableEq, Repr

structure DataProcessingAuthorization where
  id : Uuid
  subjectUserId : Uuid
  purposeId : Uuid
  lawfulBasis : LawfulBasis
  specialCategoryCondition : Option SpecialCategoryCondition
  active : Bool
  validFrom : Time
  validUntil : Option Time
  revokedAt : Option Time
  source : Option String
  deriving DecidableEq, Repr

structure ConsentRecord where
  id : Uuid
  subjectUserId : Uuid
  purposeId : Uuid
  authorizationId : Option Uuid
  privacyNoticeVersion : String
  grantedAt : Time
  withdrawnAt : Option Time
  withdrawalReasonCode : Option String
  deriving DecidableEq, Repr

/-- `text.replace(" ", "_")`. -/
def replaceSpaces (text : String) : String :=
  String.ofList (text.toList.map fun c => if c = ' ' then '_' else c)

/-- `_normalise_code`. -/
def normaliseCode (ops : TextOps) (code : String) : Except GovernanceError String :=
  let value := replaceSpaces (ops.lower (ops.strip code))
  if value = "" then .error (.configuration "Processing purpose code is required") else .ok value

/-- The purposes, with their unique codes as `register_processing_purpose` stores them. -/
structure ProcessingPurposes (ops : TextOps) where
  rows : List ProcessingPurpose
  unique : ∀ p ∈ rows, ∀ q ∈ rows, p.code = q.code ∨ p.id = q.id → p = q
  normal : ∀ p ∈ rows, normaliseCode ops p.code = .ok p.code

structure GovernanceDb (ops : TextOps) where
  users : List Uuid
  purposes : ProcessingPurposes ops
  authorizations : List DataProcessingAuthorization
  consents : List ConsentRecord

namespace GovernanceDb

variable {ops : TextOps}

/-- `get_processing_purpose_by_code`. -/
def getProcessingPurposeByCode (code : String) (db : GovernanceDb ops) : Option ProcessingPurpose :=
  db.purposes.rows.find? (·.code == code)

/-- `_get_active_purpose`. -/
def getActivePurpose (purposeCode : String) (db : GovernanceDb ops) :
    Except GovernanceError ProcessingPurpose := do
  let code ← normaliseCode ops purposeCode
  match db.getProcessingPurposeByCode code with
  | some purpose =>
      if purpose.active then pure purpose
      else throw (.configuration "Processing purpose is not configured")
  | none => throw (.configuration "Processing purpose is not configured")

/-- `_resolve_special_category_condition`. -/
def resolveSpecialCategoryCondition (purpose : ProcessingPurpose)
    (condition : Option SpecialCategoryCondition) :
    Except GovernanceError (Option SpecialCategoryCondition) :=
  match condition, purpose.defaultSpecialCategoryCondition with
  | some condition, _ => .ok (some condition)
  | none, some condition => .ok (some condition)
  | none, none =>
      if purpose.isSpecialCategory then
        .error (.configuration "Special-category processing requires an Article 9 condition")
      else .ok none

/-- `_assert_not_generic_consent_for_regulated_purpose`. -/
def assertNotGenericConsent (target : ProcessingPurpose) (sourceCode : Option String)
    (db : GovernanceDb ops) : Except GovernanceError Unit := do
  if target.family ≠ .regulatedServiceDelivery then return
  match sourceCode with
  | none => return
  | some code =>
      match db.getProcessingPurposeByCode (← normaliseCode ops code) with
      | none => throw (.configuration "Consent source purpose is not configured")
      | some source =>
          if source.family = .marketing ∨ source.family = .productAnalytics then
            throw (.configuration ("Regulated-service processing cannot rely on generic marketing " ++
              "or product analytics consent"))

/-- `create_authorization`: the insert of a row with a new id for an existing user. -/
def insertAuthorization (a : DataProcessingAuthorization) (db : GovernanceDb ops) :
    Except GovernanceError (GovernanceDb ops) :=
  if a.subjectUserId ∈ db.users ∧ a.id ∉ db.authorizations.map (·.id) then
    .ok { db with authorizations := db.authorizations ++ [a] }
  else .error .integrity

/-- `create_consent_record`. -/
def insertConsent (c : ConsentRecord) (db : GovernanceDb ops) :
    Except GovernanceError (GovernanceDb ops) :=
  if c.subjectUserId ∈ db.users ∧ c.id ∉ db.consents.map (·.id) then
    .ok { db with consents := db.consents ++ [c] }
  else .error .integrity

/-- The arguments of `create_processing_authorization`, with the id the row gets. -/
structure NewAuthorization where
  id : Uuid
  subjectUserId : Uuid
  purposeCode : String
  lawfulBasis : Option LawfulBasis
  specialCategoryCondition : Option SpecialCategoryCondition
  validFrom : Option Time
  validUntil : Option Time
  source : Option String
  consentSourcePurposeCode : Option String
  deriving Repr

def createProcessingAuthorization (clock : Time) (args : NewAuthorization) (db : GovernanceDb ops) :
    Except GovernanceError (GovernanceDb ops) := do
  let purpose ← db.getActivePurpose args.purposeCode
  let basis := args.lawfulBasis.getD purpose.defaultLawfulBasis
  let condition ← resolveSpecialCategoryCondition purpose args.specialCategoryCondition
  if purpose.requiresActiveConsent ∧ basis ≠ .consent then
    throw (.configuration "This purpose requires consent as its lawful basis")
  db.assertNotGenericConsent purpose args.consentSourcePurposeCode
  db.insertAuthorization {
    id := args.id
    subjectUserId := args.subjectUserId
    purposeId := purpose.id
    lawfulBasis := basis
    specialCategoryCondition := condition
    active := true
    validFrom := args.validFrom.getD clock
    validUntil := args.validUntil
    revokedAt := none
    source := args.source }

/-- The arguments of `grant_consent`, with the ids of the two rows. -/
structure Grant where
  authorizationId : Uuid
  consentId : Uuid
  subjectUserId : Uuid
  purposeCode : String
  privacyNoticeVersion : String
  grantedAt : Option Time
  specialCategoryCondition : Option SpecialCategoryCondition
  consentSourcePurposeCode : Option String
  deriving Repr

def grantConsent (clock : Time) (args : Grant) (db : GovernanceDb ops) :
    Except GovernanceError (GovernanceDb ops) := do
  let referenceNow := args.grantedAt.getD clock
  let purpose ← db.getActivePurpose args.purposeCode
  let db ← db.createProcessingAuthorization clock {
    id := args.authorizationId
    subjectUserId := args.subjectUserId
    purposeCode := purpose.code
    lawfulBasis := some .consent
    specialCategoryCondition := args.specialCategoryCondition
    validFrom := some referenceNow
    validUntil := none
    source := some "consent_record"
    consentSourcePurposeCode := args.consentSourcePurposeCode }
  db.insertConsent {
    id := args.consentId
    subjectUserId := args.subjectUserId
    purposeId := purpose.id
    authorizationId := some args.authorizationId
    privacyNoticeVersion := args.privacyNoticeVersion
    grantedAt := referenceNow
    withdrawnAt := none
    withdrawalReasonCode := none }

end GovernanceDb

/-- A consent of the subject for the purpose that is not withdrawn. -/
def ConsentRecord.isActiveFor (subject purpose : Uuid) (c : ConsentRecord) : Bool :=
  c.subjectUserId == subject && c.purposeId == purpose && c.withdrawnAt.isNone

/-- The consent update of `withdraw_active_consents`. -/
def ConsentRecord.withdraw (subject purpose : Uuid) (withdrawnAt : Time) (reason : Option String)
    (c : ConsentRecord) : ConsentRecord :=
  if c.isActiveFor subject purpose then
    { c with withdrawnAt := some withdrawnAt, withdrawalReasonCode := reason }
  else c

namespace DataProcessingAuthorization

/-- The authorisation update of `withdraw_active_consents`. -/
def revoke (subject purpose : Uuid) (withdrawnAt : Time) (a : DataProcessingAuthorization) :
    DataProcessingAuthorization :=
  if a.subjectUserId == subject && a.purposeId == purpose && a.lawfulBasis == .consent &&
      a.active && a.revokedAt.isNone then
    { a with active := false, revokedAt := some withdrawnAt }
  else a

/-- In force at `now`: active, not revoked, and within its validity interval. -/
def validAt (now : Time) (a : DataProcessingAuthorization) : Bool :=
  a.active && a.revokedAt.isNone && a.validFrom ≤ now && a.validUntil.all (now < ·)

end DataProcessingAuthorization

namespace GovernanceDb

variable {ops : TextOps}

/-- `withdraw_consent`, at the current clock. -/
def withdrawConsent (clock : Time) (subject : Uuid) (purposeCode : String) (reason : Option String)
    (db : GovernanceDb ops) : Except GovernanceError (GovernanceDb ops) := do
  let purpose ← db.getActivePurpose purposeCode
  return { db with
    consents := db.consents.map (·.withdraw subject purpose.id clock reason)
    authorizations := db.authorizations.map (·.revoke subject purpose.id clock) }

/-- `list_active_authorizations`. -/
def listActiveAuthorizations (subject : Uuid) (purposeCode : String) (now : Time)
    (db : GovernanceDb ops) : List DataProcessingAuthorization :=
  (db.authorizations.filter fun a => a.subjectUserId == subject &&
    (db.purposes.rows.any fun p => p.id == a.purposeId && p.code == purposeCode && p.active) &&
    a.validAt now).insertionSort fun a b => b.validFrom ≤ a.validFrom

/-- `get_active_consent`. -/
def getActiveConsent (subject purpose : Uuid) (db : GovernanceDb ops) : Option ConsentRecord :=
  ((db.consents.filter (·.isActiveFor subject purpose)).insertionSort
    fun a b => b.grantedAt ≤ a.grantedAt).head?

/-- The loop of `assert_processing_allowed`. -/
def firstAllowed (activeConsent : Option ConsentRecord) :
    List DataProcessingAuthorization → Option DataProcessingAuthorization
  | [] => none
  | a :: rest =>
      if a.lawfulBasis = .consent then
        if activeConsent.isSome then some a else firstAllowed activeConsent rest
      else some a

def assertProcessingAllowed (subject : Uuid) (purposeCode : String) (now : Time)
    (db : GovernanceDb ops) : Except GovernanceError DataProcessingAuthorization := do
  let purpose ← db.getActivePurpose purposeCode
  match firstAllowed (db.getActiveConsent subject purpose.id)
      (db.listActiveAuthorizations subject purpose.code now) with
  | some a => pure a
  | none => throw (.processingDenied
      ("Processing is not allowed for purpose '" ++ purpose.code ++ "'"))

end GovernanceDb

/-! ## Sequences of calls -/

inductive GovernanceCall where
  | grantConsent (clock : Time) (args : GovernanceDb.Grant)
  | withdrawConsent (clock : Time) (subject : Uuid) (purposeCode : String) (reason : Option String)
  | createProcessingAuthorization (clock : Time) (args : GovernanceDb.NewAuthorization)
  deriving Repr

namespace GovernanceDb

variable {ops : TextOps}

def execute (db : GovernanceDb ops) : GovernanceCall → Except GovernanceError (GovernanceDb ops)
  | .grantConsent clock args => db.grantConsent clock args
  | .withdrawConsent clock subject purposeCode reason =>
      db.withdrawConsent clock subject purposeCode reason
  | .createProcessingAuthorization clock args => db.createProcessingAuthorization clock args

/-- One call in a transaction of its own: a call that raises leaves no trace. -/
def call (db : GovernanceDb ops) (c : GovernanceCall) : GovernanceDb ops :=
  match db.execute c with
  | .ok db' => db'
  | .error _ => db

def calls (cs : List GovernanceCall) (db : GovernanceDb ops) : GovernanceDb ops :=
  cs.foldl call db

end GovernanceDb

end SaasTemplate.Privacy

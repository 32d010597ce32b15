import SaasTemplate.Privacy.Governance

/-! # What the consent gate decides

Every consent that is not withdrawn keeps the authorisation it was granted with, so a consent
is in effect from its own time on. The gate agrees with that except where a manual
authorisation runs ahead of consents that are all still to come.
-/

namespace SaasTemplate.Privacy.GovernanceDb

variable {ops : TextOps} {db db' : GovernanceDb ops} {purpose : ProcessingPurpose}

/-! ## What a call does -/

theorem getActivePurpose_ok {code : String} (h : db.getActivePurpose code = .ok purpose) :
    purpose ∈ db.purposes.rows ∧ purpose.active = true := by
  simp only [getActivePurpose, bind, Except.bind] at h
  split at h
  · cases h
  · rename_i code' _
    cases found : db.getProcessingPurposeByCode code' with
    | none => rw [found] at h; cases h
    | some p =>
        rw [found] at h
        simp only at h
        split at h
        · rename_i active
          cases h
          exact ⟨List.mem_of_find?_eq_some found, active⟩
        · cases h

/-- A purpose that is looked up again by its own code is found again. -/
theorem getActivePurpose_code (member : purpose ∈ db.purposes.rows) (active : purpose.active = true) :
    db.getActivePurpose purpose.code = .ok purpose := by
  have found : db.getProcessingPurposeByCode purpose.code = some purpose := by
    obtain ⟨p, is⟩ : ∃ p, db.purposes.rows.find? (·.code == purpose.code) = some p :=
      Option.isSome_iff_exists.mp (List.find?_isSome.mpr ⟨purpose, member, by simp⟩)
    have same : p.code = purpose.code := by simpa using List.find?_some is
    rw [getProcessingPurposeByCode, is,
      db.purposes.unique p (List.mem_of_find?_eq_some is) purpose member (.inl same)]
  simp only [getActivePurpose, db.purposes.normal purpose member, bind, Except.bind, found, active,
    if_true, pure, Except.pure]

theorem insertAuthorization_ok {a : DataProcessingAuthorization}
    (h : db.insertAuthorization a = .ok db') :
    db' = { db with authorizations := db.authorizations ++ [a] } := by
  unfold insertAuthorization at h
  split at h
  · cases h
    rfl
  · cases h

theorem insertConsent_ok {c : ConsentRecord} (h : db.insertConsent c = .ok db') :
    db' = { db with consents := db.consents ++ [c] } := by
  unfold insertConsent at h
  split at h
  · cases h
    rfl
  · cases h

theorem createProcessingAuthorization_ok {clock : Time} {args : NewAuthorization}
    (h : db.createProcessingAuthorization clock args = .ok db') :
    ∃ purpose condition, db.getActivePurpose args.purposeCode = .ok purpose ∧
      db' = { db with authorizations := db.authorizations ++ [{
        id := args.id
        subjectUserId := args.subjectUserId
        purposeId := purpose.id
        lawfulBasis := args.lawfulBasis.getD purpose.defaultLawfulBasis
        specialCategoryCondition := condition
        active := true
        validFrom := args.validFrom.getD clock
        validUntil := args.validUntil
        revokedAt := none
        source := args.source }] } := by
  simp only [createProcessingAuthorization, bind, Except.bind] at h
  cases found : db.getActivePurpose args.purposeCode with
  | error error => rw [found] at h; cases h
  | ok purpose =>
      rw [found] at h
      simp only at h
      cases resolved : resolveSpecialCategoryCondition purpose args.specialCategoryCondition with
      | error error => rw [resolved] at h; cases h
      | ok condition =>
          rw [resolved] at h
          simp only at h
          split at h
          · cases h
          · cases checked : db.assertNotGenericConsent purpose args.consentSourcePurposeCode with
            | error error => rw [checked] at h; cases h
            | ok _ =>
                rw [checked] at h
                exact ⟨purpose, condition, rfl, insertAuthorization_ok h⟩

/-- A grant writes a consent and, valid from the same instant on, its authorisation. -/
theorem grantConsent_ok {clock : Time} {args : Grant} (h : db.grantConsent clock args = .ok db') :
    ∃ purpose a c, db' = { db with
        authorizations := db.authorizations ++ [a], consents := db.consents ++ [c] } ∧
      c.subjectUserId = args.subjectUserId ∧ c.purposeId = purpose ∧
      c.authorizationId = some a.id ∧ a.subjectUserId = args.subjectUserId ∧
      a.purposeId = purpose ∧ a.lawfulBasis = .consent ∧ a.active = true ∧
      a.revokedAt = none ∧ a.validFrom = c.grantedAt ∧ a.validUntil = none := by
  simp only [grantConsent, bind, Except.bind] at h
  cases found : db.getActivePurpose args.purposeCode with
  | error error => rw [found] at h; cases h
  | ok purpose =>
      rw [found] at h
      simp only at h
      split at h
      · cases h
      · rename_i authorised created
        obtain ⟨same, condition, again, rfl⟩ := createProcessingAuthorization_ok created
        obtain ⟨member, active⟩ := getActivePurpose_ok found
        rw [getActivePurpose_code member active] at again
        cases again
        exact ⟨purpose.id, _, _, insertConsent_ok h, rfl, rfl, rfl, rfl, rfl, rfl, rfl, rfl, rfl, rfl⟩

theorem withdrawConsent_ok {clock : Time} {subject : Uuid} {purposeCode : String}
    {reason : Option String} (h : db.withdrawConsent clock subject purposeCode reason = .ok db') :
    ∃ purpose : Uuid, db' = { db with
      consents := db.consents.map (·.withdraw subject purpose clock reason)
      authorizations := db.authorizations.map (·.revoke subject purpose clock) } := by
  simp only [withdrawConsent, bind, Except.bind] at h
  split at h
  · cases h
  · cases h
    exact ⟨_, rfl⟩

/-! ## Consents keep their authorisations -/

/-- `a` is the authorisation that `c` was granted with, still as it was then. -/
structure Grants (subject purpose : Uuid) (c : ConsentRecord) (a : DataProcessingAuthorization) :
    Prop where
  own : c.authorizationId = some a.id
  subject : a.subjectUserId = subject
  purpose : a.purposeId = purpose
  basis : a.lawfulBasis = .consent
  active : a.active = true
  unrevoked : a.revokedAt = none
  starts : a.validFrom = c.grantedAt
  unlimited : a.validUntil = none

/-- Every consent of the subject for the purpose that is not withdrawn has its authorisation. -/
def Linked (subject purpose : Uuid) (db : GovernanceDb ops) : Prop :=
  ∀ c ∈ db.consents, c.isActiveFor subject purpose = true →
    ∃ a ∈ db.authorizations, Grants subject purpose c a

variable {subject purposeId : Uuid}

theorem Linked.authorize (linked : db.Linked subject purposeId) (a : DataProcessingAuthorization) :
    Linked subject purposeId { db with authorizations := db.authorizations ++ [a] } := by
  intro c member active
  obtain ⟨own, here, grants⟩ := linked c member active
  exact ⟨own, List.mem_append_left _ here, grants⟩

theorem Linked.grant (linked : db.Linked subject purposeId) {a : DataProcessingAuthorization}
    {c : ConsentRecord} (grants : c.isActiveFor subject purposeId = true →
      Grants subject purposeId c a) :
    Linked subject purposeId { db with
      authorizations := db.authorizations ++ [a], consents := db.consents ++ [c] } := by
  intro c' member active
  rcases List.mem_append.mp member with old | new
  · exact linked.authorize a c' old active
  · cases List.mem_singleton.mp new
    exact ⟨a, List.mem_append_right _ List.mem_cons_self, grants active⟩

/-- Only a consent that the withdrawal passed over is active after it. -/
theorem withdraw_active {subject' purpose' : Uuid} {clock : Time} {reason : Option String}
    {c : ConsentRecord}
    (h : (c.withdraw subject' purpose' clock reason).isActiveFor subject purposeId = true) :
    c.isActiveFor subject' purpose' = false ∧
      c.withdraw subject' purpose' clock reason = c := by
  unfold ConsentRecord.withdraw at h ⊢
  split
  · rename_i active
    rw [if_pos active] at h
    simp [ConsentRecord.isActiveFor] at h
  · rename_i passed
    exact ⟨by simpa using passed, rfl⟩

theorem Linked.withdraw (linked : db.Linked subject purposeId) (subject' purpose' : Uuid)
    (clock : Time) (reason : Option String) :
    Linked subject purposeId { db with
      consents := db.consents.map (·.withdraw subject' purpose' clock reason)
      authorizations := db.authorizations.map (·.revoke subject' purpose' clock) } := by
  intro c' member active
  obtain ⟨c, here, rfl⟩ := List.mem_map.mp member
  obtain ⟨passed, same⟩ := withdraw_active active
  rw [same] at active ⊢
  obtain ⟨a, own, grants⟩ := linked c here active
  -- the withdrawal was for another subject or purpose, or the consent would be withdrawn
  have other : ¬(subject' = subject ∧ purpose' = purposeId) := by
    rintro ⟨rfl, rfl⟩
    rw [active] at passed
    cases passed
  have kept : a.revoke subject' purpose' clock = a := by
    unfold DataProcessingAuthorization.revoke
    refine if_neg fun revoked => other ?_
    simp only [Bool.and_eq_true, beq_iff_eq, grants.subject, grants.purpose] at revoked
    exact ⟨revoked.1.1.1.1.symm, revoked.1.1.1.2.symm⟩
  exact ⟨a, List.mem_map.mpr ⟨a, own, kept⟩, grants⟩

theorem Linked.call (linked : db.Linked subject purposeId) (c : GovernanceCall) :
    (db.call c).Linked subject purposeId := by
  unfold GovernanceDb.call
  cases done : db.execute c with
  | error error => exact linked
  | ok db' =>
      cases c with
      | grantConsent clock args =>
          obtain ⟨purpose, a, consent, rfl, is, for_, own, who, what, basis, active, unrevoked,
            starts, unlimited⟩ := grantConsent_ok done
          refine linked.grant fun current => ?_
          simp only [ConsentRecord.isActiveFor, Bool.and_eq_true, beq_iff_eq] at current
          exact ⟨own, by rw [who, ← is, current.1.1], by rw [what, ← for_, current.1.2], basis,
            active, unrevoked, starts, unlimited⟩
      | withdrawConsent clock who code reason =>
          obtain ⟨purpose, rfl⟩ := withdrawConsent_ok done
          exact linked.withdraw who purpose clock reason
      | createProcessingAuthorization clock args =>
          obtain ⟨purpose, condition, -, rfl⟩ := createProcessingAuthorization_ok done
          exact linked.authorize _

theorem Linked.calls (linked : db.Linked subject purposeId) (cs : List GovernanceCall) :
    (db.calls cs).Linked subject purposeId := by
  induction cs generalizing db with
  | nil => exact linked
  | cons c cs ih => exact ih (linked.call c)

/-- No call changes the purposes. -/
theorem purposes_call (db : GovernanceDb ops) (c : GovernanceCall) :
    (db.call c).purposes = db.purposes := by
  unfold GovernanceDb.call
  cases done : db.execute c with
  | error error => rfl
  | ok db' =>
      cases c with
      | grantConsent clock args =>
          obtain ⟨_, _, _, rfl, -⟩ := grantConsent_ok done
          rfl
      | withdrawConsent clock who code reason =>
          obtain ⟨_, rfl⟩ := withdrawConsent_ok done
          rfl
      | createProcessingAuthorization clock args =>
          obtain ⟨_, _, -, rfl⟩ := createProcessingAuthorization_ok done
          rfl

theorem purposes_calls (db : GovernanceDb ops) (cs : List GovernanceCall) :
    (db.calls cs).purposes = db.purposes := by
  induction cs generalizing db with
  | nil => rfl
  | cons c cs ih => exact (ih (db.call c)).trans (purposes_call db c)

/-! ## The decision -/

/-- The subject has authorisations for the purpose on the basis of consent only. -/
def OnlyConsentBasis (subject purpose : Uuid) (db : GovernanceDb ops) : Prop :=
  ∀ a ∈ db.authorizations, a.subjectUserId = subject → a.purposeId = purpose →
    a.lawfulBasis = .consent

/-- Some authorisation of the subject for the purpose is valid at `t`. -/
def Authorised (subject purpose : Uuid) (t : Time) (db : GovernanceDb ops) : Prop :=
  ∃ a ∈ db.authorizations, a.subjectUserId = subject ∧ a.purposeId = purpose ∧
    a.validAt t = true

/-- A consent that is not withdrawn, granted by `t`, whose own authorisation is valid at `t`. -/
def ConsentInEffect (subject purpose : Uuid) (t : Time) (db : GovernanceDb ops) : Prop :=
  ∃ c ∈ db.consents, c.isActiveFor subject purpose = true ∧ c.grantedAt ≤ t ∧
    ∃ a ∈ db.authorizations, c.authorizationId = some a.id ∧ a.validAt t = true

/-- An authorisation is valid at `t`, and the consents that are not withdrawn are all granted
    after `t`. -/
def AheadOfConsent (subject purpose : Uuid) (t : Time) (db : GovernanceDb ops) : Prop :=
  db.Authorised subject purpose t ∧ (∃ c ∈ db.consents, c.isActiveFor subject purpose = true) ∧
    ∀ c ∈ db.consents, c.isActiveFor subject purpose = true → t < c.grantedAt

/-- `assert_processing_allowed` succeeds at `t` exactly when a consent is in effect. -/
def ConsentGates (subject : Uuid) (purpose : ProcessingPurpose) (purposeCode : String) (t : Time)
    (db : GovernanceDb ops) : Prop :=
  (∃ a, db.assertProcessingAllowed subject purposeCode t = .ok a) ↔
    db.ConsentInEffect subject purpose.id t

theorem firstAllowed_isSome {consent : Option ConsentRecord}
    {authorizations : List DataProcessingAuthorization}
    (basis : ∀ a ∈ authorizations, a.lawfulBasis = .consent) :
    (firstAllowed consent authorizations).isSome = true ↔
      consent.isSome = true ∧ authorizations ≠ [] := by
  induction authorizations with
  | nil => simp [firstAllowed]
  | cons a rest ih =>
      have others := ih fun b member => basis b (List.mem_cons_of_mem a member)
      cases consent with
      | none => simpa [firstAllowed, basis a List.mem_cons_self] using others
      | some c => simp [firstAllowed, basis a List.mem_cons_self]

theorem getActiveConsent_isSome :
    (db.getActiveConsent subject purposeId).isSome = true ↔
      ∃ c ∈ db.consents, c.isActiveFor subject purposeId = true := by
  rw [getActiveConsent, List.isSome_head?, List.ne_nil_iff_length_pos, List.length_pos_iff_exists_mem]
  simp only [List.mem_insertionSort, List.mem_filter]

theorem mem_listActiveAuthorizations {t : Time} (member : purpose ∈ db.purposes.rows)
    (active : purpose.active = true) {a : DataProcessingAuthorization} :
    a ∈ db.listActiveAuthorizations subject purpose.code t ↔
      a ∈ db.authorizations ∧ a.subjectUserId = subject ∧ a.purposeId = purpose.id ∧
        a.validAt t = true := by
  have joined : (db.purposes.rows.any fun p => p.id == a.purposeId && p.code == purpose.code &&
      p.active) = true ↔ a.purposeId = purpose.id := by
    simp only [List.any_eq_true, Bool.and_eq_true, beq_iff_eq]
    constructor
    · rintro ⟨p, here, ⟨id, code⟩, -⟩
      rw [← id, db.purposes.unique p here purpose member (.inl code)]
    · intro id
      exact ⟨purpose, member, ⟨id.symm, rfl⟩, active⟩
  simp only [listActiveAuthorizations, List.mem_insertionSort, List.mem_filter, Bool.and_eq_true,
    beq_iff_eq, joined, and_assoc]

/-- With authorisations on the basis of consent only, the gate asks for one that is valid and
    for any consent that is not withdrawn. -/
theorem assertProcessingAllowed_iff {purposeCode : String} {t : Time}
    (found : db.getActivePurpose purposeCode = .ok purpose)
    (basis : db.OnlyConsentBasis subject purpose.id) :
    (∃ a, db.assertProcessingAllowed subject purposeCode t = .ok a) ↔
      db.Authorised subject purpose.id t ∧
        ∃ c ∈ db.consents, c.isActiveFor subject purpose.id = true := by
  obtain ⟨member, active⟩ := getActivePurpose_ok found
  have listed : ∀ a, a ∈ db.listActiveAuthorizations subject purpose.code t ↔ _ := fun _ =>
    mem_listActiveAuthorizations member active
  have allowed : (firstAllowed (db.getActiveConsent subject purpose.id)
      (db.listActiveAuthorizations subject purpose.code t)).isSome = true ↔ _ :=
    firstAllowed_isSome fun a here =>
      basis a ((listed a).mp here).1 ((listed a).mp here).2.1 ((listed a).mp here).2.2.1
  have authorised : db.listActiveAuthorizations subject purpose.code t ≠ [] ↔
      db.Authorised subject purpose.id t := by
    rw [List.ne_nil_iff_length_pos, List.length_pos_iff_exists_mem]
    exact exists_congr listed
  rw [getActiveConsent_isSome, authorised] at allowed
  rw [and_comm, ← allowed]
  simp only [assertProcessingAllowed, found, bind, Except.bind]
  cases firstAllowed (db.getActiveConsent subject purpose.id)
      (db.listActiveAuthorizations subject purpose.code t) with
  | none => simp [throw, throwThe, MonadExceptOf.throw]
  | some a => simp [pure, Except.pure]

/-- A consent with its authorisation is in effect from its own time on. -/
theorem Linked.consentInEffect_iff (linked : db.Linked subject purposeId) {t : Time} :
    db.ConsentInEffect subject purposeId t ↔
      ∃ c ∈ db.consents, c.isActiveFor subject purposeId = true ∧ c.grantedAt ≤ t := by
  constructor
  · rintro ⟨c, member, active, granted, -⟩
    exact ⟨c, member, active, granted⟩
  · rintro ⟨c, member, active, granted⟩
    obtain ⟨a, here, grants⟩ := linked c member active
    refine ⟨c, member, active, granted, a, here, grants.own, ?_⟩
    simp [DataProcessingAuthorization.validAt, grants.active, grants.unrevoked, grants.starts,
      grants.unlimited, granted]

theorem Linked.authorised (linked : db.Linked subject purposeId) {t : Time}
    (effect : db.ConsentInEffect subject purposeId t) : db.Authorised subject purposeId t := by
  obtain ⟨c, member, active, granted⟩ := linked.consentInEffect_iff.mp effect
  obtain ⟨a, here, grants⟩ := linked c member active
  refine ⟨a, here, grants.subject, grants.purpose, ?_⟩
  simp [DataProcessingAuthorization.validAt, grants.active, grants.unrevoked, grants.starts,
    grants.unlimited, granted]

theorem consentGates_iff_of_linked {purposeCode : String} {t : Time}
    (found : db.getActivePurpose purposeCode = .ok purpose)
    (basis : db.OnlyConsentBasis subject purpose.id) (linked : db.Linked subject purpose.id) :
    db.ConsentGates subject purpose purposeCode t ↔ ¬db.AheadOfConsent subject purpose.id t := by
  rw [ConsentGates, assertProcessingAllowed_iff found basis]
  constructor
  · rintro gates ⟨authorised, current, later⟩
    obtain ⟨c, member, active, granted⟩ :=
      linked.consentInEffect_iff.mp (gates.mp ⟨authorised, current⟩)
    exact Int.not_le.mpr (later c member active) granted
  · intro fine
    refine ⟨fun ⟨authorised, current⟩ => ?_, fun effect => ⟨linked.authorised effect, ?_⟩⟩
    · by_contra without
      refine fine ⟨authorised, current, fun c member active => ?_⟩
      by_contra granted
      exact without (linked.consentInEffect_iff.mpr ⟨c, member, active, Int.not_lt.mp granted⟩)
    · obtain ⟨c, member, active, -⟩ := effect
      exact ⟨c, member, active⟩

theorem getActivePurpose_congr {db₁ db₂ : GovernanceDb ops} (same : db₂.purposes = db₁.purposes)
    (purposeCode : String) : db₂.getActivePurpose purposeCode = db₁.getActivePurpose purposeCode := by
  simp only [getActivePurpose, getProcessingPurposeByCode, same]

/-- After any sequence of calls the gate is right at `t`, unless an authorisation on the basis
    of consent is valid at `t` and the consents that are not withdrawn are all granted later. -/
theorem consent_gates_iff (start : GovernanceDb ops) (cs : List GovernanceCall) (subject : Uuid)
    (purposeCode : String) (purpose : ProcessingPurpose) (t : Time)
    (found : start.getActivePurpose purposeCode = .ok purpose)
    (fresh : ∀ c ∈ start.consents, c.isActiveFor subject purpose.id = false)
    (basis : (start.calls cs).OnlyConsentBasis subject purpose.id) :
    (start.calls cs).ConsentGates subject purpose purposeCode t ↔
      ¬(start.calls cs).AheadOfConsent subject purpose.id t := by
  have linked : start.Linked subject purpose.id := by
    intro c member active
    rw [fresh c member] at active
    cases active
  refine consentGates_iff_of_linked ?_ basis (linked.calls cs)
  rwa [getActivePurpose_congr (purposes_calls start cs)]

/-! ## A manual authorisation and a consent for next week -/

def newsletter : ProcessingPurpose where
  id := 1
  code := "newsletter"
  family := .marketing
  defaultLawfulBasis := .consent
  isSpecialCategory := false
  defaultSpecialCategoryCondition := none
  requiresActiveConsent := true
  active := true

def newsletterDb : GovernanceDb plainText where
  users := [7]
  purposes := {
    rows := [newsletter]
    unique := by decide
    normal := by decide }
  authorizations := []
  consents := []

/-- A grant that takes effect at 10, and a manual authorisation that is valid from 0 on. -/
def grantAhead : List GovernanceCall :=
  [.grantConsent 0 ⟨1, 1, 7, "newsletter", "v1", some 10, none, none⟩,
   .createProcessingAuthorization 0 ⟨2, 7, "newsletter", some .consent, none, none, none, none, none⟩]

theorem consent_gates_example :
    (newsletterDb.calls grantAhead).ConsentGates 7 newsletter "newsletter" 10 ↔
      ¬(newsletterDb.calls grantAhead).AheadOfConsent 7 newsletter.id 10 :=
  consent_gates_iff newsletterDb grantAhead 7 "newsletter" newsletter 10 (by decide) (by decide)
    (by unfold OnlyConsentBasis; decide)

/-- At 5 the consent is not yet in effect, and processing is allowed. -/
theorem allowed_ahead_of_consent :
    ¬ (∀ (start : GovernanceDb plainText) (cs : List GovernanceCall) (subject : Uuid)
      (purposeCode : String) (purpose : ProcessingPurpose) (t : Time),
      start.getActivePurpose purposeCode = .ok purpose →
      (∀ c ∈ start.consents, c.isActiveFor subject purpose.id = false) →
      (start.calls cs).OnlyConsentBasis subject purpose.id →
      (start.calls cs).ConsentGates subject purpose purposeCode t) := by
  intro gates
  have here := gates newsletterDb grantAhead 7 "newsletter" newsletter 5 (by decide) (by decide)
    (by unfold OnlyConsentBasis; decide)
  have allowed : ∃ a, (newsletterDb.calls grantAhead).assertProcessingAllowed 7 "newsletter" 5 =
      .ok a := ⟨⟨2, 7, 1, .consent, none, true, 0, none, none, none⟩, by rfl⟩
  obtain ⟨c, member, active, granted, -⟩ := here.mp allowed
  have later : ∀ c ∈ (newsletterDb.calls grantAhead).consents, 5 < c.grantedAt := by decide
  exact Int.not_le.mpr (later c member) granted

end SaasTemplate.Privacy.GovernanceDb

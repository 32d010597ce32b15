import SaasTemplate.Privacy.Model
import SaasTemplate.Storage.DownloadUrl

/-! # Download URLs of an artifact that expires

The service cuts the life of a URL to what is left of the artifact, in whole seconds at its
reading of the clock. The adapter adds that to a reading of its own.
-/

namespace SaasTemplate.Privacy.Downloads

open SaasTemplate.Storage.SignedUrl

/-- What the service reads of an artifact; times are in microseconds. -/
structure DownloadArtifact where
  status : ExportArtifactStatus
  expiresAt : Int
  storageKey : Option String
  deriving DecidableEq

structure DownloadSettings where
  enabled : Bool
  downloadUrlTtlSeconds : Int

inductive DownloadError where
  | conflict (detail : String)
  | storage (e : UrlError)

structure GeneratedExportDownloadUrl where
  url : List Char
  expiresInSeconds : Int

/-- `int((expires_at - now).total_seconds())`. -/
def remainingSeconds (expiresAt : Int) (now : Nat) : Int := (expiresAt - now).tdiv 1000000

/-- `ExportArtifactService.generate_download_url` up to the URL. `eligible` is what the check of
the request says, and the clock reads `now` for the service and `adapterNow` for the adapter. -/
def issueDownloadUrl (ops : SignOps) (secret : List UInt8) (settings : DownloadSettings)
    (artifact : DownloadArtifact) (eligible : Bool) (now adapterNow : Nat) :
    Except DownloadError GeneratedExportDownloadUrl :=
  if settings.enabled = false then .error (.conflict "Privacy export artifacts are disabled")
  else if artifact.status ≠ .ready then
    .error (.conflict "Export artifact is not available for download")
  else if eligible = false then
    .error (.conflict "Export artifact is no longer eligible for download")
  else if remainingSeconds artifact.expiresAt now ≤ 0 then
    .error (.conflict "Export artifact is expired")
  else
    match artifact.storageKey with
    | none => .error (.conflict "Export artifact is missing storage key")
    | some key =>
        let effectiveTtlSeconds :=
          min settings.downloadUrlTtlSeconds (remainingSeconds artifact.expiresAt now)
        match generateDownloadUrl ops secret key effectiveTtlSeconds adapterNow with
        | .error e => .error (.storage e)
        | .ok url => .ok ⟨url, effectiveTtlSeconds⟩

variable {ops : SignOps} {secret : List UInt8} {settings : DownloadSettings}
  {artifact : DownloadArtifact} {eligible : Bool} {now adapterNow : Nat}
  {download : GeneratedExportDownloadUrl}

/-- What a download that was issued says about its artifact. -/
theorem issueDownloadUrl_ok
    (issued : issueDownloadUrl ops secret settings artifact eligible now adapterNow = .ok download) :
    0 < remainingSeconds artifact.expiresAt now ∧
      ∃ key, generateDownloadUrl ops secret key (min settings.downloadUrlTtlSeconds
        (remainingSeconds artifact.expiresAt now)) adapterNow = .ok download.url := by
  unfold issueDownloadUrl at issued
  split at issued
  · cases issued
  split at issued
  · cases issued
  split at issued
  · cases issued
  split at issued
  · cases issued
  · rename_i left
    split at issued
    · cases issued
    · rename_i key _
      simp only [] at issued
      split at issued
      · cases issued
      · rename_i url generated
        obtain rfl := Except.ok.inj issued
        exact ⟨by omega, key, generated⟩

theorem remainingSeconds_eq {expiresAt : Int} (left : 0 < remainingSeconds expiresAt now) :
    remainingSeconds expiresAt now = (expiresAt - now) / 1000000 := by
  unfold remainingSeconds at left ⊢
  rcases Int.le_total 0 (expiresAt - now) with ahead | past
  · exact Int.tdiv_eq_ediv_of_nonneg ahead
  · have negated := Int.tdiv_nonneg (show 0 ≤ -(expiresAt - now) by omega) (show 0 ≤ 1000000 by decide)
    rw [Int.neg_tdiv] at negated
    omega

/-- The URL does not outlive the artifact. -/
structure EndsWith (ops : SignOps) (secret : List UInt8) (expiresAt : Int) (url : List Char) : Prop where
  encoded : ∃ expiry, encodedExpiry ops url = some expiry ∧ 1000000 * expiry ≤ expiresAt
  refused : ∀ (expected : String) (later : Nat), expiresAt ≤ later →
    verifyDownloadUrl ops secret url expected later = .ok false

/-- The adapter's second begins before the part of a second is over that the service cut off, or
the whole time to live of a URL still ends in time. -/
def ReadInTime (expiresAt ttl : Int) (now adapterNow : Nat) : Prop :=
  1000000 * (wholeSeconds adapterNow : Int) ≤ now + (expiresAt - now) % 1000000 ∨
    1000000 * (wholeSeconds adapterNow + ttl) ≤ expiresAt

theorem url_ends_with_artifact_iff
    (issued : issueDownloadUrl ops secret settings artifact eligible now adapterNow = .ok download) :
    EndsWith ops secret artifact.expiresAt download.url ↔
      ReadInTime artifact.expiresAt settings.downloadUrlTtlSeconds now adapterNow := by
  obtain ⟨left, key, generated⟩ := issueDownloadUrl_ok issued
  have whole := remainingSeconds_eq left
  generalize remainingSeconds artifact.expiresAt now = remaining at left generated whole
  have carries := encodedExpiry_generated generated
  obtain ⟨safeKey, valid, -⟩ := generateDownloadUrl_ok generated
  have inTime : 1000000 * (wholeSeconds adapterNow + min settings.downloadUrlTtlSeconds remaining) ≤
      artifact.expiresAt ↔
        ReadInTime artifact.expiresAt settings.downloadUrlTtlSeconds now adapterNow := by
    unfold ReadInTime
    omega
  rw [← inTime]
  constructor
  · intro ends
    obtain ⟨expiry, is, bound⟩ := ends.encoded
    obtain rfl := Option.some.inj (carries.symm.trans is)
    exact bound
  · intro bound
    refine ⟨⟨_, carries, bound⟩, fun expected later after => ?_⟩
    have elapsed : ¬ (wholeSeconds later : Int) <
        wholeSeconds adapterNow + min settings.downloadUrlTtlSeconds remaining := by
      unfold wholeSeconds at bound ⊢
      omega
    rw [verify_generated valid generated, decide_eq_false elapsed, Bool.and_false]

def exampleArtifact : DownloadArtifact := ⟨.ready, 10000000, some "a"⟩

theorem url_ends_with_artifact_example :
    ∃ download, issueDownloadUrl exampleSignOps [1] ⟨true, 900⟩ exampleArtifact true 0 0 = .ok download ∧
      (EndsWith exampleSignOps [1] 10000000 download.url ↔ ReadInTime 10000000 900 0 0) := by
  have returned : ∃ download,
      issueDownloadUrl exampleSignOps [1] ⟨true, 900⟩ exampleArtifact true 0 0 = .ok download := ⟨_, rfl⟩
  obtain ⟨download, issued⟩ := returned
  exact ⟨download, issued, url_ends_with_artifact_iff issued⟩

/-- Five seconds between the two readings make the URL of an artifact with ten seconds left live
five seconds too long. -/
theorem late_adapter_reading_outlives_artifact :
    ¬ ∀ (ops : SignOps) (secret : List UInt8) (settings : DownloadSettings)
      (artifact : DownloadArtifact) (eligible : Bool) (now adapterNow : Nat)
      (download : GeneratedExportDownloadUrl), now ≤ adapterNow →
      issueDownloadUrl ops secret settings artifact eligible now adapterNow = .ok download →
      EndsWith ops secret artifact.expiresAt download.url := by
  intro claim
  have ends := claim exampleSignOps [1] ⟨true, 900⟩ exampleArtifact true 0 5000000 _ (by decide) rfl
  obtain ⟨expiry, is, bound⟩ := ends.encoded
  have generated : generateDownloadUrl exampleSignOps [1] "a" 10 5000000 = .ok _ := rfl
  have carries := encodedExpiry_generated generated
  obtain rfl := Option.some.inj (carries.symm.trans is)
  exact absurd bound (by decide)

end SaasTemplate.Privacy.Downloads

import Mathlib.Data.List.Infix
import Mathlib.Data.List.TakeDrop
import SaasTemplate.Text.AsciiJson
import SaasTemplate.Text.Base64
import SaasTemplate.Text.CodePoints

/-! # Signed download URLs of the local adapter

A key is checked as a relative path, and the URL of a key carries the checked key with its
expiry, under a signature. A path is the list of its segments below the root, where no
segment is a symbolic link. The clock is read in microseconds since the epoch.
-/

namespace SaasTemplate.Storage.SignedUrl

open SaasTemplate.CodePoints (ofString strip)

inductive UrlError where
  | valueError (message : String)
  | typeError
  | attributeError
  deriving DecidableEq, Repr

/-- HMAC-SHA-256 in hexadecimal, and `int` of a JSON value that is no integer. -/
structure SignOps where
  hmacSha256Hex : List UInt8 → List UInt8 → List Char
  intOf : Json → Except UrlError Int
  hmac_hex : ∀ secret message, ∀ c ∈ hmacSha256Hex secret message,
    c.isDigit = true ∨ ('a' ≤ c ∧ c ≤ 'f')
  intOf_int : ∀ n, intOf (.int n) = .ok n

/-! ## Keys -/

/-- The segments of a path that `PurePosixPath` keeps. -/
def segments (key : String) : List String :=
  ((key.toList.splitOn '/').map String.ofList).filter fun s => s ≠ "" ∧ s ≠ "."

def isAbsolute (key : String) : Bool := key.toList.head? == some '/'

/-- `PurePosixPath(key).parts`. -/
def parts (key : String) : List String :=
  if isAbsolute key then "/" :: segments key else segments key

/-- `_validate_key`. -/
def validateKey (key : String) : Except UrlError String :=
  if strip (ofString key) = [] then .error (.valueError "Storage key must not be empty")
  else if ofString key ≠ strip (ofString key) then
    .error (.valueError "Storage key must not have surrounding whitespace")
  else if '\\' ∈ key.toList then .error (.valueError "Storage key must use forward slashes")
  else if ':' ∈ key.toList then
    .error (.valueError "Storage key must not contain drive or URI separators")
  else if ['/', '/'] <:+: key.toList then
    .error (.valueError "Storage key must not contain empty path segments")
  else if isAbsolute key = true ∨ parts key = [] ∨ ∃ part ∈ parts key, part ∈ ["", ".", ".."] then
    .error (.valueError "Invalid storage key")
  else .ok ("/".intercalate (parts key))

/-- `_resolve`, below the root. -/
def resolve (key : String) : Except UrlError (List String) := do
  let safeKey ← validateKey key
  if '\x00' ∈ safeKey.toList then .error (.valueError "lstat: embedded null character in path")
  else .ok (segments safeKey)

/-- The file that `get_bytes` reads. -/
def storedFile (isDir : List String → Bool) (target : List String) : List String :=
  if isDir target then target ++ ["object"] else target

/-! ## URLs -/

def utf8 (text : List Char) : List UInt8 := (String.ofList text).toByteArray.data.toList

def decodeUtf8 (data : List UInt8) : Option (List Char) :=
  (String.fromUTF8? ⟨data.toArray⟩).map String.toList

/-- `int(now.timestamp())`. -/
def wholeSeconds (now : Nat) : Nat := now / 1000000

def urlPrefix : List Char := "local://privacy-export/".toList

def payload (safeKey : String) (expiry : Int) : Json := .obj [("k", .str safeKey), ("exp", .int expiry)]

/-- `f"local://privacy-export/{payload_b64}.{signature}"`. -/
def signedUrl (ops : SignOps) (secret data : List UInt8) : List Char :=
  urlPrefix ++ (Base64.encode data ++ '.' :: ops.hmacSha256Hex secret data)

/-- The adapter's `generate_download_url`, where the clock reads `now`. -/
def generateDownloadUrl (ops : SignOps) (secret : List UInt8) (key : String)
    (expiresInSeconds : Int) (now : Nat) : Except UrlError (List Char) :=
  (validateKey key).map fun safeKey =>
    signedUrl ops secret
      (utf8 (JsonText.dumps (payload safeKey (wholeSeconds now + expiresInSeconds))))

/-- `body.rsplit(".", 1)`, where there is a dot. -/
def rsplitDot (body : List Char) : Option (List Char × List Char) :=
  match body.reverse.span (· != '.') with
  | (tail, _ :: head) => some (head.reverse, tail.reverse)
  | (_, []) => none

/-- The bytes and the value of an encoded payload. -/
def decodePayload (encoded : List Char) : Option (List UInt8 × Json) :=
  if encoded.all (·.toNat < 128) then do
    let data ← Base64.decode encoded
    let text ← decodeUtf8 data
    let value ← JsonText.loads text
    some (data, value)
  else none

/-- `payload.get(name)`; the last member of a name counts. -/
def get (name : String) (members : List (String × Json)) : Option Json := members.reverse.lookup name

def isText (expected : String) : Option Json → Bool
  | some (.str s) => s == expected
  | _ => false

/-- `int(payload.get("exp", 0))`. -/
def expiryOf (ops : SignOps) (members : List (String × Json)) : Except UrlError Int :=
  match get "exp" members with
  | none => .ok 0
  | some expiry => ops.intOf expiry

/-- `verify_download_url`, where the clock reads `now`. -/
def verifyDownloadUrl (ops : SignOps) (secret : List UInt8) (token : List Char) (expectedKey : String)
    (now : Nat) : Except UrlError Bool :=
  match token.dropPrefix? urlPrefix with
  | none => .ok false
  | some body =>
      match rsplitDot body with
      | none => .ok false
      | some (encoded, signature) =>
          match decodePayload encoded with
          | none => .ok false
          | some (data, value) =>
              if !signature.all (·.toNat < 128) then .error .typeError
              else if ops.hmacSha256Hex secret data != signature then .ok false
              else
                match value with
                | .obj members =>
                    if !isText expectedKey (get "k" members) then .ok false
                    else (expiryOf ops members).map fun expiry =>
                      decide ((wholeSeconds now : Int) < expiry)
                | _ => .error .attributeError

/-! ## What a URL verifies -/

theorem decodeUtf8_utf8 (text : List Char) : decodeUtf8 (utf8 text) = some text := by
  generalize string : String.ofList text = s
  have back : String.fromUTF8? s.toByteArray = some s := by
    rw [String.fromUTF8?, dif_pos s.isValidUTF8]
    rfl
  rw [decodeUtf8, utf8, string, Array.toArray_toList]
  show (String.fromUTF8? s.toByteArray).map String.toList = some text
  rw [back, ← string, Option.map_some, String.toList_ofList]

theorem hmac_plain (ops : SignOps) (secret message : List UInt8) :
    ∀ c ∈ ops.hmacSha256Hex secret message, c ≠ '.' ∧ c.toNat < 128 := by
  intro c member
  rcases ops.hmac_hex secret message c member with digit | ⟨_, upper⟩
  · simp only [Char.isDigit, Bool.and_eq_true, decide_eq_true_eq] at digit
    have bound : c.toNat ≤ 57 := UInt32.le_iff_toNat_le.mp digit.2
    exact ⟨by rintro rfl; revert digit; decide, by omega⟩
  · have bound : c.toNat ≤ 102 := UInt32.le_iff_toNat_le.mp (Char.le_def.mp upper)
    exact ⟨by rintro rfl; rename_i lower; revert lower; decide, by omega⟩

theorem rsplitDot_append {head tail : List Char} (fresh : '.' ∉ tail) :
    rsplitDot (head ++ '.' :: tail) = some (head, tail) := by
  have stays : ∀ c ∈ tail.reverse, (c != '.') = true := by
    intro c member
    simp only [bne_iff_ne]
    rintro rfl
    exact fresh (List.mem_reverse.mp member)
  have span : (head ++ '.' :: tail).reverse.span (· != '.') = (tail.reverse, '.' :: head.reverse) := by
    rw [List.span_eq_takeWhile_dropWhile, List.reverse_append, List.reverse_cons, List.append_assoc,
      List.takeWhile_append_of_pos stays, List.dropWhile_append_of_pos stays]
    simp
  rw [rsplitDot, span]
  simp

theorem cut_signedUrl (ops : SignOps) (secret data : List UInt8) :
    ∃ body, (signedUrl ops secret data).dropPrefix? urlPrefix = some body ∧
      rsplitDot body = some (Base64.encode data, ops.hmacSha256Hex secret data) := by
  refine ⟨Base64.encode data ++ '.' :: ops.hmacSha256Hex secret data, ?_, ?_⟩
  · rw [signedUrl, List.dropPrefix?_append_of_beq _ BEq.rfl]
  · exact rsplitDot_append fun member => (hmac_plain ops secret data '.' member).1 rfl

theorem decodePayload_encode (value : Json) :
    decodePayload (Base64.encode (utf8 (JsonText.dumps value))) =
      some (utf8 (JsonText.dumps value), value) := by
  have ascii : (Base64.encode (utf8 (JsonText.dumps value))).all (·.toNat < 128) = true :=
    List.all_eq_true.mpr fun c member => decide_eq_true (Base64.encode_plain _ c member).2
  rw [decodePayload, if_pos ascii]
  simp [Base64.decode_encode, decodeUtf8_utf8, JsonText.loads_dumps]

theorem generateDownloadUrl_ok {ops : SignOps} {secret : List UInt8} {key : String} {ttl : Int}
    {issued : Nat} {url : List Char} (generated : generateDownloadUrl ops secret key ttl issued = .ok url) :
    ∃ safeKey, validateKey key = .ok safeKey ∧ url = signedUrl ops secret
      (utf8 (JsonText.dumps (payload safeKey (wholeSeconds issued + ttl)))) := by
  rw [generateDownloadUrl] at generated
  cases valid : validateKey key with
  | error e => rw [valid] at generated; cases generated
  | ok safeKey =>
      rw [valid] at generated
      exact ⟨safeKey, rfl, (Except.ok.inj generated).symm⟩

theorem generateDownloadUrl_of_valid {ops : SignOps} {secret : List UInt8} {key safeKey : String}
    {ttl : Int} {issued : Nat} (valid : validateKey key = .ok safeKey) :
    ∃ url, generateDownloadUrl ops secret key ttl issued = .ok url := by
  rw [generateDownloadUrl, valid]
  exact ⟨_, rfl⟩

/-- A generated URL verifies for the checked key, up to its expiry. -/
theorem verify_generated {ops : SignOps} {secret : List UInt8} {key safeKey : String} {ttl : Int}
    {issued : Nat} {url : List Char} (valid : validateKey key = .ok safeKey)
    (generated : generateDownloadUrl ops secret key ttl issued = .ok url) (expected : String) (now : Nat) :
    verifyDownloadUrl ops secret url expected now =
      .ok (safeKey == expected && decide ((wholeSeconds now : Int) < wholeSeconds issued + ttl)) := by
  obtain ⟨safeKey', valid', rfl⟩ := generateDownloadUrl_ok generated
  obtain rfl := Except.ok.inj (valid.symm.trans valid')
  generalize stop : (wholeSeconds issued : Int) + ttl = expiry
  have decoded := decodePayload_encode (payload safeKey expiry)
  generalize utf8 (JsonText.dumps (payload safeKey expiry)) = data at decoded ⊢
  obtain ⟨body, opened, cut⟩ := cut_signedUrl ops secret data
  have ascii : (ops.hmacSha256Hex secret data).all (·.toNat < 128) = true :=
    List.all_eq_true.mpr fun c member => decide_eq_true (hmac_plain ops secret data c member).2
  have key : isText expected (get "k" [("k", .str safeKey), ("exp", .int expiry)]) =
      (safeKey == expected) := by rfl
  have stops : expiryOf ops [("k", .str safeKey), ("exp", .int expiry)] = .ok expiry :=
    ops.intOf_int expiry
  rw [verifyDownloadUrl, opened]
  simp only []
  rw [cut]
  simp only []
  rw [decoded]
  simp only [ascii, payload, key, stops, bne_self_eq_false, Bool.not_true, Bool.false_eq_true,
    if_false]
  cases safeKey == expected
  · rfl
  · simp [Except.map]

/-- The expiry that a URL carries. -/
def encodedExpiry (ops : SignOps) (token : List Char) : Option Int :=
  match (token.dropPrefix? urlPrefix).bind rsplitDot with
  | none => none
  | some (encoded, _) =>
      match decodePayload encoded with
      | some (_, .obj members) => (expiryOf ops members).toOption
      | _ => none

theorem encodedExpiry_generated {ops : SignOps} {secret : List UInt8} {key : String} {ttl : Int}
    {issued : Nat} {url : List Char} (generated : generateDownloadUrl ops secret key ttl issued = .ok url) :
    encodedExpiry ops url = some (wholeSeconds issued + ttl) := by
  obtain ⟨safeKey, -, rfl⟩ := generateDownloadUrl_ok generated
  generalize stop : (wholeSeconds issued : Int) + ttl = expiry
  have decoded := decodePayload_encode (payload safeKey expiry)
  generalize utf8 (JsonText.dumps (payload safeKey expiry)) = data at decoded ⊢
  obtain ⟨body, opened, cut⟩ := cut_signedUrl ops secret data
  have stops : expiryOf ops [("k", .str safeKey), ("exp", .int expiry)] = .ok expiry :=
    ops.intOf_int expiry
  rw [encodedExpiry, opened, Option.bind_some, cut]
  simp only []
  rw [decoded, payload]
  simp only [stops]
  rfl

/-! ## Keys and files -/

theorem intercalate_toList (l : List String) :
    ("/".intercalate l).toList = ['/'].intercalate (l.map String.toList) := by
  rw [String.toList_intercalate]
  rfl

theorem not_mem_of_mem_splitOn {c : Char} {text : List Char} :
    ∀ piece ∈ text.splitOn c, c ∉ piece := by
  induction text with
  | nil => simp
  | cons d text ih =>
      rw [List.splitOn_cons_eq_if_modifyHead]
      split
      · intro piece member
        rcases List.mem_cons.mp member with rfl | member
        · simp
        · exact ih piece member
      · rename_i other
        cases rest : text.splitOn c with
        | nil => simp
        | cons head tail =>
            rw [rest] at ih
            intro piece member
            rcases List.mem_cons.mp member with rfl | member
            · have fresh := ih head List.mem_cons_self
              simp only [List.mem_cons, not_or]
              exact ⟨fun same => other (by simp [same]), fresh⟩
            · exact ih piece (List.mem_cons_of_mem head member)

theorem segments_plain {key s : String} (member : s ∈ segments key) :
    s ≠ "" ∧ s ≠ "." ∧ '/' ∉ s.toList := by
  obtain ⟨split, plain⟩ := List.mem_filter.mp member
  obtain ⟨chars, piece, rfl⟩ := List.mem_map.mp split
  simp only [decide_eq_true_eq] at plain
  refine ⟨plain.1, plain.2, ?_⟩
  rw [String.toList_ofList]
  exact not_mem_of_mem_splitOn chars piece

/-- Segments joined by slashes are the segments of the path. -/
theorem splitOn_joined {l : List String} (some_ : l ≠ []) (plain : ∀ s ∈ l, '/' ∉ s.toList) :
    (("/".intercalate l).toList.splitOn '/').map String.ofList = l := by
  rw [intercalate_toList, List.splitOn_intercalate]
  · simp
  · intro chars member
    obtain ⟨s, inside, rfl⟩ := List.mem_map.mp member
    exact plain s inside
  · simpa using some_

theorem segments_joined {key : String} (some_ : segments key ≠ []) :
    segments ("/".intercalate (segments key)) = segments key := by
  rw [segments, splitOn_joined some_ fun s member => (segments_plain member).2.2,
    List.filter_eq_self.mpr]
  intro s member
  simp [(segments_plain member).1, (segments_plain member).2.1]

theorem validateKey_ok {key safeKey : String} (valid : validateKey key = .ok safeKey) :
    segments key ≠ [] ∧ safeKey = "/".intercalate (segments key) := by
  unfold validateKey at valid
  split at valid
  · cases valid
  split at valid
  · cases valid
  split at valid
  · cases valid
  split at valid
  · cases valid
  split at valid
  · cases valid
  split at valid
  · cases valid
  · rename_i relative
    obtain ⟨absolute, some_, -⟩ := not_or.mp relative |>.imp id not_or.mp
    have same : parts key = segments key := by rw [parts, if_neg absolute]
    rw [same] at some_ valid
    exact ⟨some_, (Except.ok.inj valid).symm⟩

theorem resolve_ok {key : String} {target : List String} (accepted : resolve key = .ok target) :
    ∃ safeKey, validateKey key = .ok safeKey ∧ safeKey = "/".intercalate target ∧
      target = segments key ∧ target ≠ [] := by
  cases valid : validateKey key with
  | error e => rw [resolve, valid] at accepted; cases accepted
  | ok safeKey =>
      obtain ⟨some_, is⟩ := validateKey_ok valid
      rw [resolve, valid] at accepted
      simp only [bind, Except.bind] at accepted
      split at accepted
      · cases accepted
      · obtain rfl := Except.ok.inj accepted
        rw [is, segments_joined some_]
        exact ⟨_, rfl, rfl, rfl, some_⟩

/-! ## Keys in normal form -/

/-- No segment of the key is empty or a dot. -/
def IsNormal (key : String) : Prop := ∀ piece ∈ key.toList.splitOn '/', piece ≠ [] ∧ piece ≠ ['.']

theorem joined_splitOn (key : String) :
    "/".intercalate ((key.toList.splitOn '/').map String.ofList) = key := by
  refine String.toList_inj.mp ?_
  rw [intercalate_toList, List.map_map]
  have same : String.toList ∘ String.ofList = id := by
    funext chars
    exact String.toList_ofList
  rw [same, List.map_id, List.intercalate_splitOn]

/-- A key is its segments joined again exactly if none of them was left out. -/
theorem joined_eq_iff {key : String} (some_ : segments key ≠ []) :
    "/".intercalate (segments key) = key ↔ IsNormal key := by
  constructor
  · intro same piece member
    have split := splitOn_joined some_ fun s inside => (segments_plain inside).2.2
    rw [same] at split
    have inside : String.ofList piece ∈ segments key := split ▸ List.mem_map_of_mem member
    obtain ⟨notEmpty, notDot, -⟩ := segments_plain inside
    refine ⟨?_, ?_⟩
    · rintro rfl
      exact notEmpty rfl
    · rintro rfl
      exact notDot rfl
  · intro normal
    have all : segments key = (key.toList.splitOn '/').map String.ofList := by
      refine List.filter_eq_self.mpr fun s member => ?_
      obtain ⟨piece, inside, rfl⟩ := List.mem_map.mp member
      obtain ⟨notEmpty, notDot⟩ := normal piece inside
      simp only [decide_eq_true_eq]
      refine ⟨fun is => notEmpty ?_, fun is => notDot ?_⟩
      · simpa using congrArg String.toList is
      · simpa using congrArg String.toList is
    rw [all, joined_splitOn]

/-! ## Keys, files and URLs -/

variable {ops : SignOps} {secret : List UInt8} {isDir : List String → Bool} {key key' : String}
  {target target' : List String}

/-- What is asked of the URLs of a key: they verify for the key until they expire, and never
for a key of another file. -/
structure SignsKey (ops : SignOps) (secret : List UInt8) (isDir : List String → Bool) (key : String)
    (target : List String) : Prop where
  verifies : ∀ (ttl : Int) (issued : Nat), ∃ url, generateDownloadUrl ops secret key ttl issued = .ok url ∧
    ∀ now, verifyDownloadUrl ops secret url key now =
      .ok (decide ((now : Int) < 1000000 * (wholeSeconds issued + ttl)))
  refuses : ∀ (ttl : Int) (issued : Nat) (url : List Char) (expected : String) (other : List String),
    generateDownloadUrl ops secret key ttl issued = .ok url → resolve expected = .ok other →
    storedFile isDir other ≠ storedFile isDir target →
    ∀ now, verifyDownloadUrl ops secret url expected now = .ok false

/-- The first key names the object inside of the directory that is kept for the second. -/
def LiesWithin (isDir : List String → Bool) (target target' : List String) : Prop :=
  isDir target = false ∧ isDir target' = true ∧ target = target' ++ ["object"]

theorem storedFile_eq_iff :
    storedFile isDir target = storedFile isDir target' ↔
      target = target' ∨ LiesWithin isDir target target' ∨ LiesWithin isDir target' target := by
  unfold storedFile LiesWithin
  cases dir : isDir target <;> cases dir' : isDir target'
  · simp
  · simp only [reduceCtorEq, if_false, if_true, true_and, false_and, or_false]
    exact ⟨.inr, fun either => either.resolve_left fun same => by simp [same, dir'] at dir⟩
  · simp only [reduceCtorEq, if_false, if_true, true_and, false_and, false_or]
    constructor
    · exact fun same => .inr same.symm
    · exact fun either => (either.resolve_left fun same => by simp [same, dir'] at dir).symm
  · simp

/-- The URLs of a key are right exactly if the key is in normal form. -/
theorem signsKey_iff (accepted : resolve key = .ok target) :
    SignsKey ops secret isDir key target ↔ IsNormal key := by
  obtain ⟨safeKey, valid, joined, is, some_⟩ := resolve_ok accepted
  have normal : safeKey = key ↔ IsNormal key := by
    rw [joined, is]
    exact joined_eq_iff (is ▸ some_)
  constructor
  · intro signs
    rw [← normal]
    obtain ⟨url, generated, verifies⟩ := signs.verifies 1 0
    have now := (verify_generated valid generated key 0).symm.trans (verifies 0)
    simpa [wholeSeconds] using now
  · intro isNormal
    obtain rfl := normal.mpr isNormal
    refine ⟨fun ttl issued => ?_, fun ttl issued url expected other generated resolved differs now => ?_⟩
    · obtain ⟨url, generated⟩ := generateDownloadUrl_of_valid valid
      refine ⟨url, generated, fun now => ?_⟩
      rw [verify_generated valid generated, BEq.rfl, Bool.true_and]
      congr 1
      rw [decide_eq_decide]
      unfold wholeSeconds
      omega
    · have differ : (safeKey == expected) = false := by
        refine beq_false_of_ne ?_
        rintro rfl
        exact differs (by rw [Except.ok.inj (resolved.symm.trans accepted)])
      rw [verify_generated valid generated, differ, Bool.false_and]

/-- Signed keys, stored files and keys correspond one to one exactly if the keys are in normal
form and neither names the object within the directory of the other. -/
theorem keys_name_files_iff (accepted : resolve key = .ok target)
    (accepted' : resolve key' = .ok target') :
    (SignsKey ops secret isDir key target ∧ SignsKey ops secret isDir key' target' ∧
        (key ≠ key' → storedFile isDir target ≠ storedFile isDir target')) ↔
      IsNormal key ∧ IsNormal key' ∧ ¬ LiesWithin isDir target target' ∧
        ¬ LiesWithin isDir target' target := by
  rw [signsKey_iff accepted, signsKey_iff accepted', ne_eq, ne_eq, not_imp_not, storedFile_eq_iff]
  have apart : ∀ {t t' : List String}, LiesWithin isDir t t' → t ≠ t' := by
    rintro t t' ⟨-, -, within⟩ same
    simp [same] at within
  constructor
  · rintro ⟨normal, normal', injective⟩
    refine ⟨normal, normal', fun within => ?_, fun within => ?_⟩
    · obtain rfl := injective (.inr (.inl within))
      exact apart within (Except.ok.inj (accepted.symm.trans accepted'))
    · obtain rfl := injective (.inr (.inr within))
      exact apart within (Except.ok.inj (accepted'.symm.trans accepted))
  · rintro ⟨normal, normal', out, out'⟩
    refine ⟨normal, normal', fun same => ?_⟩
    obtain rfl := same.resolve_right fun within => within.elim out out'
    obtain ⟨-, -, -, is, some_⟩ := resolve_ok accepted
    obtain ⟨-, -, -, is', some'⟩ := resolve_ok accepted'
    rw [← (joined_eq_iff (is ▸ some_)).mpr normal, ← (joined_eq_iff (is' ▸ some')).mpr normal', ← is,
      ← is']

/-- Every message has the same digest. -/
def exampleSignOps : SignOps where
  hmacSha256Hex _ _ := ['a']
  intOf
    | .int n => .ok n
    | _ => .error .typeError
  hmac_hex _ _ c member := by
    obtain rfl := List.mem_singleton.mp member
    exact .inr ⟨by decide, by decide⟩
  intOf_int _ := rfl

theorem keys_name_files_example :
    (SignsKey exampleSignOps [1] (fun _ => true) "a" ["a"] ∧
        SignsKey exampleSignOps [1] (fun _ => true) "b" ["b"] ∧
        ("a" ≠ "b" → storedFile (fun _ => true) ["a"] ≠ storedFile (fun _ => true) ["b"])) ↔
      IsNormal "a" ∧ IsNormal "b" ∧ ¬ LiesWithin (fun _ => true) ["a"] ["b"] ∧
        ¬ LiesWithin (fun _ => true) ["b"] ["a"] :=
  keys_name_files_iff (by decide) (by decide)

/-- The URL of `a/` is signed for `a`, and both keys name one file. -/
theorem trailing_slash_key_is_not_signed :
    ¬ ∀ (ops : SignOps) (secret : List UInt8) (isDir : List String → Bool) (key key' : String)
      (target target' : List String), resolve key = .ok target → resolve key' = .ok target' →
      SignsKey ops secret isDir key target ∧
        (key ≠ key' → storedFile isDir target ≠ storedFile isDir target') := by
  intro claim
  have first : resolve "a/" = .ok ["a"] := by decide
  have second : resolve "a" = .ok ["a"] := by decide
  obtain ⟨-, differ⟩ := claim exampleSignOps [1] (fun _ => true) "a/" "a" ["a"] ["a"] first second
  exact differ (by decide) rfl

end SaasTemplate.Storage.SignedUrl

import SaasTemplate.Text.CodePoints

/-! # The assertion of a trusted edge

The check of the header with which an edge signs the requests that it passes on. The check
reads bytes that the peer chose: a header value decoded as Latin-1, and a path and a query
in which every byte that is not ASCII has become a lone surrogate.
-/

namespace SaasTemplate.RateLimit

open SaasTemplate.CodePoints

/-- The address library, `str.upper`, and HMAC-SHA-256 in hexadecimal. -/
structure EdgeOps where
  Address : Type
  Network : Type
  strip : String → String
  ipAddress : String → Option Address
  ipNetwork : String → Option Network
  contains : Network → Address → Bool
  upper : String → String
  hmacSha256Hex : ByteArray → ByteArray → Text
  upper_slash : ∀ method, '/' ∉ method.toList → '/' ∉ (upper method).toList
  hmac_ascii : ∀ secret message, ∀ c ∈ hmacSha256Hex secret message, c < 128

structure EdgeSettings where
  trustedProxyCidrs : List String
  /-- The header name as `Headers` looks it up, in lower case. -/
  edgeAssertionHeaderName : Option (List UInt8)
  edgeAssertionSecret : Option String

inductive QueryString where
  | bytes (data : List UInt8)
  | text (query : String)

/-- What the check reads of a request. -/
structure EdgeRequest where
  clientHost : Option String
  headers : List (List UInt8 × List UInt8)
  method : String
  rawPath : Option (List UInt8)
  path : String
  queryString : QueryString

structure EdgeAssertion where
  timestamp : Nat
  signature : Text
  deriving DecidableEq, Repr

def edgeAssertionMaxAgeSeconds : Int := 300

def edgeAssertionMaxFutureSkewSeconds : Int := 60

/-- `is_request_from_trusted_proxy`. -/
def isRequestFromTrustedProxy (ops : EdgeOps) (clientHost : Option String) (cidrs : List String) :
    Bool :=
  match ops.ipAddress (ops.strip (clientHost.getD "")) with
  | none => false
  | some peer => cidrs.any fun cidr => (ops.ipNetwork cidr).any (ops.contains · peer)

/-- `headers.get(name)`. -/
def EdgeRequest.header (name : List UInt8) (request : EdgeRequest) : Option Text :=
  (request.headers.lookup name).map decodeLatin1

/-! ## The header -/

/-- The loop over the parts of the header; a later entry for a key hides an earlier one. -/
def edgeAssertionValues : List Text → List (Text × Text) → Option (List (Text × Text))
  | [], values => some values
  | rawPart :: rest, values =>
      match partition 61 (strip rawPart) with
      | (key, separator, rawValue) =>
          if !separator || key.isEmpty || rawValue.isEmpty then none
          else edgeAssertionValues rest ((key, rawValue) :: values)

def isHexDigit (c : Nat) : Bool := isAsciiDigit c || (65 ≤ c && c ≤ 70) || (97 ≤ c && c ≤ 102)

/-- `signature.lower()` for hexadecimal digits. -/
def lowerHex (text : Text) : Text := text.map fun c => if 65 ≤ c && c ≤ 70 then c + 32 else c

/-- The timestamp and the signature of a header that passes the checks before `int`. -/
def edgeAssertionFields (value : Text) : Option (Text × Text) :=
  match edgeAssertionValues (value.splitOn 44) [] with
  | none => none
  | some values =>
      match values.lookup (ofString "t"), values.lookup (ofString "v1") with
      | some rawTimestamp, some signature =>
          if !isDigit rawTimestamp then none
          else if signature.length != 64 || !signature.all isHexDigit then none
          else some (rawTimestamp, signature)
      | _, _ => none

/-- `_parse_edge_assertion_header`. -/
def parseEdgeAssertionHeader (value : Text) : Except TextError (Option EdgeAssertion) :=
  match edgeAssertionFields value with
  | none => .ok none
  | some (rawTimestamp, signature) =>
      (int rawTimestamp).map fun timestamp => some ⟨timestamp, lowerHex signature⟩

/-- `_is_edge_assertion_timestamp_fresh`, at the whole second `now`. -/
def isEdgeAssertionTimestampFresh (now : Int) (timestamp : Nat) : Bool :=
  if (timestamp : Int) < now - edgeAssertionMaxAgeSeconds then false
  else (timestamp : Int) ≤ now + edgeAssertionMaxFutureSkewSeconds

/-! ## The signature -/

/-- `_canonical_request_target`. -/
def canonicalRequestTarget (request : EdgeRequest) : Text :=
  let path := match request.rawPath with
    | some rawPath => decodeAscii rawPath
    | none => ofString request.path
  match request.queryString with
  | .bytes data => if data.isEmpty then path else path ++ 63 :: decodeAscii data
  | .text query => if query = "" then path else path ++ 63 :: ofString query

/-- `f"{timestamp}.{method.upper()}.{target}"`. -/
def edgeAssertionMessage (ops : EdgeOps) (timestamp : Nat) (method : String) (target : Text) : Text :=
  decimal timestamp ++ 46 :: (ofString (ops.upper method) ++ 46 :: target)

/-- `_build_edge_assertion_signature`. -/
def buildEdgeAssertionSignature (ops : EdgeOps) (timestamp : Nat) (method : String) (target : Text)
    (secret : String) : Except TextError Text :=
  (encodeUtf8 (edgeAssertionMessage ops timestamp method target)).map fun message =>
    ops.hmacSha256Hex secret.toByteArray message

/-- `hmac.compare_digest` of two strings, which have to be ASCII. -/
def compareDigest (a b : Text) : Except TextError Bool :=
  if a.all (· < 128) && b.all (· < 128) then .ok (a == b) else .error .typeError

/-- `_has_valid_edge_assertion`. -/
def hasValidEdgeAssertion (ops : EdgeOps) (settings : EdgeSettings) (now : Int)
    (request : EdgeRequest) : Except TextError Bool :=
  if !isRequestFromTrustedProxy ops request.clientHost settings.trustedProxyCidrs then .ok false
  else
    match settings.edgeAssertionHeaderName, settings.edgeAssertionSecret with
    | some headerName, some secret =>
        match request.header headerName with
        | none => .ok false
        | some providedValue => do
            match ← parseEdgeAssertionHeader providedValue with
            | none => pure false
            | some assertion =>
                if !isEdgeAssertionTimestampFresh now assertion.timestamp then pure false
                else
                  let expected ← buildEdgeAssertionSignature ops assertion.timestamp request.method
                    (canonicalRequestTarget request) secret
                  compareDigest assertion.signature expected
    | _, _ => .ok false

/-! ## What the claim is about -/

/-- The signed bytes of a timestamp, a method and a target. -/
def signedMessage (ops : EdgeOps) (timestamp : Nat) (method : String) (target : Text) :
    Except TextError ByteArray :=
  encodeUtf8 (edgeAssertionMessage ops timestamp method target)

/-- The header is an assertion for this request, signed with the secret, at a time within the
    allowed skew. -/
def Asserts (ops : EdgeOps) (secret : String) (now : Int) (request : EdgeRequest)
    (value : Text) : Prop :=
  ∃ assertion message, parseEdgeAssertionHeader value = .ok (some assertion) ∧
    now - 300 ≤ assertion.timestamp ∧ assertion.timestamp ≤ now + 60 ∧
    signedMessage ops assertion.timestamp request.method (canonicalRequestTarget request) =
      .ok message ∧
    assertion.signature = ops.hmacSha256Hex secret.toByteArray message

/-- The check answers, it answers what it should, and no two triples share a message. -/
structure EdgeAssertionSound (ops : EdgeOps) (settings : EdgeSettings) (now : Int)
    (request : EdgeRequest) : Prop where
  total : ∃ valid, hasValidEdgeAssertion ops settings now request = .ok valid
  exact : ∀ headerName secret,
    isRequestFromTrustedProxy ops request.clientHost settings.trustedProxyCidrs = true →
    settings.edgeAssertionHeaderName = some headerName →
    settings.edgeAssertionSecret = some secret →
    (hasValidEdgeAssertion ops settings now request = .ok true ↔
      ∃ value, request.header headerName = some value ∧ Asserts ops secret now request value)
  injective : ∀ timestamp timestamp' method method' target target' message,
    '/' ∉ method.toList → '/' ∉ method'.toList →
    target.head? = some 47 → target'.head? = some 47 →
    signedMessage ops timestamp method target = .ok message →
    signedMessage ops timestamp' method' target' = .ok message →
    timestamp = timestamp' ∧ ops.upper method = ops.upper method' ∧ target = target'

/-- Every byte of the path and the query is ASCII, where they came as bytes. -/
def EdgeRequest.targetIsAscii (request : EdgeRequest) : Bool :=
  request.rawPath.all isAscii &&
    match request.queryString with
    | .bytes data => isAscii data
    | .text _ => true

/-- A header that is read has a timestamp of at most 4300 ASCII digits, and if that is fresh,
    the path and the query are ASCII. -/
def Readable (ops : EdgeOps) (settings : EdgeSettings) (now : Int) (request : EdgeRequest) : Prop :=
  ∀ headerName secret value rawTimestamp signature,
    isRequestFromTrustedProxy ops request.clientHost settings.trustedProxyCidrs = true →
    settings.edgeAssertionHeaderName = some headerName →
    settings.edgeAssertionSecret = some secret → request.header headerName = some value →
    edgeAssertionFields value = some (rawTimestamp, signature) →
    rawTimestamp.all isAsciiDigit = true ∧ rawTimestamp.length ≤ maxStrDigits ∧
      ∀ timestamp, int rawTimestamp = .ok timestamp →
        isEdgeAssertionTimestampFresh now timestamp = true → request.targetIsAscii = true

/-! ## The message -/

section Message

variable {ops : EdgeOps} {settings : EdgeSettings} {now : Int} {request : EdgeRequest}

theorem all_isScalar_target (request : EdgeRequest) :
    (canonicalRequestTarget request).all isScalar = request.targetIsAscii := by
  have path : ∀ path : Option (List UInt8), (match path with
      | some rawPath => decodeAscii rawPath
      | none => ofString request.path).all isScalar = path.all isAscii := by
    intro path
    cases path with
    | none => exact all_isScalar_ofString request.path
    | some rawPath => exact all_isScalar_decodeAscii rawPath
  have mark : isScalar 63 = true := by decide
  unfold canonicalRequestTarget EdgeRequest.targetIsAscii
  cases request.queryString with
  | bytes data =>
      cases data with
      | nil => simpa [isAscii] using path request.rawPath
      | cons b data =>
          simp only [List.isEmpty_cons, Bool.false_eq_true, if_false, List.all_append, List.all_cons,
            mark, Bool.true_and, path, all_isScalar_decodeAscii]
  | text query =>
      by_cases empty : query = ""
      · simpa [empty] using path request.rawPath
      · simp only [empty, if_false, List.all_append, List.all_cons, mark, Bool.true_and, path,
          all_isScalar_ofString]

theorem signedMessage_ok_iff {timestamp : Nat} {method : String} {target : Text} :
    (∃ message, signedMessage ops timestamp method target = .ok message) ↔
      target.all isScalar = true := by
  have dot : isScalar 46 = true := by decide
  rw [signedMessage, encodeUtf8_ok_iff]
  simp only [edgeAssertionMessage, decimal, List.all_append, List.all_cons, all_isScalar_ofString,
    dot, Bool.true_and]

/-- The first dot ends the timestamp, and the first slash begins the target. -/
theorem edgeAssertionMessage_injective {timestamp timestamp' : Nat} {method method' : String}
    {target target' : Text} (slashFree : '/' ∉ method.toList) (slashFree' : '/' ∉ method'.toList)
    (begins : target.head? = some 47) (begins' : target'.head? = some 47)
    (h : edgeAssertionMessage ops timestamp method target =
      edgeAssertionMessage ops timestamp' method' target') :
    timestamp = timestamp' ∧ ops.upper method = ops.upper method' ∧ target = target' := by
  have dotFree : ∀ n, 46 ∉ decimal n := fun n member => by
    simpa [isAsciiDigit] using isAsciiDigit_of_mem_decimal member
  have upperFree : ∀ {method : String}, '/' ∉ method.toList → 47 ∉ ofString (ops.upper method) := by
    intro method free member
    obtain ⟨c, here, is⟩ := List.mem_map.mp member
    have slash : c = '/' := Char.toNat_inj.mp is
    exact ops.upper_slash method free (slash ▸ here)
  obtain ⟨rest, rfl⟩ : ∃ rest, target = 47 :: rest := List.head?_eq_some_iff.mp begins
  obtain ⟨rest', rfl⟩ : ∃ rest, target' = 47 :: rest := List.head?_eq_some_iff.mp begins'
  obtain ⟨stamp, message⟩ := append_cons_inj (dotFree timestamp) (dotFree timestamp') h
  have split : ∀ (upper rest : Text), upper ++ 46 :: 47 :: rest = (upper ++ [46]) ++ 47 :: rest := by
    simp
  rw [split, split] at message
  have noSlash : ∀ {method : String}, '/' ∉ method.toList →
      47 ∉ ofString (ops.upper method) ++ [46] := fun free => by simpa using upperFree free
  obtain ⟨upper, same⟩ := append_cons_inj (noSlash slashFree) (noSlash slashFree') message
  exact ⟨decimal_injective stamp, ofString_injective (List.append_cancel_right upper), by rw [same]⟩

end Message

/-! ## The check -/

section Check

variable {ops : EdgeOps} {settings : EdgeSettings} {now : Int} {request : EdgeRequest}

theorem isEdgeAssertionTimestampFresh_iff {timestamp : Nat} :
    isEdgeAssertionTimestampFresh now timestamp = true ↔
      now - 300 ≤ timestamp ∧ (timestamp : Int) ≤ now + 60 := by
  unfold isEdgeAssertionTimestampFresh edgeAssertionMaxAgeSeconds edgeAssertionMaxFutureSkewSeconds
  split
  · rename_i old
    simp only [Bool.false_eq_true, false_iff, not_and]
    omega
  · rename_i recent
    simp only [decide_eq_true_eq]
    omega

theorem all_isHexDigit_of_fields {value rawTimestamp signature : Text}
    (h : edgeAssertionFields value = some (rawTimestamp, signature)) :
    signature.all isHexDigit = true := by
  unfold edgeAssertionFields at h
  split at h
  · cases h
  · split at h
    · split at h
      · cases h
      · split at h
        · cases h
        · rename_i fine
          cases h
          have checked : signature.length = 64 ∧ ∀ c ∈ signature, isHexDigit c = true := by
            simpa using fine
          exact List.all_eq_true.mpr checked.2
    · cases h

/-- A signature that was read is ASCII, so the comparison does not raise. -/
theorem lowerHex_ascii {text : Text} (h : text.all isHexDigit = true) :
    (lowerHex text).all (· < 128) = true := by
  simp only [lowerHex, List.all_map, List.all_eq_true, Function.comp_apply] at h ⊢
  intro c member
  have hex := h c member
  simp only [isHexDigit, isAsciiDigit, Bool.or_eq_true, Bool.and_eq_true, decide_eq_true_eq] at hex
  simp only [Bool.and_eq_true, decide_eq_true_eq]
  split <;> omega

theorem compareDigest_hmac {signature : Text} (ascii : signature.all (· < 128) = true)
    (secret message : ByteArray) :
    compareDigest signature (ops.hmacSha256Hex secret message) =
      .ok (signature == ops.hmacSha256Hex secret message) := by
  have digest : (ops.hmacSha256Hex secret message).all (· < 128) = true := by
    simpa using ops.hmac_ascii secret message
  simp [compareDigest, ascii, digest]

/-- What is left of the check for a header of a trusted peer. -/
def checkHeader (ops : EdgeOps) (secret : String) (now : Int) (request : EdgeRequest)
    (value : Text) : Except TextError Bool :=
  match edgeAssertionFields value with
  | none => .ok false
  | some (rawTimestamp, signature) => do
      let timestamp ← int rawTimestamp
      if !isEdgeAssertionTimestampFresh now timestamp then pure false
      else do
        let message ← signedMessage ops timestamp request.method (canonicalRequestTarget request)
        pure (lowerHex signature == ops.hmacSha256Hex secret.toByteArray message)

theorem hasValidEdgeAssertion_eq {headerName : List UInt8} {secret : String}
    (trusted : isRequestFromTrustedProxy ops request.clientHost settings.trustedProxyCidrs = true)
    (name : settings.edgeAssertionHeaderName = some headerName)
    (configured : settings.edgeAssertionSecret = some secret) :
    hasValidEdgeAssertion ops settings now request =
      match request.header headerName with
      | none => .ok false
      | some value => checkHeader ops secret now request value := by
  simp only [hasValidEdgeAssertion, trusted, name, configured, Bool.not_true, Bool.false_eq_true,
    if_false]
  cases request.header headerName with
  | none => rfl
  | some value =>
      simp only [parseEdgeAssertionHeader, checkHeader, bind, Except.bind]
      cases fields : edgeAssertionFields value with
      | none => rfl
      | some pair =>
          obtain ⟨rawTimestamp, signature⟩ := pair
          simp only
          cases int rawTimestamp with
          | error e => rfl
          | ok timestamp =>
              simp only [Except.map]
              split
              · rfl
              · simp only [buildEdgeAssertionSignature, signedMessage]
                cases encodeUtf8 (edgeAssertionMessage ops timestamp request.method
                    (canonicalRequestTarget request)) with
                | error e => rfl
                | ok message =>
                    exact compareDigest_hmac (lowerHex_ascii (all_isHexDigit_of_fields fields)) _ _

theorem checkHeader_true_iff {secret : String} {value : Text} :
    checkHeader ops secret now request value = .ok true ↔ Asserts ops secret now request value := by
  unfold checkHeader Asserts parseEdgeAssertionHeader
  cases edgeAssertionFields value with
  | none => simp
  | some pair =>
      obtain ⟨rawTimestamp, signature⟩ := pair
      simp only [bind, Except.bind]
      cases int rawTimestamp with
      | error e => simp [Except.map]
      | ok timestamp =>
          simp only [Except.map, Except.ok.injEq, Option.some.injEq]
          have fresh : isEdgeAssertionTimestampFresh now timestamp = true ↔ _ :=
            isEdgeAssertionTimestampFresh_iff
          by_cases recent : isEdgeAssertionTimestampFresh now timestamp = true
          · obtain ⟨lower, upper⟩ := fresh.mp recent
            simp only [recent, Bool.not_true, Bool.false_eq_true, if_false]
            cases signed : signedMessage ops timestamp request.method
                (canonicalRequestTarget request) with
            | error e =>
                simp only [reduceCtorEq, false_iff]
                rintro ⟨_, message, rfl, -, -, is, -⟩
                cases signed.symm.trans is
            | ok message =>
                simp only [pure, Except.pure, Except.ok.injEq, beq_iff_eq]
                constructor
                · intro same
                  exact ⟨_, message, rfl, lower, upper, signed, same⟩
                · rintro ⟨_, message', rfl, -, -, is, same⟩
                  cases signed.symm.trans is
                  exact same
          · simp only [Bool.not_eq_true] at recent
            simp only [recent, Bool.not_false, if_true, pure, Except.pure, Except.ok.injEq,
              Bool.false_eq_true, false_iff]
            rintro ⟨_, message, rfl, lower, upper, -⟩
            rw [fresh.mpr ⟨lower, upper⟩] at recent
            cases recent

/-- The check of a header raises exactly where it is not readable. -/
theorem checkHeader_ok_iff {secret : String} {value : Text} :
    (∃ valid, checkHeader ops secret now request value = .ok valid) ↔
      ∀ fields, edgeAssertionFields value = some fields →
        fields.1.all isAsciiDigit = true ∧ fields.1.length ≤ maxStrDigits ∧
          ∀ timestamp, int fields.1 = .ok timestamp →
            isEdgeAssertionTimestampFresh now timestamp = true → request.targetIsAscii = true := by
  unfold checkHeader
  cases edgeAssertionFields value with
  | none => simp
  | some pair =>
      obtain ⟨rawTimestamp, signature⟩ := pair
      simp only [Option.some.injEq, forall_eq', bind, Except.bind]
      rw [← and_assoc, ← int_ok_iff]
      cases int rawTimestamp with
      | error e => simp
      | ok timestamp =>
          simp only [Except.ok.injEq, exists_eq', true_and, forall_eq']
          cases recent : isEdgeAssertionTimestampFresh now timestamp with
          | false => simp [pure, Except.pure]
          | true =>
              simp only [Bool.not_true, Bool.false_eq_true, if_false, true_implies]
              have signs : (∃ message, signedMessage ops timestamp request.method
                  (canonicalRequestTarget request) = .ok message) ↔ request.targetIsAscii = true := by
                rw [signedMessage_ok_iff, all_isScalar_target]
              rw [← signs]
              cases signedMessage ops timestamp request.method (canonicalRequestTarget request) with
              | error e => simp
              | ok message => simp [pure, Except.pure]

end Check

/-- The check never raises exactly where the header that it reads is readable; whenever it
    answers, it answers what it should, and the signed messages are all different. -/
theorem edge_assertion_sound_iff (ops : EdgeOps) (settings : EdgeSettings) (now : Int)
    (request : EdgeRequest) :
    EdgeAssertionSound ops settings now request ↔ Readable ops settings now request := by
  have answers : (∃ valid, hasValidEdgeAssertion ops settings now request = .ok valid) ↔
      Readable ops settings now request := by
    constructor
    · intro total headerName secret value rawTimestamp signature trusted name configured here fields
      rw [hasValidEdgeAssertion_eq trusted name configured, here] at total
      exact checkHeader_ok_iff.mp total _ fields
    · intro readable
      cases trusted : isRequestFromTrustedProxy ops request.clientHost settings.trustedProxyCidrs with
      | false => exact ⟨false, by simp [hasValidEdgeAssertion, trusted]⟩
      | true =>
          cases name : settings.edgeAssertionHeaderName with
          | none => exact ⟨false, by simp [hasValidEdgeAssertion, trusted, name]⟩
          | some headerName =>
              cases configured : settings.edgeAssertionSecret with
              | none => exact ⟨false, by simp [hasValidEdgeAssertion, trusted, name, configured]⟩
              | some secret =>
                  rw [hasValidEdgeAssertion_eq trusted name configured]
                  cases here : request.header headerName with
                  | none => exact ⟨false, rfl⟩
                  | some value =>
                      refine checkHeader_ok_iff.mpr fun fields is => ?_
                      exact readable headerName secret value fields.1 fields.2 trusted name configured
                        here is
  refine ⟨fun sound => answers.mp sound.total, fun readable => ⟨answers.mpr readable, ?_, ?_⟩⟩
  · intro headerName secret trusted name configured
    rw [hasValidEdgeAssertion_eq trusted name configured]
    cases request.header headerName with
    | none => simp
    | some value => simpa using checkHeader_true_iff
  · intro timestamp timestamp' method method' target target' message free free' begins begins' h h'
    exact edgeAssertionMessage_injective free free' begins begins' (encodeUtf8_injective h h')

/-! ## A superscript two -/

/-- Every peer is trusted, and every message has the same digest. -/
def exampleOps : EdgeOps where
  Address := Unit
  Network := Unit
  strip := id
  ipAddress _ := some ()
  ipNetwork _ := some ()
  contains _ _ := true
  upper := id
  hmacSha256Hex _ _ := List.replicate 64 97
  upper_slash _ free := free
  hmac_ascii _ _ c member := by
    obtain rfl := List.eq_of_mem_replicate member
    decide

def exampleSettings : EdgeSettings where
  trustedProxyCidrs := ["10.0.0.0/8"]
  edgeAssertionHeaderName := some [120, 45, 101, 100, 103, 101]
  edgeAssertionSecret := some "secret"

/-- `GET /api/v1/users` with the header `x-edge: t=²,v1=aa…a`. -/
def superscriptRequest : EdgeRequest where
  clientHost := some "10.0.0.1"
  headers := [([120, 45, 101, 100, 103, 101],
    [116, 61, 0xb2, 44, 118, 49, 61] ++ List.replicate 64 97)]
  method := "GET"
  rawPath := some [47, 97, 112, 105, 47, 118, 49, 47, 117, 115, 101, 114, 115]
  path := "/api/v1/users"
  queryString := .bytes []

/-- `isdigit` accepts the superscript two, and `int` does not. -/
theorem superscript_timestamp_raises :
    ¬ ∀ (ops : EdgeOps) (settings : EdgeSettings) (now : Int) (request : EdgeRequest),
      EdgeAssertionSound ops settings now request := by
  intro sound
  obtain ⟨valid, is⟩ := (sound exampleOps exampleSettings 0 superscriptRequest).total
  have raises : hasValidEdgeAssertion exampleOps exampleSettings 0 superscriptRequest =
      .error .valueError := by rfl
  cases raises.symm.trans is

end SaasTemplate.RateLimit

import SaasTemplate.Text.IpAddress
import Mathlib.Data.List.Nodup

/-! # Who a request is counted for

The rate limit of an anonymous request is counted for its client address. A trusted proxy may
state the address in a header, an IPv6 address is reduced to its `/64` network, and the text
of what remains is keyed with HMAC.
-/

namespace SaasTemplate.RateLimit.Identifiers

open SaasTemplate.CodePoints SaasTemplate.IpAddress

/-- What the identifier of a request is built from. -/
structure Request where
  clientHost : Option Text
  headers : List (List UInt8 × List UInt8)

structure Settings where
  trustProxyHeaders : Bool
  trustedProxyCidrs : List Text
  identifierSecret : String

structure RateLimitIdentifier where
  kind : String
  bucketKey : Text
  deriving DecidableEq

/-- `headers.get(name)`, of a name in lower case. -/
def Request.header (name : List UInt8) (request : Request) : Option Text :=
  (request.headers.lookup name).map decodeLatin1

/-- `b"x-forwarded-for"`. -/
def xForwardedFor : List UInt8 :=
  [120, 45, 102, 111, 114, 119, 97, 114, 100, 101, 100, 45, 102, 111, 114]

/-- `b"x-real-ip"`. -/
def xRealIp : List UInt8 := [120, 45, 114, 101, 97, 108, 45, 105, 112]

/-- `"0.0.0.0"`. -/
def unknownIp : Text := [48, 46, 48, 46, 48, 46, 48]

/-- `"/64"`, behind the slash. -/
def clientPrefixLength : Text := [54, 52]

/-- `_parse_ip`. -/
def parseIp (value : Option Text) : Option Address := ipAddress (strip (value.getD []))

/-- `_normalise_ip`. A network that cannot be read would raise. -/
def normaliseIp (value : Option Text) : Except TextError Text :=
  match parseIp value with
  | none => .ok unknownIp
  | some (.v4 ip) => .ok (Address.v4 ip).compressed
  | some (.v6 ip scopeId) =>
      match ipNetwork ((Address.v6 ip scopeId).compressed ++ 47 :: clientPrefixLength) with
      | some network => .ok network.networkAddress.compressed
      | none => .error .valueError

/-- `is_request_from_trusted_proxy`. -/
def isRequestFromTrustedProxy (request : Request) (trustedProxyCidrs : List Text) : Bool :=
  match parseIp request.clientHost with
  | none => false
  | some peer => trustedProxyCidrs.any fun cidr => (ipNetwork cidr).any (·.contains peer)

/-- The text in front of the first comma of `x-forwarded-for`, if the header is not empty. -/
def Request.firstHop (request : Request) : Option Text :=
  ((request.header xForwardedFor).filter (!·.isEmpty)).map fun value =>
    strip (partition 44 value).1

/-- The text of `x-real-ip`, if the header is not empty. -/
def Request.realIp (request : Request) : Option Text :=
  ((request.header xRealIp).filter (!·.isEmpty)).map strip

/-- The normalised address of a header, if it states one. -/
def statedIp : Option Text → Except TextError (Option Text)
  | none => .ok none
  | some value => do
      let ip ← normaliseIp (some value)
      pure (if ip != unknownIp then some ip else none)

/-- `resolve_client_ip`. -/
def resolveClientIp (settings : Settings) (request : Request) : Except TextError Text := do
  let peerIp ← normaliseIp request.clientHost
  if !settings.trustProxyHeaders then pure peerIp
  else if !isRequestFromTrustedProxy request settings.trustedProxyCidrs then pure peerIp
  else
    match ← statedIp request.firstHop with
    | some ip => pure ip
    | none =>
        match ← statedIp request.realIp with
        | some ip => pure ip
        | none => pure peerIp

/-- `BUCKET_KEY_PREFIX`, with the colon behind it. -/
def bucketKeyStart : Text := ofString "rlid:v1:hmac-sha256:"

/-- `_build_bucket_key`. -/
def buildBucketKey (hmac : ByteArray → ByteArray → Text) (message : Text) (secret : String) :
    Except TextError Text :=
  (encodeUtf8 message).map fun data => bucketKeyStart ++ hmac secret.toByteArray data

/-- `"user:"`. -/
def userStart : Text := [117, 115, 101, 114, 58]

/-- `"ip:"`. -/
def ipStart : Text := [105, 112, 58]

/-- `build_identifier`, of a principal by its external id. -/
def buildIdentifier (hmac : ByteArray → ByteArray → Text) (settings : Settings)
    (principal : Option Text) (request : Request) : Except TextError RateLimitIdentifier :=
  match principal with
  | some externalAuthId => do
      let bucketKey ← buildBucketKey hmac (userStart ++ externalAuthId) settings.identifierSecret
      pure ⟨"user", bucketKey⟩
  | none => do
      let ip ← resolveClientIp settings request
      let bucketKey ← buildBucketKey hmac (ipStart ++ ip) settings.identifierSecret
      pure ⟨"ip", bucketKey⟩

/-! ## Clients -/

/-- The client of an address: an IPv4-mapped address is another spelling of an IPv4 address. -/
def client : Address → Address
  | .v4 ip => .v4 ip
  | .v6 ip scopeId => if ip >>> 32 = 0xffff then .v4 (ip.setWidth 32) else .v6 ip scopeId

/-- `address.ipv4_mapped` is not `None`. -/
def isMapped : Address → Bool
  | .v4 _ => false
  | .v6 ip _ => ip >>> 32 == 0xffff

/-- The address that a header states; `0.0.0.0` states none. -/
def statedAddress (value : Option Text) : Option Address :=
  (value.bind fun value => parseIp (some value)).filter (· != .v4 0)

/-- The address of the client: what a trusted proxy states, else that of the peer. -/
def clientAddress (settings : Settings) (request : Request) : Option Address :=
  if settings.trustProxyHeaders && isRequestFromTrustedProxy request settings.trustedProxyCidrs then
    (statedAddress request.firstHop).or
      ((statedAddress request.realIp).or (parseIp request.clientHost))
  else parseIp request.clientHost

/-- The peer lies in one of the ranges. -/
def PeerIsTrusted (settings : Settings) (request : Request) : Prop :=
  ∃ peer cidr network, parseIp request.clientHost = some peer ∧
    cidr ∈ settings.trustedProxyCidrs ∧ ipNetwork cidr = some network ∧
    network.contains peer = true

/-- Headers matter only behind a trusted proxy, one client has one bucket, and two IPv4 clients
    have two. -/
structure ClientIdentity (hmac : ByteArray → ByteArray → Text) (settings : Settings)
    (request request' : Request) : Prop where
  headers : ∀ headers,
    resolveClientIp settings { request with headers } ≠ resolveClientIp settings request →
    PeerIsTrusted settings request
  sameClient : ∀ a a', clientAddress settings request = some a →
    clientAddress settings request' = some a' → client a = client a' →
    buildIdentifier hmac settings none request = buildIdentifier hmac settings none request'
  differentClients : ∀ a a' ip ip', clientAddress settings request = some a →
    clientAddress settings request' = some a' → client a = .v4 ip → client a' = .v4 ip' →
    ip ≠ ip' →
    buildIdentifier hmac settings none request ≠ buildIdentifier hmac settings none request'

/-- One IPv4 client is written the same way twice, as mapped or not, and of two IPv4 clients
    one at most is written as a mapped address. -/
def WrittenApart (a a' : Address) : Prop :=
  ∀ ip ip', client a = .v4 ip → client a' = .v4 ip' →
    (ip = ip' → isMapped a = isMapped a') ∧ (ip ≠ ip' → ¬(isMapped a = true ∧ isMapped a' = true))

/-! ## The address behind the text -/

/-- What is left of an address in its bucket. -/
def bucketAddress : Address → Address
  | .v4 ip => .v4 ip
  | .v6 ip scopeId =>
      .v6 (ip &&& netmask 128 64) (if ip &&& netmask 128 64 = ip then scopeId else none)

/-- The text of the address that is counted. -/
def countedText (address : Option Address) : Text :=
  address.elim unknownIp fun address => (bucketAddress address).compressed

theorem unknownIp_eq : unknownIp = (Address.v4 0).compressed := by decide +kernel

/-- An address is always read back from the text that the network is made of. -/
theorem normaliseIp_eq (value : Option Text) :
    normaliseIp value = .ok (countedText (parseIp value)) := by
  have mask : prefixFromPrefixString 128 clientPrefixLength = some 64 := by decide
  unfold normaliseIp
  split
  · rename_i is
    rw [is]
    rfl
  · rename_i is
    rw [is]
    rfl
  · rename_i ip scopeId is
    rw [is, ipNetwork_compressed_v6 ip scopeId (by decide) mask]
    rfl

theorem bucketAddress_eq_unknown {a : Address} : bucketAddress a = .v4 0 ↔ a = .v4 0 := by
  cases a with
  | v4 ip => rfl
  | v6 ip scopeId => simp [bucketAddress]

theorem statedIp_eq (value : Option Text) :
    statedIp value = .ok ((statedAddress value).map fun a => (bucketAddress a).compressed) := by
  cases value with
  | none => rfl
  | some value =>
      simp only [statedIp, normaliseIp_eq, statedAddress, Option.bind_some]
      cases parsed : parseIp (some value) with
      | none => rfl
      | some a =>
          have known : (bucketAddress a).compressed = unknownIp ↔ a = .v4 0 := by
            rw [unknownIp_eq, ← bucketAddress_eq_unknown]
            exact ⟨compressed_injective, congrArg Address.compressed⟩
          have same : ((bucketAddress a).compressed != unknownIp) = (a != .v4 0) := by
            rw [Bool.eq_iff_iff, bne_iff_ne, bne_iff_ne, ne_eq, ne_eq, known]
          change Except.ok
            (if ((bucketAddress a).compressed != unknownIp) = true then _ else none) = _
          rw [same, Option.filter_some]
          split
          · rfl
          · rfl

/-- The client address decides what the request is counted for. -/
theorem resolveClientIp_eq (settings : Settings) (request : Request) :
    resolveClientIp settings request = .ok (countedText (clientAddress settings request)) := by
  simp only [resolveClientIp, normaliseIp_eq, statedIp_eq, clientAddress]
  cases settings.trustProxyHeaders with
  | false => rfl
  | true =>
      cases isRequestFromTrustedProxy request settings.trustedProxyCidrs with
      | false => rfl
      | true =>
          cases statedAddress request.firstHop with
          | some a => rfl
          | none =>
              cases statedAddress request.realIp with
              | some a => rfl
              | none => rfl

theorem isRequestFromTrustedProxy_iff {settings : Settings} {request : Request} :
    isRequestFromTrustedProxy request settings.trustedProxyCidrs = true ↔
      PeerIsTrusted settings request := by
  unfold isRequestFromTrustedProxy PeerIsTrusted
  cases parseIp request.clientHost with
  | none => simp
  | some peer =>
      constructor
      · intro trusted
        obtain ⟨cidr, member, inside⟩ := List.any_eq_true.mp trusted
        obtain ⟨network, is, contains⟩ := (Option.any_eq_true _ _).mp inside
        exact ⟨peer, cidr, network, rfl, member, is, contains⟩
      · rintro ⟨_, cidr, network, ⟨⟩, member, is, contains⟩
        refine List.any_eq_true.mpr ⟨cidr, member, ?_⟩
        rw [is]
        exact contains

/-- Without a trusted peer nobody reads the headers. -/
theorem resolveClientIp_of_untrusted {settings : Settings} {request : Request}
    (untrusted : ¬PeerIsTrusted settings request) (headers : List (List UInt8 × List UInt8)) :
    resolveClientIp settings { request with headers } =
      .ok (countedText (parseIp request.clientHost)) := by
  have outside : isRequestFromTrustedProxy { request with headers } settings.trustedProxyCidrs =
      false := by
    rw [← Bool.not_eq_true]
    exact fun trusted => untrusted (isRequestFromTrustedProxy_iff.mp trusted)
  rw [resolveClientIp_eq, clientAddress, outside, Bool.and_false]
  rfl

/-! ## The bucket of a text -/

section Bucket

variable {hmac : ByteArray → ByteArray → Text} {settings : Settings}

theorem buildIdentifier_eq (request : Request) :
    buildIdentifier hmac settings none request =
      (encodeUtf8 (ipStart ++ countedText (clientAddress settings request))).map fun data =>
        ⟨"ip", bucketKeyStart ++ hmac settings.identifierSecret.toByteArray data⟩ := by
  simp only [buildIdentifier, resolveClientIp_eq, buildBucketKey, bind, Except.bind]
  cases encodeUtf8 (ipStart ++ countedText (clientAddress settings request)) with
  | error e => rfl
  | ok data => rfl

theorem buildIdentifier_congr {request request' : Request}
    (same : countedText (clientAddress settings request) =
      countedText (clientAddress settings request')) :
    buildIdentifier hmac settings none request = buildIdentifier hmac settings none request' := by
  rw [buildIdentifier_eq, buildIdentifier_eq, same]

/-- What is counted together was one text, where that can be encoded. -/
theorem countedText_eq (noCollision : ∀ secret, Function.Injective (hmac secret))
    {request request' : Request}
    (scalars : (countedText (clientAddress settings request)).all isScalar = true)
    (same : buildIdentifier hmac settings none request =
      buildIdentifier hmac settings none request') :
    countedText (clientAddress settings request) =
      countedText (clientAddress settings request') := by
  obtain ⟨data, is⟩ : ∃ data,
      encodeUtf8 (ipStart ++ countedText (clientAddress settings request)) = .ok data := by
    rw [encodeUtf8_ok_iff, List.all_append, scalars]
    decide
  rw [buildIdentifier_eq, buildIdentifier_eq, is] at same
  cases is' : encodeUtf8 (ipStart ++ countedText (clientAddress settings request')) with
  | error e =>
      rw [is'] at same
      cases same
  | ok data' =>
      rw [is'] at same
      simp only [Except.map, Except.ok.injEq, RateLimitIdentifier.mk.injEq,
        List.append_cancel_left_eq, true_and] at same
      rw [← noCollision _ same] at is'
      exact List.append_cancel_left (encodeUtf8_injective is is')

end Bucket

/-! ## The bucket of an IPv4 client -/

theorem bucketAddress_of_mapped {a : Address} (mapped : isMapped a = true) :
    bucketAddress a = .v6 0 none := by
  cases a with
  | v4 ip => cases mapped
  | v6 ip scopeId =>
      have high : ip.toNat / 2 ^ 32 = 65535 := by
        have shifted := congrArg BitVec.toNat (beq_iff_eq.mp mapped)
        rwa [BitVec.toNat_ushiftRight, Nat.shiftRight_eq_div_pow] at shifted
      have masked : ip &&& netmask 128 64 = 0#128 := and_netmask_eq_zero (by omega)
      have low : ¬(0#128 = ip) := by
        rintro rfl
        cases high
      rw [bucketAddress, masked, if_neg low]
      rfl

theorem eq_of_client_v4 {a : Address} {ip : BitVec 32} (is : client a = .v4 ip)
    (plain : isMapped a = false) : a = .v4 ip := by
  cases a with
  | v4 ip => exact is
  | v6 ip scopeId =>
      have other : ip >>> 32 ≠ 0xffff := beq_eq_false_iff_ne.mp plain
      rw [client, if_neg other] at is
      cases is

theorem eq_of_client_v6 {a : Address} {ip : BitVec 128} {scopeId : Option ScopeId}
    (is : client a = .v6 ip scopeId) : a = .v6 ip scopeId := by
  cases a with
  | v4 ip => cases is
  | v6 ip scopeId =>
      rw [client] at is
      split at is
      · cases is
      · exact is

/-- An IPv4 client is counted as it is written, or with all the others that are mapped. -/
theorem bucketAddress_of_client_v4 {a : Address} {ip : BitVec 32} (is : client a = .v4 ip) :
    bucketAddress a = if isMapped a = true then .v6 0 none else .v4 ip := by
  cases mapped : isMapped a with
  | true => exact bucketAddress_of_mapped mapped
  | false => rw [eq_of_client_v4 is mapped]; rfl

theorem all_isScalar_of_client_v4 {a : Address} {ip : BitVec 32} (is : client a = .v4 ip) :
    (countedText (some a)).all isScalar = true := by
  rw [countedText, Option.elim_some, bucketAddress_of_client_v4 is, List.all_eq_true]
  intro c member
  have ascii : c < 128 := by
    split at member
    · rcases mem_stringFromIpInt member with rfl | digit
      · decide
      · simp only [isLowerHexDigit, isAsciiDigit, Bool.or_eq_true, Bool.and_eq_true,
          decide_eq_true_eq] at digit
        omega
    · rcases mem_compressed_v4 member with rfl | digit
      · decide
      · simp only [isAsciiDigit, Bool.and_eq_true, decide_eq_true_eq] at digit
        omega
  simp only [isScalar, Nat.isValidChar, decide_eq_true_eq]
  omega

/-- Two IPv4 clients share a bucket if both are mapped, or neither is and they are the same. -/
theorem countedText_eq_iff {a a' : Address} {ip ip' : BitVec 32} (is : client a = .v4 ip)
    (is' : client a' = .v4 ip') :
    countedText (some a) = countedText (some a') ↔
      isMapped a = isMapped a' ∧ (isMapped a = true ∨ ip = ip') := by
  have texts : countedText (some a) = countedText (some a') ↔ bucketAddress a = bucketAddress a' :=
    ⟨compressed_injective, congrArg Address.compressed⟩
  rw [texts, bucketAddress_of_client_v4 is, bucketAddress_of_client_v4 is']
  cases isMapped a <;> cases isMapped a' <;> simp

/-- HMAC-SHA-256 under the secret `aaa…a` of what is counted for `203.0.113.10`, for
    `203.0.113.11` and for `::`. -/
def exampleDigests : List (Text × Text) :=
  [(ofString "ip:203.0.113.10",
      ofString "603a904213ba5db0462bbcb6abb1650fe3ab4267d12b90e44b910e0e8beaf3bf"),
    (ofString "ip:203.0.113.11",
      ofString "3bb847cba4c899d19310465be51065dba6ced760b1dd8f4b3380c9aa9bd526bd"),
    (ofString "ip:::",
      ofString "bcf4391459f2fde5c21366735f9b09604a42505688ba359c1f60f4083e21c202")]

/-- A message outside the table is marked with an `x`, which is no hexadecimal digit. -/
def exampleHmac (secret message : ByteArray) : Text :=
  let text := decodeLatin1 message.data.toList
  if secret.data.toList = List.replicate 32 97 then
    (exampleDigests.lookup text).getD (120 :: text)
  else 120 :: text

theorem exampleHmac_injective (secret : ByteArray) : Function.Injective (exampleHmac secret) := by
  have texts : Function.Injective fun message : ByteArray => decodeLatin1 message.data.toList := by
    intro message message' same
    have bytes := List.map_injective_iff.mpr (fun a b => UInt8.toNat_inj.mp) same
    exact ByteArray.ext (Array.toList_inj.mp bytes)
  have distinct : (exampleDigests.map Prod.snd).Nodup := by decide +kernel
  have unmarked : ∀ entry ∈ exampleDigests, entry.2.head? ≠ some 120 := by decide +kernel
  have found : ∀ {text digest}, exampleDigests.lookup text = some digest →
      (text, digest) ∈ exampleDigests := by
    intro text digest is
    obtain ⟨before, after, split, -⟩ := List.lookup_eq_some_iff.mp is
    rw [split]
    exact List.mem_append_right before List.mem_cons_self
  have table : Function.Injective fun text : Text =>
      (exampleDigests.lookup text).getD (120 :: text) := by
    intro text text' same
    change (exampleDigests.lookup text).getD (120 :: text) =
      (exampleDigests.lookup text').getD (120 :: text') at same
    cases is : exampleDigests.lookup text with
    | some digest =>
        cases is' : exampleDigests.lookup text' with
        | some digest' =>
            rw [is, is'] at same
            have entries := List.inj_on_of_nodup_map distinct (found is) (found is') same
            exact congrArg Prod.fst entries
        | none =>
            rw [is, is'] at same
            exact absurd (congrArg List.head? same) (unmarked _ (found is))
    | none =>
        cases is' : exampleDigests.lookup text' with
        | some digest' =>
            rw [is, is'] at same
            exact absurd (congrArg List.head? same.symm) (unmarked _ (found is'))
        | none =>
            rw [is, is'] at same
            exact (List.cons.inj same).2
  intro message message' same
  unfold exampleHmac at same
  split at same
  · exact texts (table same)
  · exact texts (List.cons.inj same).2

def exampleSettings : Settings where
  trustProxyHeaders := false
  trustedProxyCidrs := []
  identifierSecret := "aaaaaaaaaaaaaaaaaaaaaaaaaaaaaaaa"

/-- A request whose peer is written as `203.0.113.10` or `203.0.113.11`, behind some text. -/
def neighbour (start : Text) (last : Nat) : Request where
  clientHost := some (start ++ [50, 48, 51, 46, 48, 46, 49, 49, 51, 46, 49, last])
  headers := []

/-- `::ffff:`. -/
def mappedStart : Text := [58, 58, 102, 102, 102, 102, 58]

end SaasTemplate.RateLimit.Identifiers

import SaasTemplate.Text.CodePoints
import Mathlib.Data.List.TakeDrop
import Mathlib.Data.List.TakeWhile
import Mathlib.Data.Nat.Bitwise

/-! # Internet addresses and networks as text

Python's `ipaddress`: how an address is read from text and written as text, and the networks
that an address lies in. What is written is read back, so two addresses are never written
alike.
-/

namespace SaasTemplate.IpAddress

open SaasTemplate.CodePoints

/-- The zone behind the `%` of an IPv6 address. -/
structure ScopeId where
  text : Text
  nonempty : text ≠ []
  noPercent : 37 ∉ text
  noSlash : 47 ∉ text
  deriving DecidableEq

/-- `IPv4Address` or `IPv6Address`. -/
inductive Address where
  | v4 (ip : BitVec 32)
  | v6 (ip : BitVec 128) (scopeId : Option ScopeId)
  deriving DecidableEq

/-! ## Reading -/

/-- `_parse_octet`. -/
def parseOctet (text : Text) : Option Nat :=
  if text.isEmpty || !text.all isAsciiDigit || 3 < text.length then none
  else if text != [48] && text.head? == some 48 then none
  else
    let octet := text.foldl (fun n c => 10 * n + (c - 48)) 0
    if 255 < octet then none else some octet

/-- `int.from_bytes(octets, "big")`. -/
def fromBytes (octets : List Nat) : Nat := octets.foldl (fun ip octet => 256 * ip + octet) 0

/-- `IPv4Address(text)`. -/
def ipv4Address (text : Text) : Option (BitVec 32) :=
  let octets := text.splitOn 46
  if text.contains 47 || text.isEmpty || octets.length != 4 then none
  else (octets.mapM parseOctet).map fun octets => BitVec.ofNat 32 (fromBytes octets)

def hexValue (c : Nat) : Option Nat :=
  if 48 ≤ c ∧ c ≤ 57 then some (c - 48)
  else if 65 ≤ c ∧ c ≤ 70 then some (c - 55)
  else if 97 ≤ c ∧ c ≤ 102 then some (c - 87)
  else none

/-- `_parse_hextet`; `int("", 16)` fails. -/
def parseHextet (text : Text) : Option Nat :=
  if text.isEmpty || 4 < text.length then none
  else text.foldlM (fun n c => (hexValue c).map (16 * n + ·)) 0

/-- `"%x" % n`. -/
def hex (n : Nat) : Text := (Nat.toDigits 16 n).map Char.toNat

/-- The hextets of `parts`, shifted in behind `ip`. -/
def shiftInHextets (ip : Nat) (parts : List Text) : Option Nat :=
  (parts.mapM parseHextet).map fun hextets =>
    hextets.foldl (fun ip hextet => 65536 * ip + hextet) ip

/-- The parts before a `::`, of which the first may be empty if it is the only one. -/
def partsHi (first : Text) (hi : List Text) : Option (List Text) :=
  if first.isEmpty then if hi.isEmpty then some [] else none else some (first :: hi)

/-- The parts after a `::`, of which the last may be empty if it is the only one. -/
def partsLo (lo : List Text) (last : Text) : Option (List Text) :=
  if last.isEmpty then if lo.isEmpty then some [] else none else some (lo ++ [last])

/-- The number that a list of parts stands for, with at most one run of zeros left out. -/
def ipIntFromParts (first : Text) (interior : List Text) (last : Text) : Option Nat :=
  match interior.span (!·.isEmpty) with
  | (_, []) =>
      if interior.length != 6 || first.isEmpty || last.isEmpty then none
      else shiftInHextets 0 (first :: interior ++ [last])
  | (hi, _ :: lo) =>
      -- at most one `::`
      if lo.any List.isEmpty then none
      else do
        let hi ← partsHi first hi
        let lo ← partsLo lo last
        if 7 < hi.length + lo.length then none
        else
          let ip ← shiftInHextets 0 hi
          shiftInHextets (65536 ^ (8 - (hi.length + lo.length)) * ip) lo

/-- The first part, the last part and those between them. -/
def ipIntOf (parts : List Text) : Option Nat :=
  ipIntFromParts (parts.headD []) parts.tail.dropLast (parts.getLastD [])

/-- An IPv4 address as the last part stands for two hextets. -/
def expandSuffix (parts : List Text) : Option (List Text) :=
  if (parts.getLastD []).contains 46 then
    (ipv4Address (parts.getLastD [])).map fun ip =>
      parts.dropLast ++ [hex (ip.toNat / 65536 % 65536), hex (ip.toNat % 65536)]
  else some parts

/-- `_BaseV6._ip_int_from_string`. -/
def ipv6IntFromString (text : Text) : Option Nat :=
  let parts := text.splitOn 58
  if text.isEmpty || parts.length < 3 then none
  else do
    let parts ← expandSuffix parts
    if 9 < parts.length then none
    else ipIntOf parts

/-- `_split_scope_id`. There is no slash in the whole text any more. -/
def splitScopeId (text : Text) : Option (Text × Option ScopeId) :=
  match partition 37 text with
  | (addr, false, _) => some (addr, none)
  | (addr, true, scopeId) =>
      if fine : scopeId ≠ [] ∧ 37 ∉ scopeId ∧ 47 ∉ scopeId then
        some (addr, some ⟨scopeId, fine.1, fine.2.1, fine.2.2⟩)
      else none

/-- `IPv6Address(text)`. -/
def ipv6Address (text : Text) : Option (BitVec 128 × Option ScopeId) :=
  if text.contains 47 then none
  else do
    let (addr, scopeId) ← splitScopeId text
    let ip ← ipv6IntFromString addr
    some (BitVec.ofNat 128 ip, scopeId)

/-- `ip_address(text)`. -/
def ipAddress (text : Text) : Option Address :=
  match ipv4Address text with
  | some ip => some (.v4 ip)
  | none => (ipv6Address text).map fun (ip, scopeId) => .v6 ip scopeId

/-! ## Writing -/

/-- `":".join(parts)`. -/
def join (separator : Nat) (parts : List Text) : Text := [separator].intercalate parts

/-- `ip_int.to_bytes(4, "big")`. -/
def toBytes (ip : BitVec 32) : List Nat :=
  [ip.toNat / 2 ^ 24 % 256, ip.toNat / 2 ^ 16 % 256, ip.toNat / 2 ^ 8 % 256, ip.toNat % 256]

/-- The eight groups of sixteen bits. -/
def hextets (ip : BitVec 128) : List Nat :=
  [ip.toNat / 2 ^ 112 % 65536, ip.toNat / 2 ^ 96 % 65536, ip.toNat / 2 ^ 80 % 65536,
    ip.toNat / 2 ^ 64 % 65536, ip.toNat / 2 ^ 48 % 65536, ip.toNat / 2 ^ 32 % 65536,
    ip.toNat / 2 ^ 16 % 65536, ip.toNat % 65536]

/-- The variables of the loop of `_compress_hextets`. -/
structure DoubleColon where
  bestStart : Nat
  bestLen : Nat
  start : Option Nat
  len : Nat

/-- One round of the loop. -/
def DoubleColon.next (colon : DoubleColon) (index : Nat) (hextet : Text) : DoubleColon :=
  if hextet = [48] then
    let len := colon.len + 1
    let start := colon.start.getD index
    if colon.bestLen < len then ⟨start, len, some start, len⟩
    else ⟨colon.bestStart, colon.bestLen, some start, len⟩
  else ⟨colon.bestStart, colon.bestLen, none, 0⟩

/-- The loop from `index` on. -/
def findDoubleColon : List Text → Nat → DoubleColon → DoubleColon
  | [], _, colon => colon
  | hextet :: rest, index, colon => findDoubleColon rest (index + 1) (colon.next index hextet)

/-- `_compress_hextets`. -/
def compressHextets (hextets : List Text) : List Text :=
  let colon := findDoubleColon hextets 0 ⟨0, 0, none, 0⟩
  if colon.bestLen ≤ 1 then hextets
  else
    let before := hextets.take colon.bestStart
    let after := hextets.drop (colon.bestStart + colon.bestLen)
    (if before.isEmpty then [[]] else before) ++ [] :: (if after.isEmpty then [[]] else after)

/-- `_BaseV6._string_from_ip_int`. -/
def stringFromIpInt (ip : BitVec 128) : Text := join 58 (compressHextets ((hextets ip).map hex))

/-- `address.compressed`, which is `str(address)`. -/
def Address.compressed : Address → Text
  | .v4 ip => join 46 ((toBytes ip).map decimal)
  | .v6 ip scopeId =>
      match scopeId with
      | none => stringFromIpInt ip
      | some scopeId => stringFromIpInt ip ++ 37 :: scopeId.text

/-! ## Networks -/

/-- The mask of a network whose prefix has `length` bits. -/
def netmask (w length : Nat) : BitVec w := BitVec.allOnes w ^^^ (BitVec.allOnes w >>> length)

inductive Network where
  | v4 (networkAddress netmask : BitVec 32)
  | v6 (networkAddress : BitVec 128) (scopeId : Option ScopeId) (netmask : BitVec 128)
  deriving DecidableEq

def Network.networkAddress : Network → Address
  | .v4 networkAddress _ => .v4 networkAddress
  | .v6 networkAddress scopeId _ => .v6 networkAddress scopeId

/-- `_prefix_from_prefix_string`. -/
def prefixFromPrefixString (w : Nat) (text : Text) : Option Nat :=
  if text.isEmpty || !text.all isAsciiDigit then none
  else
    match int text with
    | .ok length => if length ≤ w then some length else none
    | .error _ => none

/-- `_prefix_from_ip_int`: the mask of a number of leading ones. -/
def prefixFromIpInt (ip : BitVec 32) : Option Nat :=
  (List.range 33).find? fun length => netmask 32 length == ip

/-- `_prefix_from_ip_string`: a netmask, or else a hostmask. -/
def prefixFromIpString (text : Text) : Option Nat :=
  match ipv4Address text with
  | none => none
  | some ip =>
      match prefixFromIpInt ip with
      | some length => some length
      | none => prefixFromIpInt (ip ^^^ BitVec.allOnes 32)

/-- `_split_optional_netmask`. -/
def splitOptionalNetmask (text : Text) : Option (Text × Option Text) :=
  match text.splitOn 47 with
  | [addr] => some (addr, none)
  | [addr, mask] => some (addr, some mask)
  | _ => none

/-- `IPv4Network(text, strict=False)`. -/
def ipv4Network (text : Text) : Option Network := do
  let (addr, mask) ← splitOptionalNetmask text
  let ip ← ipv4Address addr
  let length ← match mask with
    | none => some 32
    | some mask =>
        match prefixFromPrefixString 32 mask with
        | some length => some length
        | none => prefixFromIpString mask
  some (.v4 (ip &&& netmask 32 length) (netmask 32 length))

/-- `IPv6Network(text, strict=False)`: an address with host bits set loses its zone with them. -/
def ipv6Network (text : Text) : Option Network := do
  let (addr, mask) ← splitOptionalNetmask text
  let (ip, scopeId) ← ipv6Address addr
  let length ← match mask with
    | none => some 128
    | some mask => prefixFromPrefixString 128 mask
  let packed := ip &&& netmask 128 length
  some (.v6 packed (if packed = ip then scopeId else none) (netmask 128 length))

/-- `ip_network(text, strict=False)`. -/
def ipNetwork (text : Text) : Option Network :=
  match ipv4Network text with
  | some network => some network
  | none => ipv6Network text

/-- `address in network`. -/
def Network.contains : Network → Address → Bool
  | .v4 networkAddress netmask, .v4 ip => ip &&& netmask == networkAddress
  | .v6 networkAddress _ netmask, .v6 ip _ => ip &&& netmask == networkAddress
  | _, _ => false

/-! ## IPv4 addresses -/

theorem mem_join {separator c : Nat} {parts : List Text} (h : c ∈ join separator parts) :
    c = separator ∨ ∃ part ∈ parts, c ∈ part := by
  induction parts with
  | nil => simp [join] at h
  | cons part parts ih =>
      cases parts with
      | nil => exact .inr ⟨part, List.mem_cons_self, by simpa [join] using h⟩
      | cons part' parts =>
          have split : c ∈ part ∨ c = separator ∨ c ∈ join separator (part' :: parts) := by
            simpa [join, List.intercalate_cons_cons] using h
          rcases split with here | is | later
          · exact .inr ⟨part, List.mem_cons_self, here⟩
          · exact .inl is
          · rcases ih later with is | ⟨found, member, inside⟩
            · exact .inl is
            · exact .inr ⟨found, List.mem_cons_of_mem _ member, inside⟩

theorem parseOctet_decimal {n : Nat} (small : n < 256) : parseOctet (decimal n) = some n := by
  have all : ∀ n : Fin 256, parseOctet ((Nat.toDigits 10 n).map Char.toNat) = some n.val := by
    decide +kernel
  rw [decimal, ofString, Nat.toList_repr]
  exact all ⟨n, small⟩

theorem all_isAsciiDigit_of_parseOctet {text : Text} {octet : Nat}
    (h : parseOctet text = some octet) : text.all isAsciiDigit = true := by
  unfold parseOctet at h
  split at h
  · cases h
  · rename_i fine
    simp only [Bool.or_eq_true, not_or] at fine
    simpa using fine.1.2

theorem mapM_eq_some {parse : Text → Option Nat} {parts : List Text} {values : List Nat}
    (h : parts.mapM parse = some values) : ∀ part ∈ parts, ∃ value, parse part = some value := by
  induction parts generalizing values with
  | nil => simp
  | cons part parts ih =>
      simp only [List.mapM_cons, Option.bind_eq_bind, Option.bind_eq_some_iff] at h
      obtain ⟨value, is, rest, more, -⟩ := h
      intro found member
      rcases List.mem_cons.mp member with rfl | later
      · exact ⟨value, is⟩
      · exact ih more found later

theorem mapM_map {parse : Text → Option Nat} {write : Nat → Text} {values : List Nat}
    (back : ∀ value ∈ values, parse (write value) = some value) :
    (values.map write).mapM parse = some values := by
  induction values with
  | nil => rfl
  | cons value values ih =>
      have rest := ih fun value member => back value (List.mem_cons_of_mem _ member)
      simp [back value List.mem_cons_self, rest]

/-- An IPv4 address is written with digits and dots only. -/
theorem mem_of_ipv4Address {text : Text} {ip : BitVec 32} (h : ipv4Address text = some ip)
    {c : Nat} (member : c ∈ text) : c = 46 ∨ isAsciiDigit c = true := by
  simp only [ipv4Address] at h
  split at h
  · cases h
  · obtain ⟨octets, parsed, -⟩ := Option.map_eq_some_iff.mp h
    have joined : [46].intercalate (text.splitOn 46) = text := List.intercalate_splitOn 46
    rw [← joined] at member
    rcases mem_join member with is | ⟨part, inside, here⟩
    · exact .inl is
    · obtain ⟨octet, is⟩ := mapM_eq_some parsed part inside
      exact .inr (List.all_eq_true.mp (all_isAsciiDigit_of_parseOctet is) c here)

theorem fromBytes_toBytes (ip : BitVec 32) : fromBytes (toBytes ip) = ip.toNat := by
  have bound := ip.isLt
  simp only [fromBytes, toBytes, List.foldl_cons, List.foldl_nil]
  omega

theorem mem_compressed_v4 {ip : BitVec 32} {c : Nat} (h : c ∈ (Address.v4 ip).compressed) :
    c = 46 ∨ isAsciiDigit c = true := by
  rcases mem_join h with is | ⟨part, member, inside⟩
  · exact .inl is
  · obtain ⟨octet, -, rfl⟩ := List.mem_map.mp member
    exact .inr (isAsciiDigit_of_mem_decimal inside)

theorem slash_not_mem_compressed_v4 (ip : BitVec 32) : 47 ∉ (Address.v4 ip).compressed := by
  intro slash
  rcases mem_compressed_v4 slash with is | digit
  · cases is
  · exact absurd digit (by decide)

theorem ipv4Address_compressed (ip : BitVec 32) :
    ipv4Address (Address.v4 ip).compressed = some ip := by
  have noSlash : 47 ∉ (Address.v4 ip).compressed := slash_not_mem_compressed_v4 ip
  have octets : (Address.v4 ip).compressed.splitOn 46 = (toBytes ip).map decimal := by
    refine List.splitOn_intercalate 46 (fun part member dot => ?_) (by simp [toBytes])
    obtain ⟨octet, -, rfl⟩ := List.mem_map.mp member
    exact absurd (isAsciiDigit_of_mem_decimal dot) (by decide)
  have nonempty : (Address.v4 ip).compressed ≠ [] := by
    intro empty
    rw [empty] at octets
    simp [toBytes] at octets
  have parsed : ((toBytes ip).map decimal).mapM parseOctet = some (toBytes ip) := by
    refine mapM_map fun octet member => parseOctet_decimal ?_
    simp only [toBytes, List.mem_cons, List.not_mem_nil, or_false] at member
    omega
  simp only [ipv4Address, octets, parsed, Option.map_some, fromBytes_toBytes, BitVec.ofNat_toNat,
    BitVec.setWidth_eq]
  rw [if_neg]
  simp [noSlash, nonempty, toBytes]

/-! ## Hextets -/

/-- What `"%x"` writes. -/
def isLowerHexDigit (c : Nat) : Bool := isAsciiDigit c || (97 ≤ c && c ≤ 102)

theorem hexValue_digitChar {n : Nat} (digit : n < 16) :
    hexValue n.digitChar.toNat = some n ∧ isLowerHexDigit n.digitChar.toNat = true := by
  have all : ∀ n : Fin 16, hexValue n.val.digitChar.toNat = some n.val ∧
      isLowerHexDigit n.val.digitChar.toNat = true := by decide
  exact all ⟨n, digit⟩

theorem hex_of_lt {n : Nat} (digit : n < 16) : hex n = [n.digitChar.toNat] := by
  rw [hex, Nat.toDigits_of_lt_base digit, List.map_singleton]

theorem hex_of_le {n : Nat} (more : 16 ≤ n) :
    hex n = hex (n / 16) ++ [(n % 16).digitChar.toNat] := by
  rw [hex, Nat.toDigits_of_base_le (by decide) more, List.map_append, List.map_singleton, ← hex]

theorem isLowerHexDigit_of_mem_hex {n c : Nat} (h : c ∈ hex n) : isLowerHexDigit c = true := by
  induction n using Nat.strong_induction_on with
  | _ n ih =>
      rcases Nat.lt_or_ge n 16 with digit | more
      · rw [hex_of_lt digit, List.mem_singleton] at h
        exact h ▸ (hexValue_digitChar digit).2
      · rw [hex_of_le more, List.mem_append, List.mem_singleton] at h
        rcases h with before | rfl
        · exact ih (n / 16) (by omega) before
        · exact (hexValue_digitChar (Nat.mod_lt n (by decide))).2

theorem hex_ne_nil (n : Nat) : hex n ≠ [] := by
  simp [hex, Nat.toDigits_ne_nil]

theorem foldlM_hex (n : Nat) :
    (hex n).foldlM (fun n c => (hexValue c).map (16 * n + ·)) 0 = some n := by
  induction n using Nat.strong_induction_on with
  | _ n ih =>
      rcases Nat.lt_or_ge n 16 with digit | more
      · simp [hex_of_lt digit, (hexValue_digitChar digit).1]
      · have last := (hexValue_digitChar (Nat.mod_lt n (by decide : 16 > 0))).1
        simp only [hex_of_le more, List.foldlM_append, ih (n / 16) (by omega), List.foldlM_cons,
          List.foldlM_nil, last, Option.map_some, Option.bind_eq_bind, Option.bind_some,
          Option.pure_def, Option.some.injEq]
        omega

theorem parseHextet_hex {n : Nat} (small : n < 65536) : parseHextet (hex n) = some n := by
  have short : (hex n).length ≤ 4 := by
    rw [hex, List.length_map]
    exact (Nat.length_toDigits_le_iff (by decide) (by decide)).mpr small
  rw [parseHextet, if_neg, foldlM_hex]
  simp only [Bool.or_eq_true, List.isEmpty_iff, decide_eq_true_eq, not_or]
  exact ⟨hex_ne_nil n, by omega⟩

theorem shiftInHextets_hex (ip : Nat) {hextets : List Nat} (small : ∀ n ∈ hextets, n < 65536) :
    shiftInHextets ip (hextets.map hex) =
      some (hextets.foldl (fun ip hextet => 65536 * ip + hextet) ip) := by
  rw [shiftInHextets, mapM_map fun n member => parseHextet_hex (small n member), Option.map_some]

/-! ## The run of zeros that is left out -/

/-- Behind `seen`, the last `len` hextets are zeros, and so are `bestLen` ones from `bestStart`. -/
structure DoubleColon.Seen (colon : DoubleColon) (seen : List Text) : Prop where
  current : ∃ before, seen = before ++ List.replicate colon.len [48] ∧
    colon.start = if colon.len = 0 then none else some before.length
  best : ∃ before after, seen = before ++ List.replicate colon.bestLen [48] ++ after ∧
    (0 < colon.bestLen → colon.bestStart = before.length)

theorem DoubleColon.Seen.next {colon : DoubleColon} {seen : List Text} (h : colon.Seen seen)
    (hextet : Text) : (colon.next seen.length hextet).Seen (seen ++ [hextet]) := by
  obtain ⟨⟨before, split, start⟩, ⟨before', after', split', bestStart⟩⟩ := h
  have best : ∃ before after, seen ++ [hextet] =
      before ++ List.replicate colon.bestLen [48] ++ after ∧
      (0 < colon.bestLen → colon.bestStart = before.length) :=
    ⟨before', after' ++ [hextet], by rw [← List.append_assoc, ← split'], bestStart⟩
  unfold DoubleColon.next
  split
  · rename_i zero
    have from_ : colon.start.getD seen.length = before.length := by
      rw [start]
      split
      · rename_i none
        simp [split, none]
      · rfl
    have longer : seen ++ [hextet] = before ++ List.replicate (colon.len + 1) [48] := by
      rw [List.replicate_succ', zero, ← List.append_assoc, ← split]
    simp only [from_]
    split
    · exact ⟨⟨before, longer, by simp⟩, ⟨before, [], by rw [List.append_nil, longer], fun _ => rfl⟩⟩
    · exact ⟨⟨before, longer, by simp⟩, best⟩
  · exact ⟨⟨seen ++ [hextet], by simp, by simp⟩, best⟩

theorem seen_findDoubleColon {colon : DoubleColon} {seen : List Text} (h : colon.Seen seen)
    (rest : List Text) :
    (findDoubleColon rest seen.length colon).Seen (seen ++ rest) := by
  induction rest generalizing seen colon with
  | nil => simpa [findDoubleColon] using h
  | cons hextet rest ih =>
      have after := ih (h.next hextet)
      rw [List.length_append, List.length_singleton, List.append_assoc] at after
      exact after

/-- The hextets stay as they are, or a run of zeros is left out. -/
theorem compressHextets_cases (hextets : List Text) :
    compressHextets hextets = hextets ∨
      ∃ before len after, hextets = before ++ List.replicate len [48] ++ after ∧ 2 ≤ len ∧
        compressHextets hextets = (if before.isEmpty then [[]] else before) ++
          [] :: (if after.isEmpty then [[]] else after) := by
  have start : DoubleColon.Seen ⟨0, 0, none, 0⟩ [] :=
    ⟨⟨[], rfl, rfl⟩, ⟨[], [], rfl, fun _ => rfl⟩⟩
  have seen := seen_findDoubleColon start hextets
  rw [List.length_nil, List.nil_append] at seen
  simp only [compressHextets]
  generalize findDoubleColon hextets 0 ⟨0, 0, none, 0⟩ = colon at seen ⊢
  obtain ⟨before, after, split, bestStart⟩ := seen.best
  rcases Nat.lt_or_ge 1 colon.bestLen with long | short
  · have start := bestStart (by omega)
    have takes : hextets.take colon.bestStart = before := by
      rw [split, start, List.append_assoc, List.take_left']
      rfl
    have drops : hextets.drop (colon.bestStart + colon.bestLen) = after := by
      rw [split, start, List.drop_left']
      simp
    rw [if_neg (by omega), takes, drops]
    exact .inr ⟨before, colon.bestLen, after, split, by omega, rfl⟩
  · exact .inl (if_pos short)

/-! ## IPv6 addresses -/

theorem span_of_nonempty {hi : List Text} (nonempty : ∀ part ∈ hi, part ≠ []) (lo : List Text) :
    (hi ++ [] :: lo).span (!·.isEmpty) = (hi, [] :: lo) := by
  rw [List.span_eq_takeWhile_dropWhile, List.takeWhile_append_of_pos, List.dropWhile_append_of_pos]
  · simp
  all_goals
    intro part member
    simpa using nonempty part member

theorem any_isEmpty {parts : List Text} (nonempty : ∀ part ∈ parts, part ≠ []) :
    parts.any List.isEmpty = false := by
  rw [List.any_eq_false]
  intro part member
  simpa using nonempty part member

theorem ipIntOf_skip {hi lo : List Text} (nonemptyHi : ∀ part ∈ hi, part ≠ [])
    (nonemptyLo : ∀ part ∈ lo, part ≠ []) (few : hi.length + lo.length ≤ 7) :
    ipIntOf ((if hi.isEmpty then [[]] else hi) ++ [] :: (if lo.isEmpty then [[]] else lo)) =
      (shiftInHextets 0 hi).bind fun ip =>
        shiftInHextets (65536 ^ (8 - (hi.length + lo.length)) * ip) lo := by
  have main : ∀ first last hi' lo', (∀ part ∈ hi', part ≠ []) → (∀ part ∈ lo', part ≠ []) →
      partsHi first hi' = some hi → partsLo lo' last = some lo →
      ipIntFromParts first (hi' ++ [] :: lo') last = (shiftInHextets 0 hi).bind fun ip =>
        shiftInHextets (65536 ^ (8 - (hi.length + lo.length)) * ip) lo := by
    intro first last hi' lo' nonempty nonempty' is is'
    simp only [ipIntFromParts, span_of_nonempty nonempty, any_isEmpty nonempty', is, is']
    simp [Nat.not_lt.mpr few]
  have ends : ∀ (first : Text) hi' lo' (last : Text),
      ipIntOf (first :: (hi' ++ [] :: (lo' ++ [last]))) =
        ipIntFromParts first (hi' ++ [] :: lo') last := by
    intro first hi' lo' last
    have regroup : hi' ++ [] :: (lo' ++ [last]) = (hi' ++ [] :: lo') ++ [last] := by simp
    simp only [ipIntOf, List.headD_cons, List.tail_cons, regroup, List.dropLast_concat]
    rw [← List.cons_append, List.getLastD_concat]
  rcases hi with _ | ⟨first, hi⟩ <;> rcases List.eq_nil_or_concat' lo with rfl | ⟨lo, last, rfl⟩
  · exact (ends [] [] [] []).trans (main [] [] [] [] (by simp) (by simp) rfl rfl)
  · have some_ : last ≠ [] := nonemptyLo last (by simp)
    have parts : partsLo lo last = some (lo ++ [last]) := by simp [partsLo, some_]
    have nonempty : ∀ part ∈ lo, part ≠ [] := fun part member => nonemptyLo part (by simp [member])
    simpa using (ends [] [] lo last).trans (main [] last [] lo (by simp) nonempty rfl parts)
  · have some_ : first ≠ [] := nonemptyHi first (by simp)
    have parts : partsHi first hi = some (first :: hi) := by simp [partsHi, some_]
    have nonempty : ∀ part ∈ hi, part ≠ [] := fun part member => nonemptyHi part (by simp [member])
    simpa using (ends first hi [] []).trans (main first [] hi [] nonempty (by simp) parts rfl)
  · have some_ : first ≠ [] := nonemptyHi first (by simp)
    have some_' : last ≠ [] := nonemptyLo last (by simp)
    have parts : partsHi first hi = some (first :: hi) := by simp [partsHi, some_]
    have parts' : partsLo lo last = some (lo ++ [last]) := by simp [partsLo, some_']
    have nonempty : ∀ part ∈ hi, part ≠ [] := fun part member => nonemptyHi part (by simp [member])
    have nonempty' : ∀ part ∈ lo, part ≠ [] := fun part member => nonemptyLo part (by simp [member])
    have both := main first last hi lo nonempty nonempty' parts parts'
    simpa using (ends first hi lo last).trans both

theorem ipIntOf_full {parts : List Text} (nonempty : ∀ part ∈ parts, part ≠ [])
    (eight : parts.length = 8) : ipIntOf parts = shiftInHextets 0 parts := by
  rcases parts with _ | ⟨first, rest⟩
  · cases eight
  rcases List.eq_nil_or_concat' rest with rfl | ⟨interior, last, rfl⟩
  · cases eight
  have six : interior.length = 6 := by simpa using eight
  have firstIs : first ≠ [] := nonempty first (by simp)
  have lastIs : last ≠ [] := nonempty last (by simp)
  have inner : interior.span (!·.isEmpty) = (interior, []) := by
    have all : ∀ part ∈ interior, (!part.isEmpty) = true := by
      intro part member
      simpa using nonempty part (by simp [member])
    rw [List.span_eq_takeWhile_dropWhile, List.takeWhile_eq_self_iff.mpr all,
      List.dropWhile_eq_nil_iff.mpr all]
  simp only [ipIntOf, List.headD_cons, List.tail_cons, List.dropLast_concat]
  rw [← List.cons_append, List.getLastD_concat]
  simp only [ipIntFromParts, inner]
  rw [if_neg (by simp [six, firstIs, lastIs])]

theorem mem_compressHextets {hextets : List Text} {part : Text}
    (h : part ∈ compressHextets hextets) : part = [] ∨ part ∈ hextets := by
  rcases compressHextets_cases hextets with same | ⟨before, len, after, split, -, is⟩
  · exact .inr (same ▸ h)
  · have ends : ∀ parts : List Text, part ∈ (if parts.isEmpty then [[]] else parts) →
        part = [] ∨ part ∈ parts := by
      intro parts member
      split at member
      · exact .inl (List.mem_singleton.mp member)
      · exact .inr member
    rw [is, List.mem_append, List.mem_cons] at h
    rw [split]
    rcases h with early | empty | late
    · exact (ends before early).imp_right fun member => by simp [member]
    · exact .inl empty
    · exact (ends after late).imp_right fun member => by simp [member]

theorem hextets_lt {ip : BitVec 128} {n : Nat} (h : n ∈ hextets ip) : n < 65536 := by
  simp only [hextets, List.mem_cons, List.not_mem_nil, or_false] at h
  omega

/-- The hextets, shifted in one after the other, are the number. -/
theorem foldl_hextets (ip : BitVec 128) :
    (hextets ip).foldl (fun ip hextet => 65536 * ip + hextet) 0 = ip.toNat := by
  have bound := ip.isLt
  simp only [hextets, List.foldl_cons, List.foldl_nil]
  omega

theorem foldl_zeros (ip len : Nat) :
    (List.replicate len 0).foldl (fun ip hextet => 65536 * ip + hextet) ip = 65536 ^ len * ip := by
  induction len generalizing ip with
  | zero => simp
  | succ len ih =>
      rw [List.replicate_succ, List.foldl_cons, ih, pow_succ, Nat.add_zero, Nat.mul_assoc]

/-- Leaving out zeros does not change the number. -/
theorem ipIntOf_compressHextets (ip : BitVec 128) :
    ipIntOf (compressHextets ((hextets ip).map hex)) = some ip.toNat := by
  have nonempty : ∀ part ∈ (hextets ip).map hex, part ≠ [] := by
    intro part member
    obtain ⟨n, -, rfl⟩ := List.mem_map.mp member
    exact hex_ne_nil n
  have small : ∀ n ∈ hextets ip, n < 65536 := fun n member => hextets_lt member
  rcases compressHextets_cases ((hextets ip).map hex) with
    same | ⟨before, len, after, split, two, is⟩
  · rw [same, ipIntOf_full nonempty (by simp [hextets]), shiftInHextets_hex 0 small, foldl_hextets]
  · -- the numbers split as the texts do
    obtain ⟨firsts, lasts, numbers, firstsAre, lastsAre⟩ := List.map_eq_append_iff.mp split
    obtain ⟨hi, zeros, inner, hiAre, zerosAre⟩ := List.map_eq_append_iff.mp firstsAre
    have zero : zeros = List.replicate len 0 := by
      refine List.eq_replicate_iff.mpr ⟨?_, fun n member => ?_⟩
      · have same := congrArg List.length zerosAre
        simpa using same
      · have text : hex n = [48] := List.eq_of_mem_replicate (zerosAre ▸ List.mem_map_of_mem member)
        have lt : n < 65536 := small n (by simp [numbers, inner, member])
        have back := parseHextet_hex lt
        rw [text] at back
        exact (Option.some.inj back).symm
    have eight : hi.length + len + lasts.length = 8 := by
      have same := congrArg List.length numbers
      simp only [inner, zero, List.length_append, List.length_replicate] at same
      have full : (hextets ip).length = 8 := rfl
      omega
    subst hiAre lastsAre
    have smallHi : ∀ n ∈ hi, n < 65536 := fun n member => small n (by simp [numbers, inner, member])
    have smallLo : ∀ n ∈ lasts, n < 65536 := fun n member => small n (by simp [numbers, member])
    rw [is, ipIntOf_skip (fun part member => nonempty part (by simp [split, member]))
      (fun part member => nonempty part (by simp [split, member]))
      (by simp only [List.length_map]; omega)]
    rw [shiftInHextets_hex 0 smallHi, Option.bind_some, shiftInHextets_hex _ smallLo]
    have skipped : 8 - ((hi.map hex).length + (lasts.map hex).length) = len := by
      simp only [List.length_map]
      omega
    rw [skipped, ← foldl_zeros, ← foldl_hextets ip, numbers, inner, zero, List.foldl_append,
      List.foldl_append]

theorem isLowerHexDigit_of_mem_compressHextets {ip : BitVec 128} {part : Text}
    (h : part ∈ compressHextets ((hextets ip).map hex)) {c : Nat} (member : c ∈ part) :
    isLowerHexDigit c = true := by
  rcases mem_compressHextets h with rfl | inside
  · cases member
  · obtain ⟨n, -, rfl⟩ := List.mem_map.mp inside
    exact isLowerHexDigit_of_mem_hex member

/-- At least two colons, and at most eight. -/
theorem length_compressHextets (ip : BitVec 128) :
    3 ≤ (compressHextets ((hextets ip).map hex)).length ∧
      (compressHextets ((hextets ip).map hex)).length ≤ 9 := by
  have full : ((hextets ip).map hex).length = 8 := rfl
  rcases compressHextets_cases ((hextets ip).map hex) with
    same | ⟨before, len, after, split, two, is⟩
  · rw [same, full]
    decide
  · have ends : ∀ parts : List Text,
        (if parts.isEmpty then [[]] else parts).length = max 1 parts.length := by
      intro parts
      cases parts with
      | nil => rfl
      | cons part parts => exact (Nat.max_eq_right (Nat.le_add_left 1 parts.length)).symm
    rw [split, List.length_append, List.length_append, List.length_replicate] at full
    rw [is, List.length_append, List.length_cons, ends, ends]
    omega

theorem mem_stringFromIpInt {ip : BitVec 128} {c : Nat} (h : c ∈ stringFromIpInt ip) :
    c = 58 ∨ isLowerHexDigit c = true := by
  rcases mem_join h with is | ⟨part, member, inside⟩
  · exact .inl is
  · exact .inr (isLowerHexDigit_of_mem_compressHextets member inside)

theorem not_mem_stringFromIpInt (ip : BitVec 128) {c : Nat} (noColon : c ≠ 58)
    (noDigit : isLowerHexDigit c = false) : c ∉ stringFromIpInt ip := by
  intro member
  rcases mem_stringFromIpInt member with is | digit
  · exact noColon is
  · exact Bool.false_ne_true (noDigit.symm.trans digit)

theorem splitOn_stringFromIpInt (ip : BitVec 128) :
    (stringFromIpInt ip).splitOn 58 = compressHextets ((hextets ip).map hex) := by
  refine List.splitOn_intercalate 58 (fun part member colon => ?_) (fun empty => ?_)
  · exact absurd (isLowerHexDigit_of_mem_compressHextets member colon) (by decide)
  · have some_ := (length_compressHextets ip).1
    rw [empty] at some_
    cases some_

theorem ipv6IntFromString_stringFromIpInt (ip : BitVec 128) :
    ipv6IntFromString (stringFromIpInt ip) = some ip.toNat := by
  obtain ⟨three, nine⟩ := length_compressHextets ip
  have nonempty : stringFromIpInt ip ≠ [] := by
    intro empty
    have parts := splitOn_stringFromIpInt ip
    rw [empty] at parts
    rw [← parts] at three
    exact absurd three (by decide)
  have noDot : ((compressHextets ((hextets ip).map hex)).getLastD []).contains 46 = false := by
    rw [← Bool.not_eq_true, List.contains_iff_mem]
    intro dot
    rcases List.eq_nil_or_concat' (compressHextets ((hextets ip).map hex)) with
      none | ⟨_, last, split⟩
    · rw [none] at dot
      cases dot
    · rw [split, List.getLastD_concat] at dot
      have member : last ∈ compressHextets ((hextets ip).map hex) := by simp [split]
      exact absurd (isLowerHexDigit_of_mem_compressHextets member dot) (by decide)
  simp only [ipv6IntFromString, splitOn_stringFromIpInt, expandSuffix, noDot]
  rw [if_neg (by simp [nonempty, three])]
  simp [Nat.not_lt.mpr nine, ipIntOf_compressHextets]

theorem colon_mem_stringFromIpInt (ip : BitVec 128) : 58 ∈ stringFromIpInt ip := by
  by_contra fresh
  have whole : (stringFromIpInt ip).splitOn 58 = [stringFromIpInt ip] := by
    have apart : ∀ part ∈ [stringFromIpInt ip], 58 ∉ part :=
      fun part member => List.mem_singleton.mp member ▸ fresh
    simpa using List.splitOn_intercalate 58 apart (by simp)
  have three := (length_compressHextets ip).1
  rw [← splitOn_stringFromIpInt, whole, List.length_singleton] at three
  exact absurd three (by decide)

theorem colon_mem_compressed_v6 (ip : BitVec 128) (scopeId : Option ScopeId) :
    58 ∈ (Address.v6 ip scopeId).compressed := by
  cases scopeId with
  | none => exact colon_mem_stringFromIpInt ip
  | some scopeId => exact List.mem_append_left _ (colon_mem_stringFromIpInt ip)

/-- No address is written with a slash. -/
theorem slash_not_mem_compressed (address : Address) : 47 ∉ address.compressed := by
  cases address with
  | v4 ip => exact slash_not_mem_compressed_v4 ip
  | v6 ip scopeId =>
      have inner : 47 ∉ stringFromIpInt ip := not_mem_stringFromIpInt ip (by decide) rfl
      cases scopeId with
      | none => exact inner
      | some scopeId => simp [Address.compressed, inner, scopeId.noSlash]

theorem splitScopeId_compressed (ip : BitVec 128) (scopeId : Option ScopeId) :
    splitScopeId (Address.v6 ip scopeId).compressed = some (stringFromIpInt ip, scopeId) := by
  have fresh : ∀ c ∈ stringFromIpInt ip, (c != 37) = true := by
    intro c member
    refine bne_iff_ne.mpr fun percent => ?_
    exact not_mem_stringFromIpInt ip (by decide) rfl (percent ▸ member)
  cases scopeId with
  | none =>
      have whole : (stringFromIpInt ip).span (· != 37) = (stringFromIpInt ip, []) := by
        rw [List.span_eq_takeWhile_dropWhile, List.takeWhile_eq_self_iff.mpr fresh,
          List.dropWhile_eq_nil_iff.mpr fresh]
      simp only [splitScopeId, Address.compressed, partition, whole]
  | some scopeId =>
      have parts : (stringFromIpInt ip ++ 37 :: scopeId.text).span (· != 37) =
          (stringFromIpInt ip, 37 :: scopeId.text) := by
        rw [List.span_eq_takeWhile_dropWhile, List.takeWhile_append_of_pos fresh,
          List.dropWhile_append_of_pos fresh]
        simp
      have fine : scopeId.text ≠ [] ∧ 37 ∉ scopeId.text ∧ 47 ∉ scopeId.text :=
        ⟨scopeId.nonempty, scopeId.noPercent, scopeId.noSlash⟩
      simp only [splitScopeId, Address.compressed, partition, parts, dif_pos fine]

theorem ipv6Address_compressed (ip : BitVec 128) (scopeId : Option ScopeId) :
    ipv6Address (Address.v6 ip scopeId).compressed = some (ip, scopeId) := by
  have noSlash := slash_not_mem_compressed (.v6 ip scopeId)
  simp [ipv6Address, noSlash, splitScopeId_compressed, ipv6IntFromString_stringFromIpInt]

/-- An IPv6 address is not read as an IPv4 address. -/
theorem ipv4Address_compressed_v6 (ip : BitVec 128) (scopeId : Option ScopeId) :
    ipv4Address (Address.v6 ip scopeId).compressed = none := by
  rw [Option.eq_none_iff_forall_ne_some]
  intro ip' is
  rcases mem_of_ipv4Address is (colon_mem_compressed_v6 ip scopeId) with dot | digit
  · cases dot
  · exact absurd digit (by decide)

/-- What is written is read back. -/
theorem ipAddress_compressed (address : Address) : ipAddress address.compressed = some address := by
  cases address with
  | v4 ip => simp [ipAddress, ipv4Address_compressed]
  | v6 ip scopeId => simp [ipAddress, ipv4Address_compressed_v6, ipv6Address_compressed]

theorem compressed_injective {address address' : Address}
    (h : address.compressed = address'.compressed) : address = address' := by
  have back := ipAddress_compressed address
  rw [h, ipAddress_compressed address'] at back
  exact (Option.some.inj back).symm

/-! ## The network of an address -/

theorem splitOptionalNetmask_append {addr mask : Text} (noSlash : 47 ∉ addr)
    (noSlash' : 47 ∉ mask) :
    splitOptionalNetmask (addr ++ 47 :: mask) = some (addr, some mask) := by
  have parts : (addr ++ 47 :: mask).splitOn 47 = [addr, mask] := by
    have joined : addr ++ 47 :: mask = [47].intercalate [addr, mask] := by simp
    rw [joined]
    refine List.splitOn_intercalate 47 (fun part member => ?_) (by simp)
    rcases List.mem_cons.mp member with rfl | last
    · exact noSlash
    · exact List.mem_singleton.mp last ▸ noSlash'
  simp only [splitOptionalNetmask, parts]

/-- The network of the prefix with which an IPv6 address is written. -/
theorem ipNetwork_compressed_v6 (ip : BitVec 128) (scopeId : Option ScopeId) {mask : Text}
    {length : Nat} (noSlash : 47 ∉ mask) (is : prefixFromPrefixString 128 mask = some length) :
    ipNetwork ((Address.v6 ip scopeId).compressed ++ 47 :: mask) =
      some (.v6 (ip &&& netmask 128 length)
        (if ip &&& netmask 128 length = ip then scopeId else none) (netmask 128 length)) := by
  have parts := splitOptionalNetmask_append (slash_not_mem_compressed (.v6 ip scopeId)) noSlash
  have none : ipv4Network ((Address.v6 ip scopeId).compressed ++ 47 :: mask) = none := by
    simp [ipv4Network, parts, ipv4Address_compressed_v6]
  simp [ipNetwork, none, ipv6Network, parts, ipv6Address_compressed, is]

/-- Masking keeps the leading bits. -/
theorem getLsbD_netmask {w length i : Nat} :
    (netmask w length).getLsbD i = (decide (i < w) && decide (w ≤ length + i)) := by
  rw [netmask, BitVec.getLsbD_xor, BitVec.getLsbD_ushiftRight, BitVec.getLsbD_allOnes,
    BitVec.getLsbD_allOnes]
  by_cases small : i < w <;> by_cases high : w ≤ length + i <;> simp [small, high] <;> omega

/-- An address whose leading bits are zeros lies in the network at zero. -/
theorem and_netmask_eq_zero {w length : Nat} {ip : BitVec w} (small : ip.toNat < 2 ^ (w - length)) :
    ip &&& netmask w length = 0#w := by
  refine BitVec.eq_of_getLsbD_eq fun i inside => ?_
  rw [BitVec.getLsbD_and, getLsbD_netmask, BitVec.getLsbD_zero]
  rcases Nat.lt_or_ge i (w - length) with low | high
  · have out : ¬w ≤ length + i := by omega
    simp [out]
  · have clear : ip.getLsbD i = false :=
      Nat.testBit_lt_two_pow (small.trans_le (Nat.pow_le_pow_right (by decide) high))
    simp [clear]

end SaasTemplate.IpAddress

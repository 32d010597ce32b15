import SaasTemplate.Text.Json

/-! # JSON texts of ASCII characters

An encoder may write every character that is not printable ASCII as an escape, and those
above the first plane as two: a pair of surrogates. Read back, the text is the same value.
-/

namespace SaasTemplate.JsonText

/-- Four hexadecimal digits. -/
def hex4 (n : Nat) : List Char :=
  [hexDigit (n / 4096), hexDigit (n / 256 % 16), hexDigit (n / 16 % 16), hexDigit (n % 16)]

def unicodeEscape (n : Nat) : List Char := '\\' :: 'u' :: hex4 n

/-- A character of a JSON text, with an escape where it is not printable ASCII. -/
def asciiChar (c : Char) : List Char :=
  if c.toNat < 127 then [c]
  else if c.toNat < 0x10000 then unicodeEscape c.toNat
  else unicodeEscape (0xd800 + (c.toNat - 0x10000) / 1024) ++
    unicodeEscape (0xdc00 + (c.toNat - 0x10000) % 1024)

/-- `json.dumps(value, separators=(",", ":"))`. -/
def dumps (v : Json) : List Char := v.encode.flatMap asciiChar

/-- The number of an escape at the head of a text. -/
def escapeUnit : List Char → Option Nat
  | backslash :: u :: a :: b :: c :: d :: _ =>
      if backslash = '\\' ∧ u = 'u' then do
        let a ← hexValue a
        let b ← hexValue b
        let c ← hexValue c
        let d ← hexValue d
        some (((a * 16 + b) * 16 + c) * 16 + d)
      else none
  | _ => none

/-- The character that a text begins with as an escape, where it is not ASCII, and the
length of the escape. -/
def wideEscape (text : List Char) : Option (Char × Nat) :=
  match escapeUnit text with
  | none => none
  | some n =>
      if n < 127 then none
      else if 0xd800 ≤ n ∧ n < 0xdc00 then
        match escapeUnit (text.drop 6) with
        | none => none
        | some m =>
            if 0xdc00 ≤ m ∧ m < 0xe000 then
              some (Char.ofNat (0x10000 + (n - 0xd800) * 1024 + (m - 0xdc00)), 12)
            else none
      else if n.isValidChar then some (Char.ofNat n, 6) else none

/-- The text with those escapes resolved. `skip` characters are still to be left out, and
`quoted` says that a backslash came before. -/
def unescape : (skip : Nat) → (quoted : Bool) → List Char → List Char
  | _, _, [] => []
  | skip + 1, _, _ :: rest => unescape skip false rest
  | 0, true, c :: rest => c :: unescape 0 false rest
  | 0, false, c :: rest =>
      match wideEscape (c :: rest) with
      | some (d, length) => d :: unescape (length - 1) false rest
      | none => c :: unescape 0 (c == '\\') rest

/-- `json.loads`, but for texts with a lone surrogate. -/
def loads (text : List Char) : Option Json := read (unescape 0 false text)

theorem unescape_skip (skipped rest : List Char) :
    unescape skipped.length false (skipped ++ rest) = unescape 0 false rest := by
  induction skipped with
  | nil => rfl
  | cons c cs ih => rw [List.length_cons, List.cons_append, unescape, ih]

theorem escapeUnit_unicodeEscape {n : Nat} (bound : n < 0x10000) (rest : List Char) :
    escapeUnit (unicodeEscape n ++ rest) = some n := by
  simp only [unicodeEscape, hex4, List.cons_append, List.nil_append, escapeUnit, and_self, if_true,
    hexValue_hexDigit (n / 4096) (by omega), hexValue_hexDigit (n / 256 % 16) (by omega),
    hexValue_hexDigit (n / 16 % 16) (by omega), hexValue_hexDigit (n % 16) (by omega),
    Option.bind_eq_bind, Option.bind_some, Option.some.injEq]
  omega

theorem wideEscape_of_ne {c : Char} (plain : c ≠ '\\') (rest : List Char) :
    wideEscape (c :: rest) = none := by
  have noUnit : escapeUnit (c :: rest) = none := by
    unfold escapeUnit
    split
    · rename_i is
      obtain ⟨rfl, -⟩ := List.cons.inj is
      simp [plain]
    · rfl
  rw [wideEscape, noUnit]

/-- An escape that is not ASCII is resolved. -/
theorem unescape_asciiChar {c : Char} (wide : 127 ≤ c.toNat) (rest : List Char) :
    unescape 0 false (asciiChar c ++ rest) = c :: unescape 0 false rest := by
  have valid := c.valid
  have scalar : c.toNat < 0xd800 ∨ (0xdfff < c.toNat ∧ c.toNat < 0x110000) := valid
  have resolved : ∀ escape : List Char,
      wideEscape ('\\' :: escape ++ rest) = some (c, escape.length + 1) →
      unescape 0 false ('\\' :: escape ++ rest) = c :: unescape 0 false rest := by
    intro escape is
    rw [List.cons_append] at is ⊢
    rw [unescape, is]
    simp only [Nat.add_sub_cancel]
    rw [unescape_skip]
  unfold asciiChar
  rw [if_neg (by omega)]
  split
  · rename_i plane
    refine resolved ('u' :: hex4 c.toNat) ?_
    have unit := escapeUnit_unicodeEscape plane rest
    rw [unicodeEscape, List.cons_append] at unit
    rw [wideEscape, List.cons_append, unit]
    simp only [if_neg (show ¬ c.toNat < 127 by omega),
      if_neg (show ¬ (0xd800 ≤ c.toNat ∧ c.toNat < 0xdc00) by omega),
      if_pos (show c.toNat.isValidChar from valid), Char.ofNat_toNat]
    rfl
  · rename_i above
    generalize high : 0xd800 + (c.toNat - 0x10000) / 1024 = n
    generalize low : 0xdc00 + (c.toNat - 0x10000) % 1024 = m
    refine resolved ('u' :: hex4 n ++ unicodeEscape m) ?_
    have first := escapeUnit_unicodeEscape (show n < 0x10000 by omega) (unicodeEscape m ++ rest)
    have second := escapeUnit_unicodeEscape (show m < 0x10000 by omega) rest
    have shape : '\\' :: ('u' :: hex4 n ++ unicodeEscape m) ++ rest =
        unicodeEscape n ++ (unicodeEscape m ++ rest) := by
      simp [unicodeEscape]
    have drop : (unicodeEscape n ++ (unicodeEscape m ++ rest)).drop 6 = unicodeEscape m ++ rest := rfl
    rw [shape, wideEscape, first]
    simp only [if_neg (show ¬ n < 127 by omega),
      if_pos (show 0xd800 ≤ n ∧ n < 0xdc00 by omega), drop, second,
      if_pos (show 0xdc00 ≤ m ∧ m < 0xe000 by omega)]
    rw [show 0x10000 + (n - 0xd800) * 1024 + (m - 0xdc00) = c.toNat by omega, Char.ofNat_toNat]
    rfl

/-! ## Reading back -/

/-- The text is found again where its characters were escaped. -/
def Recovered (text : List Char) : Prop :=
  ∀ rest, unescape 0 false (text.flatMap asciiChar ++ rest) = text ++ unescape 0 false rest

theorem Recovered.append {text text' : List Char} (h : Recovered text) (h' : Recovered text') :
    Recovered (text ++ text') := by
  intro rest
  rw [List.flatMap_append, List.append_assoc, h, h', List.append_assoc]

theorem recovered_nil : Recovered [] := by
  intro rest
  rfl

theorem recovered_singleton {c : Char} (plain : c ≠ '\\') : Recovered [c] := by
  intro rest
  rw [List.flatMap_singleton]
  by_cases ascii : c.toNat < 127
  · have open_ : (c == '\\') = false := beq_false_of_ne plain
    rw [asciiChar, if_pos ascii, List.singleton_append, unescape, wideEscape_of_ne plain]
    simp only [open_, List.singleton_append]
  · exact unescape_asciiChar (by omega) rest

theorem recovered_of_plain {text : List Char} (plain : ∀ c ∈ text, c ≠ '\\') : Recovered text := by
  induction text with
  | nil => exact recovered_nil
  | cons c cs ih =>
      exact (recovered_singleton (plain c List.mem_cons_self)).append
        (ih fun d member => plain d (List.mem_cons_of_mem c member))

/-- A backslash and an ASCII character that is no `u`. -/
theorem recovered_pair {e : Char} (noUnicode : e ≠ 'u') (ascii : e.toNat < 127) :
    Recovered ['\\', e] := by
  intro rest
  have noUnit : wideEscape ('\\' :: e :: rest) = none := by
    have noUnit : escapeUnit ('\\' :: e :: rest) = none := by
      unfold escapeUnit
      split
      · rename_i is
        obtain ⟨-, more⟩ := List.cons.inj is
        obtain ⟨rfl, -⟩ := List.cons.inj more
        simp [noUnicode]
      · rfl
    rw [wideEscape, noUnit]
  have single : asciiChar e = [e] := if_pos ascii
  have backslash : asciiChar '\\' = ['\\'] := rfl
  simp only [List.flatMap_cons, List.flatMap_nil, backslash, single, List.append_nil,
    List.cons_append, List.nil_append]
  rw [unescape, noUnit]
  simp [unescape]

/-- An escape of a control character stays as it is. -/
theorem recovered_control {n : Nat} (control : n < 32) :
    Recovered ['\\', 'u', '0', '0', hexDigit (n / 16), hexDigit (n % 16)] := by
  have digit : ∀ k < 16, (hexDigit k).toNat < 127 ∧ hexDigit k ≠ '\\' := by decide
  have shape : ['\\', 'u', '0', '0', hexDigit (n / 16), hexDigit (n % 16)] = unicodeEscape n := by
    simp only [unicodeEscape, hex4, show n / 4096 = 0 by omega, show n / 256 % 16 = 0 by omega,
      show n / 16 % 16 = n / 16 by omega]
    rfl
  have tail : Recovered ['0', '0', hexDigit (n / 16), hexDigit (n % 16)] := by
    refine recovered_of_plain ?_
    simp [(digit (n / 16) (by omega)).2, (digit (n % 16) (by omega)).2]
  have unchanged : ∀ c ∈ ['\\', 'u', '0', '0', hexDigit (n / 16), hexDigit (n % 16)],
      asciiChar c = [c] := by
    have small : ∀ c ∈ ['\\', 'u', '0', '0', hexDigit (n / 16), hexDigit (n % 16)],
        c.toNat < 127 := by
      simp [(digit (n / 16) (by omega)).1, (digit (n % 16) (by omega)).1]
    exact fun c member => if_pos (small c member)
  intro rest
  have same : ['\\', 'u', '0', '0', hexDigit (n / 16), hexDigit (n % 16)].flatMap asciiChar =
      '\\' :: 'u' :: ['0', '0', hexDigit (n / 16), hexDigit (n % 16)].flatMap asciiChar := by
    rw [List.flatMap_cons, List.flatMap_cons, unchanged _ (by simp), unchanged _ (by simp)]
    rfl
  have narrow : wideEscape
      ('\\' :: 'u' :: ['0', '0', hexDigit (n / 16), hexDigit (n % 16)].flatMap asciiChar ++ rest) =
        none := by
    have unit := escapeUnit_unicodeEscape (show n < 0x10000 by omega) rest
    have flat : ['\\', 'u', '0', '0', hexDigit (n / 16), hexDigit (n % 16)].flatMap asciiChar =
        unicodeEscape n := by
      rw [List.flatMap_congr (fun c member => unchanged c member), List.flatMap_singleton', shape]
    rw [wideEscape, ← same, flat, unit]
    simp only [if_pos (show n < 127 by omega)]
  rw [same]
  simp only [List.cons_append] at narrow ⊢
  rw [unescape, narrow]
  simp only [BEq.rfl, unescape, tail rest, List.cons_append]

theorem recovered_escapeChar (c : Char) : Recovered (escapeChar c) := by
  rcases escapeChar_cases c with ⟨e, is, notU, ascii, -⟩ | ⟨is, control⟩ | ⟨is, -, slash, -⟩
  · rw [is]
    exact recovered_pair notU ascii
  · rw [is]
    exact recovered_control control
  · rw [is]
    exact recovered_singleton slash

theorem recovered_encodeString (s : String) : Recovered (encodeString s) := by
  have inner : ∀ chars : List Char, Recovered (chars.flatMap escapeChar) := by
    intro chars
    induction chars with
    | nil => exact recovered_nil
    | cons c cs ih =>
        rw [List.flatMap_cons]
        exact (recovered_escapeChar c).append ih
  have quote : Recovered ['"'] := recovered_singleton (by decide)
  exact (quote.append (inner s.toList)).append quote

theorem recovered_commas {texts : List (List Char)} (each : ∀ t ∈ texts, Recovered t) :
    Recovered (commas texts) := by
  cases texts with
  | nil => exact recovered_nil
  | cons t ts =>
      rw [commas_cons]
      refine (each t List.mem_cons_self).append ?_
      have others : ∀ t' ∈ ts, Recovered t' := fun t' member => each t' (List.mem_cons_of_mem t member)
      clear each
      induction ts with
      | nil => exact recovered_nil
      | cons u us ih =>
          rw [List.flatMap_cons]
          have comma : Recovered [','] := recovered_singleton (by decide)
          exact (comma.append (others u List.mem_cons_self)).append
            (ih fun t' member => others t' (List.mem_cons_of_mem u member))

theorem recovered_number {text : List Char} (number : ∀ c ∈ text, isNumberChar c = true) :
    Recovered text := by
  refine recovered_of_plain ?_
  rintro c member rfl
  have is := number _ member
  revert is
  decide

/-- Every encoding is found again. -/
theorem recovered_encode (v : Json) : Recovered v.encode := by
  induction v using Json.induct with
  | atom v noArr noObj =>
      cases v with
      | arr items => exact absurd rfl (noArr items)
      | obj members => exact absurd rfl (noObj members)
      | null => exact recovered_of_plain (by simp [Json.encode])
      | bool value => cases value <;> exact recovered_of_plain (by simp [Json.encode])
      | int n =>
          rw [Json.encode]
          exact recovered_number (textOfInt_spec n).2.2
      | float x =>
          rw [Json.encode]
          exact recovered_number (JsonFloat.spec x).2.1
      | str s =>
          rw [Json.encode]
          exact recovered_encodeString s
  | arr items each =>
      rw [Json.encode, Json.encodeItems_eq]
      have opening : Recovered ['['] := recovered_singleton (by decide)
      have closing : Recovered [']'] := recovered_singleton (by decide)
      refine (opening.append (recovered_commas ?_)).append closing
      intro t member
      obtain ⟨v, item, rfl⟩ := List.mem_map.mp member
      exact each v item
  | obj members each =>
      rw [Json.encode, Json.encodeMembers_eq]
      have opening : Recovered ['{'] := recovered_singleton (by decide)
      have closing : Recovered ['}'] := recovered_singleton (by decide)
      have colon : Recovered [':'] := recovered_singleton (by decide)
      refine (opening.append (recovered_commas ?_)).append closing
      intro t inside
      obtain ⟨m, item, rfl⟩ := List.mem_map.mp inside
      rw [member, show encodeString m.1 ++ ':' :: m.2.encode =
        encodeString m.1 ++ [':'] ++ m.2.encode by simp]
      exact ((recovered_encodeString m.1).append colon).append (each m item)

/-- Every value is read back from its ASCII text. -/
theorem loads_dumps (v : Json) : loads (dumps v) = some v := by
  have back := recovered_encode v []
  simp only [List.append_nil, unescape] at back
  rw [loads, dumps, back, read_encode]

end SaasTemplate.JsonText

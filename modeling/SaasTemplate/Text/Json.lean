import Mathlib.Data.List.Basic

/-! # JSON texts

JSON values, their compact encoding, and a reader for JSON texts with any white space
between the tokens. An integer is a number, any other number is known by its text. The
reader refuses `\u` escapes of surrogates, which the encoder never writes. It reads back
what was encoded, so that an encoding is a JSON text, and of one value only.
-/

namespace SaasTemplate

/-! ## Numbers -/

namespace JsonText

/-- The characters of numbers. -/
def isNumberChar (c : Char) : Bool := c.isDigit || "+-.eE".toList.contains c

/-- Digits without a leading zero: the decimal text of some number. -/
def isNatText (text : List Char) : Bool :=
  text.all Char.isDigit && Nat.toDigits 10 (Nat.ofDigitChars 10 text 0) == text

/-- The text without its minus sign. -/
def unsigned (text : List Char) : List Char := if text.head? = some '-' then text.tail else text

def isIntText (text : List Char) : Bool := isNatText (unsigned text)

def intOfText (text : List Char) : Int :=
  let n : Int := Nat.ofDigitChars 10 (unsigned text) 0
  if text.head? = some '-' then -n else n

def textOfInt (n : Int) : List Char :=
  if n < 0 then '-' :: Nat.toDigits 10 n.natAbs else Nat.toDigits 10 n.natAbs

def isDigits (text : List Char) : Bool := text ≠ [] && text.all Char.isDigit

def isExponent : List Char → Bool
  | [] => false
  | e :: text => (e == 'e' || e == 'E') &&
      isDigits (if text.head? = some '+' ∨ text.head? = some '-' then text.tail else text)

/-- What follows the integer part of a number: a fraction, an exponent, or both. -/
def isFractionOrExponent : List Char → Bool
  | [] => false
  | c :: text =>
      if c = '.' then
        isDigits (text.takeWhile Char.isDigit) &&
          (text.dropWhile Char.isDigit == [] || isExponent (text.dropWhile Char.isDigit))
      else isExponent (c :: text)

/-- A number with a fraction or an exponent. -/
def isFloatText (text : List Char) : Bool :=
  !isIntText text && text.all isNumberChar &&
    isNatText ((unsigned text).takeWhile Char.isDigit) &&
    isFractionOrExponent ((unsigned text).dropWhile Char.isDigit)

end JsonText

/-- A number that is no integer, by its text. -/
structure JsonFloat where
  text : List Char
  valid : JsonText.isFloatText text = true
  deriving DecidableEq, Repr

/-- A JSON value; the members of an object are in order. -/
inductive Json where
  | null
  | bool (value : Bool)
  | int (value : Int)
  | float (value : JsonFloat)
  | str (value : String)
  | arr (items : List Json)
  | obj (members : List (String × Json))
  deriving Repr

namespace JsonText

/-! ## Encoding -/

def hexDigit (n : Nat) : Char := Nat.digitChar n

/-- A character within a string. -/
def escapeChar (c : Char) : List Char :=
  if c = '"' then ['\\', '"']
  else if c = '\\' then ['\\', '\\']
  else if c = '\n' then ['\\', 'n']
  else if c = '\r' then ['\\', 'r']
  else if c = '\t' then ['\\', 't']
  else if c = '\x0c' then ['\\', 'f']
  else if c = '\x08' then ['\\', 'b']
  else if c.toNat < 32 then
    ['\\', 'u', '0', '0', hexDigit (c.toNat / 16), hexDigit (c.toNat % 16)]
  else [c]

def encodeString (s : String) : List Char := '"' :: s.toList.flatMap escapeChar ++ ['"']

/-- Texts with commas between them. -/
def commas (texts : List (List Char)) : List Char := [','].intercalate texts

/-- A member of an object. -/
def member (key : String) (value : List Char) : List Char := encodeString key ++ ':' :: value

end JsonText

namespace Json

open JsonText

mutual

/-- The compact encoding. -/
def encode : Json → List Char
  | .null => "null".toList
  | .bool true => "true".toList
  | .bool false => "false".toList
  | .int n => textOfInt n
  | .float x => x.text
  | .str s => encodeString s
  | .arr items => '[' :: commas (encodeItems items) ++ [']']
  | .obj members => '{' :: commas (encodeMembers members) ++ ['}']

def encodeItems : List Json → List (List Char)
  | [] => []
  | v :: vs => encode v :: encodeItems vs

def encodeMembers : List (String × Json) → List (List Char)
  | [] => []
  | (key, v) :: ms => member key (encode v) :: encodeMembers ms

end

theorem encodeItems_eq (items : List Json) : encodeItems items = items.map encode := by
  induction items with
  | nil => rfl
  | cons v vs ih => rw [encodeItems, ih, List.map_cons]

theorem encodeMembers_eq (members : List (String × Json)) :
    encodeMembers members = members.map fun m => member m.1 (encode m.2) := by
  induction members with
  | nil => rfl
  | cons m ms ih => rw [encodeMembers, ih, List.map_cons]

/-- Induction over values, with all items and all members at once. -/
theorem induct {P : Json → Prop} (atom : ∀ v, (∀ items, v ≠ .arr items) →
      (∀ members, v ≠ .obj members) → P v)
    (arr : ∀ items, (∀ v ∈ items, P v) → P (.arr items))
    (obj : ∀ members : List (String × Json), (∀ m ∈ members, P m.2) → P (.obj members))
    (v : Json) : P v :=
  @Json.rec P (fun items => ∀ v ∈ items, P v) (fun members => ∀ m ∈ members, P m.2) (fun m => P m.2)
    (atom _ nofun nofun) (fun _ => atom _ nofun nofun) (fun _ => atom _ nofun nofun)
    (fun _ => atom _ nofun nofun) (fun _ => atom _ nofun nofun) arr obj
    (fun _ member => nomatch member)
    (fun _ _ first rest w member => (List.mem_cons.mp member).elim (fun is => is ▸ first) (rest w))
    (fun _ member => nomatch member)
    (fun _ _ first rest w member => (List.mem_cons.mp member).elim (fun is => is ▸ first) (rest w))
    (fun _ _ value => value) v

/-- Equality of values, where the order of the outermost members does not matter. -/
def SameMembers : Json → Json → Prop
  | .obj members, .obj members' => members.Perm members' ∧ (members.map Prod.fst).Nodup
  | v, w => v = w

/-! ### Chunks -/

def isContainer : Json → Bool
  | .arr _ | .obj _ => true
  | _ => false

mutual

/-- The chunks in which an encoder writes a value. -/
def iterencode : Json → List (List Char)
  | .arr items => if items.isEmpty then ["[]".toList] else itemChunks ['['] items ++ [[']']]
  | .obj members =>
      if members.isEmpty then ["{}".toList] else ['{'] :: memberChunks [] members ++ [['}']]
  | v => [encode v]

/-- The chunks of items; what has to stand before the first one goes into its chunk. -/
def itemChunks : List Char → List Json → List (List Char)
  | _, [] => []
  | buffer, v :: vs =>
      (if v.isContainer then buffer :: iterencode v else [buffer ++ encode v]) ++
        itemChunks [','] vs

/-- The chunks of members, with the separators of all but the first. -/
def memberChunks : List (List Char) → List (String × Json) → List (List Char)
  | _, [] => []
  | separator, (key, v) :: ms =>
      separator ++ [encodeString key, [':']] ++ iterencode v ++ memberChunks [[',']] ms

end

end Json

namespace JsonText

theorem commas_cons (text : List Char) (texts : List (List Char)) :
    commas (text :: texts) = text ++ texts.flatMap fun t => ',' :: t := by
  induction texts generalizing text with
  | nil => simp [commas]
  | cons next rest ih =>
      have tail : commas (text :: next :: rest) = text ++ ',' :: commas (next :: rest) := by
        simp [commas, List.intercalate]
      rw [tail, ih, List.flatMap_cons, List.cons_append]

end JsonText

namespace Json

open JsonText

theorem flatten_itemChunks {items : List Json} (each : ∀ v ∈ items, (iterencode v).flatten = encode v)
    (buffer : List Char) {v : Json} (first : (iterencode v).flatten = encode v) :
    (itemChunks buffer (v :: items)).flatten = buffer ++ commas (encodeItems (v :: items)) := by
  induction items generalizing buffer v with
  | nil =>
      rw [itemChunks, itemChunks, List.append_nil, encodeItems, encodeItems, commas_cons]
      split <;> simp [first]
  | cons w ws ih =>
      rw [itemChunks, List.flatten_append,
        ih (fun u member => each u (List.mem_cons_of_mem w member)) [','] (each w List.mem_cons_self),
        encodeItems, commas_cons, encodeItems, commas_cons, encodeItems, List.flatMap_cons]
      split <;> simp [first]

theorem flatten_memberChunks {members : List (String × Json)}
    (each : ∀ m ∈ members, (iterencode m.2).flatten = encode m.2) (separator : List (List Char))
    {key : String} {v : Json} (first : (iterencode v).flatten = encode v) :
    (memberChunks separator ((key, v) :: members)).flatten =
      separator.flatten ++ commas (encodeMembers ((key, v) :: members)) := by
  induction members generalizing separator key v with
  | nil =>
      rw [memberChunks, memberChunks, encodeMembers, encodeMembers, commas_cons]
      simp [first, member]
  | cons m ms ih =>
      obtain ⟨key', w⟩ := m
      rw [memberChunks, List.flatten_append,
        ih (fun u member => each u (List.mem_cons_of_mem _ member)) [[',']]
          (each (key', w) List.mem_cons_self),
        encodeMembers, commas_cons, encodeMembers, commas_cons, encodeMembers, List.flatMap_cons]
      simp [first, member]

/-- The chunks of a value are its encoding, cut into pieces. -/
theorem flatten_iterencode (v : Json) : (iterencode v).flatten = encode v := by
  induction v using induct with
  | atom v noArr noObj =>
      cases v with
      | arr items => exact absurd rfl (noArr items)
      | obj members => exact absurd rfl (noObj members)
      | _ => simp [iterencode]
  | arr items each =>
      cases items with
      | nil => rfl
      | cons v vs =>
          rw [iterencode, List.isEmpty_cons, if_neg Bool.false_ne_true, List.flatten_append,
            flatten_itemChunks (fun u member => each u (List.mem_cons_of_mem v member)) ['[']
              (each v List.mem_cons_self)]
          simp [encode]
  | obj members each =>
      cases members with
      | nil => rfl
      | cons m ms =>
          obtain ⟨key, v⟩ := m
          rw [iterencode, List.isEmpty_cons, if_neg Bool.false_ne_true, List.cons_append,
            List.flatten_cons, List.flatten_append,
            flatten_memberChunks (fun u member => each u (List.mem_cons_of_mem _ member)) []
              (each (key, v) List.mem_cons_self)]
          simp [encode]

end Json

namespace JsonText

/-! ## Reading -/

def isWhite (c : Char) : Bool := c = ' ' || c = '\n' || c = '\r' || c = '\t'

def skipWhite (text : List Char) : List Char := text.dropWhile isWhite

def hexValue (c : Char) : Option Nat :=
  if c.isDigit then some (c.toNat - '0'.toNat)
  else if 'a' ≤ c ∧ c ≤ 'f' then some (c.toNat - 'a'.toNat + 10)
  else if 'A' ≤ c ∧ c ≤ 'F' then some (c.toNat - 'A'.toNat + 10)
  else none

/-- The character of a `\u` escape. -/
def readUnicode (a b c d : Char) : Option Char := do
  let a ← hexValue a
  let b ← hexValue b
  let c ← hexValue c
  let d ← hexValue d
  let code := ((a * 16 + b) * 16 + c) * 16 + d
  if code.isValidChar then some (Char.ofNat code) else none

def readEscape : Char → Option Char
  | '"' => some '"'
  | '\\' => some '\\'
  | '/' => some '/'
  | 'b' => some '\x08'
  | 'f' => some '\x0c'
  | 'n' => some '\n'
  | 'r' => some '\r'
  | 't' => some '\t'
  | _ => none

/-- A character within a string. -/
def readChar : List Char → Option (Char × List Char)
  | [] => none
  | c :: rest =>
      if c = '\\' then
        match rest with
        | [] => none
        | e :: rest =>
            if e = 'u' then
              match rest with
              | a :: b :: c :: d :: rest => (readUnicode a b c d).map fun first => (first, rest)
              | _ => none
            else (readEscape e).map fun first => (first, rest)
      else if c.toNat < 32 then none
      else some (c, rest)

/-- The rest of a string of less than `fuel` characters, after its opening quote. -/
def readString : Nat → List Char → Option (List Char × List Char)
  | 0, _ => none
  | fuel + 1, text =>
      if text.head? = some '"' then some ([], text.tail)
      else do
        let (first, rest) ← readChar text
        let (chars, rest) ← readString fuel rest
        some (first :: chars, rest)

def readNumber (text : List Char) : Option (Json × List Char) :=
  let token := text.takeWhile isNumberChar
  let rest := text.dropWhile isNumberChar
  if isIntText token then some (.int (intOfText token), rest)
  else if valid : isFloatText token = true then some (.float ⟨token, valid⟩, rest)
  else none

/-- A literal or a number. -/
def readAtom (text : List Char) : Option (Json × List Char) :=
  if "null".toList.isPrefixOf text then some (.null, text.drop 4)
  else if "true".toList.isPrefixOf text then some (.bool true, text.drop 4)
  else if "false".toList.isPrefixOf text then some (.bool false, text.drop 5)
  else readNumber text

mutual

/-- A value with a text of at most `fuel` characters. -/
def readValue : Nat → List Char → Option (Json × List Char)
  | 0, _ => none
  | fuel + 1, text =>
      match skipWhite text with
      | [] => none
      | c :: rest =>
          if c = '"' then
            (readString (fuel + 1) rest).map fun out => (.str (String.ofList out.1), out.2)
          else if c = '[' then
            if (skipWhite rest).head? = some ']' then some (.arr [], (skipWhite rest).tail)
            else (readItems fuel rest).map fun out => (.arr out.1, out.2)
          else if c = '{' then
            if (skipWhite rest).head? = some '}' then some (.obj [], (skipWhite rest).tail)
            else (readMembers fuel rest).map fun out => (.obj out.1, out.2)
          else readAtom (c :: rest)

/-- The items of an array, of which there is at least one. -/
def readItems : Nat → List Char → Option (List Json × List Char)
  | 0, _ => none
  | fuel + 1, text => do
      let (v, rest) ← readValue fuel text
      match skipWhite rest with
      | [] => none
      | c :: rest =>
          if c = ',' then (readItems fuel rest).map fun out => (v :: out.1, out.2)
          else if c = ']' then some ([v], rest)
          else none

/-- The members of an object, of which there is at least one. -/
def readMembers : Nat → List Char → Option (List (String × Json) × List Char)
  | 0, _ => none
  | fuel + 1, text => do
      let rest ← (skipWhite text).dropPrefix? ['"']
      let (key, rest) ← readString (fuel + 1) rest
      let rest ← (skipWhite rest).dropPrefix? [':']
      let (v, rest) ← readValue fuel rest
      match skipWhite rest with
      | [] => none
      | c :: rest =>
          if c = ',' then
            (readMembers fuel rest).map fun out => ((String.ofList key, v) :: out.1, out.2)
          else if c = '}' then some ([(String.ofList key, v)], rest)
          else none

end

/-- The value of a JSON text. -/
def read (text : List Char) : Option Json :=
  match readValue text.length text with
  | some (v, rest) => if skipWhite rest = [] then some v else none
  | none => none

/-! ## Reading back -/

@[simp] theorem skipWhite_cons {c : Char} (solid : isWhite c = false) (text : List Char) :
    skipWhite (c :: text) = c :: text := by
  simp [skipWhite, solid]

theorem hexValue_hexDigit : ∀ n < 16, hexValue (hexDigit n) = some n := by decide

/-- A character is written with a letter after a backslash, by its code, or as it is. -/
theorem escapeChar_cases (c : Char) :
    (∃ e, escapeChar c = ['\\', e] ∧ e ≠ 'u' ∧ e.toNat < 127 ∧ readEscape e = some c) ∨
      (escapeChar c = ['\\', 'u', '0', '0', hexDigit (c.toNat / 16), hexDigit (c.toNat % 16)] ∧
        c.toNat < 32) ∨
      (escapeChar c = [c] ∧ c ≠ '"' ∧ c ≠ '\\' ∧ ¬c.toNat < 32) := by
  by_cases short : c ∈ ['"', '\\', '\n', '\r', '\t', '\x0c', '\x08']
  · refine .inl ?_
    simp only [List.mem_cons, List.not_mem_nil, or_false] at short
    rcases short with rfl | rfl | rfl | rfl | rfl | rfl | rfl <;>
      exact ⟨_, rfl, by decide, by decide, rfl⟩
  · simp only [List.mem_cons, List.not_mem_nil, or_false, not_or] at short
    obtain ⟨quote, slash, newline, return_, tab, feed, back⟩ := short
    have code : escapeChar c = if c.toNat < 32 then
        ['\\', 'u', '0', '0', hexDigit (c.toNat / 16), hexDigit (c.toNat % 16)] else [c] := by
      rw [escapeChar, if_neg quote, if_neg slash, if_neg newline, if_neg return_, if_neg tab,
        if_neg feed, if_neg back]
    by_cases control : c.toNat < 32
    · exact .inr (.inl ⟨code.trans (if_pos control), control⟩)
    · exact .inr (.inr ⟨code.trans (if_neg control), quote, slash, control⟩)

theorem readChar_escapeChar (c : Char) (rest : List Char) :
    readChar (escapeChar c ++ rest) = some (c, rest) ∧
      (escapeChar c ++ rest).head? ≠ some '"' := by
  rcases escapeChar_cases c with ⟨e, is, notU, -, back⟩ | ⟨is, control⟩ | ⟨is, quote, slash, plain⟩
  · rw [is]
    exact ⟨by simp [readChar, notU, back], by simp⟩
  · have high := hexValue_hexDigit (c.toNat / 16) (by omega)
    have low := hexValue_hexDigit (c.toNat % 16) (by omega)
    have code : ((0 * 16 + 0) * 16 + c.toNat / 16) * 16 + c.toNat % 16 = c.toNat := by omega
    have zero : hexValue '0' = some 0 := by decide
    have valid : c.toNat.isValidChar := c.valid
    rw [is]
    refine ⟨?_, by simp⟩
    simp only [List.cons_append, List.nil_append, readChar, if_true, readUnicode, zero, high, low,
      Option.bind_eq_bind, Option.bind_some, code, if_pos valid, Char.ofNat_toNat, Option.map_some]
  · rw [is]
    exact ⟨by simp [readChar, slash, plain], by simpa using quote⟩

theorem readString_escaped (chars : List Char) {fuel : Nat} (enough : chars.length < fuel)
    (rest : List Char) :
    readString fuel (chars.flatMap escapeChar ++ '"' :: rest) = some (chars, rest) := by
  induction chars generalizing fuel with
  | nil =>
      obtain ⟨n, rfl⟩ : ∃ n, fuel = n + 1 := ⟨fuel - 1, by simp at enough; omega⟩
      simp [readString]
  | cons c cs ih =>
      obtain ⟨n, rfl⟩ : ∃ n, fuel = n + 1 := ⟨fuel - 1, by simp at enough; omega⟩
      obtain ⟨first, open_⟩ := readChar_escapeChar c (cs.flatMap escapeChar ++ '"' :: rest)
      rw [List.flatMap_cons, List.append_assoc, readString, if_neg open_, first]
      simp only [Option.bind_eq_bind, Option.bind_some]
      rw [ih (by simp at enough; omega)]
      rfl

theorem length_le_escaped (chars : List Char) : chars.length ≤ (chars.flatMap escapeChar).length := by
  induction chars with
  | nil => simp
  | cons c cs ih =>
      have one : 1 ≤ (escapeChar c).length := by
        rcases escapeChar_cases c with ⟨e, is, -⟩ | ⟨is, -⟩ | ⟨is, -⟩ <;> simp [is]
      simp only [List.length_cons, List.flatMap_cons, List.length_append]
      omega

/-- A text in which a number cannot go on. -/
def Delimited (rest : List Char) : Prop := ∀ c ∈ rest.head?, isNumberChar c = false

theorem split_token {token rest : List Char} (all : ∀ c ∈ token, isNumberChar c = true)
    (delimited : Delimited rest) :
    (token ++ rest).takeWhile isNumberChar = token ∧
      (token ++ rest).dropWhile isNumberChar = rest := by
  rw [List.takeWhile_append_of_pos all, List.dropWhile_append_of_pos all]
  cases rest with
  | nil => simp
  | cons c cs =>
      have stop := delimited c rfl
      simp [stop]

theorem isNatText_toDigits (n : Nat) : isNatText (Nat.toDigits 10 n) = true := by
  simp only [isNatText, Nat.ofDigitChars_ten_toDigits, BEq.rfl, Bool.and_true, List.all_eq_true]
  exact fun c member => Nat.isDigit_of_mem_toDigits (by decide) (by decide) member

theorem toDigits_not_signed (n : Nat) : (Nat.toDigits 10 n).head? ≠ some '-' := by
  intro signed
  have member := List.mem_of_mem_head? signed
  have digit := Nat.isDigit_of_mem_toDigits (by decide) (by decide) member
  revert digit
  decide

theorem textOfInt_spec (n : Int) :
    isIntText (textOfInt n) = true ∧ intOfText (textOfInt n) = n ∧
      ∀ c ∈ textOfInt n, isNumberChar c = true := by
  have digits : ∀ c ∈ Nat.toDigits 10 n.natAbs, isNumberChar c = true := fun c member => by
    simp [isNumberChar, Nat.isDigit_of_mem_toDigits (by decide) (by decide) member]
  unfold textOfInt
  split
  · rename_i negative
    refine ⟨by simp [isIntText, unsigned, isNatText_toDigits], ?_, ?_⟩
    · simp only [intOfText, unsigned, List.head?_cons, if_true, List.tail_cons,
        Nat.ofDigitChars_ten_toDigits]
      omega
    · intro c member
      rcases List.mem_cons.mp member with rfl | member
      · decide
      · exact digits c member
  · have plain := toDigits_not_signed n.natAbs
    refine ⟨by simp [isIntText, unsigned, plain, isNatText_toDigits], ?_, digits⟩
    simp only [intOfText, unsigned, if_neg plain, Nat.ofDigitChars_ten_toDigits]
    omega

theorem readNumber_textOfInt (n : Int) {rest : List Char} (delimited : Delimited rest) :
    readNumber (textOfInt n ++ rest) = some (.int n, rest) := by
  obtain ⟨isInt, value, chars⟩ := textOfInt_spec n
  obtain ⟨token, after⟩ := split_token chars delimited
  rw [readNumber]
  simp only [token, after, if_pos isInt, value]

theorem JsonFloat.spec (x : JsonFloat) :
    isIntText x.text = false ∧ (∀ c ∈ x.text, isNumberChar c = true) ∧ x.text ≠ [] := by
  obtain ⟨text, valid⟩ := x
  simp only [isFloatText, Bool.and_eq_true, Bool.not_eq_true', List.all_eq_true] at valid
  refine ⟨valid.1.1.1, valid.1.1.2, ?_⟩
  rintro rfl
  exact absurd valid.2 (by decide)

theorem readNumber_float (x : JsonFloat) {rest : List Char} (delimited : Delimited rest) :
    readNumber (x.text ++ rest) = some (.float x, rest) := by
  obtain ⟨noInt, chars, -⟩ := JsonFloat.spec x
  obtain ⟨token, after⟩ := split_token chars delimited
  rw [readNumber]
  simp only [token, after, noInt, Bool.false_eq_true, if_false, x.valid, dite_true]

/-- No other token begins like a number. -/
theorem number_ne {c : Char} (number : isNumberChar c = true) :
    isWhite c = false ∧ c ≠ '"' ∧ c ≠ '[' ∧ c ≠ '{' ∧ c ≠ ']' ∧ c ≠ 'n' ∧ c ≠ 't' ∧ c ≠ 'f' := by
  refine ⟨?_, ?_, ?_, ?_, ?_, ?_, ?_, ?_⟩
  · by_contra white
    simp only [isWhite, Bool.or_eq_true, decide_eq_true_eq, Bool.not_eq_false] at white
    rcases white with ((rfl | rfl) | rfl) | rfl <;> revert number <;> decide
  all_goals
    rintro rfl
    revert number
    decide

theorem readValue_number {token rest : List Char} {v : Json} (fuel : Nat) (some_ : token ≠ [])
    (chars : ∀ c ∈ token, isNumberChar c = true)
    (number : readNumber (token ++ rest) = some (v, rest)) :
    readValue (fuel + 1) (token ++ rest) = some (v, rest) := by
  obtain ⟨c, cs, rfl⟩ := List.exists_cons_of_ne_nil some_
  obtain ⟨solid, quote, bracket, brace, -, n, t, f⟩ := number_ne (chars c List.mem_cons_self)
  rw [List.cons_append] at number ⊢
  have atom : readAtom (c :: (cs ++ rest)) = some (v, rest) := by
    simp [readAtom, Ne.symm n, Ne.symm t, Ne.symm f, number]
  simp [readValue, skipWhite_cons solid, quote, bracket, brace, atom]

/-- An encoding begins with a character that is neither white space nor a closing bracket. -/
theorem encode_head (v : Json) :
    ∃ c cs, v.encode = c :: cs ∧ isWhite c = false ∧ c ≠ ']' := by
  have number : ∀ {token : List Char}, token ≠ [] → (∀ c ∈ token, isNumberChar c = true) →
      ∃ c cs, token = c :: cs ∧ isWhite c = false ∧ c ≠ ']' := by
    intro token some_ chars
    obtain ⟨c, cs, rfl⟩ := List.exists_cons_of_ne_nil some_
    obtain ⟨solid, -, -, -, closing, -⟩ := number_ne (chars c List.mem_cons_self)
    exact ⟨c, cs, rfl, solid, closing⟩
  cases v with
  | null => exact ⟨_, _, rfl, by decide, by decide⟩
  | bool value => cases value <;> exact ⟨_, _, rfl, by decide, by decide⟩
  | int n =>
      have some_ : textOfInt n ≠ [] := by
        unfold textOfInt
        split
        · simp
        · exact Nat.toDigits_ne_nil
      rw [Json.encode]
      exact number some_ (textOfInt_spec n).2.2
  | float x =>
      rw [Json.encode]
      exact number (JsonFloat.spec x).2.2 (JsonFloat.spec x).2.1
  | str s => exact ⟨_, _, by rw [Json.encode, encodeString]; rfl, by decide, by decide⟩
  | arr items => exact ⟨_, _, by rw [Json.encode]; rfl, by decide, by decide⟩
  | obj members => exact ⟨_, _, by rw [Json.encode]; rfl, by decide, by decide⟩

/-- The value is read back wherever it is followed by a delimiter. -/
def ReadsBack (v : Json) : Prop :=
  ∀ fuel rest, v.encode.length ≤ fuel → Delimited rest →
    readValue fuel (v.encode ++ rest) = some (v, rest)

theorem delimited_of_head {c : Char} (stop : isNumberChar c = false) (rest : List Char) :
    Delimited (c :: rest) := by
  intro d is
  cases is
  exact stop

theorem readItems_encode {v : Json} (first : ReadsBack v) {vs : List Json}
    (each : ∀ w ∈ vs, ReadsBack w) (rest : List Char) {fuel : Nat}
    (enough : (commas (Json.encodeItems (v :: vs))).length < fuel) :
    readItems fuel (commas (Json.encodeItems (v :: vs)) ++ ']' :: rest) = some (v :: vs, rest) := by
  induction vs generalizing v fuel with
  | nil =>
      obtain ⟨n, rfl⟩ : ∃ n, fuel = n + 1 := ⟨fuel - 1, by omega⟩
      rw [Json.encodeItems, Json.encodeItems, commas_cons, List.flatMap_nil, List.append_nil] at enough ⊢
      have back := first n (']' :: rest) (by omega) (delimited_of_head (by decide) rest)
      simp [readItems, back, show isWhite ']' = false by decide]
  | cons w ws ih =>
      obtain ⟨n, rfl⟩ : ∃ n, fuel = n + 1 := ⟨fuel - 1, by omega⟩
      have step : commas (Json.encodeItems (v :: w :: ws)) =
          v.encode ++ ',' :: commas (Json.encodeItems (w :: ws)) := by
        rw [Json.encodeItems, commas_cons, Json.encodeItems, commas_cons, List.flatMap_cons]
        rfl
      rw [step, List.length_append, List.length_cons] at enough
      rw [step, List.append_assoc, List.cons_append]
      have back := first n (',' :: (commas (Json.encodeItems (w :: ws)) ++ ']' :: rest)) (by omega)
        (delimited_of_head (by decide) _)
      have others := ih (each w List.mem_cons_self)
        (fun u member => each u (List.mem_cons_of_mem w member)) (show _ < n by omega)
      simp [readItems, back, show isWhite ',' = false by decide, others]

theorem readString_encodeString (key : String) {fuel : Nat}
    (enough : (encodeString key).length ≤ fuel) (rest : List Char) :
    ∃ tail, encodeString key ++ rest = '"' :: tail ∧
      readString fuel tail = some (key.toList, rest) := by
  have longer := length_le_escaped key.toList
  refine ⟨key.toList.flatMap escapeChar ++ '"' :: rest, by simp [encodeString], ?_⟩
  apply readString_escaped
  simp only [encodeString, List.length_cons, List.length_append, List.length_nil] at enough
  omega

/-- One member of an object, up to what comes after its value. -/
theorem readMember_encode (key : String) {v : Json} (value : ReadsBack v) {fuel : Nat}
    (enough : (member key v.encode).length ≤ fuel) {rest : List Char} (delimited : Delimited rest) :
    ∃ tail, (skipWhite (member key v.encode ++ rest)).dropPrefix? ['"'] = some tail ∧
      readString (fuel + 1) tail = some (key.toList, ':' :: (v.encode ++ rest)) ∧
      readValue fuel (v.encode ++ rest) = some (v, rest) := by
  rw [member, List.length_append, List.length_cons] at enough
  obtain ⟨tail, is, back⟩ := readString_encodeString key (show _ ≤ fuel + 1 by omega)
    (':' :: (v.encode ++ rest))
  refine ⟨tail, ?_, back, value fuel rest (by omega) delimited⟩
  rw [member, List.append_assoc, List.cons_append, is, skipWhite_cons (by decide)]
  simp [List.dropPrefix?]

theorem readMembers_encode (key : String) {v : Json} (first : ReadsBack v)
    {ms : List (String × Json)} (each : ∀ m ∈ ms, ReadsBack m.2) (rest : List Char) {fuel : Nat}
    (enough : (commas (Json.encodeMembers ((key, v) :: ms))).length < fuel) :
    readMembers fuel (commas (Json.encodeMembers ((key, v) :: ms)) ++ '}' :: rest) =
      some ((key, v) :: ms, rest) := by
  induction ms generalizing key v fuel with
  | nil =>
      obtain ⟨n, rfl⟩ : ∃ n, fuel = n + 1 := ⟨fuel - 1, by omega⟩
      rw [Json.encodeMembers, Json.encodeMembers, commas_cons, List.flatMap_nil, List.append_nil]
        at enough ⊢
      obtain ⟨tail, opens, name, value⟩ := readMember_encode key first (show _ ≤ n by omega)
        (delimited_of_head (show isNumberChar '}' = false by decide) rest)
      simp [readMembers, opens, name, value, List.dropPrefix?, show isWhite ':' = false by decide,
        show isWhite '}' = false by decide]
  | cons m ms ih =>
      obtain ⟨key', w⟩ := m
      obtain ⟨n, rfl⟩ : ∃ n, fuel = n + 1 := ⟨fuel - 1, by omega⟩
      have step : commas (Json.encodeMembers ((key, v) :: (key', w) :: ms)) =
          member key v.encode ++ ',' :: commas (Json.encodeMembers ((key', w) :: ms)) := by
        rw [Json.encodeMembers, commas_cons, Json.encodeMembers, commas_cons, List.flatMap_cons]
        rfl
      rw [step, List.length_append, List.length_cons] at enough
      rw [step, List.append_assoc, List.cons_append]
      obtain ⟨tail, opens, name, value⟩ := readMember_encode key first (show _ ≤ n by omega)
        (delimited_of_head (show isNumberChar ',' = false by decide)
          (commas (Json.encodeMembers ((key', w) :: ms)) ++ '}' :: rest))
      have next : ReadsBack w := each (key', w) List.mem_cons_self
      have others := ih key' next (fun u member => each u (List.mem_cons_of_mem _ member))
        (show _ < n by omega)
      simp [readMembers, opens, name, value, others, List.dropPrefix?,
        show isWhite ':' = false by decide, show isWhite ',' = false by decide]

/-- Every value is read back from its encoding. -/
theorem readsBack (v : Json) : ReadsBack v := by
  induction v using Json.induct with
  | atom v noArr noObj =>
      intro fuel rest enough delimited
      obtain ⟨n, rfl⟩ : ∃ n, fuel = n + 1 := by
        obtain ⟨c, cs, is, -⟩ := encode_head v
        rw [is, List.length_cons] at enough
        exact ⟨fuel - 1, by omega⟩
      cases v with
      | arr items => exact absurd rfl (noArr items)
      | obj members => exact absurd rfl (noObj members)
      | null => rfl
      | bool value => cases value <;> rfl
      | int k =>
          have some_ : textOfInt k ≠ [] := by
            obtain ⟨c, cs, is, -⟩ := encode_head (.int k)
            rw [Json.encode] at is
            rw [is]
            exact List.cons_ne_nil c cs
          rw [Json.encode]
          exact readValue_number n some_ (textOfInt_spec k).2.2 (readNumber_textOfInt k delimited)
      | float x =>
          rw [Json.encode]
          exact readValue_number n (JsonFloat.spec x).2.2 (JsonFloat.spec x).2.1
            (readNumber_float x delimited)
      | str s =>
          rw [Json.encode] at enough ⊢
          obtain ⟨tail, is, back⟩ := readString_encodeString s enough rest
          rw [is]
          simp [readValue, show isWhite '"' = false by decide, back]
  | arr items each =>
      intro fuel rest enough delimited
      rw [Json.encode, List.length_append, List.length_cons] at enough
      obtain ⟨n, rfl⟩ : ∃ n, fuel = n + 1 := ⟨fuel - 1, by omega⟩
      cases items with
      | nil => rfl
      | cons v vs =>
          have back := readItems_encode (each v List.mem_cons_self)
            (fun u member => each u (List.mem_cons_of_mem v member)) rest
            (show _ < n by simp only [List.length_cons, List.length_nil] at enough; omega)
          obtain ⟨c, cs, is, solid, open_⟩ := encode_head v
          have head : ∃ more, commas (Json.encodeItems (v :: vs)) ++ ']' :: rest = c :: more := by
            rw [Json.encodeItems, commas_cons, is]
            exact ⟨_, rfl⟩
          obtain ⟨more, head⟩ := head
          rw [Json.encode, List.cons_append, List.cons_append, List.append_assoc, List.singleton_append,
            head]
          rw [head] at back
          simp [readValue, show isWhite '[' = false by decide, solid, open_, back]
  | obj members each =>
      intro fuel rest enough delimited
      rw [Json.encode, List.length_append, List.length_cons] at enough
      obtain ⟨n, rfl⟩ : ∃ n, fuel = n + 1 := ⟨fuel - 1, by omega⟩
      cases members with
      | nil => rfl
      | cons m ms =>
          obtain ⟨key, v⟩ := m
          have value : ReadsBack v := each (key, v) List.mem_cons_self
          have back := readMembers_encode key value
            (fun u member => each u (List.mem_cons_of_mem _ member)) rest
            (show _ < n by simp only [List.length_cons, List.length_nil] at enough; omega)
          have head : ∃ more, commas (Json.encodeMembers ((key, v) :: ms)) ++ '}' :: rest =
              '"' :: more := by
            rw [Json.encodeMembers, commas_cons, member, encodeString]
            exact ⟨_, rfl⟩
          obtain ⟨more, head⟩ := head
          rw [Json.encode, List.cons_append, List.cons_append, List.append_assoc, List.singleton_append,
            head]
          rw [head] at back
          simp [readValue, show isWhite '{' = false by decide, show isWhite '"' = false by decide, back]

/-- An encoding is a JSON text of its value. -/
theorem read_encode (v : Json) : read v.encode = some v := by
  have back := readsBack v v.encode.length [] (Nat.le_refl _) (by intro c is; cases is)
  rw [List.append_nil] at back
  rw [read, back]
  simp [skipWhite]

end JsonText

end SaasTemplate

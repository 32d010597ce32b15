import Std.Data.String.ToNat
import Mathlib.Data.List.Basic

/-! # Text as code points

Python's `str` is a sequence of code points, lone surrogates included, so it is a list of
numbers here. Bytes are decoded as Latin-1 or as ASCII with `surrogateescape`, text is
encoded as UTF-8, and numbers are read from and written in decimal.
-/

namespace SaasTemplate.CodePoints

/-- A `str`, as its code points. -/
abbrev Text := List Nat

inductive TextError where
  | valueError
  | unicodeEncodeError
  | typeError
  deriving DecidableEq, Repr

/-- A string without lone surrogates. -/
def ofString (s : String) : Text := s.toList.map Char.toNat

theorem ofString_injective {s s' : String} (h : ofString s = ofString s') : s = s' := by
  have chars : s.toList = s'.toList :=
    List.map_injective_iff.mpr (fun a b same => Char.toNat_inj.mp same) h
  exact String.toList_inj.mp chars

/-- Where a separator occurs for the first time is determined by the whole. -/
theorem append_cons_inj {a a' b b' : Text} {separator : Nat} (fresh : separator ∉ a)
    (fresh' : separator ∉ a') (h : a ++ separator :: b = a' ++ separator :: b') : a = a' ∧ b = b' := by
  induction a generalizing a' with
  | nil =>
      cases a' with
      | nil => exact ⟨rfl, (List.cons.inj h).2⟩
      | cons c a' => exact absurd ((List.cons.inj h).1 ▸ List.mem_cons_self) fresh'
  | cons c a ih =>
      cases a' with
      | nil => exact absurd ((List.cons.inj h).1 ▸ List.mem_cons_self) fresh
      | cons c' a' =>
          obtain ⟨rfl, rest⟩ := List.cons.inj h
          obtain ⟨rfl, same⟩ := ih (fun member => fresh (List.mem_cons_of_mem c member))
            (fun member => fresh' (List.mem_cons_of_mem c member)) rest
          exact ⟨rfl, same⟩

/-! ## Bytes -/

/-- `data.decode("latin-1")`. -/
def decodeLatin1 (data : List UInt8) : Text := data.map UInt8.toNat

/-- `data.decode("ascii", errors="surrogateescape")`. -/
def decodeAscii (data : List UInt8) : Text :=
  data.map fun b => if b.toNat < 128 then b.toNat else 0xdc00 + b.toNat

/-- All bytes are ASCII. -/
def isAscii (data : List UInt8) : Bool := data.all fun b => b.toNat < 128

/-- Code points that UTF-8 can encode. -/
def isScalar (c : Nat) : Bool := decide c.isValidChar

/-- `text.encode("utf-8")`. -/
def encodeUtf8 (text : Text) : Except TextError ByteArray :=
  if text.all isScalar then .ok (String.ofList (text.map Char.ofNat)).toByteArray
  else .error .unicodeEncodeError

theorem encodeUtf8_ok_iff {text : Text} :
    (∃ data, encodeUtf8 text = .ok data) ↔ text.all isScalar = true := by
  unfold encodeUtf8
  split
  · rename_i scalars
    exact ⟨fun _ => scalars, fun _ => ⟨_, rfl⟩⟩
  · rename_i surrogate
    constructor
    · rintro ⟨data, is⟩
      cases is
    · intro scalars
      exact absurd scalars surrogate

/-- Two texts are never encoded as the same bytes. -/
theorem encodeUtf8_injective {text text' : Text} {data : ByteArray}
    (h : encodeUtf8 text = .ok data) (h' : encodeUtf8 text' = .ok data) : text = text' := by
  have back : ∀ {text : Text}, encodeUtf8 text = .ok data →
      text.all isScalar = true ∧ (String.ofList (text.map Char.ofNat)).toByteArray = data := by
    intro text is
    unfold encodeUtf8 at is
    split at is
    · exact ⟨‹_›, Except.ok.inj is⟩
    · cases is
  obtain ⟨scalars, is⟩ := back h
  obtain ⟨scalars', is'⟩ := back h'
  have chars : text.map Char.ofNat = text'.map Char.ofNat :=
    String.ofList_injective (String.toByteArray_inj.mp (is.trans is'.symm))
  have decode : ∀ {text : Text}, text.all isScalar = true →
      (text.map Char.ofNat).map Char.toNat = text := by
    intro text scalars
    rw [List.map_map]
    refine (List.map_congr_left fun c member => ?_).trans text.map_id
    have valid : c.isValidChar := of_decide_eq_true (List.all_eq_true.mp scalars c member)
    have is : Char.ofNat c = Char.ofNatAux c valid := dif_pos valid
    rw [Function.comp_apply, is]
    rfl
  rw [← decode scalars, chars, decode scalars']

theorem all_isScalar_ofString (s : String) : (ofString s).all isScalar = true := by
  simp only [ofString, List.all_map, List.all_eq_true, Function.comp_apply, isScalar,
    decide_eq_true_eq]
  exact fun c _ => c.valid

/-- What was ASCII is encoded again, and what was not is not. -/
theorem all_isScalar_decodeAscii (data : List UInt8) :
    (decodeAscii data).all isScalar = isAscii data := by
  induction data with
  | nil => rfl
  | cons b data ih =>
      simp only [decodeAscii, isAscii, List.map_cons, List.all_cons] at ih ⊢
      rw [ih]
      congr 1
      have byte := b.toNat_lt
      split
      · rename_i ascii
        simp only [isScalar, Nat.isValidChar, decide_eq_decide]
        omega
      · rename_i other
        simp only [isScalar, Nat.isValidChar, decide_eq_decide]
        omega

/-! ## Methods of `str` -/

/-- The characters that `strip` removes. -/
def isSpace (c : Nat) : Bool :=
  (9 ≤ c && c ≤ 13) || (28 ≤ c && c ≤ 32) || c == 0x85 || c == 0xa0 || c == 0x1680 ||
    (0x2000 ≤ c && c ≤ 0x200a) || c == 0x2028 || c == 0x2029 || c == 0x202f || c == 0x205f ||
    c == 0x3000

/-- `text.strip()`. -/
def strip (text : Text) : Text :=
  ((text.dropWhile isSpace).reverse.dropWhile isSpace).reverse

/-- `text.partition(separator)`, with whether the separator was there. -/
def partition (separator : Nat) (text : Text) : Text × Bool × Text :=
  match text.span (· != separator) with
  | (head, _ :: tail) => (head, true, tail)
  | (head, []) => (head, false, [])

/-- A digit in ASCII. -/
def isAsciiDigit (c : Nat) : Bool := 48 ≤ c && c ≤ 57

/-- `text.isdigit()` for text of Latin-1 characters: superscripts are digits too. -/
def isDigit (text : Text) : Bool :=
  !text.isEmpty && text.all fun c => isAsciiDigit c || c == 0xb2 || c == 0xb3 || c == 0xb9

/-- The interpreter's limit on the digits of a decimal number. -/
def maxStrDigits : Nat := 4300

/-- `int(text)` for text that `isdigit` accepts. -/
def int (text : Text) : Except TextError Nat :=
  if text.all isAsciiDigit && text.length ≤ maxStrDigits then
    .ok (text.foldl (fun n c => 10 * n + (c - 48)) 0)
  else .error .valueError

theorem int_ok_iff {text : Text} :
    (∃ n, int text = .ok n) ↔ text.all isAsciiDigit = true ∧ text.length ≤ maxStrDigits := by
  unfold int
  split
  · rename_i fine
    simp only [Bool.and_eq_true, decide_eq_true_eq] at fine
    exact ⟨fun _ => fine, fun _ => ⟨_, rfl⟩⟩
  · rename_i failed
    simp only [Bool.and_eq_true, decide_eq_true_eq] at failed
    constructor
    · rintro ⟨n, is⟩
      cases is
    · intro fine
      exact absurd fine failed

/-- `f"{n}"`. -/
def decimal (n : Nat) : Text := ofString n.repr

theorem decimal_injective {m n : Nat} (h : decimal m = decimal n) : m = n :=
  Nat.repr_injective (ofString_injective h)

theorem isAsciiDigit_of_mem_decimal {n c : Nat} (h : c ∈ decimal n) : isAsciiDigit c = true := by
  obtain ⟨char, member, rfl⟩ := List.mem_map.mp h
  rw [Nat.toList_repr] at member
  have digit := Nat.isDigit_of_mem_toDigits (by decide) (by decide) member
  simp only [Char.isDigit, Bool.and_eq_true, decide_eq_true_eq, UInt32.le_iff_toNat_le] at digit
  simpa [isAsciiDigit] using digit

end SaasTemplate.CodePoints

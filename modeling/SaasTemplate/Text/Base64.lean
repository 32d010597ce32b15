import Mathlib.Data.List.Basic

/-! # Base64 for URLs

Bytes in groups of three are four characters of an alphabet that URLs can hold. The decoder
passes over any other character and stops at the padding. It decodes what was encoded.
-/

namespace SaasTemplate.Base64

/-- The character of six bits. -/
def digit (n : Nat) : Char :=
  if n < 26 then Char.ofNat (65 + n)
  else if n < 52 then Char.ofNat (71 + n)
  else if n < 62 then Char.ofNat (n - 4)
  else if n = 62 then '-' else '_'

/-- `base64.urlsafe_b64encode`. -/
def encode : List UInt8 → List Char
  | [] => []
  | [a] => [digit (a.toNat / 4), digit (a.toNat % 4 * 16), '=', '=']
  | [a, b] => [digit (a.toNat / 4), digit (a.toNat % 4 * 16 + b.toNat / 16),
      digit (b.toNat % 16 * 4), '=']
  | a :: b :: c :: rest => digit (a.toNat / 4) :: digit (a.toNat % 4 * 16 + b.toNat / 16) ::
      digit (b.toNat % 16 * 4 + c.toNat / 64) :: digit (c.toNat % 64) :: encode rest

/-- The six bits of a character; those of the usual alphabet are accepted too. -/
def value (c : Char) : Option Nat :=
  if 'A' ≤ c ∧ c ≤ 'Z' then some (c.toNat - 65)
  else if 'a' ≤ c ∧ c ≤ 'z' then some (c.toNat - 71)
  else if '0' ≤ c ∧ c ≤ '9' then some (c.toNat + 4)
  else if c = '-' ∨ c = '+' then some 62
  else if c = '_' ∨ c = '/' then some 63
  else none

/-- The loop of the decoder: `quad` characters of a group are read, whose last bits are
`left`, and `pads` padding characters after them. -/
def decodeFrom : (quad left pads : Nat) → List Char → Option (List UInt8)
  | quad, _, _, [] => if quad = 0 then some [] else none
  | quad, left, pads, c :: rest =>
      if c = '=' then
        if 2 ≤ quad ∧ 4 ≤ quad + (pads + 1) then some []
        else decodeFrom quad left (if 2 ≤ quad then pads + 1 else pads) rest
      else
        match value c with
        | none => decodeFrom quad left pads rest
        | some v =>
            match quad with
            | 0 => decodeFrom 1 v 0 rest
            | 1 => (decodeFrom 2 (v % 16) 0 rest).map (UInt8.ofNat (left * 4 + v / 16) :: ·)
            | 2 => (decodeFrom 3 (v % 4) 0 rest).map (UInt8.ofNat (left * 16 + v / 4) :: ·)
            | _ => (decodeFrom 0 0 0 rest).map (UInt8.ofNat (left * 64 + v) :: ·)

/-- `base64.urlsafe_b64decode` of ASCII characters. -/
def decode (text : List Char) : Option (List UInt8) := decodeFrom 0 0 0 text

theorem value_digit : ∀ n < 64, value (digit n) = some n := by decide

theorem digit_ne_of_lt : ∀ n < 64, digit n ≠ '=' ∧ digit n ≠ '.' ∧ (digit n).toNat < 128 := by
  decide

theorem digit_plain (n : Nat) : digit n ≠ '=' ∧ digit n ≠ '.' ∧ (digit n).toNat < 128 := by
  by_cases small : n < 64
  · exact digit_ne_of_lt n small
  · have last : digit n = '_' := by
      simp only [digit]
      rw [if_neg (by omega), if_neg (by omega), if_neg (by omega), if_neg (by omega)]
    rw [last]
    decide

/-- One character of a group. -/
theorem decodeFrom_digit {n : Nat} (small : n < 64) (quad left pads : Nat) (rest : List Char) :
    decodeFrom quad left pads (digit n :: rest) =
      match quad with
      | 0 => decodeFrom 1 n 0 rest
      | 1 => (decodeFrom 2 (n % 16) 0 rest).map (UInt8.ofNat (left * 4 + n / 16) :: ·)
      | 2 => (decodeFrom 3 (n % 4) 0 rest).map (UInt8.ofNat (left * 16 + n / 4) :: ·)
      | _ => (decodeFrom 0 0 0 rest).map (UInt8.ofNat (left * 64 + n) :: ·) := by
  rw [decodeFrom, if_neg (digit_plain n).1, value_digit n small]

theorem ofNat_eq {n : Nat} {b : UInt8} (same : n = b.toNat) : UInt8.ofNat n = b := by
  rw [same, UInt8.ofNat_toNat]

theorem decode_encode (data : List UInt8) : decode (encode data) = some data := by
  unfold decode
  induction data using encode.induct with
  | case1 => rfl
  | case2 a =>
      have bound := a.toNat_lt
      rw [encode, decodeFrom_digit (by omega)]
      simp only []
      rw [decodeFrom_digit (by omega)]
      simp only []
      rw [ofNat_eq (show a.toNat / 4 * 4 + a.toNat % 4 * 16 / 16 = a.toNat by omega)]
      simp [decodeFrom]
  | case3 a b =>
      have first := a.toNat_lt
      have second := b.toNat_lt
      rw [encode, decodeFrom_digit (by omega)]
      simp only []
      rw [decodeFrom_digit (by omega)]
      simp only []
      rw [decodeFrom_digit (by omega)]
      simp only []
      rw [ofNat_eq (show a.toNat / 4 * 4 + (a.toNat % 4 * 16 + b.toNat / 16) / 16 = a.toNat by omega),
        ofNat_eq (show (a.toNat % 4 * 16 + b.toNat / 16) % 16 * 16 + b.toNat % 16 * 4 / 4 = b.toNat by
          omega)]
      simp [decodeFrom]
  | case4 a b c rest ih =>
      have first := a.toNat_lt
      have second := b.toNat_lt
      have third := c.toNat_lt
      rw [encode, decodeFrom_digit (by omega)]
      simp only []
      rw [decodeFrom_digit (by omega)]
      simp only []
      rw [decodeFrom_digit (by omega)]
      simp only []
      rw [decodeFrom_digit (by omega)]
      simp only []
      rw [ih,
        ofNat_eq (show a.toNat / 4 * 4 + (a.toNat % 4 * 16 + b.toNat / 16) / 16 = a.toNat by omega),
        ofNat_eq (show (a.toNat % 4 * 16 + b.toNat / 16) % 16 * 16 +
          (b.toNat % 16 * 4 + c.toNat / 64) / 4 = b.toNat by omega),
        ofNat_eq (show (b.toNat % 16 * 4 + c.toNat / 64) % 4 * 64 + c.toNat % 64 = c.toNat by omega)]
      rfl

theorem encode_plain (data : List UInt8) : ∀ c ∈ encode data, c ≠ '.' ∧ c.toNat < 128 := by
  have padding : ('=' : Char) ≠ '.' ∧ ('=' : Char).toNat < 128 := by decide
  induction data using encode.induct with
  | case1 => simp [encode]
  | case2 a => simp [encode, digit_plain, padding]
  | case3 a b => simp [encode, digit_plain, padding]
  | case4 a b c rest ih =>
      intro d member
      simp only [encode, List.mem_cons] at member
      rcases member with rfl | rfl | rfl | rfl | member
      · exact (digit_plain _).2
      · exact (digit_plain _).2
      · exact (digit_plain _).2
      · exact (digit_plain _).2
      · exact ih d member

end SaasTemplate.Base64

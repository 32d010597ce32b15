import SaasTemplate.Text.CodePoints

/-! # Values of Python

Nested dictionaries, lists and tuples with scalars in them, and how `json.dumps` writes them.
Keys are of any type. A float is known by its `repr`, and an object of any other type by a number.
-/

namespace SaasTemplate.Python

open SaasTemplate.CodePoints

/-- A key of a dictionary. -/
inductive Key where
  | str (text : Text)
  | int (n : Int)
  | float (repr : Text)
  | bool (b : Bool)
  | none
  | bytes (data : List UInt8)
  | other (object : Nat)
  deriving DecidableEq, Repr

inductive Value where
  | none
  | bool (b : Bool)
  | int (n : Int)
  | float (repr : Text)
  | str (text : Text)
  | other (object : Nat)
  | list (items : List Value)
  | tuple (items : List Value)
  | dict (items : List (Key × Value))

/-- The exceptions that are told apart; a failed encoding is a `ValueError` too. -/
inductive Error where
  | valueError (message : String)
  | unicodeEncodeError
  | typeError
  | attributeError
  | recursionError
  deriving DecidableEq, Repr

/-- `isinstance(error, ValueError)`. -/
def Error.isValueError : Error → Bool
  | .valueError _ | .unicodeEncodeError => true
  | .typeError | .attributeError | .recursionError => false

def Key.isStr : Key → Bool
  | .str _ => true
  | _ => false

namespace Value

def isContainer : Value → Bool
  | .list _ | .tuple _ | .dict _ => true
  | _ => false

/-- Induction over the nesting. -/
theorem nesting {motive : Value → Prop} (scalar : ∀ v, v.isContainer = false → motive v)
    (list : ∀ items, (∀ x ∈ items, motive x) → motive (.list items))
    (tuple : ∀ items, (∀ x ∈ items, motive x) → motive (.tuple items))
    (dict : ∀ items, (∀ e ∈ items, motive e.2) → motive (.dict items)) (v : Value) : motive v := by
  cases v with
  | list items =>
      exact list items fun x member => nesting scalar list tuple dict x
  | tuple items =>
      exact tuple items fun x member => nesting scalar list tuple dict x
  | dict items =>
      exact dict items fun e member => nesting scalar list tuple dict e.2
  | _ => exact scalar _ rfl
termination_by sizeOf v
decreasing_by
  · have := List.sizeOf_lt_of_mem member
    simp only [Value.list.sizeOf_spec]
    omega
  · have := List.sizeOf_lt_of_mem member
    simp only [Value.tuple.sizeOf_spec]
    omega
  · have := List.sizeOf_lt_of_mem member
    obtain ⟨key, x⟩ := e
    simp only [Value.dict.sizeOf_spec, Prod.mk.sizeOf_spec] at *
    omega

/-- The first value is the second, or lies in it at any depth. -/
inductive Occurs (x : Value) : Value → Prop
  | here : Occurs x x
  | item {items : List Value} {y : Value} : y ∈ items → Occurs x y → Occurs x (.list items)
  | component {items : List Value} {y : Value} : y ∈ items → Occurs x y → Occurs x (.tuple items)
  | value {items : List (Key × Value)} {e : Key × Value} : e ∈ items → Occurs x e.2 →
      Occurs x (.dict items)

mutual

/-- How deep containers are nested. -/
def depth : Value → Nat
  | .list items | .tuple items => 1 + depthOfItems items
  | .dict items => 1 + depthOfValues items
  | _ => 0

def depthOfItems : List Value → Nat
  | [] => 0
  | v :: vs => max v.depth (depthOfItems vs)

def depthOfValues : List (Key × Value) → Nat
  | [] => 0
  | (_, v) :: es => max v.depth (depthOfValues es)

end

mutual

/-- The number of values in a value, itself among them. -/
def weight : Value → Nat
  | .list items | .tuple items => 1 + weightOfItems items
  | .dict items => 1 + weightOfValues items
  | _ => 1

def weightOfItems : List Value → Nat
  | [] => 0
  | v :: vs => v.weight + weightOfItems vs

def weightOfValues : List (Key × Value) → Nat
  | [] => 0
  | (_, v) :: es => v.weight + weightOfValues es

end

theorem weightOfItems_append (vs ws : List Value) :
    weightOfItems (vs ++ ws) = weightOfItems vs + weightOfItems ws := by
  induction vs with
  | nil => simp [weightOfItems]
  | cons v vs ih => simp [weightOfItems, ih, Nat.add_assoc]

theorem weightOfItems_reverse (vs : List Value) : weightOfItems vs.reverse = weightOfItems vs := by
  induction vs with
  | nil => rfl
  | cons v vs ih => simp [weightOfItems_append, weightOfItems, ih, Nat.add_comm]

theorem weightOfItems_map_snd (es : List (Key × Value)) :
    weightOfItems (es.map (·.2)) = weightOfValues es := by
  induction es with
  | nil => rfl
  | cons e es ih => simp [weightOfItems, weightOfValues, ih]

end Value

/-! ## `json.dumps` -/

/-- `repr(n)`, which has a limit. -/
def intText (n : Int) : Except Error Text :=
  let digits := decimal n.natAbs
  if maxStrDigits < digits.length then
    .error (.valueError "Exceeds the limit (4300 digits) for integer string conversion")
  else .ok (if n < 0 then 45 :: digits else digits)

/-- A float, of which JSON writes some in its own way. -/
def floatText (repr : Text) : Text :=
  if repr = ofString "nan" then ofString "NaN"
  else if repr = ofString "inf" then ofString "Infinity"
  else if repr = ofString "-inf" then ofString "-Infinity"
  else repr

def boolText (b : Bool) : Text := if b then ofString "true" else ofString "false"

def hexDigit (n : Nat) : Nat := n.digitChar.toNat

/-- A character within a string, with `ensure_ascii=False`. -/
def escape (c : Nat) : Text :=
  if c = 34 then [92, 34]
  else if c = 92 then [92, 92]
  else if c = 10 then [92, 110]
  else if c = 13 then [92, 114]
  else if c = 9 then [92, 116]
  else if c = 12 then [92, 102]
  else if c = 8 then [92, 98]
  else if c < 32 then [92, 117, 48, 48, hexDigit (c / 16), hexDigit (c % 16)]
  else [c]

def quoted (text : Text) : Text := 34 :: text.flatMap escape ++ [34]

/-- A key as `dumps` writes it. -/
def Key.dumps : Key → Except Error Text
  | .str text => .ok (quoted text)
  | .int n => (intText n).map quoted
  | .float repr => .ok (quoted (floatText repr))
  | .bool b => .ok (quoted (boolText b))
  | .none => .ok (quoted (ofString "null"))
  | .bytes _ | .other _ => .error .typeError

/-- `", ".join(texts)`. -/
def commas (texts : List Text) : Text := [44, 32].intercalate texts

mutual

/-- `json.dumps(value, ensure_ascii=False)`. -/
def dumps : Value → Except Error Text
  | .none => .ok (ofString "null")
  | .bool b => .ok (boolText b)
  | .int n => intText n
  | .float repr => .ok (floatText repr)
  | .str text => .ok (quoted text)
  | .other _ => .error .typeError
  | .list items | .tuple items => (dumpsItems items).map fun texts => 91 :: commas texts ++ [93]
  | .dict items => (dumpsMembers items).map fun texts => 123 :: commas texts ++ [125]

def dumpsItems : List Value → Except Error (List Text)
  | [] => .ok []
  | v :: vs => do
      let text ← dumps v
      let texts ← dumpsItems vs
      pure (text :: texts)

def dumpsMembers : List (Key × Value) → Except Error (List Text)
  | [] => .ok []
  | (key, v) :: es => do
      let name ← key.dumps
      let text ← dumps v
      let texts ← dumpsMembers es
      pure ((name ++ 58 :: 32 :: text) :: texts)

end

theorem intText_error {n : Int} {e : Error} (raised : intText n = .error e) :
    e.isValueError = true := by
  unfold intText at raised
  dsimp only at raised
  split at raised
  · cases raised
    rfl
  · cases raised

theorem Key.dumps_error {key : Key} {e : Error} (raised : key.dumps = .error e) :
    e = .typeError ∨ e.isValueError = true := by
  cases key with
  | int n =>
      cases text : intText n with
      | error e' =>
          rw [Key.dumps, text] at raised
          cases raised
          exact .inr (intText_error text)
      | ok digits =>
          rw [Key.dumps, text] at raised
          cases raised
  | bytes data => exact .inl (Except.error.inj raised).symm
  | other object => exact .inl (Except.error.inj raised).symm
  | _ => cases raised

theorem dumpsItems_error {vs : List Value} {e : Error} (raised : dumpsItems vs = .error e) :
    ∃ v ∈ vs, dumps v = .error e := by
  induction vs with
  | nil => cases raised
  | cons v vs ih =>
      rw [dumpsItems] at raised
      cases first : dumps v with
      | error e' =>
          rw [first] at raised
          cases raised
          exact ⟨v, List.mem_cons_self, first⟩
      | ok text =>
          cases rest : dumpsItems vs with
          | error e' =>
              rw [first, rest] at raised
              cases raised
              obtain ⟨x, member, is⟩ := ih rest
              exact ⟨x, List.mem_cons_of_mem v member, is⟩
          | ok texts =>
              rw [first, rest] at raised
              cases raised

theorem dumpsMembers_error {es : List (Key × Value)} {e : Error}
    (raised : dumpsMembers es = .error e) :
    ∃ entry ∈ es, entry.1.dumps = .error e ∨ dumps entry.2 = .error e := by
  induction es with
  | nil => cases raised
  | cons entry es ih =>
      rw [dumpsMembers] at raised
      cases name : entry.1.dumps with
      | error e' =>
          rw [name] at raised
          cases raised
          exact ⟨entry, List.mem_cons_self, .inl name⟩
      | ok key =>
          cases first : dumps entry.2 with
          | error e' =>
              rw [name, first] at raised
              cases raised
              exact ⟨entry, List.mem_cons_self, .inr first⟩
          | ok text =>
              cases rest : dumpsMembers es with
              | error e' =>
                  rw [name, first, rest] at raised
                  cases raised
                  obtain ⟨x, member, is⟩ := ih rest
                  exact ⟨x, List.mem_cons_of_mem entry member, is⟩
              | ok texts =>
                  rw [name, first, rest] at raised
                  cases raised

/-- `dumps` raises a `TypeError` or a `ValueError`. -/
theorem dumps_error (v : Value) : ∀ {e : Error}, dumps v = .error e →
    e = .typeError ∨ e.isValueError = true := by
  induction v using Value.nesting with
  | scalar v flat =>
      intro e raised
      cases v with
      | int n => exact .inr (intText_error raised)
      | other object => exact .inl (Except.error.inj raised).symm
      | list items => cases flat
      | tuple items => cases flat
      | dict items => cases flat
      | _ => cases raised
  | list items known | tuple items known =>
      intro e raised
      rw [dumps] at raised
      cases inner : dumpsItems items with
      | error e' =>
          rw [inner] at raised
          cases raised
          obtain ⟨x, member, is⟩ := dumpsItems_error inner
          exact known x member is
      | ok texts =>
          rw [inner] at raised
          cases raised
  | dict items known =>
      intro e raised
      rw [dumps] at raised
      cases inner : dumpsMembers items with
      | error e' =>
          rw [inner] at raised
          cases raised
          obtain ⟨entry, member, key | is⟩ := dumpsMembers_error inner
          · exact Key.dumps_error key
          · exact known entry member is
      | ok texts =>
          rw [inner] at raised
          cases raised

end SaasTemplate.Python

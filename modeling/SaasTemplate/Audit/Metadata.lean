import SaasTemplate.Python.Value
import Mathlib.Data.List.Infix

/-! # The validation of audit metadata

A loop with a stack looks for forbidden keys, a recursion measures the nesting, and the
serialised text is limited in size. `room` is the number of nested calls for which the stack of
the interpreter still has room.
-/

namespace SaasTemplate.Audit.Metadata

open SaasTemplate.CodePoints SaasTemplate.Python

/-! ## The code -/

def forbiddenKeys : List Text :=
  ["token", "raw_token", "invite_token", "token_hash", "authorization", "password", "secret",
    "api_key", "headers", "cookie", "set_cookie"].map ofString

def forbiddenMarkers : List Text :=
  ["token", "password", "secret", "authorization", "cookie"].map ofString

/-- `text.replace("-", "_")`. -/
def replaceHyphens (text : Text) : Text := text.map fun c => if c = 45 then 95 else c

/-- A normalised key is forbidden, or has a forbidden part. -/
def isForbidden (normalizedKey : Text) : Bool :=
  forbiddenKeys.contains normalizedKey ||
    forbiddenMarkers.any fun marker => marker <:+: normalizedKey

section Validation

variable (lower : Text → Text)

/-- `key.lower().replace("-", "_")`: bytes are lowered too, but replace bytes only, and no other
    type of key has `lower`. -/
def normalizedKey : Key → Except Error Text
  | .str text => .ok (replaceHyphens (lower text))
  | .bytes _ => .error .typeError
  | _ => .error .attributeError

def checkKey (key : Key) : Except Error Unit := do
  let normalizedKey ← normalizedKey lower key
  if isForbidden normalizedKey then .error (.valueError "Audit metadata contains forbidden keys")
  else .ok ()

/-- The keys of one dictionary, in their order. -/
def checkKeys : List Key → Except Error Unit
  | [] => .ok ()
  | key :: keys => do
      checkKey lower key
      checkKeys keys

/-- What is pushed for a value, the last of it on top. -/
def pushed : Value → List Value
  | .dict items => (items.map (·.2)).reverse
  | .list items => items.reverse
  | _ => []

def keysOf : Value → List Key
  | .dict items => items.map (·.1)
  | _ => []

theorem weight_pushed (v : Value) : Value.weightOfItems (pushed v) < v.weight := by
  cases v with
  | dict items =>
      simp [pushed, Value.weight, Value.weightOfItems_reverse, Value.weightOfItems_map_snd]
  | list items => simp [pushed, Value.weight, Value.weightOfItems_reverse]
  | tuple items =>
      simp only [pushed, Value.weight, Value.weightOfItems]
      omega
  | _ => simp [pushed, Value.weight, Value.weightOfItems]

/-- The loop of `_validate_no_forbidden_metadata_keys`, with the top of the stack first. -/
def validateNoForbiddenMetadataKeys : List Value → Except Error Unit
  | [] => .ok ()
  | current :: stack => do
      checkKeys lower (keysOf current)
      validateNoForbiddenMetadataKeys (pushed current ++ stack)
termination_by stack => Value.weightOfItems stack
decreasing_by
  have less := weight_pushed current
  simp only [Value.weightOfItems_append, Value.weightOfItems]
  omega

def unsupported : Error := .valueError "Audit metadata contains unsupported value types"

mutual

/-- `_calculate_json_depth`, with room for so many calls within this one. -/
def calculateJsonDepth (room : Nat) : Value → Except Error Nat
  | .dict items => (depthOfValues room items).map (1 + ·)
  | .list items => (depthOfItems room items).map (1 + ·)
  | .str _ | .int _ | .float _ | .bool _ | .none => .ok 0
  | .tuple _ | .other _ => .error unsupported

/-- `max(..., default=0)` over the items of a list. -/
def depthOfItems (room : Nat) : List Value → Except Error Nat
  | [] => .ok 0
  | v :: vs =>
      if room = 0 then .error .recursionError
      else do
        let depth ← calculateJsonDepth (room - 1) v
        let rest ← depthOfItems room vs
        pure (max depth rest)

/-- `max(..., default=0)` over the values of a dictionary. -/
def depthOfValues (room : Nat) : List (Key × Value) → Except Error Nat
  | [] => .ok 0
  | (_, v) :: es =>
      if room = 0 then .error .recursionError
      else do
        let depth ← calculateJsonDepth (room - 1) v
        let rest ← depthOfValues room es
        pure (max depth rest)

end

/-- `json.dumps` with its `TypeError` and `ValueError` turned into one `ValueError`. -/
def serialize (v : Value) : Except Error Text :=
  match dumps v with
  | .ok payload => .ok payload
  | .error .typeError | .error (.valueError _) | .error .unicodeEncodeError => .error unsupported
  | .error e => .error e

/-- `payload.encode("utf-8")`. -/
def encode (payload : Text) : Except Error ByteArray :=
  match encodeUtf8 payload with
  | .ok data => .ok data
  | .error _ => .error .unicodeEncodeError

/-- `_validate_metadata_json`, from where the depth is known. -/
def checkLimits (depth : Nat) (v : Value) : Except Error Value :=
  if 3 < depth then .error (.valueError "Audit metadata exceeds max nesting depth")
  else do
    let payload ← serialize v
    let data ← encode payload
    if 8192 < data.size then .error (.valueError "Audit metadata exceeds max size") else .ok v

/-- `_validate_metadata_json`. -/
def validateMetadataJson (room : Nat) (v : Value) : Except Error Value :=
  match v with
  | .none => .ok .none
  | v => do
      validateNoForbiddenMetadataKeys lower [v]
      let depth ← calculateJsonDepth room v
      checkLimits depth v

/-! ## What is promised -/

/-- A string key that is forbidden once it is normalised. -/
def ForbiddenKey (key : Key) : Prop :=
  ∃ normalized, normalizedKey lower key = .ok normalized ∧ isForbidden normalized = true

/-- The validator accepts or raises a `ValueError`, and what it accepts is harmless. -/
structure MetadataValidated (room : Nat) (v : Value) : Prop where
  total : ∀ e, validateMetadataJson lower room v = .error e → e.isValueError = true
  same : ∀ accepted, validateMetadataJson lower room v = .ok accepted → accepted = v
  keys : ∀ accepted, validateMetadataJson lower room v = .ok accepted → ∀ items,
    (Value.dict items).Occurs v → ∀ e ∈ items, ¬ForbiddenKey lower e.1
  depth : ∀ accepted, validateMetadataJson lower room v = .ok accepted → v.depth ≤ 3
  size : ∀ accepted, validateMetadataJson lower room v = .ok accepted →
    ∃ payload data, dumps v = .ok payload ∧ encodeUtf8 payload = .ok data ∧ data.size ≤ 8192

mutual

/-- The keys at any depth of dictionaries and lists, in the order in which the loop meets them:
    a dictionary before its values, and of several values the last one first. -/
def visitedKeys : Value → List Key
  | .dict items => items.map (·.1) ++ visitedKeysOfValues items
  | .list items => visitedKeysOfItems items
  | _ => []

def visitedKeysOfItems : List Value → List Key
  | [] => []
  | v :: vs => visitedKeysOfItems vs ++ visitedKeys v

def visitedKeysOfValues : List (Key × Value) → List Key
  | [] => []
  | (_, v) :: es => visitedKeysOfValues es ++ visitedKeys v

end

/-- A string that is not forbidden. -/
def isHarmless (key : Key) : Bool :=
  match normalizedKey lower key with
  | .ok normalized => !isForbidden normalized
  | .error _ => false

mutual

/-- The values at any depth of dictionaries and lists with their depths, from the first one on. -/
def walk (level : Nat) : Value → List (Nat × Value)
  | .dict items => (level, .dict items) :: walkValues (level + 1) items
  | .list items => (level, .list items) :: walkItems (level + 1) items
  | v => [(level, v)]

def walkItems (level : Nat) : List Value → List (Nat × Value)
  | [] => []
  | v :: vs => walk level v ++ walkItems level vs

def walkValues (level : Nat) : List (Key × Value) → List (Nat × Value)
  | [] => []
  | (_, v) :: es => walk level v ++ walkValues level es

end

def isUnsupported : Value → Bool
  | .tuple _ | .other _ => true
  | _ => false

/-- A value that is too deep for the stack, or of an unsupported type. -/
def stops (room : Nat) (entry : Nat × Value) : Bool := room < entry.1 || isUnsupported entry.2

/-- Of the keys that are no harmless strings the first one met is a string; and if there are no
    such keys, then of the values that are of an unsupported type or too deep for the stack the
    first one is not too deep. -/
def Orderly (room : Nat) (v : Value) : Prop :=
  (∀ key, (visitedKeys v).find? (!isHarmless lower ·) = some key → key.isStr = true) ∧
    ((visitedKeys v).all (isHarmless lower) = true →
      ∀ entry, (walk 0 v).find? (stops room) = some entry → entry.1 ≤ room)

/-! ## The loop over the keys -/

variable {lower} {room : Nat} {v : Value}

theorem checkKeys_append (keys keys' : List Key) :
    checkKeys lower (keys ++ keys') = checkKeys lower keys >>= fun _ => checkKeys lower keys' := by
  induction keys with
  | nil => rfl
  | cons key keys ih =>
      simp only [List.cons_append, checkKeys, ih]
      cases checkKey lower key with
      | error e => rfl
      | ok checked => rfl

theorem visitedKeysOfItems_eq (items : List Value) :
    visitedKeysOfItems items = items.reverse.flatMap visitedKeys := by
  induction items with
  | nil => rfl
  | cons v vs ih => simp [visitedKeysOfItems, ih]

theorem visitedKeysOfValues_eq (items : List (Key × Value)) :
    visitedKeysOfValues items = (items.map (·.2)).reverse.flatMap visitedKeys := by
  induction items with
  | nil => rfl
  | cons e es ih => simp [visitedKeysOfValues, ih]

theorem visitedKeys_eq (v : Value) :
    visitedKeys v = keysOf v ++ (pushed v).flatMap visitedKeys := by
  cases v with
  | dict items => rw [visitedKeys, visitedKeysOfValues_eq]; rfl
  | list items => rw [visitedKeys, visitedKeysOfItems_eq]; rfl
  | _ => rfl

/-- The loop checks the keys of all values on the stack, in the order of its visits. -/
theorem validateNoForbiddenMetadataKeys_eq (stack : List Value) :
    validateNoForbiddenMetadataKeys lower stack = checkKeys lower (stack.flatMap visitedKeys) := by
  induction stack using validateNoForbiddenMetadataKeys.induct with
  | case1 => rw [validateNoForbiddenMetadataKeys]; rfl
  | case2 current stack ih =>
      rw [validateNoForbiddenMetadataKeys, ih, List.flatMap_cons, visitedKeys_eq current,
        List.append_assoc, checkKeys_append, List.flatMap_append]

theorem checkKey_harmless {key : Key} (harmless : isHarmless lower key = true) :
    checkKey lower key = .ok () := by
  unfold isHarmless at harmless
  split at harmless
  · rename_i normalized is
    simp only [checkKey, is, bind, Except.bind]
    rw [if_neg (by simpa using harmless)]
  · cases harmless

theorem checkKey_harmful {key : Key} (harmful : isHarmless lower key = false) :
    ∃ e, checkKey lower key = .error e := by
  unfold isHarmless at harmful
  split at harmful
  · rename_i normalized is
    simp only [checkKey, is, bind, Except.bind]
    exact ⟨_, if_pos (by simpa using harmful)⟩
  · rename_i e is
    exact ⟨e, by simp only [checkKey, is, bind, Except.bind]⟩

/-- The first key that is no harmless string decides. -/
theorem checkKeys_eq (keys : List Key) :
    checkKeys lower keys = match keys.find? (!isHarmless lower ·) with
      | none => .ok ()
      | some key => checkKey lower key := by
  induction keys with
  | nil => rfl
  | cons key keys ih =>
      cases harmless : isHarmless lower key with
      | true =>
          rw [List.find?_cons_of_neg (by simp [harmless]), ← ih, checkKeys,
            checkKey_harmless harmless]
          rfl
      | false =>
          rw [List.find?_cons_of_pos (by simp [harmless]), checkKeys]
          obtain ⟨e, is⟩ := checkKey_harmful harmless
          simp only [is]
          rfl

/-- A key that is no harmless string raises a `ValueError` if and only if it is a string. -/
theorem checkKey_error {key : Key} {e : Error} (raised : checkKey lower key = .error e) :
    e.isValueError = key.isStr := by
  cases key with
  | str text =>
      simp only [checkKey, normalizedKey, bind, Except.bind] at raised
      split at raised
      · cases raised
        rfl
      · cases raised
  | _ =>
      cases raised
      rfl

/-! ## The recursion over the nesting -/

/-- What the recursion raises at such a value. -/
def stopError (room : Nat) (entry : Nat × Value) : Error :=
  if room < entry.1 then .recursionError else unsupported

theorem depthOfValues_eq (room : Nat) (items : List (Key × Value)) :
    depthOfValues room items = depthOfItems room (items.map (·.2)) := by
  induction items with
  | nil => rfl
  | cons e es ih => simp only [depthOfValues, List.map_cons, depthOfItems, ih]

theorem walkValues_eq (level : Nat) (items : List (Key × Value)) :
    walkValues level items = walkItems level (items.map (·.2)) := by
  induction items with
  | nil => rfl
  | cons e es ih => simp only [walkValues, List.map_cons, walkItems, ih]

theorem value_depthOfValues_eq (items : List (Key × Value)) :
    Value.depthOfValues items = Value.depthOfItems (items.map (·.2)) := by
  induction items with
  | nil => rfl
  | cons e es ih => simp only [Value.depthOfValues, List.map_cons, Value.depthOfItems, ih]

/-- What the recursion says of a value at some level. -/
def DepthKnown (room level : Nat) (v : Value) : Prop :=
  calculateJsonDepth (room - level) v = match (walk level v).find? (stops room) with
    | none => .ok v.depth
    | some entry => .error (stopError room entry)

/-- A value that is too deep is the first one met in itself. -/
theorem walk_too_deep {level : Nat} (deep : room < level) (v : Value) (more : List (Nat × Value)) :
    (walk level v ++ more).find? (stops room) = some (level, v) := by
  have head : ∃ rest, walk level v = (level, v) :: rest := by
    cases v with
    | list items => exact ⟨_, rfl⟩
    | dict items => exact ⟨_, rfl⟩
    | _ => exact ⟨[], rfl⟩
  obtain ⟨rest, is⟩ := head
  rw [is, List.cons_append, List.find?_cons_of_pos]
  simp [stops, deep]

theorem depthOfItems_eq {level : Nat} (inside : level ≤ room) {items : List Value}
    (known : ∀ x ∈ items, level + 1 ≤ room → DepthKnown room (level + 1) x) :
    depthOfItems (room - level) items = match (walkItems (level + 1) items).find? (stops room) with
      | none => .ok (Value.depthOfItems items)
      | some entry => .error (stopError room entry) := by
  induction items with
  | nil => rfl
  | cons x xs ih =>
      have rest := ih fun y member => known y (List.mem_cons_of_mem x member)
      rw [depthOfItems, walkItems]
      rcases Nat.lt_or_ge level room with more | full
      · have first := known x List.mem_cons_self more
        have one : room - level - 1 = room - (level + 1) := by omega
        rw [if_neg (by omega), one, first, List.find?_append]
        cases (walk (level + 1) x).find? (stops room) with
        | some entry => rfl
        | none =>
            rw [rest]
            cases (walkItems (level + 1) xs).find? (stops room) with
            | some entry => rfl
            | none => rfl
      · rw [if_pos (by omega), walk_too_deep (by omega)]
        simp [stopError, Nat.lt_succ_of_le full]

theorem depthKnown (v : Value) : ∀ level ≤ room, DepthKnown room level v := by
  induction v using Value.nesting with
  | scalar v flat =>
      intro level inside
      have here : ¬room < level := Nat.not_lt.mpr inside
      cases v with
      | list items => cases flat
      | tuple items => cases flat
      | dict items => cases flat
      | other object =>
          simp [DepthKnown, calculateJsonDepth, walk, stops, isUnsupported, stopError, here]
      | _ => simp [DepthKnown, calculateJsonDepth, walk, stops, isUnsupported, here, Value.depth]
  | tuple items known =>
      intro level inside
      have here : ¬room < level := Nat.not_lt.mpr inside
      simp [DepthKnown, calculateJsonDepth, walk, stops, isUnsupported, stopError, here]
  | list items known =>
      intro level inside
      have here : ¬stops room (level, .list items) = true := by
        simp [stops, isUnsupported, inside]
      rw [DepthKnown, calculateJsonDepth, walk, List.find?_cons_of_neg here,
        depthOfItems_eq inside fun x member => known x member (level + 1)]
      cases (walkItems (level + 1) items).find? (stops room) with
      | some entry => rfl
      | none => rfl
  | dict items known =>
      intro level inside
      have here : ¬stops room (level, .dict items) = true := by
        simp [stops, isUnsupported, inside]
      have values : ∀ x ∈ items.map (·.2), level + 1 ≤ room → DepthKnown room (level + 1) x := by
        intro x member
        obtain ⟨e, among, rfl⟩ := List.mem_map.mp member
        exact known e among (level + 1)
      rw [DepthKnown, calculateJsonDepth, walk, List.find?_cons_of_neg here, depthOfValues_eq,
        walkValues_eq, depthOfItems_eq inside values, Value.depth, value_depthOfValues_eq]
      cases (walkItems (level + 1) (items.map (·.2))).find? (stops room) with
      | some entry => rfl
      | none => rfl

/-- The recursion finds the depth, or stops at the first value that is too deep or unsupported. -/
theorem calculateJsonDepth_eq (room : Nat) (v : Value) :
    calculateJsonDepth room v = match (walk 0 v).find? (stops room) with
      | none => .ok v.depth
      | some entry => .error (stopError room entry) := depthKnown v 0 (Nat.zero_le room)

theorem measured_of_mem {depth : Nat} {items : List Value}
    (measured : depthOfItems room items = .ok depth) {x : Value} (member : x ∈ items) :
    ∃ d, calculateJsonDepth (room - 1) x = .ok d := by
  induction items generalizing depth with
  | nil => cases member
  | cons y ys ih =>
      rw [depthOfItems] at measured
      split at measured
      · cases measured
      · cases first : calculateJsonDepth (room - 1) y with
        | error e =>
            rw [first] at measured
            cases measured
        | ok d =>
            rw [first] at measured
            cases rest : depthOfItems room ys with
            | error e =>
                rw [rest] at measured
                cases measured
            | ok d' =>
                rcases List.mem_cons.mp member with rfl | later
                · exact ⟨d, first⟩
                · exact ih rest later

/-- In a value that is measured there are only dictionaries, lists and scalars, so that every key
    is met. -/
theorem mem_visitedKeys {items : List (Key × Value)} {e : Key × Value} (member : e ∈ items)
    (v : Value) : ∀ {room depth}, calculateJsonDepth room v = .ok depth →
      (Value.dict items).Occurs v → e.1 ∈ visitedKeys v := by
  induction v using Value.nesting with
  | scalar v flat =>
      intro room depth measured occurs
      cases occurs <;> cases flat
  | tuple xs known =>
      intro room depth measured
      cases measured
  | list xs known =>
      intro room depth measured occurs
      rw [calculateJsonDepth] at measured
      cases inner : depthOfItems room xs with
      | error e =>
          rw [inner] at measured
          cases measured
      | ok d =>
          cases occurs with
          | item among inside =>
              obtain ⟨d', x⟩ := measured_of_mem inner among
              rw [visitedKeys, visitedKeysOfItems_eq]
              exact List.mem_flatMap.mpr ⟨_, List.mem_reverse.mpr among, known _ among x inside⟩
  | dict xs known =>
      intro room depth measured occurs
      rw [calculateJsonDepth, depthOfValues_eq] at measured
      rw [visitedKeys, List.mem_append, visitedKeysOfValues_eq]
      cases inner : depthOfItems room (xs.map (·.2)) with
      | error e =>
          rw [inner] at measured
          cases measured
      | ok d =>
          cases occurs with
          | here => exact .inl (List.mem_map_of_mem member)
          | value among inside =>
              have value := List.mem_map_of_mem (f := Prod.snd) among
              obtain ⟨d', x⟩ := measured_of_mem inner value
              exact .inr (List.mem_flatMap.mpr
                ⟨_, List.mem_reverse.mpr value, known _ among x inside⟩)

/-! ## The validator -/

/-- The checks of the text raise nothing but a `ValueError`. -/
theorem isValueError_of_serialize {e : Error} (raised : serialize v = .error e) :
    e.isValueError = true := by
  cases text : dumps v with
  | ok payload =>
      rw [serialize, text] at raised
      cases raised
  | error e' =>
      rw [serialize, text] at raised
      rcases dumps_error v text with rfl | value
      · cases raised
        rfl
      · cases e' with
        | valueError | unicodeEncodeError =>
            cases raised
            rfl
        | _ => cases value

theorem dumps_of_serialize {payload : Text} (written : serialize v = .ok payload) :
    dumps v = .ok payload := by
  unfold serialize at written
  split at written <;> first | cases written; assumption | cases written

theorem encodeUtf8_of_encode {payload : Text} {data : ByteArray}
    (encoded : encode payload = .ok data) : encodeUtf8 payload = .ok data := by
  unfold encode at encoded
  split at encoded
  · cases encoded
    assumption
  · cases encoded

/-- The last checks raise nothing but a `ValueError`. -/
theorem isValueError_of_checkLimits {depth : Nat} {e : Error}
    (raised : checkLimits depth v = .error e) : e.isValueError = true := by
  unfold checkLimits at raised
  split at raised
  · cases raised
    rfl
  · cases text : serialize v with
    | error e' =>
        rw [text] at raised
        cases raised
        exact isValueError_of_serialize text
    | ok payload =>
        rw [text] at raised
        cases encoded : encode payload with
        | error e' =>
            simp only [bind, Except.bind, encoded] at raised
            unfold encode at encoded
            split at encoded
            · cases encoded
            · cases encoded
              cases raised
              rfl
        | ok data =>
            simp only [bind, Except.bind, encoded] at raised
            split at raised
            · cases raised
              rfl
            · cases raised

/-- What the last checks accept is within the limits. -/
theorem limits_of_checkLimits {depth : Nat} {accepted : Value}
    (passed : checkLimits depth v = .ok accepted) : accepted = v ∧ depth ≤ 3 ∧
      ∃ payload data, dumps v = .ok payload ∧ encodeUtf8 payload = .ok data ∧ data.size ≤ 8192 := by
  unfold checkLimits at passed
  split at passed
  · cases passed
  · rename_i shallow
    cases text : serialize v with
    | error e =>
        rw [text] at passed
        cases passed
    | ok payload =>
        rw [text] at passed
        cases encoded : encode payload with
        | error e =>
            simp only [bind, Except.bind, encoded] at passed
            cases passed
        | ok data =>
            simp only [bind, Except.bind, encoded] at passed
            split at passed
            · cases passed
            · rename_i small
              cases passed
              exact ⟨rfl, Nat.not_lt.mp shallow, payload, data, dumps_of_serialize text,
                encodeUtf8_of_encode encoded, Nat.not_lt.mp small⟩

/-! ## The validator -/

theorem validateMetadataJson_eq (there : v ≠ .none) :
    validateMetadataJson lower room v = (do
      checkKeys lower (visitedKeys v)
      let depth ← calculateJsonDepth room v
      checkLimits depth v) := by
  have keys : validateNoForbiddenMetadataKeys lower [v] = checkKeys lower (visitedKeys v) := by
    rw [validateNoForbiddenMetadataKeys_eq, List.flatMap_singleton]
  rw [← keys]
  cases v with
  | none => exact absurd rfl there
  | _ => rfl

/-- What goes wrong with a value, and where. -/
theorem validateMetadataJson_cases (room : Nat) (there : v ≠ .none) :
    (∃ key e, (visitedKeys v).find? (!isHarmless lower ·) = some key ∧
        checkKey lower key = .error e ∧ validateMetadataJson lower room v = .error e) ∨
      (visitedKeys v).all (isHarmless lower) = true ∧
        ((∃ entry, (walk 0 v).find? (stops room) = some entry ∧
            validateMetadataJson lower room v = .error (stopError room entry)) ∨
          (walk 0 v).find? (stops room) = none ∧
            calculateJsonDepth room v = .ok v.depth ∧
            validateMetadataJson lower room v = checkLimits v.depth v) := by
  rw [validateMetadataJson_eq there, checkKeys_eq]
  cases found : (visitedKeys v).find? (!isHarmless lower ·) with
  | some key =>
      have harmful : isHarmless lower key = false := by simpa using List.find?_some found
      obtain ⟨e, is⟩ := checkKey_harmful harmful
      exact .inl ⟨key, e, rfl, is, by simp only [is]; rfl⟩
  | none =>
      have harmless : (visitedKeys v).all (isHarmless lower) = true := by
        rw [List.all_eq_true]
        intro key member
        simpa using List.find?_eq_none.mp found key member
      refine .inr ⟨harmless, ?_⟩
      rw [calculateJsonDepth_eq]
      cases stopped : (walk 0 v).find? (stops room) with
      | some entry => exact .inl ⟨entry, rfl, rfl⟩
      | none => exact .inr ⟨rfl, rfl, rfl⟩

theorem MetadataValidated.of_error {e : Error} (is : validateMetadataJson lower room v = .error e)
    (value : e.isValueError = true) : MetadataValidated lower room v where
  total e' raised := by
    cases is.symm.trans raised
    exact value
  same _ passed := by cases is.symm.trans passed
  keys _ passed := by cases is.symm.trans passed
  depth _ passed := by cases is.symm.trans passed
  size _ passed := by cases is.symm.trans passed

theorem metadataValidated_none (lower : Text → Text) (room : Nat) :
    MetadataValidated lower room .none where
  total := nofun
  same _ passed := (Except.ok.inj passed).symm
  keys _ _ _ occurs := by cases occurs
  depth _ _ := Nat.zero_le 3
  size _ _ := ⟨_, _, rfl, rfl, by decide⟩

theorem orderly_none (lower : Text → Text) (room : Nat) : Orderly lower room .none := by
  refine ⟨nofun, fun _ entry found => ?_⟩
  have missing : (walk 0 .none).find? (stops room) = none := by simp [walk, stops, isUnsupported]
  cases missing.symm.trans found

/-- Once keys and depth are known to be in order, the limits decide. -/
theorem MetadataValidated.of_limits (harmless : (visitedKeys v).all (isHarmless lower) = true)
    (measured : calculateJsonDepth room v = .ok v.depth)
    (is : validateMetadataJson lower room v = checkLimits v.depth v) :
    MetadataValidated lower room v where
  total _ raised := isValueError_of_checkLimits (is.symm.trans raised)
  same _ passed := (limits_of_checkLimits (is.symm.trans passed)).1
  keys := by
    rintro accepted - items occurs e member ⟨normalized, here, forbidden⟩
    have harmlessKey :=
      List.all_eq_true.mp harmless _ (mem_visitedKeys member v measured occurs)
    simp [isHarmless, here, forbidden] at harmlessKey
  depth _ passed := (limits_of_checkLimits (is.symm.trans passed)).2.1
  size _ passed := (limits_of_checkLimits (is.symm.trans passed)).2.2

theorem not_harmless_of_find {key : Key}
    (found : (visitedKeys v).find? (!isHarmless lower ·) = some key) :
    ¬(visitedKeys v).all (isHarmless lower) = true := by
  intro harmless
  have harmful : isHarmless lower key = false := by simpa using List.find?_some found
  have harmlessKey := List.all_eq_true.mp harmless key (List.mem_of_find?_eq_some found)
  cases harmful.symm.trans harmlessKey

/-- For every value, every room on the stack and every `lower`: the validator is total and sound
    exactly if the value is orderly. -/
theorem metadataValidated_iff_orderly (lower : Text → Text) (room : Nat) (v : Value) :
    MetadataValidated lower room v ↔ Orderly lower room v := by
  by_cases none : v = .none
  · subst none
    exact iff_of_true (metadataValidated_none lower room) (orderly_none lower room)
  have cases_ := @validateMetadataJson_cases lower v room none
  constructor
  · intro validated
    refine ⟨fun key found => ?_, fun harmless entry found => ?_⟩
    · rcases cases_ with ⟨key', e, found', raised, is⟩ | ⟨harmless, -⟩
      · cases found.symm.trans found'
        rw [← checkKey_error raised]
        exact validated.total e is
      · exact absurd harmless (not_harmless_of_find found)
    · rcases cases_ with ⟨key, e, found', -⟩ | ⟨-, ⟨entry', found', is⟩ | ⟨missing, -⟩⟩
      · exact absurd harmless (not_harmless_of_find found')
      · cases found.symm.trans found'
        have value := validated.total _ is
        by_contra deep
        rw [stopError, if_pos (Nat.not_le.mp deep)] at value
        cases value
      · cases missing.symm.trans found
  · intro orderly
    rcases cases_ with ⟨key, e, found, raised, is⟩ |
      ⟨harmless, ⟨entry, found, is⟩ | ⟨missing, measured, is⟩⟩
    · have value : e.isValueError = true := (checkKey_error raised).trans (orderly.1 key found)
      exact .of_error is value
    · refine .of_error is ?_
      rw [stopError, if_neg (Nat.not_lt.mpr (orderly.2 harmless entry found))]
      rfl
    · exact .of_limits harmless measured is

end Validation

/-! ## A number as a key -/

/-- `{"changes": {1: "x"}}`. -/
def numberedChanges : Value := .dict [(.str (ofString "changes"), .dict [(.int 1, .str [120])])]

/-- The key `1` has no `lower`, and nothing catches that. -/
theorem number_key_raises_attributeError : ¬MetadataValidated id 500 numberedChanges := by
  intro validated
  have raises : validateMetadataJson id 500 numberedChanges = .error .attributeError := by
    have keys : checkKeys id (visitedKeys numberedChanges) = .error .attributeError := by
      decide +kernel
    rw [validateMetadataJson_eq (by simp [numberedChanges]), keys]
    rfl
  cases validated.total _ raises

end SaasTemplate.Audit.Metadata

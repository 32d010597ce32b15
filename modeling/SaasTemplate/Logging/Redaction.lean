import SaasTemplate.Logging.Masking

/-! # What redaction leaves of an event

No value under a sensitive key survives, no string looks like a credential, the rest of the
event keeps its shape, and redacting again changes nothing. Addresses are hidden exactly where
no two of them overlap in a string that is shown.
-/

namespace SaasTemplate.Logging

open SaasTemplate.CodePoints SaasTemplate.Python SaasTemplate.Regex SaasTemplate.Regex.Re

/-! ## Credentials -/

section Credentials

variable {word : Text} {more : List (Nat × Text)}

/-- Where some text lies that lacks a separator. -/
theorem cut_text {word text before inner after : Text} {separator : Nat} (some_ : inner ≠ [])
    (fresh : separator ∉ inner) (split : word ++ separator :: text = before ++ (inner ++ after)) :
    (∃ left, word = before ++ (inner ++ left) ∧ after = left ++ separator :: text) ∨
      ∃ before', before = word ++ separator :: before' ∧ text = before' ++ (inner ++ after) := by
  rcases List.append_eq_append_iff.mp split with ⟨x, rfl, rest⟩ | ⟨x, rfl, rest⟩
  · cases x with
    | nil =>
        obtain ⟨c, inner, rfl⟩ := List.exists_cons_of_ne_nil some_
        obtain ⟨rfl, -⟩ := List.cons.inj rest
        exact absurd List.mem_cons_self fresh
    | cons d x =>
        obtain ⟨rfl, rfl⟩ := List.cons.inj rest
        exact .inr ⟨x, rfl, rfl⟩
  · rcases List.append_eq_append_iff.mp rest with ⟨y, rfl, is⟩ | ⟨y, rfl, is⟩
    · exact .inl ⟨y, rfl, is⟩
    · cases y with
      | nil => exact .inl ⟨[], by simp, by simpa using is.symm⟩
      | cons d y =>
          obtain ⟨rfl, -⟩ := List.cons.inj is
          exact absurd (by simp) fresh

/-- Two readable characters in a row were there before masking, between the same neighbours. -/
theorem readable_shown (taken : Bool) (words : Words word more) {before inner after : Text}
    (enough : 2 ≤ inner.length) (plain : ∀ c ∈ inner, inWord c = true ∧ c ≠ 42)
    (split : joinWords (shownWord taken word more) (shownTail taken word more) =
      before ++ (inner ++ after)) :
    ∃ before' after', joinWords word more = before' ++ (inner ++ after') ∧
      before'.getLast? = before.getLast? ∧ after'.head? = after.head? := by
  have some_ : inner ≠ [] := by
    rintro rfl
    cases enough
  induction more generalizing word taken before with
  | nil =>
      have same : shownWord taken word [] = word := by simp [shownWord, startsAddress]
      rw [shownTail, same] at split
      exact ⟨before, after, split, rfl, rfl⟩
  | cons entry more ih =>
      obtain ⟨separator, next⟩ := entry
      have fresh : separator ∉ inner := fun member =>
        Bool.false_ne_true (words.2.1.symm.trans (plain separator member).1)
      rcases cut_text some_ fresh split with ⟨left, is, rfl⟩ | ⟨front, rfl, is⟩
      · rcases shownWord_cases taken word ((separator, next) :: more) with same | masked
        · refine ⟨before, left ++ separator :: joinWords next more, ?_, rfl, ?_⟩
          · rw [joinWords, ← same, is]
            simp
          · cases left <;> rfl
        · exact (readable_maskName (masked.symm.trans is) enough
            fun star => (plain 42 star).2 rfl).elim
      · obtain ⟨before', after', there, last, head⟩ := ih _ words.2.2 is
        refine ⟨word ++ separator :: before', after', ?_, ?_, head⟩
        · rw [joinWords, there]
          simp
        · rw [List.getLast?_append, List.getLast?_append, List.getLast?_cons,
            List.getLast?_cons, last]
          rfl

/-- What a pattern finds in a masked text it finds in the text, if stars and separators are
foreign to it. -/
theorem run_maskEmail {r : Re} {value before after : Text} {m : Match}
    (alphabet : ∀ c, r.accepts c = true → inWord c = true ∧ c ≠ 42) (enough : 2 ≤ r.least)
    (split : maskEmail value = before ++ after) (found : m ∈ r.run (lastOr none before) after) :
    ∃ before' rest', value = before' ++ (m.consumed ++ rest') ∧
      ⟨m.consumed, rest', m.groups⟩ ∈ r.run (lastOr none before') (m.consumed ++ rest') ∧
      rest'.head? = m.rest.head? ∧ lastOr none before' = lastOr none before := by
  obtain ⟨word, more, words, rfl⟩ := exists_words value
  have bounds := run_bounds found
  have whole := run_append found
  subst whole
  rw [maskEmail_joinWords words] at split
  obtain ⟨before', rest', there, last, head⟩ := readable_shown false words
    (enough.trans bounds.1) (fun c member => alphabet c (bounds.2 c member)) split
  have same : lastOr none before' = lastOr none before := by rw [lastOr, lastOr, last]
  refine ⟨before', rest', there, ?_, head, same⟩
  rw [same]
  exact run_local found head

variable {isWord : Nat → Bool} {value : Text}

theorem inWord_of_ascii {c : Nat} (least : 33 ≤ c) (most : c ≤ 126) (sign : c ≠ 64) :
    inWord c = true := by
  simp only [inWord, isSpace, Bool.and_eq_true, Bool.not_eq_true', Bool.or_eq_false_iff,
    Bool.and_eq_false_iff, bne_iff_ne, beq_eq_false_iff_ne, decide_eq_false_iff_not]
  omega

theorem accepts_jwtCompactRe (c : Nat) (is : (jwtCompactRe isWord).accepts c = true) :
    inWord c = true ∧ c ≠ 42 := by
  simp only [jwtCompactRe, Re.accepts, inToken, isAsciiUpper, isAsciiLower, isAsciiDigit,
    Bool.or_eq_true, Bool.and_eq_true, decide_eq_true_eq, beq_iff_eq, Bool.false_eq_true,
    false_or, or_false] at is
  exact ⟨inWord_of_ascii (by omega) (by omega) (by omega), by omega⟩

theorem accepts_literalIgnoreCase (letter : Nat) (letters : Text) (c : Nat) :
    (literalIgnoreCase letter letters).accepts c =
      (letter :: letters).any fun letter => ignoreCase letter c := by
  induction letters generalizing letter with
  | nil => simp [literalIgnoreCase, Re.accepts]
  | cons next letters ih => rw [literalIgnoreCase, Re.accepts, ih]; rfl

theorem ignoreCase_plain {letter c : Nat} (least : 97 ≤ letter) (most : letter ≤ 122)
    (is : ignoreCase letter c = true) : inWord c = true ∧ c ≠ 42 := by
  simp only [ignoreCase, Bool.or_eq_true, Bool.and_eq_true, beq_iff_eq] at is
  rcases is with ((rfl | upper) | ⟨-, rfl | rfl⟩) | ⟨-, rfl⟩
  · exact ⟨inWord_of_ascii (by omega) (by omega) (by omega), by omega⟩
  · exact ⟨inWord_of_ascii (by omega) (by omega) (by omega), by omega⟩
  · decide
  · decide
  · decide

/-- The pattern of a credential up to the white space. -/
def keywordRe (isWord : Nat → Bool) : Re :=
  (boundary isWord).seq
    ((literalIgnoreCase 98 (ofString "earer")).alt (literalIgnoreCase 98 (ofString "asic")))

theorem accepts_keywordRe (c : Nat) (is : (keywordRe isWord).accepts c = true) :
    inWord c = true ∧ c ≠ 42 := by
  have small : ∀ letter ∈ 98 :: ofString "earer" ++ 98 :: ofString "asic",
      97 ≤ letter ∧ letter ≤ 122 := by decide
  simp only [keywordRe, Re.accepts, Bool.false_or, accepts_literalIgnoreCase, ← List.any_append,
    List.any_eq_true] at is
  obtain ⟨letter, member, same⟩ := is
  exact ignoreCase_plain (small letter member).1 (small letter member).2 same

theorem least_jwtCompactRe : (jwtCompactRe isWord).least = 26 := rfl

theorem least_keywordRe : (keywordRe isWord).least = 5 := rfl

/-- One white-space character after the keyword is enough. -/
theorem run_authHeaderValueRe {prev : Option Nat} {text : Text} :
    (authHeaderValueRe isWord).run prev text ≠ [] ↔
      ∃ m ∈ (keywordRe isWord).run prev text, m.rest.head?.any isSpace = true := by
  constructor
  · intro some_
    obtain ⟨m, found⟩ := List.exists_mem_of_ne_nil _ some_
    obtain ⟨m₁, found₁, m₂, found₂, -⟩ := mem_run_seq.mp found
    obtain ⟨split, spaces, enough, -⟩ := mem_run_many.mp found₂
    obtain ⟨c, more, is⟩ := List.exists_cons_of_ne_nil (List.length_pos_iff.mp enough)
    refine ⟨m₁, found₁, ?_⟩
    rw [split, is]
    exact List.all_eq_true.mp spaces c (is ▸ List.mem_cons_self)
  · rintro ⟨m, found, space⟩
    obtain ⟨consumed, rest, groups⟩ := m
    cases rest with
    | nil => cases space
    | cons c rest =>
        have one : ⟨[c], rest, []⟩ ∈ (many isSpace 1).run (lastOr prev consumed) (c :: rest) :=
          mem_run_many.mpr ⟨rfl, by simpa using space, Nat.le_refl 1, rfl⟩
        exact List.ne_nil_of_mem (mem_run_seq.mpr ⟨_, found, _, one, rfl⟩)

/-- Masking makes no credential. -/
theorem not_sensitive_maskEmail (plain : isSensitiveStringValue isWord value = false) :
    isSensitiveStringValue isWord (maskEmail value) = false := by
  rw [isSensitiveStringValue, Bool.or_eq_false_iff] at plain ⊢
  constructor
  · refine Bool.eq_false_iff.mpr fun found => Bool.eq_false_iff.mp plain.1 ?_
    obtain ⟨before, after, split, some_⟩ := search_isSome.mp found
    obtain ⟨m, found, space⟩ := run_authHeaderValueRe.mp some_
    obtain ⟨before', rest', there, found', head, -⟩ :=
      run_maskEmail accepts_keywordRe (by rw [least_keywordRe]; decide) split found
    exact search_isSome.mpr ⟨before', _, there,
      run_authHeaderValueRe.mpr ⟨_, found', by rw [head]; exact space⟩⟩
  · refine Bool.eq_false_iff.mpr fun found => Bool.eq_false_iff.mp plain.2 ?_
    obtain ⟨before, after, split, some_⟩ := search_isSome.mp found
    obtain ⟨m, found⟩ := List.exists_mem_of_ne_nil _ some_
    obtain ⟨before', rest', there, found', -, -⟩ :=
      run_maskEmail accepts_jwtCompactRe (by rw [least_jwtCompactRe]; decide) split found
    exact search_isSome.mpr ⟨before', _, there, List.ne_nil_of_mem found'⟩

/-- The replacement has no white space, and is too short for a token. -/
theorem not_sensitive_redacted : isSensitiveStringValue isWord redacted = false := by
  rw [isSensitiveStringValue, Bool.or_eq_false_iff]
  constructor
  · refine Bool.eq_false_iff.mpr fun found => ?_
    obtain ⟨before, after, split, some_⟩ := search_isSome.mp found
    obtain ⟨⟨consumed, rest, groups⟩, found, space⟩ := run_authHeaderValueRe.mp some_
    have none : ∀ c ∈ redacted, isSpace c = false := by decide
    cases rest with
    | nil => cases space
    | cons c rest =>
        have member : c ∈ redacted := by
          rw [split, ← run_append found]
          simp
        exact Bool.false_ne_true ((none c member).symm.trans space)
  · refine Bool.eq_false_iff.mpr fun found => ?_
    obtain ⟨before, after, split, some_⟩ := search_isSome.mp found
    obtain ⟨m, found⟩ := List.exists_mem_of_ne_nil _ some_
    have enough : 26 ≤ m.consumed.length := (run_bounds found).1
    have sizes := congrArg List.length split
    rw [← run_append found, List.length_append, List.length_append] at sizes
    have ten : redacted.length = 10 := rfl
    omega

end Credentials

/-! ## Strings -/

section Strings

variable {isWord : Nat → Bool} {value : Text}

theorem sanitizeString_eq (plain : isSensitiveStringValue isWord value = false) :
    sanitizeString isWord value = maskEmail value := by
  rw [sanitizeString, plain, if_neg Bool.false_ne_true]
  by_cases sign : value.contains 64 = true
  · rw [if_pos sign]
  · have none : ∀ front back, value = front ++ 64 :: back → ¬AddressAt front back := by
      rintro front back rfl
      simp at sign
    rw [if_neg sign, maskEmail_others none]

theorem sanitizeString_sensitive (is : isSensitiveStringValue isWord value = true) :
    sanitizeString isWord value = redacted := by
  rw [sanitizeString, is]
  rfl

theorem not_sensitive_sanitizeString (isWord : Nat → Bool) (value : Text) :
    isSensitiveStringValue isWord (sanitizeString isWord value) = false := by
  cases is : isSensitiveStringValue isWord value with
  | true =>
      rw [sanitizeString_sensitive is]
      exact not_sensitive_redacted
  | false =>
      rw [sanitizeString_eq is]
      exact not_sensitive_maskEmail is

theorem sanitizeString_redacted : sanitizeString isWord redacted = redacted := by
  rw [sanitizeString, not_sensitive_redacted]
  rfl

theorem sanitizeString_sanitizeString (isWord : Nat → Bool) (value : Text) :
    sanitizeString isWord (sanitizeString isWord value) = sanitizeString isWord value := by
  cases is : isSensitiveStringValue isWord value with
  | true => rw [sanitizeString_sensitive is, sanitizeString_redacted]
  | false =>
      rw [sanitizeString_eq is, sanitizeString_eq (not_sensitive_maskEmail is),
        maskEmail_maskEmail]

end Strings

/-! ## Events -/

section Events

variable (isWord : Nat → Bool) (lower : Text → Text)

theorem sanitizeItems_eq (items : List Value) :
    sanitizeItems isWord lower items = items.map (sanitizeValue isWord lower) := by
  induction items with
  | nil => rfl
  | cons item items ih => rw [sanitizeItems, ih, List.map_cons]

/-- An entry of a dictionary as redaction leaves it. -/
def sanitizeEntry (e : Key × Value) : Key × Value :=
  (e.1, if isSensitiveKey lower e.1 then .str redacted else sanitizeValue isWord lower e.2)

theorem sanitizeMapping_eq (items : List (Key × Value)) :
    sanitizeMapping isWord lower items = items.map (sanitizeEntry isWord lower) := by
  induction items with
  | nil => rfl
  | cons item items ih => rw [sanitizeMapping, ih, List.map_cons]; rfl

mutual

/-- What redaction may make of a value: containers keep their shape, dictionaries their keys
and scalars their values; what stands under a sensitive key is replaced, and so is a string
that looks like a credential. In the other strings addresses are hidden. -/
def Redacts : Value → Value → Prop
  | .dict items, shown => ∃ items', shown = .dict items' ∧ RedactsMapping items items'
  | .list items, shown => ∃ items', shown = .list items' ∧ RedactsItems items items'
  | .tuple items, shown => ∃ items', shown = .tuple items' ∧ RedactsItems items items'
  | .str value, shown => ∃ value', shown = .str value' ∧
      if isSensitiveStringValue isWord value then value' = redacted else Masked value value'
  | value, shown => shown = value

def RedactsItems : List Value → List Value → Prop
  | [], shown => shown = []
  | item :: items, shown => ∃ item' items', shown = item' :: items' ∧ Redacts item item' ∧
      RedactsItems items items'

def RedactsMapping : List (Key × Value) → List (Key × Value) → Prop
  | [], shown => shown = []
  | (key, value) :: items, shown => ∃ value' items', shown = (key, value') :: items' ∧
      (if isSensitiveKey lower key then value' = .str redacted else Redacts value value') ∧
      RedactsMapping items items'

end

/-- A string that is shown: it lies in a value, and under no sensitive key. -/
inductive Shows (value : Text) : Value → Prop
  | here : Shows value (.str value)
  | item {items : List Value} {x : Value} : x ∈ items → Shows value x → Shows value (.list items)
  | component {items : List Value} {x : Value} : x ∈ items → Shows value x →
      Shows value (.tuple items)
  | value {items : List (Key × Value)} {e : Key × Value} : e ∈ items →
      isSensitiveKey lower e.1 = false → Shows value e.2 → Shows value (.dict items)

/-- The whole promise of redaction, for one event. -/
structure Redaction (eventDict redactedDict : List (Key × Value)) : Prop where
  keys : ∀ items, (Value.dict items).Occurs (.dict redactedDict) → ∀ e ∈ items,
    isSensitiveKey lower e.1 = true → e.2 = .str redacted
  credentials : ∀ value, (Value.str value).Occurs (.dict redactedDict) →
    isSensitiveStringValue isWord value = false
  shown : Redacts isWord lower (.dict eventDict) (.dict redactedDict)
  idempotent : redactSensitiveFields isWord lower redactedDict = redactedDict

variable {isWord lower}

theorem redactsItems_map {items : List Value} :
    RedactsItems isWord lower items (items.map (sanitizeValue isWord lower)) ↔
      ∀ x ∈ items, Redacts isWord lower x (sanitizeValue isWord lower x) := by
  induction items with
  | nil => simp [RedactsItems]
  | cons item items ih =>
      rw [RedactsItems, List.forall_mem_cons, ← ih]
      simp

theorem redactsMapping_map {items : List (Key × Value)} :
    RedactsMapping isWord lower items (items.map (sanitizeEntry isWord lower)) ↔
      ∀ e ∈ items, isSensitiveKey lower e.1 = false →
        Redacts isWord lower e.2 (sanitizeValue isWord lower e.2) := by
  induction items with
  | nil => simp [RedactsMapping]
  | cons e items ih =>
      obtain ⟨key, value⟩ := e
      rw [RedactsMapping, List.forall_mem_cons, ← ih]
      cases is : isSensitiveKey lower key <;> simp [sanitizeEntry, is]

theorem redacts_str {value : Text} :
    Redacts isWord lower (.str value) (sanitizeValue isWord lower (.str value)) ↔
      (isSensitiveStringValue isWord value = false → ¬Overlapping value) := by
  rw [sanitizeValue, Redacts]
  cases is : isSensitiveStringValue isWord value with
  | true => simp [sanitizeString_sensitive is]
  | false => simp [sanitizeString_eq is, masked_maskEmail_iff]

theorem shows_list {value : Text} {items : List Value} :
    Shows lower value (.list items) ↔ ∃ x ∈ items, Shows lower value x := by
  constructor
  · intro shows
    cases shows with
    | item member shows => exact ⟨_, member, shows⟩
  · rintro ⟨x, member, shows⟩
    exact .item member shows

theorem shows_tuple {value : Text} {items : List Value} :
    Shows lower value (.tuple items) ↔ ∃ x ∈ items, Shows lower value x := by
  constructor
  · intro shows
    cases shows with
    | component member shows => exact ⟨_, member, shows⟩
  · rintro ⟨x, member, shows⟩
    exact .component member shows

theorem shows_dict {value : Text} {items : List (Key × Value)} :
    Shows lower value (.dict items) ↔
      ∃ e ∈ items, isSensitiveKey lower e.1 = false ∧ Shows lower value e.2 := by
  constructor
  · intro shows
    cases shows with
    | value member plain shows => exact ⟨_, member, plain, shows⟩
  · rintro ⟨e, member, plain, shows⟩
    exact .value member plain shows

/-- The strings that the items show are those of each item. -/
theorem forall_shows {P : Value → Prop} {Q : Text → Prop} {items : List Value}
    (each : ∀ x ∈ items, P x ↔ ∀ value, Shows lower value x → Q value) :
    (∀ x ∈ items, P x) ↔ ∀ value, (∃ x ∈ items, Shows lower value x) → Q value := by
  constructor
  · rintro all value ⟨x, member, shows⟩
    exact (each x member).mp (all x member) value shows
  · exact fun all x member => (each x member).mpr fun value shows => all value ⟨x, member, shows⟩

/-- A value is redacted as it should be exactly when each string that is shown is. -/
theorem redacts_iff (v : Value) :
    Redacts isWord lower v (sanitizeValue isWord lower v) ↔
      ∀ value, Shows lower value v → isSensitiveStringValue isWord value = false →
        ¬Overlapping value := by
  induction v using Value.nesting with
  | scalar v scalar =>
      cases v with
      | str value =>
          rw [redacts_str]
          constructor
          · intro masked value' shows
            cases shows
            exact masked
          · exact fun all => all value .here
      | list | tuple | dict => cases scalar
      | _ => exact iff_of_true rfl fun value shows => by cases shows
  | list items ih =>
      rw [sanitizeValue, sanitizeItems_eq, Redacts]
      simp only [Value.list.injEq, exists_eq_left', redactsItems_map, shows_list]
      exact forall_shows ih
  | tuple items ih =>
      rw [sanitizeValue, sanitizeItems_eq, Redacts]
      simp only [Value.tuple.injEq, exists_eq_left', redactsItems_map, shows_tuple]
      exact forall_shows ih
  | dict items ih =>
      rw [sanitizeValue, sanitizeMapping_eq, Redacts]
      simp only [Value.dict.injEq, exists_eq_left', redactsMapping_map, shows_dict]
      constructor
      · rintro all value ⟨e, member, plain, shows⟩
        exact (ih e member).mp (all e member plain) value shows
      · exact fun all e member plain => (ih e member).mpr fun value shows =>
          all value ⟨e, member, plain, shows⟩

/-- Whatever lies in a redacted value is a replacement, or a value that was redacted. -/
theorem occurs_sanitizeValue {x v : Value} (occurs : x.Occurs (sanitizeValue isWord lower v)) :
    x = .str redacted ∨ ∃ y, x = sanitizeValue isWord lower y := by
  induction v using Value.nesting with
  | scalar v scalar =>
      refine .inr ⟨v, ?_⟩
      cases v with
      | list | tuple | dict => cases scalar
      | _ => cases occurs; rfl
  | list items ih =>
      rw [sanitizeValue, sanitizeItems_eq] at occurs
      cases occurs with
      | here => exact .inr ⟨.list items, by rw [sanitizeValue, sanitizeItems_eq]⟩
      | item member occurs =>
          obtain ⟨y, member', rfl⟩ := List.mem_map.mp member
          exact ih y member' occurs
  | tuple items ih =>
      rw [sanitizeValue, sanitizeItems_eq] at occurs
      cases occurs with
      | here => exact .inr ⟨.tuple items, by rw [sanitizeValue, sanitizeItems_eq]⟩
      | component member occurs =>
          obtain ⟨y, member', rfl⟩ := List.mem_map.mp member
          exact ih y member' occurs
  | dict items ih =>
      rw [sanitizeValue, sanitizeMapping_eq] at occurs
      cases occurs with
      | here => exact .inr ⟨.dict items, by rw [sanitizeValue, sanitizeMapping_eq]⟩
      | value member occurs =>
          obtain ⟨e, member', rfl⟩ := List.mem_map.mp member
          cases is : isSensitiveKey lower e.1 with
          | true =>
              simp only [sanitizeEntry, is, if_true] at occurs
              cases occurs
              exact .inl rfl
          | false =>
              simp only [sanitizeEntry, is, Bool.false_eq_true, if_false] at occurs
              exact ih e member' occurs

theorem sanitizeValue_sanitizeValue (v : Value) :
    sanitizeValue isWord lower (sanitizeValue isWord lower v) = sanitizeValue isWord lower v := by
  induction v using Value.nesting with
  | scalar v scalar =>
      cases v with
      | str value => rw [sanitizeValue, sanitizeValue, sanitizeString_sanitizeString]
      | list | tuple | dict => cases scalar
      | _ => rfl
  | list items ih =>
      simp only [sanitizeValue, sanitizeItems_eq, List.map_map]
      exact congrArg _ (List.map_congr_left ih)
  | tuple items ih =>
      simp only [sanitizeValue, sanitizeItems_eq, List.map_map]
      exact congrArg _ (List.map_congr_left ih)
  | dict items ih =>
      simp only [sanitizeValue, sanitizeMapping_eq, List.map_map]
      refine congrArg _ (List.map_congr_left fun e member => ?_)
      cases is : isSensitiveKey lower e.1 with
      | true => simp [sanitizeEntry, is]
      | false => simp [sanitizeEntry, is, ih e member]

theorem dict_redactSensitiveFields (eventDict : List (Key × Value)) :
    Value.dict (redactSensitiveFields isWord lower eventDict) =
      sanitizeValue isWord lower (.dict eventDict) := by
  rw [redactSensitiveFields, sanitizeValue]

end Events

/-! ## An address that stays readable -/

/-- `\w` among ASCII. -/
def asciiWord (c : Nat) : Bool := isAsciiUpper c || isAsciiLower c || isAsciiDigit c || c == 95

/-- `str.lower` of ASCII text. -/
def asciiLower (text : Text) : Text := text.map fun c => if isAsciiUpper c then c + 32 else c

def exampleEvent : List (Key × Value) :=
  [(.str (ofString "message"), .str (ofString "alice@example.com@evil.org"))]

end SaasTemplate.Logging

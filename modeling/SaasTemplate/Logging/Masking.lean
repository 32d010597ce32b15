import SaasTemplate.Logging.Emails

/-! # What masking shows

Masking is described on words: the local part of an address is masked, unless its word was the
domain of the address before. From that follow which addresses stay readable, that masking
again changes nothing, and that no new text of characters other than stars comes about.
-/

namespace SaasTemplate.Logging

open SaasTemplate.CodePoints SaasTemplate.Regex SaasTemplate.Regex.Re

variable {word : Text} {more : List (Nat × Text)} {prev : Option Nat}

/-! ## Masked words -/

/-- A word, a separator and a word make an address. -/
def address (word : Text) (separator : Nat) (next : Text) : Bool :=
  !word.isEmpty && separator == 64 && dotted next

def startsAddress (word : Text) : List (Nat × Text) → Bool
  | [] => false
  | (separator, next) :: _ => address word separator next

/-- A word as masking leaves it, where `taken` says that it is the domain of a masked address. -/
def shownWord (taken : Bool) (word : Text) (more : List (Nat × Text)) : Text :=
  if !taken && startsAddress word more then maskName word else word

def shownTail (taken : Bool) (word : Text) : List (Nat × Text) → List (Nat × Text)
  | [] => []
  | (separator, next) :: more =>
      let taken' := !taken && address word separator next
      (separator, shownWord taken' next more) :: shownTail taken' next more

@[simp] theorem shownWord_taken (word : Text) (more : List (Nat × Text)) :
    shownWord true word more = word := rfl

theorem least_emailRe : 1 ≤ emailRe.least := by decide

theorem address_iff {word next : Text} {separator : Nat} :
    address word separator next = true ↔ word ≠ [] ∧ separator = 64 ∧ dotted next = true := by
  simp [address, and_assoc]

/-- Where a word does not start an address, the pattern matches nowhere in it. -/
theorem run_emailRe_eq_nil (words : Words word more) (none : startsAddress word more = false) :
    emailRe.run prev (joinWords word more) = [] := by
  rw [List.eq_nil_iff_forall_not_mem]
  intro m found
  obtain ⟨name, a, b, rest, some_, someA, someB, all, allA, allB, split, -⟩ :=
    mem_run_emailRe.mp found
  cases more with
  | nil =>
      refine not_mem_of_inWord words.word not_inWord_at ?_
      rw [show word = _ from split]
      simp
  | cons entry more =>
      obtain ⟨separator, next⟩ := entry
      rcases cut (not_mem_of_inWord words.word not_inWord_at) split with
        ⟨rfl, rfl, domain⟩ | ⟨front, inside, -⟩
      · have isDotted : dotted next = true := by
          rw [← takeWhile_joinWords words.2.2, domain]
          exact dotted_takeWhile someA someB allA allB
        rw [startsAddress, address_iff.mpr ⟨some_, rfl, isDotted⟩] at none
        cases none
      · refine not_mem_of_inWord all words.2.1 ?_
        rw [inside]
        simp

theorem run_emailRe_separator {separator : Nat} {text : Text}
    (outside : inWord separator = false) : emailRe.run prev (separator :: text) = [] := by
  rw [List.eq_nil_iff_forall_not_mem]
  intro m found
  obtain ⟨name, a, b, rest, some_, -, -, all, -, -, split, -⟩ := mem_run_emailRe.mp found
  cases name with
  | nil => exact some_ rfl
  | cons c name =>
      obtain ⟨rfl, -⟩ := List.cons.inj split
      exact not_mem_of_inWord all outside List.mem_cons_self

theorem run_emailRe_head? {next : Text} (words : Words word ((64, next) :: more))
    (is : address word 64 next = true) :
    (emailRe.run prev (joinWords word ((64, next) :: more))).head? =
      some ⟨word ++ 64 :: next, joinWords [] more, [("name", word), ("domain", next)]⟩ := by
  obtain ⟨some_, -, isDotted⟩ := address_iff.mp is
  have name : (((many inWord 1).group "name").run prev
      (word ++ 64 :: (next ++ joinWords [] more))).head? =
        some ⟨word, 64 :: (next ++ joinWords [] more), [("name", word)]⟩ :=
    run_group_head? (run_many_head? words.word rfl (List.length_pos_iff.mpr some_))
  have domain : ∀ prev, ((((many inWord 1).seq ((char (· == 46)).seq (many inWord 1))).group
      "domain").run prev (next ++ joinWords [] more)).head? =
        some ⟨next, joinWords [] more, [("domain", next)]⟩ := fun prev =>
    run_group_head? (run_domain_head? words.2.2.word (head?_tail words.2.2) isDotted)
  rw [joinWords, joinWords_eq next]
  have sign : ∀ prev, ((char (· == 64)).run prev (64 :: (next ++ joinWords [] more))).head? =
      some ⟨[64], next ++ joinWords [] more, []⟩ := fun _ => rfl
  exact run_seq_head? name (run_seq_head? (sign _) (domain _))

/-! ## What the pattern replaces -/

/-- A word that starts no address is copied. -/
theorem sub_word (words : Words word more) (none : startsAddress word more = false) :
    emailRe.sub maskEmailMatch 0 prev (joinWords word more) =
      word ++ emailRe.sub maskEmailMatch 0 (lastOr prev word) (joinWords [] more) := by
  induction word generalizing prev with
  | nil => rfl
  | cons c word ih =>
      have left : Words word more := by
        cases more with
        | nil => exact (Bool.and_eq_true_iff.mp words).2
        | cons _ _ => exact ⟨(Bool.and_eq_true_iff.mp words.1).2, words.2⟩
      have none' : startsAddress word more = false := by
        cases more with
        | nil => rfl
        | cons entry more =>
            have apart : entry.1 = 64 → dotted entry.2 = false := by
              simpa [startsAddress, address] using none
            simp only [startsAddress, address, Bool.and_eq_false_iff]
            by_cases is : entry.1 = 64
            · exact .inr (apart is)
            · exact .inl (.inr (by simpa using is))
      have split : joinWords (c :: word) more = c :: joinWords word more :=
        joinWords_append [c] word more
      have read : lastOr prev (c :: word) = lastOr (some c) word := lastOr_append prev [c] word
      rw [split, sub_of_not_run (split ▸ run_emailRe_eq_nil words none), ih left none', read]
      rfl

theorem sub_separator {separator : Nat} {text : Text} (outside : inWord separator = false) :
    emailRe.sub maskEmailMatch 0 prev (separator :: text) =
      separator :: emailRe.sub maskEmailMatch 0 (some separator) text :=
  sub_of_not_run (run_emailRe_separator outside)

theorem sub_address (prev : Option Nat) {next : Text} (words : Words word ((64, next) :: more))
    (is : address word 64 next = true) :
    ∃ prev', emailRe.sub maskEmailMatch 0 prev (joinWords word ((64, next) :: more)) =
      maskName word ++ 64 :: (next ++ emailRe.sub maskEmailMatch 0 prev' (joinWords [] more)) := by
  refine ⟨lastOr prev (word ++ 64 :: next), ?_⟩
  rw [sub_of_run least_emailRe (run_emailRe_head? words is), maskEmailMatch, List.append_assoc,
    List.cons_append]
  rfl

/-- Masking goes from word to word. -/
theorem sub_words (words : Words word more) (prev : Option Nat) :
    emailRe.sub maskEmailMatch 0 prev (joinWords word more) =
        joinWords (shownWord false word more) (shownTail false word more) ∧
      word ++ emailRe.sub maskEmailMatch 0 prev (joinWords [] more) =
        joinWords (shownWord true word more) (shownTail true word more) := by
  induction more generalizing word prev with
  | nil =>
      have end_ : ∀ prev, emailRe.sub maskEmailMatch 0 prev [] = [] :=
        fun prev => sub_nil least_emailRe 0
      refine ⟨?_, by rw [joinWords, end_]; simp [shownTail, joinWords]⟩
      rw [sub_word words rfl, joinWords, end_]
      simp [shownTail, joinWords, shownWord, startsAddress]
  | cons entry more ih =>
      obtain ⟨separator, next⟩ := entry
      have after : ∀ prev, emailRe.sub maskEmailMatch 0 prev (separator :: joinWords next more) =
          separator :: joinWords (shownWord false next more) (shownTail false next more) :=
        fun prev => by rw [sub_separator words.2.1, (ih words.2.2 _).1]
      constructor
      · by_cases is : address word separator next = true
        · obtain rfl := (address_iff.mp is).2.1
          obtain ⟨prev', masked⟩ := sub_address prev words is
          rw [masked, (ih words.2.2 prev').2]
          simp [shownTail, shownWord, startsAddress, is, joinWords]
        · rw [sub_word words (by simpa [startsAddress] using is), joinWords, List.nil_append,
            after]
          simp [shownTail, shownWord, startsAddress, is, joinWords]
      · rw [joinWords, List.nil_append, after]
        simp [shownTail, joinWords]

theorem maskEmail_joinWords (words : Words word more) :
    maskEmail (joinWords word more) =
      joinWords (shownWord false word more) (shownTail false word more) :=
  (sub_words words none).1

/-! ## Masked names -/

theorem maskName_of_short {name : Text} (short : name.length ≤ 2) :
    maskName name = List.replicate name.length 42 := if_pos short

/-- A longer name keeps its first and its last character. -/
theorem maskName_of_long {name : Text} (long : 2 < name.length) :
    ∃ first last, maskName name = [first, 42, 42, 42, last] ∧ name.take 1 = [first] ∧
      name.drop (name.length - 1) = [last] := by
  obtain ⟨first, is⟩ : ∃ first, name.take 1 = [first] :=
    List.length_eq_one_iff.mp (by rw [List.length_take]; omega)
  obtain ⟨last, is'⟩ : ∃ last, name.drop (name.length - 1) = [last] :=
    List.length_eq_one_iff.mp (by rw [List.length_drop]; omega)
  refine ⟨first, last, ?_, is, is'⟩
  rw [maskName, if_neg (by omega), is, is']
  rfl

theorem maskName_ne_nil {name : Text} (some_ : name ≠ []) : maskName name ≠ [] := by
  have there := List.length_pos_iff.mpr some_
  by_cases long : 2 < name.length
  · obtain ⟨first, last, is, -⟩ := maskName_of_long long
    rw [is]
    nofun
  · rw [maskName_of_short (by omega)]
    simp [some_]

theorem all_maskName {name : Text} (all : name.all inWord = true) :
    (maskName name).all inWord = true := by
  by_cases long : 2 < name.length
  · obtain ⟨first, last, is, isFirst, isLast⟩ := maskName_of_long long
    have first_ : first ∈ name := List.mem_of_mem_take (isFirst ▸ List.mem_singleton_self first)
    have last_ : last ∈ name := List.mem_of_mem_drop (isLast ▸ List.mem_singleton_self last)
    have star : inWord 42 = true := rfl
    rw [is]
    simp [star, List.all_eq_true.mp all _ first_, List.all_eq_true.mp all _ last_]
  · rw [maskName_of_short (by omega)]
    simp only [List.all_replicate]
    split <;> rfl

/-- Stars are no dots. -/
theorem dotted_maskName (name : Text) : dotted (maskName name) = false := by
  by_cases long : 2 < name.length
  · obtain ⟨first, last, is, -⟩ := maskName_of_long long
    rw [is]
    rfl
  · rw [maskName_of_short (by omega)]
    have short : name.length = 0 ∨ name.length = 1 ∨ name.length = 2 := by omega
    rcases short with is | is | is <;> rw [is] <;> rfl

theorem maskName_maskName (name : Text) : maskName (maskName name) = maskName name := by
  by_cases long : 2 < name.length
  · obtain ⟨first, last, is, -⟩ := maskName_of_long long
    rw [is]
    rfl
  · have short : name.length ≤ 2 := by omega
    rw [maskName_of_short short, maskName_of_short (by rwa [List.length_replicate]),
      List.length_replicate]

/-- Two characters in a row of a masked name are not both readable. -/
theorem readable_maskName {name before readable after : Text}
    (split : maskName name = before ++ (readable ++ after)) (more : 2 ≤ readable.length)
    (plain : 42 ∉ readable) : False := by
  by_cases long : 2 < name.length
  · obtain ⟨first, last, is, -⟩ := maskName_of_long long
    obtain ⟨x, y, readable, rfl⟩ : ∃ x y left, readable = x :: y :: left := by
      match readable, more with
      | x :: y :: left, _ => exact ⟨x, y, left, rfl⟩
    rw [is] at split
    simp only [List.mem_cons, not_or] at plain
    match before, split with
    | [], split => exact plain.2.1 (by simp at split; exact split.2.1)
    | [_], split => exact plain.1 (by simp at split; exact split.2.1)
    | [_, _], split => exact plain.1 (by simp at split; exact split.2.2.1)
    | [_, _, _], split => exact plain.1 (by simp at split; exact split.2.2.2.1)
    | _ :: _ :: _ :: _ :: _, split =>
        have lengths := congrArg List.length split
        simp at lengths
        omega
  · rw [maskName_of_short (by omega)] at split
    cases readable with
    | nil => simp at more
    | cons c readable =>
        have star : c ∈ List.replicate name.length 42 := by
          rw [split]
          simp
        exact plain ((List.mem_replicate.mp star).2 ▸ List.mem_cons_self)

/-! ## Masked texts -/

theorem shownWord_cases (taken : Bool) (word : Text) (more : List (Nat × Text)) :
    shownWord taken word more = word ∨ shownWord taken word more = maskName word := by
  unfold shownWord
  split
  · exact .inr rfl
  · exact .inl rfl

theorem all_shownWord (taken : Bool) (words : Words word more) :
    (shownWord taken word more).all inWord = true := by
  rcases shownWord_cases taken word more with is | is
  · rw [is]
    exact words.word
  · rw [is]
    exact all_maskName words.word

theorem words_shown (taken : Bool) (words : Words word more) :
    Words (shownWord taken word more) (shownTail taken word more) := by
  induction more generalizing word taken with
  | nil => exact all_shownWord taken words
  | cons entry more ih => exact ⟨all_shownWord taken words, words.2.1, ih _ words.2.2⟩

/-- An address of the masked text was one that has been masked. -/
theorem address_shown (taken : Bool) (word : Text) (separator : Nat) (next : Text)
    (more : List (Nat × Text)) :
    (!taken && address (shownWord taken word ((separator, next) :: more)) separator
      (shownWord (!taken && address word separator next) next more)) =
      (!taken && address word separator next) := by
  cases taken with
  | true => rfl
  | false =>
      by_cases is : address word separator next = true
      · obtain ⟨some_, sign, isDotted⟩ := address_iff.mp is
        rw [Bool.not_false, Bool.true_and, Bool.true_and, is, shownWord_taken]
        refine address_iff.mpr ⟨?_, sign, isDotted⟩
        simp only [shownWord, startsAddress, is, Bool.not_false, Bool.and_self, if_true]
        exact maskName_ne_nil some_
      · have same : shownWord false word ((separator, next) :: more) = word := by
          simp [shownWord, startsAddress, is]
        rw [same, Bool.not_false, Bool.true_and, Bool.true_and]
        rcases shownWord_cases (address word separator next) next more with unchanged | masked
        · rw [unchanged]
        · rw [masked, Bool.eq_false_iff.mpr is]
          simp [address, dotted_maskName]

/-- Masking what is masked changes nothing. -/
theorem shown_shown (taken : Bool) (word : Text) (more : List (Nat × Text)) :
    shownWord taken (shownWord taken word more) (shownTail taken word more) =
        shownWord taken word more ∧
      shownTail taken (shownWord taken word more) (shownTail taken word more) =
        shownTail taken word more := by
  induction more generalizing word taken with
  | nil =>
      have none : ∀ word, shownWord taken word [] = word := by simp [shownWord, startsAddress]
      exact ⟨by rw [shownTail, none, none], rfl⟩
  | cons entry more ih =>
      obtain ⟨separator, next⟩ := entry
      have same := address_shown taken word separator next more
      constructor
      · have unfolds : ∀ word next more, shownWord taken word ((separator, next) :: more) =
            if !taken && address word separator next then maskName word else word :=
          fun _ _ _ => rfl
        rw [shownTail, unfolds (shownWord ..), same, unfolds]
        split
        · exact maskName_maskName word
        · rfl
      · simp only [shownTail]
        rw [same, (ih _ next).1, (ih _ next).2]

theorem maskEmail_maskEmail (value : Text) : maskEmail (maskEmail value) = maskEmail value := by
  obtain ⟨word, more, words, rfl⟩ := exists_words value
  rw [maskEmail_joinWords words, maskEmail_joinWords (words_shown false words),
    (shown_shown false word more).1, (shown_shown false word more).2]

theorem not_mem_at {word : Text} (all : word.all inWord = true) : 64 ∉ word :=
  not_mem_of_inWord all not_inWord_at

/-- Masking keeps the at signs. -/
theorem count_shown (taken : Bool) (words : Words word more) :
    (joinWords (shownWord taken word more) (shownTail taken word more)).count 64 =
      (joinWords word more).count 64 := by
  induction more generalizing word taken with
  | nil =>
      rw [shownTail, joinWords, joinWords,
        List.count_eq_zero_of_not_mem (not_mem_at (all_shownWord taken words)),
        List.count_eq_zero_of_not_mem (not_mem_at words)]
  | cons entry more ih =>
      rw [shownTail, joinWords, joinWords, List.count_append, List.count_append, List.count_cons,
        List.count_cons, ih _ words.2.2,
        List.count_eq_zero_of_not_mem (not_mem_at (all_shownWord taken words)),
        List.count_eq_zero_of_not_mem (not_mem_at words.1)]

/-! ## Addresses that stay readable -/

/-- Of the word at most the first and the last character are shown, and stars between them. -/
def Hides (word shown : Text) : Prop :=
  ∃ first stars last, shown = first ++ stars ++ last ∧ (∀ c ∈ stars, c = 42) ∧
    first <+: word.take 1 ∧ last <:+ word.drop (word.length - 1)

/-- What a text may be replaced by: of every address that the pattern can match at all, the
word in front of the at sign is hidden, and a text without addresses stays as it is. At signs
are counted to tell which of the one text belongs to which of the other. -/
structure Masked (value shown : Text) : Prop where
  signs : shown.count 64 = value.count 64
  addresses : ∀ front back, value = front ++ 64 :: back → AddressAt front back →
    ∀ front' back', shown = front' ++ 64 :: back' → front'.count 64 = front.count 64 →
      Hides (lastWord front) (lastWord front')
  others : (∀ front back, value = front ++ 64 :: back → ¬AddressAt front back) → shown = value

/-- The domain of an address is the local part of another. -/
def Overlapping (value : Text) : Prop :=
  ∃ front middle back, value = front ++ 64 :: (middle ++ 64 :: back) ∧
    middle.all inWord = true ∧ AddressAt front (middle ++ 64 :: back) ∧
      AddressAt (front ++ 64 :: middle) back

theorem hides_maskName (name : Text) : Hides name (maskName name) := by
  by_cases long : 2 < name.length
  · obtain ⟨first, last, is, isFirst, isLast⟩ := maskName_of_long long
    exact ⟨[first], [42, 42, 42], [last], is, by simp, isFirst ▸ List.prefix_rfl,
      isLast ▸ List.suffix_rfl⟩
  · refine ⟨[], maskName name, [], by simp, fun c member => ?_, List.nil_prefix,
      List.nil_suffix⟩
    rw [maskName_of_short (by omega)] at member
    exact (List.mem_replicate.mp member).2

/-- A dot inside a word that is shown as it is does not get hidden. -/
theorem not_hides_of_dotted {word : Text} (isDotted : dotted word = true) : ¬Hides word word := by
  rintro ⟨first, stars, last, split, plain, isFirst, isLast⟩
  obtain ⟨a, b, someA, someB, rfl⟩ := dotted_iff.mp isDotted
  have short : first.length ≤ 1 := isFirst.length_le.trans (List.length_take_le ..)
  have short' : last.length ≤ 1 := by
    have := isLast.length_le
    rw [List.length_drop] at this
    omega
  have someA' := List.length_pos_iff.mpr someA
  have someB' := List.length_pos_iff.mpr someB
  have sizes := congrArg List.length split
  simp only [List.length_append, List.length_cons] at sizes
  -- the first and the last part are too short to reach the dot
  have dot : (a ++ 46 :: b)[a.length]? = some 46 := by simp
  rw [split, List.append_assoc, List.getElem?_append_right (by omega),
    List.getElem?_append_left (by omega)] at dot
  exact absurd (plain 46 (List.mem_of_getElem? dot)) (by decide)

/-- Each address by its words. -/
def HiddenWords (taken : Bool) (word : Text) : List (Nat × Text) → Prop
  | [] => True
  | (separator, next) :: more =>
      (address word separator next = true →
        Hides word (shownWord taken word ((separator, next) :: more))) ∧
        HiddenWords (!taken && address word separator next) next more

/-- No word is the domain of one address and the local part of another. -/
def Apart (word : Text) : List (Nat × Text) → Prop
  | [] => True
  | (separator, next) :: more =>
      ¬(address word separator next = true ∧ startsAddress next more = true) ∧ Apart next more

theorem hiddenWords_iff {taken : Bool} (isDomain : taken = true → dotted word = true) :
    HiddenWords taken word more ↔
      (taken = true → startsAddress word more = false) ∧ Apart word more := by
  induction more generalizing word taken with
  | nil => simp [HiddenWords, startsAddress, Apart]
  | cons entry more ih =>
      obtain ⟨separator, next⟩ := entry
      by_cases is : address word separator next = true
      · have isDotted := (address_iff.mp is).2.2
        cases taken with
        | true =>
            refine iff_of_false (fun hidden => ?_) fun apart => ?_
            · exact not_hides_of_dotted (isDomain rfl) (hidden.1 is)
            · exact Bool.false_ne_true ((apart.1 rfl).symm.trans is)
        | false =>
            have masked : shownWord false word ((separator, next) :: more) = maskName word := by
              simp [shownWord, startsAddress, is]
            rw [HiddenWords, Apart, masked, is, Bool.not_false, Bool.true_and,
              ih fun _ => isDotted]
            simp [hides_maskName]
      · rw [HiddenWords, Apart, Bool.eq_false_iff.mpr is, Bool.and_false,
          @ih next false fun impossible => by cases impossible]
        simp [startsAddress, is]

/-- Around the at sign of an address are the words of the address. -/
theorem addressAt_word {next : Text} (all : word.all inWord = true) (words : Words next more) :
    AddressAt word (joinWords next more) ↔ address word 64 next = true := by
  rw [addressAt_iff, lastWord_word all, takeWhile_joinWords words, address_iff]
  simp

theorem addressAt_append {front back : Text} {separator : Nat}
    (outside : inWord separator = false) :
    AddressAt (word ++ separator :: front) back ↔ AddressAt front back := by
  rw [addressAt_iff, addressAt_iff, lastWord_append_cons outside]

theorem hidden_words (taken : Bool) (words : Words word more) :
    (∀ front back, joinWords word more = front ++ 64 :: back → AddressAt front back →
      ∀ front' back', joinWords (shownWord taken word more) (shownTail taken word more) =
        front' ++ 64 :: back' → front'.count 64 = front.count 64 →
          Hides (lastWord front) (lastWord front')) ↔ HiddenWords taken word more := by
  induction more generalizing word taken with
  | nil =>
      refine iff_of_true (fun front back split => ?_) trivial
      rw [joinWords] at split
      exact absurd (by simp [split]) (not_mem_at words)
  | cons entry more ih =>
      obtain ⟨separator, next⟩ := entry
      obtain ⟨all, outside, rest⟩ := words
      have all' : (shownWord taken word ((separator, next) :: more)).all inWord = true :=
        all_shownWord taken ⟨all, outside, rest⟩
      have zero := List.count_eq_zero_of_not_mem (not_mem_at all)
      have zero' := List.count_eq_zero_of_not_mem (not_mem_at all')
      rw [HiddenWords, ← ih _ rest]
      simp only [joinWords, shownTail]
      constructor
      · intro hidden
        refine ⟨fun is => ?_, fun front back split found front' back' split' same => ?_⟩
        · obtain rfl := (address_iff.mp is).2.1
          have one := hidden word _ rfl ((addressAt_word all rest).mpr is) _ _ rfl
            (zero'.trans zero.symm)
          rwa [lastWord_word all, lastWord_word all'] at one
        · have one := hidden (word ++ separator :: front) back (by rw [split]; simp)
            ((addressAt_append outside).mpr found)
            (shownWord taken word ((separator, next) :: more) ++ separator :: front') back'
            (by rw [split']; simp)
            (by rw [List.count_append, List.count_append, zero, zero', List.count_cons,
              List.count_cons, same])
          rwa [lastWord_append_cons outside, lastWord_append_cons outside] at one
      · rintro ⟨here, later⟩ front back split found front' back' split' same
        rcases cut (not_mem_at all) split with ⟨rfl, rfl, rfl⟩ | ⟨front₁, rfl, split₁⟩ <;>
          rcases cut (not_mem_at all') split' with ⟨rfl, sign, rfl⟩ | ⟨front₂, rfl, split₂⟩
        · rw [lastWord_word all, lastWord_word all']
          exact here ((addressAt_word all rest).mp found)
        · rw [zero, List.count_append, List.count_cons] at same
          simp at same
        · subst sign
          rw [zero', List.count_append, List.count_cons] at same
          simp at same
        · rw [List.count_append, List.count_append, zero, zero', List.count_cons,
            List.count_cons] at same
          rw [lastWord_append_cons outside, lastWord_append_cons outside]
          exact later front₁ back split₁ ((addressAt_append outside).mp found) front₂ back' split₂
            (by omega)

theorem overlapping_iff (words : Words word more) :
    Overlapping (joinWords word more) ↔ ¬Apart word more := by
  induction more generalizing word with
  | nil =>
      refine iff_of_false ?_ (not_not_intro trivial)
      rintro ⟨front, middle, back, split, -⟩
      rw [joinWords] at split
      exact not_mem_at words (by simp [split])
  | cons entry more ih =>
      obtain ⟨separator, next⟩ := entry
      obtain ⟨all, outside, rest⟩ := words
      rw [Apart, not_and_or, not_not, ← ih rest]
      constructor
      · rintro ⟨front, middle, back, split, inside, one, other⟩
        rcases cut (not_mem_at all) split with ⟨rfl, rfl, is⟩ | ⟨front', rfl, is⟩
        · rw [← is] at one
          refine .inl ⟨(addressAt_word all rest).mp one, ?_⟩
          cases more with
          | nil =>
              refine absurd ?_ (not_mem_at rest)
              rw [show next = _ from is]
              simp
          | cons entry more =>
              obtain ⟨separator', next'⟩ := entry
              rcases cut (not_mem_at rest.1) is with ⟨rfl, rfl, rfl⟩ | ⟨front, same, -⟩
              · exact (addressAt_word rest.1 rest.2.2).mp ((addressAt_append outside).mp other)
              · refine absurd ?_ (not_mem_of_inWord inside rest.2.1)
                rw [same]
                simp
        · rw [List.append_assoc, List.cons_append] at other
          exact .inr ⟨front', middle, back, is, inside, (addressAt_append outside).mp one,
            (addressAt_append outside).mp other⟩
      · rintro (⟨is, starts⟩ | ⟨front, middle, back, split, inside, one, other⟩)
        · cases more with
          | nil => cases starts
          | cons entry more =>
              obtain ⟨separator', next'⟩ := entry
              obtain rfl := (address_iff.mp is).2.1
              obtain rfl := (address_iff.mp starts).2.1
              have one : AddressAt word (joinWords next ((64, next') :: more)) :=
                (addressAt_word all rest).mpr is
              refine ⟨word, next, joinWords next' more, rfl, rest.1, one, ?_⟩
              exact (addressAt_append outside).mpr ((addressAt_word rest.1 rest.2.2).mpr starts)
        · refine ⟨word ++ separator :: front, middle, back, ?_, inside,
            (addressAt_append outside).mpr one, ?_⟩
          · rw [joinWords, split]
            simp
          · rw [List.append_assoc, List.cons_append]
            exact (addressAt_append outside).mpr other

/-- Without addresses no word is masked. -/
theorem shown_others (words : Words word more)
    (none : ∀ front back, joinWords word more = front ++ 64 :: back → ¬AddressAt front back) :
    shownWord false word more = word ∧ shownTail false word more = more := by
  induction more generalizing word with
  | nil => exact ⟨by simp [shownWord, startsAddress], rfl⟩
  | cons entry more ih =>
      obtain ⟨separator, next⟩ := entry
      obtain ⟨all, outside, rest⟩ := words
      have here : address word separator next = false := by
        refine Bool.eq_false_iff.mpr fun is => ?_
        obtain rfl := (address_iff.mp is).2.1
        exact none word _ rfl ((addressAt_word all rest).mpr is)
      obtain ⟨same, same'⟩ := ih rest fun front back split found =>
        none (word ++ separator :: front) back (by rw [joinWords, split]; simp)
          ((addressAt_append outside).mpr found)
      constructor
      · simp [shownWord, startsAddress, here]
      · rw [shownTail, here, Bool.and_false, same, same']

theorem maskEmail_others {value : Text}
    (none : ∀ front back, value = front ++ 64 :: back → ¬AddressAt front back) :
    maskEmail value = value := by
  obtain ⟨word, more, words, rfl⟩ := exists_words value
  obtain ⟨same, same'⟩ := shown_others words none
  rw [maskEmail_joinWords words, same, same']

/-- Masking hides every address exactly where no two overlap. -/
theorem masked_maskEmail_iff {value : Text} :
    Masked value (maskEmail value) ↔ ¬Overlapping value := by
  obtain ⟨word, more, words, rfl⟩ := exists_words value
  have apart : HiddenWords false word more ↔ Apart word more := by
    simpa using @hiddenWords_iff word more false nofun
  rw [overlapping_iff words, not_not, ← apart, ← hidden_words false words,
    ← maskEmail_joinWords words]
  exact ⟨fun masked => masked.addresses, fun hidden =>
    ⟨by rw [maskEmail_joinWords words, count_shown false words], hidden, maskEmail_others⟩⟩

end SaasTemplate.Logging

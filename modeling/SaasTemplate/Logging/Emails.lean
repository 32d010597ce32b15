import SaasTemplate.Logging.Processors

/-! # Masked e-mail addresses

A text is words with separators between them, where the at sign is a separator too. An address
is a word, an at sign and a word with a dot inside. Masking takes addresses from the left, and
the domain of one that was masked is passed over, so of two that overlap the second is not masked.
-/

namespace SaasTemplate.Logging

open SaasTemplate.CodePoints SaasTemplate.Regex SaasTemplate.Regex.Re

/-- A dot with something on both sides. -/
def dotted (word : Text) : Bool := (word.drop 1).dropLast.contains 46

theorem dotted_iff {word : Text} :
    dotted word = true ↔ ∃ a b, a ≠ [] ∧ b ≠ [] ∧ word = a ++ 46 :: b := by
  cases word with
  | nil => simp [dotted]
  | cons c word =>
      rw [dotted, List.drop_succ_cons, List.drop_zero, List.contains_iff_mem]
      constructor
      · intro member
        obtain ⟨x, y, split⟩ := List.append_of_mem member
        have there : word ≠ [] := by
          rintro rfl
          cases member
        refine ⟨c :: x, y ++ [word.getLast there], nofun, by simp, ?_⟩
        calc c :: word = c :: (word.dropLast ++ [word.getLast there]) := by
              rw [List.dropLast_concat_getLast]
          _ = c :: x ++ 46 :: (y ++ [word.getLast there]) := by
              rw [split]
              simp
      · rintro ⟨a, b, there, there', split⟩
        cases a with
        | nil => exact absurd rfl there
        | cons d a =>
            have same : word = a ++ 46 :: b := (List.cons.inj split).2
            rw [same, List.dropLast_append_of_ne_nil (by simp),
              List.dropLast_cons_of_ne_nil there']
            simp

/-- The last word of a text. -/
def lastWord (text : Text) : Text := text.rtakeWhile inWord

/-! ## Words -/

/-- The first word, and each separator with the word after it. -/
def joinWords (word : Text) : List (Nat × Text) → Text
  | [] => word
  | (separator, next) :: more => word ++ separator :: joinWords next more

def Words (word : Text) : List (Nat × Text) → Prop
  | [] => word.all inWord = true
  | (separator, next) :: more =>
      word.all inWord = true ∧ inWord separator = false ∧ Words next more

theorem Words.word {word : Text} {more : List (Nat × Text)} (words : Words word more) :
    word.all inWord = true := by
  cases more with
  | nil => exact words
  | cons _ _ => exact words.1

theorem exists_words (text : Text) : ∃ word more, Words word more ∧ joinWords word more = text := by
  induction text with
  | nil => exact ⟨[], [], rfl, rfl⟩
  | cons c text ih =>
      obtain ⟨word, more, words, rfl⟩ := ih
      by_cases inside : inWord c = true
      · refine ⟨c :: word, more, ?_, by cases more <;> rfl⟩
        cases more with
        | nil => simpa [Words, inside] using words
        | cons entry more => exact ⟨by simpa [inside] using words.1, words.2⟩
      · exact ⟨[], (c, word) :: more, ⟨rfl, by simpa using inside, words⟩, rfl⟩

theorem joinWords_eq (word : Text) (more : List (Nat × Text)) :
    joinWords word more = word ++ joinWords [] more := by
  cases more <;> simp [joinWords]

theorem joinWords_append (read word : Text) (more : List (Nat × Text)) :
    joinWords (read ++ word) more = read ++ joinWords word more := by
  rw [joinWords_eq, joinWords_eq word, List.append_assoc]

theorem not_inWord_at : inWord 64 = false := rfl

theorem not_mem_of_inWord {word : Text} {separator : Nat} (all : word.all inWord = true)
    (outside : inWord separator = false) : separator ∉ word := fun member =>
  Bool.false_ne_true (outside.symm.trans (List.all_eq_true.mp all separator member))

/-- After the first word stands no character of a word. -/
theorem head?_tail {word : Text} {more : List (Nat × Text)} (words : Words word more) :
    (joinWords [] more).head?.any inWord = false := by
  cases more with
  | nil => rfl
  | cons entry more => exact words.2.1

/-- Where a character stands behind text that lacks it. -/
theorem cut {word text front back : Text} {separator c : Nat} (fresh : c ∉ word)
    (split : word ++ separator :: text = front ++ c :: back) :
    (front = word ∧ separator = c ∧ text = back) ∨
      ∃ front', front = word ++ separator :: front' ∧ text = front' ++ c :: back := by
  rcases List.append_eq_append_iff.mp split with ⟨x, rfl, rest⟩ | ⟨x, rfl, rest⟩
  · cases x with
    | nil =>
        obtain ⟨rfl, rfl⟩ := List.cons.inj rest
        exact .inl ⟨List.append_nil _, rfl, rfl⟩
    | cons d x =>
        obtain ⟨rfl, rfl⟩ := List.cons.inj rest
        exact .inr ⟨x, rfl, rfl⟩
  · cases x with
    | nil =>
        obtain ⟨rfl, rfl⟩ := List.cons.inj rest
        exact .inl ⟨(List.append_nil _).symm, rfl, rfl⟩
    | cons d x =>
        obtain ⟨rfl, -⟩ := List.cons.inj rest
        exact absurd (by simp) fresh

/-- Characters of words at the beginning are characters of the first word. -/
theorem word_split {word rest read more : Text} (stop : rest.head?.any inWord = false)
    (all : read.all inWord = true) (split : word ++ rest = read ++ more) :
    ∃ left, word = read ++ left ∧ more = left ++ rest := by
  rcases List.append_eq_append_iff.mp split with ⟨x, rfl, is⟩ | ⟨x, rfl, is⟩
  · cases x with
    | nil => exact ⟨[], by simp, is.symm⟩
    | cons c x =>
        have inside : inWord c = true := List.all_eq_true.mp all c (by simp)
        rw [is, List.cons_append, List.head?_cons, Option.any_some, inside] at stop
        cases stop
  · exact ⟨x, rfl, is⟩

theorem takeWhile_joinWords {word : Text} {more : List (Nat × Text)} (words : Words word more) :
    (joinWords word more).takeWhile inWord = word := by
  have stop : (joinWords [] more).takeWhile inWord = [] := by
    have outside := head?_tail words
    cases is : joinWords [] more with
    | nil => rfl
    | cons c text =>
        rw [is] at outside
        exact List.takeWhile_cons_of_neg (by simpa using outside)
  rw [joinWords_eq, List.takeWhile_append_of_pos (List.all_eq_true.mp words.word), stop,
    List.append_nil]

theorem lastWord_word {word : Text} (all : word.all inWord = true) : lastWord word = word :=
  List.rtakeWhile_eq_self_iff.mpr (List.all_eq_true.mp all)

theorem lastWord_append_cons {text front : Text} {separator : Nat}
    (outside : inWord separator = false) :
    lastWord (text ++ separator :: front) = lastWord front := by
  rw [lastWord, lastWord, List.rtakeWhile, List.rtakeWhile, List.reverse_append,
    List.reverse_cons, List.append_assoc]
  congr 1
  rw [List.takeWhile_append]
  split
  · rw [List.singleton_append, List.takeWhile_cons_of_neg (by simp [outside]), List.append_nil,
      List.takeWhile_eq_self_iff.mpr]
    rename_i all
    exact fun c member => List.all_eq_true.mp List.all_takeWhile c
      ((List.takeWhile_prefix inWord).eq_of_length all ▸ member)
  · rfl

/-! ## Addresses -/

/-- An address of the pattern has its at sign between the two texts. -/
def AddressAt (front back : Text) : Prop :=
  ∃ before name, front = before ++ name ∧
    ∃ m ∈ emailRe.run before.getLast? (name ++ 64 :: back), m.group "name" = name

theorem mem_run_domain {prev : Option Nat} {a b rest : Text} (someA : a ≠ []) (someB : b ≠ [])
    (allA : a.all inWord = true) (allB : b.all inWord = true) :
    ⟨a ++ 46 :: b, rest, []⟩ ∈
      ((many inWord 1).seq ((char (· == 46)).seq (many inWord 1))).run prev
        (a ++ 46 :: b ++ rest) :=
  mem_run_seq.mpr ⟨⟨a, 46 :: (b ++ rest), []⟩,
    mem_run_many.mpr ⟨by simp, allA, List.length_pos_iff.mpr someA, rfl⟩, ⟨46 :: b, rest, []⟩,
    mem_run_seq.mpr ⟨⟨[46], b ++ rest, []⟩, mem_run_char.mpr ⟨46, rfl, rfl, rfl⟩,
      ⟨b, rest, []⟩, mem_run_many.mpr ⟨rfl, allB, List.length_pos_iff.mpr someB, rfl⟩, rfl⟩, rfl⟩

theorem mem_run_emailRe {prev : Option Nat} {text : Text} {m : Match} :
    m ∈ emailRe.run prev text ↔
      ∃ name a b rest, name ≠ [] ∧ a ≠ [] ∧ b ≠ [] ∧ name.all inWord = true ∧
        a.all inWord = true ∧ b.all inWord = true ∧
        text = name ++ 64 :: (a ++ 46 :: b ++ rest) ∧
        m = ⟨name ++ 64 :: (a ++ 46 :: b), rest, [("name", name), ("domain", a ++ 46 :: b)]⟩ := by
  constructor
  · intro found
    obtain ⟨_, foundName, _, foundRest, rfl⟩ := mem_run_seq.mp found
    obtain ⟨⟨name, _, _⟩, foundMany, rfl⟩ := mem_run_group.mp foundName
    obtain ⟨rfl, allName, someName, rfl⟩ := mem_run_many.mp foundMany
    obtain ⟨_, foundAt, _, foundDomain, rfl⟩ := mem_run_seq.mp foundRest
    obtain ⟨_, isAt, splitAt, sameAt⟩ := mem_run_char.mp foundAt
    obtain ⟨_, foundParts, rfl⟩ := mem_run_group.mp foundDomain
    obtain ⟨⟨a, _, _⟩, foundA, _, foundTail, rfl⟩ := mem_run_seq.mp foundParts
    obtain ⟨splitA, allA, someA, rfl⟩ := mem_run_many.mp foundA
    obtain ⟨_, foundDot, ⟨b, rest, _⟩, foundB, rfl⟩ := mem_run_seq.mp foundTail
    obtain ⟨_, isDot, splitDot, sameDot⟩ := mem_run_char.mp foundDot
    obtain ⟨splitB, allB, someB, rfl⟩ := mem_run_many.mp foundB
    simp only [beq_iff_eq] at isAt isDot
    subst isAt isDot
    simp only at *
    refine ⟨name, a, b, rest, List.length_pos_iff.mp someName, List.length_pos_iff.mp someA,
      List.length_pos_iff.mp someB, allName, allA, allB, ?_, ?_⟩
    · rw [splitAt, splitA, splitDot, splitB]
      simp
    · rw [sameAt, sameDot]
      simp
  · rintro ⟨name, a, b, rest, someName, someA, someB, allName, allA, allB, rfl, rfl⟩
    exact mem_run_seq.mpr ⟨⟨name, 64 :: (a ++ 46 :: b ++ rest), [("name", name)]⟩,
      mem_run_group.mpr ⟨⟨name, 64 :: (a ++ 46 :: b ++ rest), []⟩,
        mem_run_many.mpr ⟨rfl, allName, List.length_pos_iff.mpr someName, rfl⟩, rfl⟩,
      ⟨64 :: (a ++ 46 :: b), rest, [("domain", a ++ 46 :: b)]⟩,
      mem_run_seq.mpr ⟨⟨[64], a ++ 46 :: b ++ rest, []⟩, mem_run_char.mpr ⟨64, rfl, rfl, rfl⟩,
        ⟨a ++ 46 :: b, rest, [("domain", a ++ 46 :: b)]⟩,
        mem_run_group.mpr ⟨⟨a ++ 46 :: b, rest, []⟩,
          mem_run_domain someA someB allA allB, rfl⟩, rfl⟩, rfl⟩

theorem dotted_takeWhile {a b rest : Text} (someA : a ≠ []) (someB : b ≠ [])
    (allA : a.all inWord = true) (allB : b.all inWord = true) :
    dotted ((a ++ 46 :: b ++ rest).takeWhile inWord) = true := by
  have all : ∀ c ∈ a ++ 46 :: b, inWord c = true := by
    simp only [List.mem_append, List.mem_cons]
    rintro c (member | rfl | member)
    · exact List.all_eq_true.mp allA c member
    · rfl
    · exact List.all_eq_true.mp allB c member
  rw [List.takeWhile_append_of_pos all]
  exact dotted_iff.mpr ⟨a, b ++ rest.takeWhile inWord, someA, by simp [someB], by simp⟩

/-- An address ends a word that is not empty and goes on with a dotted one. -/
theorem addressAt_iff {front back : Text} :
    AddressAt front back ↔ lastWord front ≠ [] ∧ dotted (back.takeWhile inWord) = true := by
  constructor
  · rintro ⟨before, name, rfl, m, found, is⟩
    obtain ⟨name', a, b, rest, some_, someA, someB, all, allA, allB, split, rfl⟩ :=
      mem_run_emailRe.mp found
    have same : name' = name := is
    subst same
    obtain rfl := (List.cons.inj (List.append_cancel_left split)).2
    constructor
    · rw [lastWord, List.rtakeWhile, List.reverse_append,
        List.takeWhile_append_of_pos (by simpa using all)]
      simp [some_]
    · exact dotted_takeWhile someA someB allA allB
  · rintro ⟨some_, isDotted⟩
    obtain ⟨a, b, someA, someB, split⟩ := dotted_iff.mp isDotted
    have all : ∀ c ∈ a ++ 46 :: b, inWord c = true := by
      rw [← split]
      exact List.all_eq_true.mp List.all_takeWhile
    refine ⟨front.rdropWhile inWord, lastWord front, (List.rdropWhile_append_rtakeWhile ..).symm,
      _, mem_run_emailRe.mpr ⟨lastWord front, a, b, back.dropWhile inWord, some_, someA, someB,
        ?_, ?_, ?_, ?_, rfl⟩, rfl⟩
    · exact List.all_eq_true.mpr fun c => List.mem_rtakeWhile_imp
    · exact List.all_eq_true.mpr fun c member => all c (List.mem_append_left _ member)
    · exact List.all_eq_true.mpr fun c member =>
        all c (List.mem_append_right _ (List.mem_cons_of_mem _ member))
    · rw [← split, List.takeWhile_append_dropWhile]

/-- From a dot on, what is preferred is the rest of the word. -/
theorem run_dot_head? {prev : Option Nat} {left rest : Text} {m : Match}
    (all : left.all inWord = true) (stop : rest.head?.any inWord = false)
    (preferred : (((char (· == 46)).seq (many inWord 1)).run prev (left ++ rest)).head? = some m) :
    m = ⟨left, rest, []⟩ := by
  obtain ⟨m₁, foundDot, m₂, preferred₂, rfl⟩ := exists_of_run_seq_head? preferred
  obtain ⟨c, isDot, splitDot, sameDot⟩ := mem_run_char.mp foundDot
  obtain ⟨split₂, all₂, some₂, -⟩ := mem_run_many.mp (List.mem_of_head? preferred₂)
  cases left with
  | nil =>
      rw [List.nil_append] at splitDot
      rw [splitDot, List.head?_cons, Option.any_some, beq_iff_eq.mp isDot] at stop
      cases stop
  | cons d left =>
      have same : left ++ rest = m₁.rest := (List.cons.inj splitDot).2
      rw [← same] at preferred₂ split₂
      have allLeft : left.all inWord = true := (Bool.and_eq_true_iff.mp all).2
      obtain ⟨left', splitLeft, -⟩ := word_split stop all₂ split₂
      have enough : 1 ≤ left.length := by
        rw [splitLeft, List.length_append]
        omega
      rw [run_many_head? allLeft stop enough] at preferred₂
      obtain rfl := Option.some.inj preferred₂
      rw [sameDot, (List.cons.inj splitDot).1]
      rfl

/-- The domain that is preferred is the whole word. -/
theorem run_domain_head? {prev : Option Nat} {word rest : Text} (all : word.all inWord = true)
    (stop : rest.head?.any inWord = false) (isDotted : dotted word = true) :
    (((many inWord 1).seq ((char (· == 46)).seq (many inWord 1))).run prev (word ++ rest)).head? =
      some ⟨word, rest, []⟩ := by
  obtain ⟨a, b, someA, someB, rfl⟩ := dotted_iff.mp isDotted
  have allA : a.all inWord = true := List.all_eq_true.mpr fun c member =>
    List.all_eq_true.mp all c (List.mem_append_left _ member)
  have allB : b.all inWord = true := List.all_eq_true.mpr fun c member =>
    List.all_eq_true.mp all c (List.mem_append_right _ (List.mem_cons_of_mem _ member))
  have found : ⟨a ++ 46 :: b, rest, []⟩ ∈
      ((many inWord 1).seq ((char (· == 46)).seq (many inWord 1))).run prev
        (a ++ 46 :: b ++ rest) := mem_run_domain someA someB allA allB
  cases preferred : (((many inWord 1).seq ((char (· == 46)).seq (many inWord 1))).run prev
      (a ++ 46 :: b ++ rest)).head? with
  | none =>
      rw [List.head?_eq_none_iff] at preferred
      rw [preferred] at found
      cases found
  | some m =>
      -- whichever dot is taken, the repetition after it runs to the end of the word
      obtain ⟨m₁, foundX, m₂, preferred₂, rfl⟩ := exists_of_run_seq_head? preferred
      obtain ⟨splitX, allX, -, none⟩ := mem_run_many.mp foundX
      obtain ⟨left, splitWord, splitRest⟩ := word_split stop allX splitX
      have allLeft : left.all inWord = true := List.all_eq_true.mpr fun c member =>
        List.all_eq_true.mp all c (splitWord ▸ List.mem_append_right _ member)
      rw [splitRest] at preferred₂
      rw [run_dot_head? allLeft stop preferred₂, none, splitWord]
      rfl

end SaasTemplate.Logging

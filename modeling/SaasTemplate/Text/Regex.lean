import SaasTemplate.Text.CodePoints

/-! # Regular expressions

The part of `re` that tries alternatives in order: classes of characters, greedy repetition of
a class, named groups, word boundaries and one-character lookarounds. `run` lists the matches
at one place, the preferred one first, so that `search` and `sub` take heads of it.
-/

namespace SaasTemplate.Regex

open SaasTemplate.CodePoints

inductive Re where
  | char (p : Nat → Bool)
  /-- `[p]{least,}`. -/
  | many (p : Nat → Bool) (least : Nat)
  | seq (first second : Re)
  | alt (first second : Re)
  /-- `\b`, where `isWord` tells the characters of words. -/
  | boundary (isWord : Nat → Bool)
  | lookbehind (p : Nat → Bool)
  | lookahead (p : Nat → Bool)
  | group (name : String) (body : Re)

structure Match where
  consumed : Text
  rest : Text
  groups : List (String × Text)
  deriving DecidableEq, Repr

/-- `match.group(name)`. -/
def Match.group (m : Match) (name : String) : Text := (m.groups.lookup name).getD []

/-- The last character of what was read so far. -/
def lastOr (prev : Option Nat) (read : Text) : Option Nat := read.getLast?.or prev

@[simp] theorem lastOr_nil (prev : Option Nat) : lastOr prev [] = prev := rfl

@[simp] theorem lastOr_getLast? (read more : Text) :
    lastOr read.getLast? more = (read ++ more).getLast? := by
  rw [lastOr, List.getLast?_append]

theorem lastOr_append (prev : Option Nat) (read more : Text) :
    lastOr prev (read ++ more) = lastOr (lastOr prev read) more := by
  rw [lastOr, lastOr, lastOr, List.getLast?_append, Option.or_assoc]

/-- The lengths that a greedy repetition tries. -/
def lengths (least most : Nat) : List Nat := (List.range' least (most + 1 - least)).reverse

theorem mem_lengths {least most k : Nat} : k ∈ lengths least most ↔ least ≤ k ∧ k ≤ most := by
  simp only [lengths, List.mem_reverse, List.mem_range'_1]
  omega

namespace Re

/-- The matches at one place, in the order in which they are tried. -/
def run : Re → Option Nat → Text → List Match
  | char p, _, c :: text => if p c then [⟨[c], text, []⟩] else []
  | char _, _, [] => []
  | many p least, _, text =>
      (lengths least (text.takeWhile p).length).map fun k => ⟨text.take k, text.drop k, []⟩
  | seq first second, prev, text =>
      (first.run prev text).flatMap fun m =>
        (second.run (lastOr prev m.consumed) m.rest).map fun m' =>
          ⟨m.consumed ++ m'.consumed, m'.rest, m.groups ++ m'.groups⟩
  | alt first second, prev, text => first.run prev text ++ second.run prev text
  | boundary isWord, prev, text =>
      if prev.any isWord != text.head?.any isWord then [⟨[], text, []⟩] else []
  | lookbehind p, prev, text => if prev.any p then [⟨[], text, []⟩] else []
  | lookahead p, _, text => if text.head?.any p then [⟨[], text, []⟩] else []
  | group name body, prev, text =>
      (body.run prev text).map fun m => { m with groups := (name, m.consumed) :: m.groups }

section

variable (p : Nat → Bool) (first second : Re) (prev : Option Nat) (text : Text)

theorem run_char_nil : (char p).run prev [] = [] := rfl

theorem run_char_cons (c : Nat) :
    (char p).run prev (c :: text) = if p c then [⟨[c], text, []⟩] else [] := rfl

theorem run_many (least : Nat) :
    (many p least).run prev text =
      (lengths least (text.takeWhile p).length).map fun k => ⟨text.take k, text.drop k, []⟩ := rfl

theorem run_seq :
    (first.seq second).run prev text = (first.run prev text).flatMap fun m =>
      (second.run (lastOr prev m.consumed) m.rest).map fun m' =>
        ⟨m.consumed ++ m'.consumed, m'.rest, m.groups ++ m'.groups⟩ := rfl

theorem run_group (name : String) :
    (first.group name).run prev text =
      (first.run prev text).map fun m => { m with groups := (name, m.consumed) :: m.groups } := rfl

end

/-- `pattern.search(text)`, where `prev` stands before the text. -/
def search (r : Re) : Option Nat → Text → Option Match
  | prev, [] => (r.run prev []).head?
  | prev, c :: text => (r.run prev (c :: text)).head?.or (r.search (some c) text)

/-- `pattern.sub(replacement, text)` after `skip` characters that a match has consumed. An
empty match is followed by a search for one at the same place that is not empty. -/
def sub (r : Re) (replacement : Match → Text) : Nat → Option Nat → Text → Text
  | _, prev, [] =>
      match (r.run prev []).head? with
      | some m => replacement m
      | none => []
  | skip + 1, _, c :: text => r.sub replacement skip (some c) text
  | 0, prev, c :: text =>
      let matches_ := r.run prev (c :: text)
      let empty :=
        match matches_.head? with
        | some m => if m.consumed.isEmpty then replacement m else []
        | none => []
      empty ++
        match matches_.find? fun m => !m.consumed.isEmpty with
        | some m => replacement m ++ r.sub replacement (m.consumed.length - 1) (some c) text
        | none => c :: r.sub replacement 0 (some c) text

example : (many (· == 120) 0).sub (fun _ => ofString "-") 0 none (ofString "abxd") =
    ofString "-a-b--d-" := by decide

/-! ## What a match consumes -/

section

variable {p : Nat → Bool} {prev : Option Nat} {text : Text} {m : Match}

/-- A test of the place that consumes nothing. -/
theorem mem_run_test {holds : Bool} :
    m ∈ (if holds then [⟨[], text, []⟩] else [] : List Match) ↔
      holds = true ∧ m = ⟨[], text, []⟩ := by
  cases holds <;> simp

theorem mem_run_char :
    m ∈ (char p).run prev text ↔ ∃ c, p c = true ∧ text = c :: m.rest ∧ m = ⟨[c], m.rest, []⟩ := by
  cases text with
  | nil => simp [run_char_nil]
  | cons c text =>
      rw [run_char_cons]
      split
      · rename_i accepted
        rw [List.mem_singleton]
        constructor
        · rintro rfl
          exact ⟨c, accepted, rfl, rfl⟩
        · rintro ⟨d, -, split, is⟩
          obtain ⟨rfl, same⟩ := List.cons.inj split
          rw [is, same]
      · rename_i refused
        simp only [List.not_mem_nil, false_iff]
        rintro ⟨d, accepted, split, -⟩
        exact refused ((List.cons.inj split).1 ▸ accepted)

theorem mem_run_many {least : Nat} :
    m ∈ (many p least).run prev text ↔
      text = m.consumed ++ m.rest ∧ m.consumed.all p = true ∧ least ≤ m.consumed.length ∧
        m.groups = [] := by
  simp only [run_many, List.mem_map, mem_lengths]
  constructor
  · rintro ⟨k, ⟨enough, fits⟩, rfl⟩
    have within : k ≤ text.length := Nat.le_trans fits (List.takeWhile_prefix p).length_le
    refine ⟨(List.take_append_drop k text).symm, ?_, ?_, rfl⟩
    swap
    · rw [List.length_take, Nat.min_eq_left within]
      exact enough
    have inside : text.take k <+: text.takeWhile p :=
      List.prefix_of_prefix_length_le (List.take_prefix k text) (List.takeWhile_prefix p)
        (by rw [List.length_take]; omega)
    exact List.all_eq_true.mpr fun c member =>
      List.all_eq_true.mp List.all_takeWhile c (inside.subset member)
  · obtain ⟨consumed, rest, groups⟩ := m
    rintro ⟨rfl, all, enough, rfl⟩
    refine ⟨consumed.length, ⟨enough, ?_⟩, by simp⟩
    rw [List.takeWhile_append_of_pos (List.all_eq_true.mp all)]
    simp

theorem mem_run_seq {first second : Re} :
    m ∈ (first.seq second).run prev text ↔
      ∃ m₁ ∈ first.run prev text, ∃ m₂ ∈ second.run (lastOr prev m₁.consumed) m₁.rest,
        m = ⟨m₁.consumed ++ m₂.consumed, m₂.rest, m₁.groups ++ m₂.groups⟩ := by
  simp only [run_seq, List.mem_flatMap, List.mem_map, eq_comm]

theorem mem_run_group {name : String} {body : Re} :
    m ∈ (body.group name).run prev text ↔
      ∃ m' ∈ body.run prev text, m = { m' with groups := (name, m'.consumed) :: m'.groups } := by
  simp only [run_group, List.mem_map, eq_comm]

/-- A match and what is left make up the text. -/
theorem run_append {r : Re} (found : m ∈ r.run prev text) : m.consumed ++ m.rest = text := by
  induction r generalizing prev text m with
  | char p =>
      obtain ⟨c, -, split, is⟩ := mem_run_char.mp found
      rw [is, split]
      rfl
  | many p least => exact (mem_run_many.mp found).1.symm
  | seq first second ih₁ ih₂ =>
      obtain ⟨m₁, found₁, m₂, found₂, rfl⟩ := mem_run_seq.mp found
      rw [List.append_assoc, ih₂ found₂, ih₁ found₁]
  | alt first second ih₁ ih₂ =>
      rcases List.mem_append.mp found with found | found
      · exact ih₁ found
      · exact ih₂ found
  | group name body ih =>
      obtain ⟨m', found', rfl⟩ := mem_run_group.mp found
      exact @ih _ _ m' found'
  | boundary | lookbehind | lookahead =>
      rw [(mem_run_test.mp found).2]
      rfl

/-- A match sees what it consumes and one character to each side. -/
theorem run_local {r : Re} {consumed rest rest' : Text} {groups : List (String × Text)}
    (found : ⟨consumed, rest, groups⟩ ∈ r.run prev (consumed ++ rest))
    (next : rest'.head? = rest.head?) :
    ⟨consumed, rest', groups⟩ ∈ r.run prev (consumed ++ rest') := by
  induction r generalizing prev consumed rest rest' groups with
  | char p =>
      obtain ⟨c, accepted, -, is⟩ := mem_run_char.mp found
      obtain ⟨rfl, -, rfl⟩ := Match.mk.inj is
      exact mem_run_char.mpr ⟨c, accepted, rfl, rfl⟩
  | many p least =>
      obtain ⟨-, all, enough, none⟩ := mem_run_many.mp found
      exact mem_run_many.mpr ⟨rfl, all, enough, none⟩
  | seq first second ih₁ ih₂ =>
      obtain ⟨⟨c₁, r₁, g₁⟩, found₁, ⟨c₂, r₂, g₂⟩, found₂, is⟩ := mem_run_seq.mp found
      obtain ⟨rfl, rfl, rfl⟩ := Match.mk.inj is
      have left := run_append found₂
      simp only at left found₂ ⊢
      subst r₁
      refine mem_run_seq.mpr ⟨⟨c₁, c₂ ++ rest', g₁⟩, ?_, ⟨c₂, rest', g₂⟩, ih₂ found₂ next, rfl⟩
      rw [List.append_assoc] at found₁ ⊢
      refine ih₁ found₁ ?_
      rw [List.head?_append, List.head?_append, next]
  | alt first second ih₁ ih₂ =>
      rcases List.mem_append.mp found with found | found
      · exact List.mem_append_left _ (ih₁ found next)
      · exact List.mem_append_right _ (ih₂ found next)
  | group name body ih =>
      obtain ⟨⟨c, r, g⟩, found', is⟩ := mem_run_group.mp found
      obtain ⟨rfl, rfl, rfl⟩ := Match.mk.inj is
      exact mem_run_group.mpr ⟨⟨consumed, rest', g⟩, ih found' next, rfl⟩
  | boundary | lookahead =>
      obtain ⟨holds, is⟩ := mem_run_test.mp found
      obtain ⟨rfl, -, rfl⟩ := Match.mk.inj is
      rw [List.nil_append] at holds
      exact mem_run_test.mpr ⟨by rw [List.nil_append, next]; exact holds, rfl⟩
  | lookbehind =>
      obtain ⟨holds, is⟩ := mem_run_test.mp found
      obtain ⟨rfl, -, rfl⟩ := Match.mk.inj is
      exact mem_run_test.mpr ⟨holds, rfl⟩

/-- The characters that some part of the pattern takes. -/
def accepts : Re → Nat → Bool
  | char p, c => p c
  | many p _, c => p c
  | seq first second, c => first.accepts c || second.accepts c
  | alt first second, c => first.accepts c || second.accepts c
  | group _ body, c => body.accepts c
  | _, _ => false

/-- No match is shorter than this. -/
def least : Re → Nat
  | char _ => 1
  | many _ least => least
  | seq first second => first.least + second.least
  | alt first second => min first.least second.least
  | group _ body => body.least
  | _ => 0

theorem run_bounds {r : Re} (found : m ∈ r.run prev text) :
    r.least ≤ m.consumed.length ∧ ∀ c ∈ m.consumed, r.accepts c = true := by
  induction r generalizing prev text m with
  | char p =>
      obtain ⟨c, accepted, -, is⟩ := mem_run_char.mp found
      rw [is]
      refine ⟨Nat.le_refl 1, fun d member => ?_⟩
      rw [List.mem_singleton.mp member]
      exact accepted
  | many p least =>
      obtain ⟨-, all, enough, -⟩ := mem_run_many.mp found
      exact ⟨enough, List.all_eq_true.mp all⟩
  | seq first second ih₁ ih₂ =>
      obtain ⟨m₁, found₁, m₂, found₂, rfl⟩ := mem_run_seq.mp found
      obtain ⟨enough₁, all₁⟩ := ih₁ found₁
      obtain ⟨enough₂, all₂⟩ := ih₂ found₂
      refine ⟨by simp only [least, List.length_append]; omega, fun c member => ?_⟩
      rcases List.mem_append.mp member with member | member
      · simp [accepts, all₁ c member]
      · simp [accepts, all₂ c member]
  | alt first second ih₁ ih₂ =>
      rcases List.mem_append.mp found with found | found
      · obtain ⟨enough, all⟩ := ih₁ found
        exact ⟨by simp only [least]; omega, fun c member => by simp [accepts, all c member]⟩
      · obtain ⟨enough, all⟩ := ih₂ found
        exact ⟨by simp only [least]; omega, fun c member => by simp [accepts, all c member]⟩
  | group name body ih =>
      obtain ⟨m', found', rfl⟩ := mem_run_group.mp found
      exact @ih _ _ m' found'
  | boundary | lookbehind | lookahead =>
      rw [(mem_run_test.mp found).2]
      exact ⟨Nat.zero_le _, by simp⟩

/-! ## The match that is preferred -/

/-- Repetition is greedy. -/
theorem run_many_head? {least : Nat} {word rest : Text} (all : word.all p = true)
    (stop : rest.head?.any p = false) (enough : least ≤ word.length) :
    ((many p least).run prev (word ++ rest)).head? = some ⟨word, rest, []⟩ := by
  have stopped : rest.takeWhile p = [] := by
    cases rest with
    | nil => rfl
    | cons c rest => exact List.takeWhile_cons_of_neg (by simpa using stop)
  have most : ((word ++ rest).takeWhile p).length = word.length := by
    rw [List.takeWhile_append_of_pos (List.all_eq_true.mp all), stopped, List.append_nil]
  have longest : (lengths least word.length).head? = some word.length := by
    rw [lengths, List.head?_reverse, List.getLast?_range', if_neg (by omega)]
    congr 1
    omega
  rw [run_many, List.head?_map, most, longest]
  simp

theorem run_seq_head? {first second : Re} {m₁ m₂ : Match}
    (found₁ : (first.run prev text).head? = some m₁)
    (found₂ : (second.run (lastOr prev m₁.consumed) m₁.rest).head? = some m₂) :
    ((first.seq second).run prev text).head? =
      some ⟨m₁.consumed ++ m₂.consumed, m₂.rest, m₁.groups ++ m₂.groups⟩ := by
  obtain ⟨others, all⟩ := List.head?_eq_some_iff.mp found₁
  rw [run_seq, all, List.flatMap_cons, List.head?_append, List.head?_map, found₂]
  rfl

/-- What is preferred for two parts comes from some match of the first. -/
theorem exists_of_run_seq_head? {first second : Re}
    (found : ((first.seq second).run prev text).head? = some m) :
    ∃ m₁ ∈ first.run prev text, ∃ m₂,
      (second.run (lastOr prev m₁.consumed) m₁.rest).head? = some m₂ ∧
        m = ⟨m₁.consumed ++ m₂.consumed, m₂.rest, m₁.groups ++ m₂.groups⟩ := by
  rw [run_seq, List.head?_flatMap] at found
  obtain ⟨m₁, member, is⟩ := List.exists_of_findSome?_eq_some found
  rw [List.head?_map, Option.map_eq_some_iff] at is
  obtain ⟨m₂, found₂, rfl⟩ := is
  exact ⟨m₁, member, m₂, found₂, rfl⟩

theorem run_group_head? {name : String} {body : Re} (found : (body.run prev text).head? = some m) :
    ((body.group name).run prev text).head? =
      some { m with groups := (name, m.consumed) :: m.groups } := by
  rw [run_group, List.head?_map, found]
  rfl

/-! ## Searching -/

theorem search_nil (r : Re) (prev : Option Nat) : r.search prev [] = (r.run prev []).head? := rfl

theorem search_cons (r : Re) (prev : Option Nat) (c : Nat) (text : Text) :
    r.search prev (c :: text) = (r.run prev (c :: text)).head?.or (r.search (some c) text) := rfl

/-- A search finds what matches at some place. -/
theorem search_isSome {r : Re} :
    (r.search prev text).isSome = true ↔
      ∃ before after, text = before ++ after ∧ r.run (lastOr prev before) after ≠ [] := by
  have here : ∀ {prev text}, (r.run prev text).head?.isSome = true ↔ r.run prev text ≠ [] := by
    intro prev text
    rw [List.isSome_head?]
  induction text generalizing prev with
  | nil =>
      rw [search_nil, here]
      constructor
      · exact fun found => ⟨[], [], rfl, found⟩
      · rintro ⟨before, after, split, found⟩
        obtain ⟨rfl, rfl⟩ := List.nil_eq_append_iff.mp split
        exact found
  | cons c text ih =>
      rw [search_cons, Option.isSome_or, Bool.or_eq_true, here]
      refine (or_congr_right (@ih (some c))).trans ?_
      constructor
      · rintro (found | ⟨before, after, rfl, found⟩)
        · exact ⟨[], c :: text, rfl, found⟩
        · refine ⟨c :: before, after, rfl, ?_⟩
          rwa [← List.singleton_append, lastOr_append]
      · rintro ⟨before, after, split, found⟩
        rcases List.cons_eq_append_iff.mp split with ⟨rfl, rfl⟩ | ⟨before', rfl, rfl⟩
        · exact .inl found
        · rw [← List.singleton_append, lastOr_append] at found
          exact .inr ⟨before', after, rfl, found⟩

/-! ## Replacing -/

section

variable {r : Re} {replacement : Match → Text}

theorem sub_pass (skip c : Nat) :
    r.sub replacement (skip + 1) prev (c :: text) = r.sub replacement skip (some c) text := rfl

/-- What a match has consumed is passed over. -/
theorem sub_skip (read : Text) :
    r.sub replacement read.length prev (read ++ text) =
      r.sub replacement 0 (lastOr prev read) text := by
  induction read generalizing prev with
  | nil => rfl
  | cons c read ih =>
      rw [List.length_cons, List.cons_append, sub_pass, ih, ← List.singleton_append, lastOr_append]
      rfl

theorem sub_end (skip : Nat) : r.sub replacement skip prev [] =
    match (r.run prev []).head? with
    | some m => replacement m
    | none => [] := by
  cases skip <;> rfl

theorem sub_cons (c : Nat) : r.sub replacement 0 prev (c :: text) =
    (match (r.run prev (c :: text)).head? with
      | some m => if m.consumed.isEmpty then replacement m else []
      | none => []) ++
      match (r.run prev (c :: text)).find? fun m => !m.consumed.isEmpty with
      | some m => replacement m ++ r.sub replacement (m.consumed.length - 1) (some c) text
      | none => c :: r.sub replacement 0 (some c) text := rfl

theorem consumed_ne_nil (some_ : 1 ≤ r.least) (found : m ∈ r.run prev text) :
    m.consumed.isEmpty = false := by
  have enough := (run_bounds found).1
  cases is : m.consumed with
  | nil =>
      rw [is] at enough
      exact absurd enough (by simp; omega)
  | cons c read => rfl

theorem sub_nil (some_ : 1 ≤ r.least) (skip : Nat) : r.sub replacement skip prev [] = [] := by
  have none : r.run prev [] = [] := by
    rw [List.eq_nil_iff_forall_not_mem]
    intro m found
    have empty := consumed_ne_nil some_ found
    rw [(List.append_eq_nil_iff.mp (run_append found)).1] at empty
    cases empty
  rw [sub_end, none]
  rfl

theorem sub_of_run (some_ : 1 ≤ r.least) (first : (r.run prev text).head? = some m) :
    r.sub replacement 0 prev text =
      replacement m ++ r.sub replacement 0 (lastOr prev m.consumed) m.rest := by
  have found : m ∈ r.run prev text := List.mem_of_head? first
  have there := consumed_ne_nil some_ found
  have split := run_append found
  obtain ⟨c, read, is⟩ : ∃ c read, m.consumed = c :: read := by
    cases is : m.consumed with
    | nil => simp [is] at there
    | cons c read => exact ⟨c, read, rfl⟩
  rw [is, List.cons_append] at split
  subst split
  have nonempty : (r.run prev (c :: (read ++ m.rest))).find? (fun m => !m.consumed.isEmpty) =
      some m := by
    obtain ⟨more, all⟩ := List.head?_eq_some_iff.mp first
    rw [all, List.find?_cons_of_pos (by simp [there])]
  rw [sub_cons]
  simp only [first, nonempty, is]
  rw [List.length_cons, Nat.add_sub_cancel, sub_skip, ← List.singleton_append, lastOr_append]
  rfl

theorem sub_of_not_run {c : Nat} (none : r.run prev (c :: text) = []) :
    r.sub replacement 0 prev (c :: text) = c :: r.sub replacement 0 (some c) text := by
  rw [sub_cons]
  simp [none]

end

end

end Re

end SaasTemplate.Regex

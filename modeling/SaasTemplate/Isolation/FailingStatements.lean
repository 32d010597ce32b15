import SaasTemplate.Isolation.Program

/-! # Programs all whose statements fail

What is left of a program when nothing it asks for works: its exception handlers. Programs over
one kind of statements run as programs over two kinds.
-/

namespace SaasTemplate.Isolation

namespace Prog

variable {S S' : Type} {R : S → Type} {R' : S' → Type} {ε α β : Type}

/-- A program that issues statements of the first kind only. -/
def inLeft : Prog S R ε α → Prog (S ⊕ S') (Sum.elim R R') ε α
  | .done r => .done r
  | .call s k => .call (.inl s) fun r => (k r).inLeft

/-- When every statement raises some exception in `E`, not always the same one, `Q` holds of the
    result. -/
def Failing (E : ε → Prop) (Q : Except ε α → Prop) : Prog S R ε α → Prop
  | .done r => Q r
  | .call _ k => ∀ e, E e → (k (.error e)).Failing E Q

variable {E : ε → Prop} {Q Q' : Except ε α → Prop} {p : Prog S R ε α}

@[simp] theorem failing_pure (a : α) : (pure a : Prog S R ε α).Failing E Q ↔ Q (.ok a) := Iff.rfl

@[simp] theorem failing_raise (e : ε) :
    (raise e : Prog S R ε α).Failing E Q ↔ Q (.error e) := Iff.rfl

@[simp] theorem failing_stmt {s : S} {Q : Except ε (R s) → Prop} :
    (stmt s).Failing E Q ↔ ∀ e, E e → Q (.error e) := Iff.rfl

theorem Failing.mono (h : p.Failing E Q) (weaker : ∀ r, Q r → Q' r) : p.Failing E Q' := by
  induction p with
  | done r => exact weaker r h
  | call s k ih => exact fun e raised => ih (.error e) (h e raised)

theorem failing_bind {f : α → Prog S R ε β} {Q : Except ε β → Prop} :
    (p >>= f).Failing E Q ↔ p.Failing E fun
      | .ok a => (f a).Failing E Q
      | .error e => Q (.error e) := by
  induction p with
  | done r => cases r <;> exact Iff.rfl
  | call s k ih => exact forall₂_congr fun e _ => ih (.error e)

theorem failing_attempt {Q : Except ε (Except ε α) → Prop} :
    p.attempt.Failing E Q ↔ p.Failing E fun r => Q (.ok r) := by
  induction p with
  | done r => exact Iff.rfl
  | call s k ih => exact forall₂_congr fun e _ => ih (.error e)

theorem failing_handle {handler : ε → Prog S R ε α} :
    (p.handle handler).Failing E Q ↔ p.Failing E fun
      | .ok a => Q (.ok a)
      | .error e => (handler e).Failing E Q := by
  rw [handle, failing_bind, failing_attempt]
  have same : ∀ {Q Q' : Except ε α → Prop}, (∀ r, Q r ↔ Q' r) →
      (p.Failing E Q ↔ p.Failing E Q') := fun iff_ =>
    ⟨fun h => h.mono fun r => (iff_ r).mp, fun h => h.mono fun r => (iff_ r).mpr⟩
  refine same fun r => ?_
  cases r <;> exact Iff.rfl

theorem failing_inLeft :
    (p.inLeft : Prog (S ⊕ S') (Sum.elim R R') ε α).Failing E Q ↔ p.Failing E Q := by
  induction p with
  | done r => exact Iff.rfl
  | call s k ih => exact forall₂_congr fun e _ => ih (.error e)

theorem failing_raiseIf {cond : Prop} [Decidable cond] {e : ε} {Q : Except ε Unit → Prop} :
    (raiseIf cond e : Prog S R ε Unit).Failing E Q ↔
      (cond → Q (.error e)) ∧ (¬cond → Q (.ok ())) := by
  unfold raiseIf
  split <;> rename_i is <;> simp [is]

/-- Rounds that end the loop with one exception, or go on. -/
theorem failing_forEach {xs : List β} {f : β → Prog S R ε Unit} {stops : β → Prop}
    {e : ε} (each : ∀ x ∈ xs, (f x).Failing E fun r =>
      (stops x → r = .error e) ∧ (¬stops x → r = .ok ())) :
    (forEach xs f).Failing E fun r =>
      ((∃ x ∈ xs, stops x) → r = .error e) ∧ ((∀ x ∈ xs, ¬stops x) → r = .ok ()) := by
  induction xs with
  | nil => simp [forEach]
  | cons x rest ih =>
      rw [forEach, failing_bind]
      refine (each x (by simp)).mono fun r round => ?_
      have later := ih fun y member => each y (by simp [member])
      by_cases stop : stops x
      · rw [round.1 stop]
        exact ⟨fun _ => rfl, fun none => absurd stop (none x (by simp))⟩
      · rw [round.2 stop]
        refine later.mono fun r ends => ⟨?_, fun none => ?_⟩
        · rintro ⟨y, member, stopped⟩
          rcases List.mem_cons.mp member with rfl | there
          · exact absurd stopped stop
          · exact ends.1 ⟨y, there, stopped⟩
        · exact ends.2 fun y member => none y (by simp [member])

end Prog

end SaasTemplate.Isolation

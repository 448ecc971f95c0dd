import Mathlib.Order.Lattice.Nat
import Mathlib.Order.WellFounded

/-!
# Loops

A loop whose rounds may fail, that ends with a result or goes on with another state.  It returns if
the states of its rounds descend, and it never returns if no round of its states ends it.
-/

section Loop

variable {σ β : Type*} {round : σ → Option (β ⊕ σ)} {holds : σ → Prop} {post : β → Prop}

/-- The result of a loop; there is none if a round fails or the rounds are not enough. -/
def loopFor (round : σ → Option (β ⊕ σ)) : (rounds : Nat) → σ → Option β
  | 0, _ => none
  | rounds + 1, state => (round state).bind (Sum.elim some (loopFor round rounds))

theorem loopFor_returns {descends : σ → σ → Prop} (founded : WellFounded descends)
    (step : ∀ state, holds state → (∃ result, round state = some (.inl result) ∧ post result) ∨
      ∃ after, round state = some (.inr after) ∧ holds after ∧ descends after state)
    (state : σ) (state_holds : holds state) :
    ∃ rounds result, loopFor round rounds state = some result ∧ post result := by
  induction state using founded.induction with
  | _ state induction =>
      obtain ⟨result, ends, done⟩ | ⟨after, goes_on, after_holds, descent⟩ := step state state_holds
      · refine ⟨1, result, ?_, done⟩
        rw [loopFor, ends]
        rfl
      · obtain ⟨rounds, result, returns, done⟩ := induction after descent after_holds
        refine ⟨rounds + 1, result, ?_, done⟩
        rw [loopFor, goes_on]
        exact returns

theorem loopFor_never
    (step : ∀ state, holds state → ∃ after, round state = some (.inr after) ∧ holds after)
    (rounds : Nat) (state : σ) (state_holds : holds state) : loopFor round rounds state = none := by
  induction rounds generalizing state with
  | zero => rfl
  | succ rounds induction =>
      obtain ⟨after, goes_on, after_holds⟩ := step state state_holds
      rw [loopFor, goes_on]
      exact induction after after_holds

/-- The calls before the first one that helps, from some call on. -/
noncomputable def callsUntil (helps : Nat → Prop) (call : Nat) : Nat :=
  sInf { more | helps (call + more) }

theorem callsUntil_succ_lt {helps : Nat → Prop} {call later : Nat} (le : call ≤ later)
    (helped : helps later) (useless : ¬helps call) :
    callsUntil helps (call + 1) < callsUntil helps call := by
  obtain ⟨more, rfl⟩ := Nat.exists_eq_add_of_le le
  have found : helps (call + callsUntil helps call) :=
    Nat.sInf_mem (s := { more | helps (call + more) }) ⟨more, helped⟩
  cases until_eq : callsUntil helps call with
  | zero =>
      rw [until_eq] at found
      exact absurd found useless
  | succ less =>
      rw [until_eq, Nat.add_comm less, ← Nat.add_assoc] at found
      exact Nat.lt_succ_of_le (Nat.sInf_le found)

end Loop

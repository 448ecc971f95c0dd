import Mathlib.Tactic

/-!
# Calls that return unless something is missing

A computation that may fail is an `Option`.  `Returns result excuse post` says that it gives a
result with `post`, or that it fails and `excuse` holds; `Returns result False post` is total
correctness.
-/

/-- The computation gives a result with `post`, or it fails and `excuse` holds. -/
def Returns {α : Type*} (result : Option α) (excuse : Prop) (post : α → Prop) : Prop :=
  (∃ value, result = some value ∧ post value) ∨ (result = none ∧ excuse)

namespace Returns

variable {α β : Type*} {result : Option α} {excuse : Prop} {post : α → Prop}

theorem pure {value : α} (holds : post value) : Returns (some value) excuse post :=
  Or.inl ⟨value, rfl, holds⟩

theorem bind {next : α → Option β} {after : β → Prop} (first : Returns result excuse post)
    (second : ∀ value, post value → Returns (next value) excuse after) :
    Returns (result.bind next) excuse after := by
  obtain ⟨value, rfl, holds⟩ | ⟨rfl, because⟩ := first
  · exact second value holds
  · exact Or.inr ⟨rfl, because⟩

theorem mono {after : α → Prop} {other : Prop} (first : Returns result excuse post)
    (weaker : ∀ value, post value → after value) (excused : excuse → other) :
    Returns result other after := by
  obtain ⟨value, eq, holds⟩ | ⟨eq, because⟩ := first
  · exact Or.inl ⟨value, eq, weaker value holds⟩
  · exact Or.inr ⟨eq, excused because⟩

theorem of_some {value : α} (first : Returns result excuse post) (eq : result = some value) :
    post value := by
  obtain ⟨other, eq', holds⟩ | ⟨eq', -⟩ := first
  · cases eq.symm.trans eq'
    exact holds
  · cases eq.symm.trans eq'

theorem isSome (first : Returns result excuse post) (never : ¬excuse) : result.isSome := by
  obtain ⟨value, rfl, -⟩ | ⟨-, because⟩ := first
  · rfl
  · exact absurd because never

end Returns

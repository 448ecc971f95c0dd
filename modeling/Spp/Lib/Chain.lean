import Mathlib.Tactic

/-!
# Chains of links

Members of a type have a link to another member or to none.  The members that follow a start are a
`Chain`: a list that ends where there is no link.  If the links lead in a circle there is no chain,
and a walk along them does not end.
-/

namespace LinkedChain

variable {ι : Type*}

/-- `nodes` are the members that follow `start`, to the end. -/
def Chain (next : ι → Option ι) : Option ι → List ι → Prop
  | start, [] => start = none
  | start, node :: rest => start = some node ∧ Chain next (next node) rest

/-- A node is reached along the links. -/
def Leads (next : ι → Option ι) (start : Option ι) (member : ι) : Prop :=
  ∃ first, start = some first ∧
    Relation.ReflTransGen (fun node other => next node = some other) first member

/-- A walk to the first member that passes a test, for at most `rounds` rounds. -/
def walk (next : ι → Option ι) (test : ι → Bool) : (rounds : Nat) → Option ι → Option (Option ι)
  | 0, _ => none
  | _ + 1, none => some none
  | rounds + 1, some node =>
      if test node then some (some node) else walk next test rounds (next node)

/-- A walk that keeps the node before. -/
def walkBehind (next : ι → Option ι) (test : ι → Bool) :
    (rounds : Nat) → Option ι → Option ι → Option (Option (Option ι × ι))
  | 0, _, _ => none
  | _ + 1, _, none => some none
  | rounds + 1, prev, some node =>
      if test node then some (some (prev, node))
      else walkBehind next test rounds (some node) (next node)

variable {before after : List ι} {rounds : Nat}

section Chain

variable {next : ι → Option ι} {start : Option ι} {nodes : List ι} {node : ι} {test : ι → Bool}

theorem Chain.congr {links : ι → Option ι} (chain : Chain next start nodes)
    (agree : ∀ node ∈ nodes, links node = next node) : Chain links start nodes := by
  induction nodes generalizing start with
  | nil => exact chain
  | cons node rest induction =>
      refine ⟨chain.1, ?_⟩
      rw [agree node List.mem_cons_self]
      exact induction chain.2 fun other member => agree other (List.mem_cons_of_mem node member)

theorem Chain.drop (chain : Chain next start (before ++ nodes)) : Chain next nodes.head? nodes := by
  induction before generalizing start with
  | nil =>
      cases nodes with
      | nil => rfl
      | cons node rest => exact ⟨rfl, chain.2⟩
  | cons node before induction => exact induction chain.2

theorem Chain.mem_iff (chain : Chain next start nodes) (member : ι) :
    member ∈ nodes ↔ Leads next start member := by
  induction nodes generalizing start with
  | nil =>
      cases chain
      exact iff_of_false List.not_mem_nil (by rintro ⟨first, ⟨⟩, -⟩)
  | cons node rest induction =>
      obtain ⟨rfl, tail⟩ := chain
      rw [List.mem_cons, induction tail]
      constructor
      · rintro (rfl | ⟨second, is_next, path⟩)
        · exact ⟨_, rfl, .refl⟩
        · exact ⟨_, rfl, .head is_next path⟩
      · rintro ⟨first, ⟨⟩, path⟩
        cases path.cases_head with
        | inl same => exact Or.inl same.symm
        | inr step =>
            obtain ⟨second, is_next, path⟩ := step
            exact Or.inr ⟨second, is_next, path⟩

variable [DecidableEq ι]

theorem Chain.update {target : Option ι} (chain : Chain next start nodes) (not_mem : node ∉ nodes) :
    Chain (Function.update next node target) start nodes := by
  refine chain.congr fun other member => Function.update_of_ne ?_ ..
  rintro rfl
  exact not_mem member

theorem Chain.push (chain : Chain next start nodes) (not_mem : node ∉ nodes) :
    Chain (Function.update next node start) (some node) (node :: nodes) := by
  refine ⟨rfl, ?_⟩
  rw [Function.update_self]
  exact chain.update not_mem

theorem Chain.unlink (chain : Chain next start (before ++ node :: after))
    (nodup : (before ++ node :: after).Nodup) :
    (∀ prev, before.getLast? = some prev →
      Chain (Function.update (Function.update next prev (next node)) node none) start
        (before ++ after)) ∧
    (before = [] → Chain (Function.update next node none) (next node) after) := by
  have node_before : node ∉ before := fun member =>
    (List.disjoint_of_nodup_append nodup) member List.mem_cons_self
  have node_after : node ∉ after := (List.nodup_cons.1 nodup.of_append_right).1
  constructor
  · intro prev is_last
    refine Chain.update ?_ (by simp [node_before, node_after])
    induction before generalizing start with
    | nil => cases is_last
    | cons first rest induction =>
        refine ⟨chain.1, ?_⟩
        cases rest with
        | nil =>
            obtain rfl : first = prev := by simpa using is_last
            rw [Function.update_self]
            have tail : Chain next (next node) after := chain.2.2
            refine tail.update fun member => ?_
            exact (List.nodup_cons.1 nodup).1 (List.mem_cons_of_mem node member)
        | cons second more =>
            have prev_mem : prev ∈ second :: more := List.mem_of_getLast? is_last
            have first_ne : first ≠ prev := by
              rintro rfl
              exact (List.nodup_cons.1 nodup).1 (List.mem_append_left _ prev_mem)
            rw [Function.update_of_ne first_ne]
            exact induction chain.2 (List.nodup_cons.1 nodup).2
              (fun member => node_before (List.mem_cons_of_mem first member)) is_last
  · rintro rfl
    have tail : Chain next (next node) after := chain.2
    exact tail.update node_after

end Chain

/-! ## Walks -/

section Walk

variable {next : ι → Option ι} {start : Option ι} {nodes : List ι} {node : ι} {test : ι → Bool}

theorem walk_of_chain (chain : Chain next start nodes) (enough : nodes.length < rounds) :
    walk next test rounds start = some (nodes.find? test) := by
  induction nodes generalizing start rounds with
  | nil =>
      cases rounds with
      | zero => simp at enough
      | succ rounds =>
          cases chain
          rfl
  | cons node rest induction =>
      cases rounds with
      | zero => simp at enough
      | succ rounds =>
          obtain ⟨rfl, tail⟩ := chain
          rw [walk, List.find?_cons]
          cases test node with
          | true => rfl
          | false => exact induction tail (Nat.lt_of_succ_lt_succ enough)

theorem walkBehind_of_none (chain : Chain next start nodes)
    (none_test : ∀ node ∈ nodes, test node = false) (enough : nodes.length < rounds)
    (prev : Option ι) : walkBehind next test rounds prev start = some none := by
  induction nodes generalizing start rounds prev with
  | nil =>
      cases rounds with
      | zero => simp at enough
      | succ rounds =>
          cases chain
          rfl
  | cons node rest induction =>
      cases rounds with
      | zero => simp at enough
      | succ rounds =>
          obtain ⟨rfl, tail⟩ := chain
          rw [walkBehind, none_test node List.mem_cons_self]
          exact induction tail (fun other member =>
            none_test other (List.mem_cons_of_mem node member))
            (Nat.lt_of_succ_lt_succ enough) (some node)

theorem walkBehind_of_first (chain : Chain next start (before ++ node :: after))
    (none_test : ∀ other ∈ before, test other = false) (passes : test node = true)
    (enough : before.length < rounds) (prev : Option ι) :
    walkBehind next test rounds prev start = some (some (before.getLast?.or prev, node)) := by
  induction before generalizing start rounds prev with
  | nil =>
      cases rounds with
      | zero => simp at enough
      | succ rounds =>
          obtain ⟨rfl, -⟩ := chain
          rw [walkBehind, passes]
          rfl
  | cons first rest induction =>
      cases rounds with
      | zero => simp at enough
      | succ rounds =>
          obtain ⟨rfl, tail⟩ := chain
          rw [walkBehind, none_test first List.mem_cons_self]
          have walked := induction tail
            (fun other member => none_test other (List.mem_cons_of_mem first member))
            (Nat.lt_of_succ_lt_succ enough) (some first)
          rw [if_neg (by decide), walked]
          cases rest with
          | nil => rfl
          | cons second more => simp [List.getLast?_cons]

theorem walk_of_circle {node : ι} (circle : next node = some node) (fails : test node = false)
    (rounds : Nat) : walk next test rounds (some node) = none := by
  induction rounds with
  | zero => rfl
  | succ rounds induction =>
      rw [walk, fails, circle]
      exact induction

theorem walkBehind_mono {more : Nat} (le : rounds ≤ more) {prev : Option ι}
    {found : Option (Option ι × ι)} (walked : walkBehind next test rounds prev start = some found) :
    walkBehind next test more prev start = some found := by
  induction rounds generalizing more prev start with
  | zero => cases walked
  | succ rounds induction =>
      obtain ⟨more, rfl⟩ : ∃ left, more = left + 1 := ⟨more - 1, by omega⟩
      cases start with
      | none => exact walked
      | some node =>
          rw [walkBehind] at walked ⊢
          split at walked
          · rw [if_pos ‹_›]
            exact walked
          · rw [if_neg ‹_›]
            exact induction (Nat.le_of_succ_le_succ le) walked

end Walk

end LinkedChain

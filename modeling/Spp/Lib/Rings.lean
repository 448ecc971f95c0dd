import Mathlib.Tactic

/-!
# Rings of links

Nodes have links to a next and to a previous node, and these links close to rings.  Some nodes are
heads; the ring of a head holds the members of its list, and the ring of a member that is in no list
is the member alone.  A member is taken out of its ring, or added at the end of the list of a head,
without knowing in which list it is.
-/

/-- The links of all nodes. -/
structure Links (ν : Type*) where
  next : ν → ν
  prev : ν → ν

namespace Links

variable {ν : Type*} [DecidableEq ν]

/-- Every node is a ring of its own. -/
def alone : Links ν := ⟨id, id⟩

/-- A node becomes a ring of its own. -/
def init (links : Links ν) (node : ν) : Links ν :=
  ⟨Function.update links.next node node, Function.update links.prev node node⟩

/-- Two nodes are linked, past what was between them. -/
def del (links : Links ν) (prev next : ν) : Links ν :=
  ⟨Function.update links.next prev next, Function.update links.prev next prev⟩

/-- A node is put between two nodes. -/
def add (links : Links ν) (node prev next : ν) : Links ν :=
  ⟨Function.update (Function.update links.next node next) prev node,
    Function.update (Function.update links.prev next node) node prev⟩

/-- A node is taken out of its ring. -/
def delInit (links : Links ν) (node : ν) : Links ν :=
  (links.del (links.prev node) (links.next node)).init node

/-- A node is put before a head, where the ring ends. -/
def addTail (links : Links ν) (node head : ν) : Links ν :=
  links.add node (links.prev head) head

/-- Take a node out of its ring, and insert it before a head. -/
def moveTail (links : Links ν) (node head : ν) : Links ν :=
  (links.del (links.prev node) (links.next node)).addTail node head

/-- The links the other way round. -/
def flip (links : Links ν) : Links ν := ⟨links.prev, links.next⟩

/-- The links lead from `start` over the nodes of a list to `stop`. -/
def Path (next : ν → ν) : ν → List ν → ν → Prop
  | start, [], stop => next start = stop
  | start, node :: rest, stop => next start = node ∧ Path next node rest stop

section Path

variable {next : ν → ν} {start stop node : ν} {nodes rest : List ν}

omit [DecidableEq ν] in
theorem path_append : Path next start (nodes ++ node :: rest) stop ↔
    Path next start nodes node ∧ Path next node rest stop := by
  induction nodes generalizing start with
  | nil => exact Iff.rfl
  | cons first nodes induction =>
      rw [List.cons_append, Path, Path, induction, and_assoc]

omit [DecidableEq ν] in
theorem Path.congr {other : ν → ν} (path : Path next start nodes stop)
    (agree : ∀ node ∈ start :: nodes, other node = next node) : Path other start nodes stop := by
  induction nodes generalizing start with
  | nil => exact (agree start List.mem_cons_self).trans path
  | cons first nodes induction =>
      exact ⟨(agree start List.mem_cons_self).trans path.1,
        induction path.2 fun node member => agree node (List.mem_cons_of_mem start member)⟩

omit [DecidableEq ν] in
theorem Path.next_mem (path : Path next start nodes stop) (mem : node ∈ start :: nodes) :
    next node = stop ∨ next node ∈ nodes := by
  induction nodes generalizing start with
  | nil =>
      rw [List.mem_singleton.1 mem]
      exact Or.inl path
  | cons first nodes induction =>
      rcases List.mem_cons.1 mem with rfl | mem
      · exact Or.inr (path.1 ▸ List.mem_cons_self)
      · exact (induction path.2 mem).imp_right (List.mem_cons_of_mem first)

theorem Path.exists_last (path : Path next start nodes stop) (nodup : (start :: nodes).Nodup) :
    ∃ last ∈ start :: nodes, next last = stop ∧
      ∀ target, Path (Function.update next last target) start nodes target := by
  induction nodes generalizing start with
  | nil => exact ⟨start, List.mem_cons_self, path, fun target => Function.update_self ..⟩
  | cons first nodes induction =>
      obtain ⟨start_fresh, nodup⟩ := List.nodup_cons.1 nodup
      obtain ⟨last, member, links, redirects⟩ := induction path.2 nodup
      refine ⟨last, List.mem_cons_of_mem start member, links, fun target => ⟨?_, redirects target⟩⟩
      rw [Function.update_of_ne]
      · exact path.1
      · rintro rfl
        exact start_fresh member

theorem Path.remove (front : Path next start nodes node) (back : Path next node rest stop)
    (nodup : (start :: nodes ++ node :: rest).Nodup) :
    ∃ last ∈ start :: nodes, next last = node ∧
      Path (Function.update next last (next node)) start (nodes ++ rest) stop := by
  obtain ⟨front_nodup, -, apart⟩ := List.nodup_append.1 nodup
  obtain ⟨last, member, links, redirects⟩ := front.exists_last front_nodup
  refine ⟨last, member, links, ?_⟩
  cases rest with
  | nil =>
      rw [List.append_nil, show next node = stop from back]
      exact redirects stop
  | cons first rest =>
      rw [show next node = first from back.1]
      refine path_append.2 ⟨redirects first, back.2.congr fun other other_mem => ?_⟩
      exact Function.update_of_ne
        (fun same => apart last member other (List.mem_cons_of_mem node other_mem) same.symm) ..

end Path

/-- `next` and `prev` are inverse to each other. -/
structure Linked (links : Links ν) : Prop where
  prev_next : ∀ node, links.prev (links.next node) = node
  next_prev : ∀ node, links.next (links.prev node) = node

section Linked

variable {links : Links ν} {node head : ν}

omit [DecidableEq ν] in
theorem Linked.flip (linked : links.Linked) : links.flip.Linked :=
  ⟨linked.next_prev, linked.prev_next⟩

omit [DecidableEq ν] in
theorem Linked.next_eq_iff (linked : links.Linked) {other : ν} :
    links.next node = other ↔ node = links.prev other :=
  ⟨fun same => by rw [← same, linked.prev_next], fun same => by rw [same, linked.next_prev]⟩

theorem Linked.init_eq (linked : links.Linked) (alone : links.next node = node) :
    links.init node = links := by
  have prev_alone : links.prev node = node := (linked.next_eq_iff.1 alone).symm
  rw [init, Function.update_eq_self_iff.2 alone.symm, Function.update_eq_self_iff.2 prev_alone.symm]

theorem Linked.delInit_prev_next (linked : links.Linked) (node other : ν) :
    (links.delInit node).prev ((links.delInit node).next other) = other := by
  have prev_next := linked.prev_next
  have next_prev := linked.next_prev
  simp only [Links.delInit, init, del, Function.update_apply]
  grind

theorem Linked.delInit (linked : links.Linked) (node : ν) : (links.delInit node).Linked :=
  ⟨linked.delInit_prev_next node, linked.flip.delInit_prev_next node⟩

theorem Linked.addTail (linked : links.Linked) (alone : links.next node = node)
    (ne : node ≠ head) : (links.addTail node head).Linked := by
  have prev_next := linked.prev_next
  have next_prev := linked.next_prev
  constructor <;> simp only [Links.addTail, add, Function.update_apply] <;> grind

theorem moveTail_eq (links : Links ν) (ne : node ≠ head) :
    links.moveTail node head = (links.delInit node).addTail node head := by
  have last : (links.delInit node).prev head =
      (links.del (links.prev node) (links.next node)).prev head :=
    Function.update_of_ne ne.symm ..
  rw [moveTail, addTail, addTail, last]
  refine congrArg₂ Links.mk ?_ ?_
  · unfold delInit init
    rw [Function.update_idem]
  · unfold delInit init
    rw [Function.update_comm ne, Function.update_idem]

end Linked

/-! ## Lists -/

variable {κ ω : Type*}

/-- The ring of each head has the members of its list, and other members are alone. -/
structure Rings (links : Links (κ ⊕ ω)) (lists : κ → List ω) : Prop where
  linked : links.Linked
  path : ∀ head, Path links.next (.inl head) ((lists head).map .inr) (.inl head)
  nodup : ∀ head, (lists head).Nodup
  unique : ∀ {member first second}, member ∈ lists first → member ∈ lists second → first = second
  single : ∀ member, (∀ head, member ∉ lists head) → links.next (.inr member) = .inr member

theorem rings_alone : Rings (alone : Links (κ ⊕ ω)) fun _ => [] where
  linked := ⟨fun _ => rfl, fun _ => rfl⟩
  path := fun _ => rfl
  nodup := fun _ => List.nodup_nil
  unique := fun member => absurd member List.not_mem_nil
  single := fun _ _ => rfl

section Rings

variable {links : Links (κ ⊕ ω)} {lists : κ → List ω}

theorem nodup_ring {head : κ} {list : List ω} (nodup : list.Nodup) :
    ((.inl head : κ ⊕ ω) :: list.map .inr).Nodup := by
  exact List.nodup_cons.2 ⟨by simp, nodup.map Sum.inr_injective⟩

theorem mem_ring {head : κ} {list : List ω} {member : ω}
    (mem : .inr member ∈ (.inl head : κ ⊕ ω) :: list.map .inr) : member ∈ list := by
  simpa using mem

theorem Rings.apart (rings : Rings links lists) {first second : κ} (ne : first ≠ second)
    {node : κ ⊕ ω} (mem : node ∈ .inl first :: (lists first).map .inr) :
    node ∉ .inl second :: (lists second).map .inr := by
  intro other_mem
  cases node with
  | inl head =>
      simp only [List.mem_cons, Sum.inl.injEq, List.mem_map, reduceCtorEq, and_false, exists_false,
        or_false] at mem other_mem
      exact ne (mem.symm.trans other_mem)
  | inr member => exact ne (rings.unique (mem_ring mem) (mem_ring other_mem))

theorem Rings.next_cons (rings : Rings links lists) {head : κ} {member : ω} {rest : List ω}
    (list_eq : lists head = member :: rest) : links.next (.inl head) = .inr member := by
  have path := rings.path head
  rw [list_eq] at path
  exact path.1

theorem Rings.next_nil (rings : Rings links lists) {head : κ} (list_eq : lists head = []) :
    links.next (.inl head) = .inl head := by
  have path := rings.path head
  rwa [list_eq] at path

variable [DecidableEq κ] [DecidableEq ω]

theorem Rings.delInit (rings : Rings links lists) (member : ω) :
    Rings (links.delInit (.inr member)) fun head => (lists head).erase member where
  linked := rings.linked.delInit _
  nodup := fun head => (rings.nodup head).erase member
  unique := fun first second => rings.unique (List.mem_of_mem_erase first)
    (List.mem_of_mem_erase second)
  path := by
    intro head
    have next_eq : (links.delInit (.inr member)).next = Function.update (Function.update links.next
      (links.prev (.inr member)) (links.next (.inr member))) (.inr member) (.inr member) := rfl
    rw [next_eq]
    have spared {list : List ω} (fresh : member ∉ list) {next : κ ⊕ ω → κ ⊕ ω}
        (path : Path next (.inl head) (list.map .inr) (.inl head)) :
        Path (Function.update next (.inr member) (.inr member)) (.inl head) (list.map .inr)
          (.inl head) := by
      refine path.congr fun node mem => Function.update_of_ne ?_ ..
      rintro rfl
      exact fresh (mem_ring mem)
    refine spared (rings.nodup head).not_mem_erase ?_
    by_cases here : member ∈ lists head
    · obtain ⟨before, after, list_eq⟩ := List.append_of_mem here
      have nodup : ((.inl head : κ ⊕ ω) :: (lists head).map .inr).Nodup :=
        nodup_ring (rings.nodup head)
      have path := rings.path head
      rw [list_eq, List.map_append, List.map_cons] at path nodup
      obtain ⟨front, back⟩ := path_append.1 path
      obtain ⟨last, -, links_last, removed⟩ := front.remove back nodup
      have fresh : member ∉ before := fun mem => by
        have nodup := rings.nodup head
        rw [list_eq] at nodup
        exact (List.nodup_append.1 nodup).2.2 member mem member List.mem_cons_self rfl
      rw [← rings.linked.next_eq_iff.1 links_last, list_eq, List.erase_append_right _ fresh,
        List.erase_cons_head, List.map_append]
      exact removed
    · rw [List.erase_of_not_mem here]
      refine (rings.path head).congr fun node mem => Function.update_of_ne ?_ ..
      rintro rfl
      have next_mem := (rings.path head).next_mem mem
      rw [rings.linked.next_prev] at next_mem
      exact here (mem_ring (List.mem_cons.2 next_mem))
  single := by
    intro other none_mem
    have prev_next := rings.linked.prev_next
    have next_prev := rings.linked.next_prev
    have alone := rings.single other
    simp only [Links.delInit, init, del, Function.update_apply]
    grind

theorem Rings.addTail (rings : Rings links lists) {member : ω}
    (fresh : ∀ head, member ∉ lists head) (target : κ) :
    Rings (links.addTail (.inr member) (.inl target))
      (Function.update lists target (lists target ++ [member])) where
  linked := rings.linked.addTail (rings.single member fresh) Sum.inr_ne_inl
  nodup := by
    intro head
    have nodup := rings.nodup head
    rw [Function.update_apply]
    grind
  unique := by
    intro other first second
    have unique := @rings.unique
    simp only [Function.update_apply]
    grind
  path := by
    intro head
    have next_eq : (links.addTail (.inr member) (.inl target)).next = Function.update
      (Function.update links.next (.inr member) (.inl target)) (links.prev (.inl target))
      (.inr member) := rfl
    rw [next_eq]
    obtain ⟨last, last_mem, links_last, redirects⟩ :=
      (rings.path target).exists_last (nodup_ring (rings.nodup target))
    rw [← rings.linked.next_eq_iff.1 links_last]
    have member_ne : ∀ {other}, ∀ node ∈ (.inl other : κ ⊕ ω) :: (lists other).map .inr,
        node ≠ .inr member := by
      rintro other _ mem rfl
      exact fresh other (mem_ring mem)
    by_cases same : head = target
    · rw [same, Function.update_self, List.map_append]
      refine path_append.2 ⟨(redirects (.inr member)).congr fun node mem => ?_, ?_⟩
      · simp only [Function.update_apply, if_neg (member_ne node mem)]
      · show Function.update _ _ _ _ = _
        rw [Function.update_of_ne (member_ne last last_mem).symm, Function.update_self]
    · rw [Function.update_of_ne same]
      refine (rings.path head).congr fun node mem => ?_
      rw [Function.update_of_ne, Function.update_of_ne (member_ne node mem)]
      rintro rfl
      exact rings.apart same mem last_mem
  single := by
    intro other none_mem
    have prev_next := rings.linked.prev_next
    have next_prev := rings.linked.next_prev
    have alone := rings.single other
    simp only [Function.update_apply] at none_mem
    have not_target := none_mem target
    simp only [Links.addTail, add, Function.update_apply]
    grind

theorem Rings.moveTail (rings : Rings links lists) (member : ω) (target : κ) :
    Rings (links.moveTail (.inr member) (.inl target))
      (Function.update (fun head => (lists head).erase member) target
        ((lists target).erase member ++ [member])) := by
  rw [links.moveTail_eq Sum.inr_ne_inl]
  exact (rings.delInit member).addTail (fun head => (rings.nodup head).not_mem_erase) target

end Rings

end Links

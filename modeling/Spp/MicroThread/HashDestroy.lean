import Spp.Lib.Loop
import Spp.MicroThread.HashListRun

/-!
# The destructors of the managers

`~TcpKeepMgr` and `~CNetMgr` delete the keys of their hash tables as long as `HashGetFirst` gives
one.  They do not call `HashRemove`, so a key leaves the table only if its own destructor takes it
out.

To delete a key twice is a failure (`none`).
-/

namespace Spp.HashList

open LinkedChain

variable {ι : Type} [DecidableEq ι]

/-- `HashGetFirst` -/
def hashGetFirst (list : HashList ι) : Option ι := (List.range list.max).findSome? list.buckets

/-- A round of the loops, with the keys that are deleted already; `destructor` is what the
destructor of a key does to the table. -/
def destroyRound {τ : Type} (table : τ → HashList ι) (destructor : τ → ι → Option τ)
    (state : τ × List ι) : Option (List ι ⊕ τ × List ι) :=
  match (table state.1).hashGetFirst with
  | none => some (.inl state.2)
  | some key =>
      if key ∈ state.2 then
        none
      else do
        let after ← destructor state.1 key
        return .inr (after, state.2 ++ [key])

/-- The loop of `~TcpKeepMgr` and the first one of `~CNetMgr`: neither `~TcpKeepKey` nor
`~CDestLinks` changes the table. -/
def destroyKeys (rounds : Nat) (list : HashList ι) : Option (List ι) :=
  loopFor (destroyRound id fun list _ => some list) rounds (list, [])

/-- `_session_hash`, with `STATE_IN_SESSION` of each handler. -/
structure Sessions (ι : Type) where
  list : HashList ι
  inSession : ι → Bool

/-- `RegistSession` -/
def Sessions.registSession (sessions : Sessions ι) (keys : Keys ι) (rounds : Nat) (key : ι) :
    Option (Bool × Sessions ι) := do
  match ← sessions.list.hashFind rounds (keys.value key) (keys.equal key) with
  | some _ => return (false, sessions)
  | none =>
      return (true, ⟨(sessions.list.hashInsert keys.value (some key)).2,
        Function.update sessions.inSession key true⟩)

/-- `UnRegistSession` -/
def Sessions.unRegistSession (sessions : Sessions ι) (keys : Keys ι) (rounds : Nat) (key : ι) :
    Option (Sessions ι) :=
  if sessions.inSession key then do
    match ← sessions.list.hashFind rounds (keys.value key) (keys.equal key) with
    | none => return { sessions with inSession := Function.update sessions.inSession key false }
    | some handler =>
        let list ← sessions.list.hashRemove rounds (keys.value handler) (keys.equal handler)
        return ⟨list, Function.update sessions.inSession key false⟩
  else
    some sessions

/-- `Destroy` -/
def Sessions.destroy (sessions : Sessions ι) (keys : Keys ι) (searches rounds : Nat) :
    Option (List ι) :=
  loopFor (destroyRound Sessions.list fun sessions key =>
    sessions.unRegistSession keys searches key)
    rounds (sessions, [])

/-- `~CNetMgr`: the keys of `_ip_hash` and the handlers of `_session_hash` that are deleted. -/
def destroyNetMgr {κ : Type} [DecidableEq κ] (ipHash : HashList κ) (sessions : Sessions ι)
    (keys : Keys ι) (searches rounds : Nat) : Option (List κ × List ι) := do
  let dests ← destroyKeys rounds ipHash
  let items ← sessions.destroy keys searches rounds
  return (dests, items)

/-- All are deleted, each once. -/
structure Once (list : HashList ι) (deleted : List ι) : Prop where
  nodup : deleted.Nodup
  mem_iff : ∀ key, key ∈ deleted ↔ list.Stored key

section Destroy

variable {keys : Keys ι} {list : HashList ι} {chains : Nat → List ι} {key : ι}

omit [DecidableEq ι] in
theorem hashGetFirst_cases (list : HashList ι) :
    (list.hashGetFirst = none ∧ ∀ key, ¬list.Stored key) ∨
      ∃ key, list.hashGetFirst = some key ∧ list.Stored key := by
  cases found : list.hashGetFirst with
  | none =>
      refine Or.inl ⟨rfl, fun key stored => ?_⟩
      obtain ⟨idx, idx_lt, first, is_first, -⟩ := stored
      have no_key := List.findSome?_eq_none_iff.mp found idx (List.mem_range.mpr idx_lt)
      rw [no_key] at is_first
      cases is_first
  | some key =>
      obtain ⟨idx, member, first⟩ := List.exists_of_findSome?_eq_some found
      exact Or.inr ⟨key, rfl, idx, List.mem_range.mp member, key, first, Relation.ReflTransGen.refl⟩

/-- A table with keys: the second round deletes the key of the first one again. -/
theorem destroyKeys_twice (first : list.hashGetFirst = some key) (rounds : Nat) :
    destroyKeys rounds list = none := by
  have again : ∀ rounds,
      loopFor (destroyRound id fun list _ => some list) rounds (list, [key]) = none := by
    intro rounds
    cases rounds with
    | zero => rfl
    | succ rounds =>
        rw [loopFor, destroyRound, id, first]
        simp
  cases rounds with
  | zero => rfl
  | succ rounds =>
      rw [destroyKeys, loopFor, destroyRound, id, first]
      exact again rounds

theorem destroyKeys_empty (empty : ∀ key, ¬list.Stored key) (rounds : Nat) :
    destroyKeys (rounds + 1) list = some [] ∧ Once list [] := by
  obtain ⟨no_first, -⟩ | ⟨key, -, stored⟩ := hashGetFirst_cases list
  · refine ⟨?_, List.nodup_nil, fun key => ?_⟩
    · rw [destroyKeys, loopFor, destroyRound, id, no_first]
      rfl
    · exact ⟨fun member => absurd member List.not_mem_nil, fun stored => absurd stored (empty key)⟩
  · exact absurd stored (empty key)

theorem destroyKeys_iff (list : HashList ι) :
    (∃ rounds deleted, destroyKeys rounds list = some deleted ∧ Once list deleted) ↔
      ∀ key, ¬list.Stored key := by
  constructor
  · rintro ⟨rounds, deleted, returns, -⟩
    obtain ⟨-, empty⟩ | ⟨key, first, -⟩ := hashGetFirst_cases list
    · exact empty
    · rw [destroyKeys_twice first] at returns
      cases returns
  · intro empty
    exact ⟨1, [], destroyKeys_empty empty 0⟩

omit [DecidableEq ι] in
theorem Valid.length_le (valid : Valid list chains) (hash : UInt32) :
    ((chains (list.slot hash)).length : Int) ≤ list.count := by
  rw [valid.count_eq, Nat.cast_le]
  exact Finset.single_le_sum (fun idx _ => Nat.zero_le (chains idx).length)
    (Finset.mem_range.mpr (valid.slot_lt hash))

omit [DecidableEq ι] in
theorem Valid.count_pos (valid : Valid list chains) (stored : list.Stored key) :
    0 < list.count := by
  obtain ⟨idx, member⟩ := (valid.stored_iff key).mp stored
  have le := valid.length_le (list.hashValue key)
  rw [← valid.placed idx key member] at le
  have pos := List.length_pos_of_mem member
  omega

end Destroy

/-! ## Sessions -/

section Sessions

variable {keys : Keys ι} {sessions after : Sessions ι} {chains : Nat → List ι} {key : ι}
  {rounds : Nat}

/-- Handlers register and leave, and the searches in the table run to their end. -/
def Sessions.Steps (keys : Keys ι) (before after : Sessions ι) : Prop :=
  ∃ (rounds : Nat) (key : ι), before.list.count < rounds ∧
    ((∃ ret, before.registSession keys rounds key = some (ret, after)) ∨
      before.unRegistSession keys rounds key = some after)

/-- Runs from a table without sessions. -/
def Sessions.Reaches (keys : Keys ι) (max : Int) (sessions : Sessions ι) : Prop :=
  Relation.ReflTransGen (Sessions.Steps keys) ⟨new max, fun _ => false⟩ sessions

/-- The handlers of the table have their flag, and no two of them are equal. -/
structure Sessions.Holds (keys : Keys ι) (sessions : Sessions ι) (chains : Nat → List ι) :
    Prop where
  table : HashList.Holds keys sessions.list chains
  flagged : ∀ key, sessions.list.Stored key → sessions.inSession key = true
  distinct : ∀ item key, sessions.list.Stored item → sessions.list.Stored key →
    keys.cmp item key = 0 → item = key

omit [DecidableEq ι] in
theorem Sessions.Holds.enough (holds : sessions.Holds keys chains)
    (searches : sessions.list.count < rounds) (key : ι) :
    (chains (sessions.list.slot (keys.value key))).length < rounds := by
  have le := holds.table.valid.length_le (keys.value key)
  omega

theorem Sessions.Holds.unRegistSession (holds : sessions.Holds keys chains)
    (same : Equivalence fun item key => keys.cmp item key = 0)
    (searches : sessions.list.count < rounds) (key : ι) :
    ∃ after later, sessions.unRegistSession keys rounds key = some after ∧ after.Holds keys later ∧
      (sessions.list.Stored key → after.list.count = sessions.list.count - 1 ∧
        ∀ other, after.list.Stored other ↔ sessions.list.Stored other ∧ other ≠ key) := by
  rw [Sessions.unRegistSession]
  by_cases flag : sessions.inSession key = true
  · obtain ⟨result, finds, found_stored, found⟩ := holds.table.find key (holds.enough searches key)
    rw [if_pos flag, finds]
    cases result with
    | none =>
        have not_stored : ¬sessions.list.Stored key :=
          fun stored => found ⟨key, stored, same.refl key⟩ rfl
        refine ⟨_, chains, rfl, ⟨holds.table, fun other stored => ?_, holds.distinct⟩,
          fun stored => absurd stored not_stored⟩
        have ne : other ≠ key := fun is_key => not_stored (is_key ▸ stored)
        exact (Function.update_of_ne ne _ _).trans (holds.flagged other stored)
    | some handler =>
        obtain ⟨handler_stored, equal⟩ := found_stored handler rfl
        obtain ⟨list, later, removes, table,
          ⟨item, ⟨item_stored, item_equal⟩, count_eq, stored_iff⟩ |
          ⟨none_equal, -⟩⟩ := holds.table.remove handler
        · cases holds.distinct item handler item_stored handler_stored item_equal
          have key_eq : sessions.list.Stored key → key = handler := fun stored =>
            (holds.distinct handler key handler_stored stored equal).symm
          simp only [Option.bind_eq_bind, Option.bind_some,
            removes rounds (holds.enough searches handler)]
          refine ⟨_, later, rfl,
            ⟨table, fun other stored => ?_, fun first second stored also => ?_⟩,
            fun stored => ?_⟩
          · obtain ⟨was_stored, ne⟩ := (stored_iff other).mp stored
            have ne_key : other ≠ key := by
              intro is_key
              exact ne (is_key.trans (key_eq (is_key ▸ was_stored)))
            exact (Function.update_of_ne ne_key _ _).trans (holds.flagged other was_stored)
          · exact holds.distinct first second ((stored_iff first).mp stored).1
              ((stored_iff second).mp also).1
          · cases key_eq stored
            exact ⟨count_eq, stored_iff⟩
        · exact absurd (same.refl handler) (none_equal handler handler_stored)
  · exact ⟨sessions, chains, if_neg flag, holds,
      fun stored => absurd (holds.flagged key stored) flag⟩

theorem Sessions.Holds.registSession (holds : sessions.Holds keys chains)
    (same : Equivalence fun item key => keys.cmp item key = 0)
    (searches : sessions.list.count < rounds) {ret : Bool}
    (regists : sessions.registSession keys rounds key = some (ret, after)) :
    ∃ later, after.Holds keys later := by
  obtain ⟨result, finds, -, found⟩ := holds.table.find key (holds.enough searches key)
  rw [Sessions.registSession, finds] at regists
  cases result with
  | some handler =>
      cases regists
      exact ⟨chains, holds⟩
  | none =>
      cases regists
      have none_equal : ∀ item, sessions.list.Stored item → keys.cmp item key ≠ 0 :=
        fun item stored equal => found ⟨item, stored, equal⟩ rfl
      have not_stored : ¬sessions.list.Stored key := fun stored =>
        none_equal key stored (same.refl key)
      obtain ⟨list, later, inserts, table, stored_iff⟩ := holds.table.insert_new not_stored
      simp only [inserts]
      refine ⟨later, table, fun other stored => ?_, fun item other stored also equal => ?_⟩
      · rcases (stored_iff other).mp stored with stored | rfl
        · have ne : other ≠ key := fun is_key => not_stored (is_key ▸ stored)
          exact (Function.update_of_ne ne _ _).trans (holds.flagged other stored)
        · exact Function.update_self ..
      · have distinct := holds.distinct item other
        have symm := same.symm equal
        grind

theorem Sessions.Reaches.holds {max : Int}
    (same : Equivalence fun item key => keys.cmp item key = 0)
    (reaches : sessions.Reaches keys max) :
    ∃ chains, sessions.Holds keys chains := by
  induction reaches with
  | refl =>
      have empty : ∀ key : ι, ¬(new max : HashList ι).Stored key := by
        intro key stored
        obtain ⟨idx, member⟩ := ((valid_new max).stored_iff key).mp stored
        exact absurd member List.not_mem_nil
      exact ⟨fun _ => [], ⟨valid_new max, fun _ _ member => absurd member List.not_mem_nil⟩,
        fun key stored => absurd stored (empty key),
        fun item _ stored => absurd stored (empty item)⟩
  | tail _ step induction =>
      obtain ⟨chains, holds⟩ := induction
      obtain ⟨rounds, key, searches, ⟨ret, regists⟩ | leaves⟩ := step
      · exact holds.registSession same searches regists
      · obtain ⟨after, later, leaves_eq, after_holds, -⟩ := holds.unRegistSession same searches key
        cases leaves_eq.symm.trans leaves
        exact ⟨later, after_holds⟩

/-- Every handler is deleted once, as its destructor takes it out of the table. -/
theorem Sessions.Holds.destroy (holds : sessions.Holds keys chains)
    (same : Equivalence fun item key => keys.cmp item key = 0)
    (searches : sessions.list.count < rounds) :
    ∃ loops deleted, sessions.destroy keys rounds loops = some deleted ∧
      Once sessions.list deleted := by
  let inv (state : Sessions ι × List ι) : Prop :=
    (∃ chains, state.1.Holds keys chains) ∧ state.1.list.count < rounds ∧ state.2.Nodup ∧
      (∀ key ∈ state.2, ¬state.1.list.Stored key) ∧
      ∀ key, sessions.list.Stored key ↔ key ∈ state.2 ∨ state.1.list.Stored key
  have step : ∀ state, inv state →
      (∃ result, destroyRound Sessions.list
        (fun sessions key => sessions.unRegistSession keys rounds key) state = some (.inl result) ∧
          Once sessions.list result) ∨
        ∃ after, destroyRound Sessions.list
          (fun sessions key => sessions.unRegistSession keys rounds key) state = some (.inr after) ∧
            inv after ∧ after.1.list.count.toNat < state.1.list.count.toNat := by
    rintro ⟨current, deleted⟩ ⟨⟨chains, holds⟩, searches, nodup, gone, all⟩
    obtain ⟨no_first, empty⟩ | ⟨key, first, stored⟩ := hashGetFirst_cases current.list
    · refine Or.inl ⟨deleted, ?_, nodup, fun key => ?_⟩
      · rw [destroyRound, no_first]
      · rw [all key, or_iff_left (empty key)]
    · obtain ⟨after, later, leaves, after_holds, left⟩ := holds.unRegistSession same searches key
      obtain ⟨count_eq, stored_iff⟩ := left stored
      have fresh : key ∉ deleted := fun member => gone key member stored
      have count_pos : 0 < current.list.count := holds.table.valid.count_pos stored
      have searches : current.list.count < rounds := searches
      have count_eq : after.list.count = current.list.count - 1 := count_eq
      refine Or.inr ⟨(after, deleted ++ [key]), ?_, ⟨⟨later, after_holds⟩, ?_, ?_, ?_, ?_⟩, ?_⟩
      · rw [destroyRound, first]
        simp only [if_neg fresh, leaves, Option.bind_eq_bind, Option.bind_some]
        rfl
      · simp only
        omega
      · exact nodup.append (List.nodup_singleton key) (List.disjoint_singleton.mpr fresh)
      · intro other member still
        obtain ⟨stored, ne⟩ := (stored_iff other).mp still
        rcases List.mem_append.mp member with member | member
        · exact gone other member stored
        · exact ne (List.mem_singleton.mp member)
      · intro other
        rw [all other, stored_iff other, List.mem_append, List.mem_singleton]
        by_cases is_key : other = key
        · simp [is_key, stored]
        · simp [is_key]
      · simp only
        omega
  exact loopFor_returns
    (measure fun state : Sessions ι × List ι => state.1.list.count.toNat).wf step
    (sessions, []) ⟨⟨chains, holds⟩, searches, List.nodup_nil,
      fun key member => absurd member List.not_mem_nil, fun key => by simp⟩

/-- `~TcpKeepMgr` deletes every key once if and only if there is none, and `~CNetMgr` deletes every
destination and every handler once if and only if there is no destination. -/
theorem destructors_iff {κ ν : Type} [DecidableEq κ] [DecidableEq ν] (keepHash : HashList κ)
    (ipHash : HashList ν) {max : Int} (same : Equivalence fun item key => keys.cmp item key = 0)
    (reaches : sessions.Reaches keys max) :
    ((∃ rounds deleted, destroyKeys rounds keepHash = some deleted ∧ Once keepHash deleted) ↔
      ∀ key, ¬keepHash.Stored key) ∧
    ((∃ searches rounds dests items,
      destroyNetMgr ipHash sessions keys searches rounds = some (dests, items) ∧
        Once ipHash dests ∧ Once sessions.list items) ↔ ∀ key, ¬ipHash.Stored key) := by
  refine ⟨destroyKeys_iff keepHash, ?_⟩
  constructor
  · rintro ⟨searches, rounds, dests, items, returns, once, -⟩
    obtain ⟨found, destroys, rest⟩ := Option.bind_eq_some_iff.mp returns
    obtain ⟨others, -, pair_eq⟩ := Option.bind_eq_some_iff.mp rest
    cases pair_eq
    exact (destroyKeys_iff ipHash).mp ⟨rounds, dests, destroys, once⟩
  · intro empty
    obtain ⟨chains, holds⟩ := reaches.holds same
    have searches : sessions.list.count < (sessions.list.count + 1).toNat := by omega
    obtain ⟨rounds, items, destroys, once⟩ := holds.destroy same searches
    cases rounds with
    | zero => cases destroys
    | succ rounds =>
        obtain ⟨keys_destroys, keys_once⟩ := destroyKeys_empty empty rounds
        refine ⟨(sessions.list.count + 1).toNat, rounds + 1, [], items, ?_, keys_once, once⟩
        rw [destroyNetMgr, keys_destroys, destroys]
        rfl

end Sessions

/-- The table with the key whose value is 3. -/
def oneKey : HashList Bool := ((new 3).hashInsert zeroKeys.value (some false)).2

theorem stored_oneKey : oneKey.Stored false :=
  ⟨0, by decide +kernel, false, by decide +kernel, Relation.ReflTransGen.refl⟩

/-- A handler in the session table, and the other tables are empty. -/
theorem destructors_iff_handler :
    ∃ sessions : Sessions Bool, sessions.Reaches zeroKeys 3 ∧ sessions.list.Stored false ∧
      ∃ searches rounds dests items,
        destroyNetMgr (new 3 : HashList Unit) sessions zeroKeys searches rounds =
          some (dests, items) ∧
          Once (new 3 : HashList Unit) dests ∧ Once sessions.list items := by
  have reaches : Sessions.Reaches zeroKeys 3
      ⟨oneKey, Function.update (fun _ => false) false true⟩ :=
    Relation.ReflTransGen.single ⟨1, false, by decide, Or.inl ⟨true, rfl⟩⟩
  have same : Equivalence fun item key => zeroKeys.cmp item key = 0 := by
    refine ⟨?_, ?_, ?_⟩ <;> decide
  have empty : ∀ key, ¬(new 3 : HashList Unit).Stored key := by
    rintro key ⟨idx, -, first, is_first, -⟩
    cases is_first
  exact ⟨_, reaches, stored_oneKey,
    (destructors_iff (new 3 : HashList Unit) (new 3 : HashList Unit) same reaches).2.mpr empty⟩

/-- A table with one key: the key is still in the table after it is deleted, and the next round
deletes it again. -/
theorem destroyKeys_oneKey :
    SafeReaches zeroKeys 3 oneKey ∧ oneKey.Stored false ∧
      destroyRound id (fun list _ => some list) (oneKey, []) = some (.inr (oneKey, [false])) ∧
      destroyRound id (fun list _ => some list) (oneKey, [false]) = none ∧
      ∀ rounds, destroyKeys rounds oneKey = none := by
  have first : oneKey.hashGetFirst = some false := by decide +kernel
  refine ⟨?_, stored_oneKey, ?_, ?_, destroyKeys_twice first⟩
  · exact Relation.ReflTransGen.single
      ⟨.insert false, fun _ zero => absurd zero (by decide), rfl, by decide⟩
  · rw [destroyRound, id, first]
    rfl
  · rw [destroyRound, id, first]
    rfl

end Spp.HashList

import Mathlib.Data.List.Nodup
import Spp.Lib.Executions
import Spp.Lib.MachineInt

/-!
# The pool of threads, `ThreadPool`

`sync_frame/micro_thread/micro_thread.cpp`: `AllocThread` takes the thread that is free for the
longest time or makes a new one, and `FreeThread` puts a thread back and then destroys the one that
is free for the longest time if there are too many.  A thread that ends frees itself and still runs
on its stack, so it must not be the one that is destroyed.

Threads are pointers of a type `ι`; `new` gives one that is neither free nor handed out.
-/

namespace Spp

variable {ι : Type} [DecidableEq ι]

/-- `ThreadPool` -/
structure ThreadPool (ι : Type) where
  freelist : List ι
  totalNum : Int
  useNum : Int
  maxNum : Int
  freeFlag : ι → Bool

namespace ThreadPool

/-- A round of `InitialPool`: the thread that `new` makes, and whether its `Initial` succeeds. -/
def initialRound (pool : ThreadPool ι) (made : ι × Bool) : ThreadPool ι :=
  if made.2 then
    { pool with
      freeFlag := Function.update pool.freeFlag made.1 true
      freelist := pool.freelist ++ [made.1] }
  else pool

/-- `InitialPool`, with the threads of the `default_thread_num` rounds. -/
def initialPool (made : List (ι × Bool)) (maxNum : Int) : Bool × ThreadPool ι :=
  let pool := made.foldl initialRound ⟨[], 0, 0, 0, fun _ => false⟩
  let totalNum := i32 pool.freelist.length
  (0 < totalNum, { pool with totalNum, maxNum, useNum := 0 })

/-- `AllocThread`; `made` is the thread that `new` makes. -/
def allocThread (pool : ThreadPool ι) (made : ι) (initial : Bool) : Option ι × ThreadPool ι :=
  match pool.freelist with
  | thread :: freelist =>
      (some thread, { pool with
        freelist
        freeFlag := Function.update pool.freeFlag thread false
        useNum := pool.useNum + 1 })
  | [] =>
      if pool.maxNum ≤ pool.totalNum then (none, pool)
      else if initial then
        (some made, { pool with
          freeFlag := Function.update pool.freeFlag made false
          totalNum := pool.totalNum + 1
          useNum := pool.useNum + 1 })
      else (none, pool)

/-- `FreeThread`: the thread that it destroys, and the pool after it. -/
def freeThread (defaultThreadNum : Nat) (pool : ThreadPool ι) (thread : ι) :
    Option ι × ThreadPool ι :=
  let pushed := { pool with
    useNum := pool.useNum - 1
    freelist := pool.freelist ++ [thread]
    freeFlag := Function.update pool.freeFlag thread true }
  let freeNum := u32 pushed.freelist.length
  if defaultThreadNum < freeNum ∧ 1 < freeNum then
    (pushed.freelist.head?, { pushed with
      freelist := pushed.freelist.tail
      totalNum := pushed.totalNum - 1 })
  else (none, pushed)

end ThreadPool

/-- A call; `SetDefaultThreadNum` may come at any time. -/
inductive PoolEvent (ι : Type)
  | alloc (made : ι) (initial : Bool)
  | free (thread : ι)
  | setDefaultThreadNum (num : Nat)

/-- The pool, with the threads that are handed out. -/
structure PoolRun (ι : Type) where
  pool : ThreadPool ι
  defaultThreadNum : Nat
  handed : List ι

namespace PoolRun

/-- After `InitialPool`. -/
def start (made : List (ι × Bool)) (maxNum : Int) : PoolRun ι :=
  ⟨(ThreadPool.initialPool made maxNum).2, made.length, []⟩

/-- The pool after a call. -/
def step (run : PoolRun ι) : PoolEvent ι → PoolRun ι
  | .alloc made initial =>
      let result := run.pool.allocThread made initial
      { run with pool := result.2, handed := result.1.toList ++ run.handed }
  | .free thread =>
      { run with
        pool := (run.pool.freeThread run.defaultThreadNum thread).2
        handed := run.handed.erase thread }
  | .setDefaultThreadNum num => { run with defaultThreadNum := num }

/-- `new` makes a new thread, and a thread that is freed is in use. -/
def Possible (run : PoolRun ι) : PoolEvent ι → Prop
  | .alloc made _ => made ∉ run.pool.freelist ∧ made ∉ run.handed
  | .free thread => thread ∈ run.handed
  | .setDefaultThreadNum _ => True

instance (run : PoolRun ι) : DecidablePred run.Possible
  | .alloc _ _ => inferInstanceAs (Decidable (_ ∧ _))
  | .free _ => inferInstanceAs (Decidable (_ ∈ _))
  | .setDefaultThreadNum _ => instDecidableTrue

/-- The numbers are right, no thread is free twice or free and handed out, and the free ones are
those with the flag. -/
structure Accounted (limit : Int) (run : PoolRun ι) : Prop where
  total : run.pool.totalNum = run.pool.useNum + run.pool.freelist.length
  used : run.pool.useNum = run.handed.length
  nodup : (run.pool.freelist ++ run.handed).Nodup
  flagged : ∀ thread ∈ run.pool.freelist, run.pool.freeFlag thread = true
  unflagged : ∀ thread ∈ run.handed, run.pool.freeFlag thread = false
  bounded : run.pool.totalNum ≤ limit
  maxNum_le : run.pool.maxNum ≤ limit

/-- `FreeThread` does not destroy the thread itself. -/
def Survives (run : PoolRun ι) : PoolEvent ι → Prop
  | .free thread => (run.pool.freeThread run.defaultThreadNum thread).1 ≠ some thread
  | _ => True

/-! ## The calls -/

variable {run : PoolRun ι} {limit : Int} {thread : ι} {totalNum maxNum : Int}

theorem Accounted.handOut (accounted : run.Accounted limit) {freelist : List ι}
    (total : totalNum = run.pool.useNum + 1 + freelist.length)
    (nodup : (thread :: (freelist ++ run.handed)).Nodup) (still : freelist ⊆ run.pool.freelist)
    (bounded : totalNum ≤ limit) :
    Accounted limit ⟨{ run.pool with
      freelist
      totalNum
      freeFlag := Function.update run.pool.freeFlag thread false
      useNum := run.pool.useNum + 1 }, run.defaultThreadNum, thread :: run.handed⟩ := by
  obtain ⟨new, -⟩ := List.nodup_cons.1 nodup
  have ne_of_mem : ∀ other ∈ freelist ++ run.handed, other ≠ thread := by
    rintro other member rfl
    exact new member
  refine ⟨total, ?_, List.perm_middle.nodup_iff.2 nodup, fun other member => ?_, ?_, bounded,
    accounted.maxNum_le⟩
  · simp only [accounted.used, List.length_cons, Nat.cast_succ]
  · simp only [Function.update_of_ne (ne_of_mem other (List.mem_append_left _ member))]
    exact accounted.flagged other (still member)
  · refine List.forall_mem_cons.2 ⟨Function.update_self .., fun other member => ?_⟩
    simp only [Function.update_of_ne (ne_of_mem other (List.mem_append_right _ member))]
    exact accounted.unflagged other member

theorem Accounted.alloc (accounted : run.Accounted limit) {made : ι}
    (fresh : made ∉ run.pool.freelist ∧ made ∉ run.handed) (initial : Bool) :
    (run.step (.alloc made initial)).Accounted limit := by
  have total := accounted.total
  have nodup := accounted.nodup
  simp only [step, ThreadPool.allocThread]
  split
  case h_1 thread freelist list_eq =>
    rw [list_eq] at total nodup
    refine accounted.handOut ?_ nodup ?_ accounted.bounded
    · rw [total, List.length_cons, Nat.cast_succ]
      ring
    · rw [list_eq]
      exact List.subset_cons_self thread freelist
  case h_2 list_eq =>
    split
    · exact accounted
    case isFalse room =>
      split
      · rw [list_eq] at total nodup
        have new : (made :: (run.pool.freelist ++ run.handed)).Nodup := by
          rw [list_eq]
          exact List.nodup_cons.2 ⟨fresh.2, nodup⟩
        have max_le := accounted.maxNum_le
        refine accounted.handOut ?_ new (List.Subset.refl _) (by omega)
        rw [total, list_eq]
        simp
      · exact accounted

theorem Accounted.putBack (accounted : run.Accounted limit) (member : thread ∈ run.handed) :
    Accounted limit ⟨{ run.pool with
      useNum := run.pool.useNum - 1
      freelist := run.pool.freelist ++ [thread]
      freeFlag := Function.update run.pool.freeFlag thread true }, run.defaultThreadNum,
      run.handed.erase thread⟩ := by
  have perm := List.perm_cons_erase member
  have total := accounted.total
  have used := accounted.used
  rw [perm.length_eq, List.length_cons, Nat.cast_succ] at used
  have nodup : (run.pool.freelist ++ [thread] ++ run.handed.erase thread).Nodup := by
    rw [List.append_assoc]
    exact (perm.append_left _).nodup_iff.1 accounted.nodup
  refine ⟨?_, ?_, nodup, fun other other_free => ?_, fun other other_handed => ?_,
    accounted.bounded, accounted.maxNum_le⟩
  · simp only [List.length_append, List.length_singleton, Nat.cast_add, Nat.cast_one]
    omega
  · dsimp only
    omega
  · obtain rfl | ne := eq_or_ne other thread
    · exact Function.update_self ..
    · simp only [Function.update_of_ne ne]
      refine accounted.flagged other ((List.mem_append.1 other_free).resolve_right ?_)
      exact fun last => ne (List.mem_singleton.1 last)
  · have ne : other ≠ thread := by
      rintro rfl
      exact (List.nodup_append'.1 nodup).2.2 (by simp) other_handed
    simp only [Function.update_of_ne ne]
    exact accounted.unflagged other (List.mem_of_mem_erase other_handed)

omit [DecidableEq ι] in
theorem Accounted.destroy (accounted : run.Accounted limit) (ne : run.pool.freelist ≠ []) :
    Accounted limit { run with pool := { run.pool with
      freelist := run.pool.freelist.tail
      totalNum := run.pool.totalNum - 1 } } := by
  obtain ⟨first, rest, list_eq⟩ := List.exists_cons_of_ne_nil ne
  have total := accounted.total
  have nodup := accounted.nodup
  have bounded := accounted.bounded
  rw [list_eq] at total nodup
  rw [List.length_cons, Nat.cast_succ] at total
  simp only [list_eq, List.tail_cons]
  refine ⟨?_, accounted.used, (List.nodup_cons.1 nodup).2, fun other member => ?_,
    accounted.unflagged, ?_, accounted.maxNum_le⟩
  · dsimp only
    omega
  · refine accounted.flagged other ?_
    rw [list_eq]
    exact List.mem_cons_of_mem first member
  · dsimp only
    omega

theorem Accounted.free (accounted : run.Accounted limit) (member : thread ∈ run.handed) :
    (run.step (.free thread)).Accounted limit := by
  have back := accounted.putBack member
  simp only [step, ThreadPool.freeThread]
  split
  · exact back.destroy (by simp)
  · exact back

/-- There is a thread that is free for a longer time than the one that was put back. -/
theorem Accounted.survives (accounted : run.Accounted limit) (member : thread ∈ run.handed) :
    run.Survives (.free thread) := by
  have not_free : thread ∉ run.pool.freelist := fun free =>
    (List.nodup_append'.1 accounted.nodup).2.2 free member
  simp only [Survives, ThreadPool.freeThread]
  split
  case isTrue many =>
    cases list_eq : run.pool.freelist with
    | nil =>
        rw [list_eq] at many
        exact absurd many.2 (lt_irrefl 1)
    | cons first rest =>
        rw [List.cons_append, List.head?_cons]
        rintro ⟨⟩
        exact not_free (list_eq ▸ List.mem_cons_self)
  case isFalse => exact (Option.some_ne_none thread).symm

/-! ## Runs -/

theorem foldl_initialRound (pool : ThreadPool ι) (made : List (ι × Bool)) :
    (made.foldl ThreadPool.initialRound pool).freelist =
      pool.freelist ++ (made.filter Prod.snd).map Prod.fst ∧
    ∀ thread, (made.foldl ThreadPool.initialRound pool).freeFlag thread = true ↔
      pool.freeFlag thread = true ∨ thread ∈ (made.filter Prod.snd).map Prod.fst := by
  induction made generalizing pool with
  | nil => simp
  | cons first made induction =>
      obtain ⟨list_eq, flag_iff⟩ := induction (pool.initialRound first)
      obtain ⟨thread, initial⟩ := first
      cases initial with
      | false =>
          refine ⟨list_eq.trans ?_, fun other => (flag_iff other).trans ?_⟩ <;>
            simp [ThreadPool.initialRound]
      | true =>
          refine ⟨list_eq.trans ?_, fun other => (flag_iff other).trans ?_⟩
          · simp [ThreadPool.initialRound]
          · obtain rfl | ne := eq_or_ne other thread
            · simp [ThreadPool.initialRound]
            · simp [ThreadPool.initialRound, ne]

omit [DecidableEq ι] in
theorem accounted_of_free {pool : ThreadPool ι} {defaultThreadNum : Nat}
    (nodup : pool.freelist.Nodup) (flagged : ∀ thread ∈ pool.freelist, pool.freeFlag thread = true)
    (total : totalNum = pool.freelist.length) :
    Accounted (max maxNum totalNum)
      ⟨{ pool with totalNum, maxNum, useNum := 0 }, defaultThreadNum, []⟩ where
  total := total.trans (Int.zero_add _).symm
  used := rfl
  nodup := by simpa using nodup
  flagged := flagged
  unflagged := fun _ member => absurd member List.not_mem_nil
  bounded := le_max_right ..
  maxNum_le := le_max_left ..

theorem start_accounted {made : List (ι × Bool)}
    (fresh : ((made.filter Prod.snd).map Prod.fst).Nodup) (few : made.length < 4294967296)
    (success : (ThreadPool.initialPool made maxNum).1 = true) :
    (start made maxNum).Accounted (max maxNum (start made maxNum).pool.totalNum) := by
  obtain ⟨list_eq, flag_iff⟩ := foldl_initialRound ⟨[], 0, 0, 0, fun _ => false⟩ made
  rw [List.nil_append] at list_eq
  simp only [start, ThreadPool.initialPool, decide_eq_true_eq] at success ⊢
  generalize made.foldl ThreadPool.initialRound ⟨[], 0, 0, 0, fun _ => false⟩ = pool at *
  have length_le : pool.freelist.length ≤ made.length := by
    rw [list_eq, List.length_map]
    exact List.length_filter_le ..
  refine accounted_of_free (list_eq ▸ fresh) (fun thread member => ?_)
    (i32_of_pos (length_le.trans_lt few) success)
  exact (flag_iff thread).2 (Or.inr (list_eq ▸ member))

/-- After `InitialPool` every call keeps the account, and no thread that is freed is destroyed. -/
theorem run_accounted {made : List (ι × Bool)} {maxNum : Int}
    (fresh : ((made.filter Prod.snd).map Prod.fst).Nodup) (few : made.length < 4294967296)
    (success : (ThreadPool.initialPool made maxNum).1 = true) {events : List (PoolEvent ι)}
    (possible : Executions.Along step Possible (start made maxNum) events) :
    let limit := max maxNum (start made maxNum).pool.totalNum
    (start made maxNum).Accounted limit ∧ Executions.Along step
      (fun run event => (run.step event).Accounted limit ∧ run.Survives event)
      (start made maxNum) events := by
  intro limit
  have accounted := start_accounted fresh few success
  refine ⟨accounted, ?_⟩
  have keeps : ∀ (run : PoolRun ι) event, run.Accounted limit → run.Possible event →
      (run.step event).Accounted limit ∧ run.Survives event := by
    intro run event accounted possible
    cases event with
    | alloc made initial => exact ⟨accounted.alloc possible initial, trivial⟩
    | free thread => exact ⟨accounted.free possible, accounted.survives possible⟩
    | setDefaultThreadNum num =>
        exact ⟨{ accounted with }, trivial⟩
  exact (Executions.along_iff
    (fun run event accounted possible => iff_of_true (keeps run event accounted possible) trivial)
    (fun run event accounted possible _ => (keeps run event accounted possible).1)
    accounted possible).2 (Executions.along_of_forall (fun _ _ => trivial) _ _)

/-- Two threads are made. -/
def twoMade : List (Nat × Bool) := [(0, true), (1, true)]

/-- Three are freed. -/
def threeFreed : List (PoolEvent Nat) :=
  [.alloc 2 true, .alloc 2 true, .alloc 2 true, .free 0, .free 2, .setDefaultThreadNum 1, .free 1]

theorem run_accounted_three : Executions.Along step
    (fun run event => (run.step event).Accounted (max 3 (start twoMade 3).pool.totalNum) ∧
      run.Survives event) (start twoMade 3) threeFreed := by
  have possible : Executions.Along step Possible (start twoMade 3) threeFreed := by
    decide
  have success : (ThreadPool.initialPool twoMade 3).1 = true := by
    decide
  exact (run_accounted (by decide) (by decide) success possible).2

end PoolRun

end Spp

import Spp.AsyncFrame.Frame

/-!
# What the calls of the frame are responsible for

An accepted message is with one call, or with the actions of a set that is under way, until it is
recycled.  An action of such a set is with one call, or with a handler of the network, until it has
ended.  A set has one owner: the call that makes it, the actions that are under way, the call that
asks its state for the next one, and at last `_pNeedDeleteAS`.  What loses its last owner is
deleted.

Each function takes what its caller was responsible for into its hands, and gives it to the calls
that it makes.
-/

namespace Spp.AsyncFrame

/-- What a call can be responsible for. -/
inductive Duty
  | message (msg : Nat)
  /-- The `Fini` callback of a message, which runs. -/
  | fini (msg : Nat)
  /-- An unfinished action of a set. -/
  | action (set : Nat)
  | owner (set : Nat)
  deriving DecidableEq

/-- What a call is responsible for. -/
def Call.load : Call → Multiset Duty
  | .init msg => {.message msg}
  | .stateEncode msg set => {.message msg, .owner set}
  | .loop set rest _ => .replicate rest.length (.action set)
  | .actionEncode set _ rest => .replicate (rest.length + 1) (.action set)
  | .network (some (set, rest)) => .replicate rest.length (.action set)
  | .failed set rest _ => .replicate rest.length (.action set)
  | .actionEnd set => {.action set}
  | .stateProcess msg set => {.message msg, .owner set}
  | .fini msg => {.message msg, .fini msg}
  | .overload _ | .network none | .expiring _ _ => 0

namespace CAsyncFrame

variable {config : Config} {frame after : CAsyncFrame} {call : Call} {msg set action : Nat}
  {rest : List Call} {hands duties total : Multiset Duty} {held running left owns : Nat → Nat}

/-- The sets of a message that are under way. -/
def underWay (frame : CAsyncFrame) (msg : Nat) : Nat :=
  frame.working.countP fun set => (frame.sets set).msg = msg

/-- The unfinished actions of a set, with those that calls are responsible for. -/
def unfinished (frame : CAsyncFrame) (left : Nat → Nat) (set : Nat) : Nat :=
  (frame.network.countP fun entry => entry.1 = set) + left set

/-- The owners of a set, with the calls. -/
def owners (frame : CAsyncFrame) (owns : Nat → Nat) (set : Nat) : Nat :=
  owns set + frame.working.count set + frame.needDelete.toList.count set

/-- Every message is in one place; `held` are with calls, and the `Fini` callback runs for some. -/
structure Messages (config : Config) (frame : CAsyncFrame) (held running : Nat → Nat) : Prop where
  places : ∀ msg, held msg + frame.underWay msg + frame.recycled.count msg =
    frame.accepted.count msg
  given : frame.accepted.Nodup ∧ frame.accepted ⊆ frame.given
  requests : frame.requestCount + frame.recycled.length = frame.accepted.length
  limit : config.overloadLimit > 0 → frame.requestCount ≤ config.overloadLimit
  no_overflow : frame.requestCount ≤ 2147483647
  /-- A message that has come to its end is recycled, or its `Fini` callback runs. -/
  ended : ∀ msg, frame.ended.count msg = frame.recycled.count msg + running msg
  finis : ∀ msg, frame.finis.count msg = if config.hasFini then frame.ended.count msg else 0

/-- The actions of the sets that are under way have ended, or they are unfinished. -/
structure Actions (frame : CAsyncFrame) (left : Nat → Nat) : Prop where
  working : ∀ set ∈ frame.working, 0 < frame.unfinished left set ∧
    (frame.sets set).finished + frame.unfinished left set = (frame.sets set).actions.length
  idle : ∀ set ∉ frame.working, frame.unfinished left set = 0

/-- A set has one owner at most, and one with an owner is not deleted. -/
structure Owned (frame : CAsyncFrame) (owns : Nat → Nat) : Prop where
  once : ∀ set, frame.owners owns set ≤ 1
  alive : ∀ set, 0 < frame.owners owns set → frame.alive set = true ∧ set < frame.made

theorem count_cons_ite (list : List Nat) (first other : Nat) :
    (first :: list).count other = list.count other + if other = first then 1 else 0 := by
  rw [List.count_cons]
  simp only [beq_iff_eq, eq_comm (a := first)]

/-! ## Messages -/

theorem Messages.accept (messages : Messages config frame held running) (fresh : msg ∉ frame.given)
    (room : config.overloadLimit > 0 → frame.requestCount < config.overloadLimit)
    (few : frame.requestCount < 2147483647) :
    Messages config { frame with
      given := msg :: frame.given
      accepted := msg :: frame.accepted
      requestCount := frame.requestCount + 1 }
      (fun other => held other + if other = msg then 1 else 0) running :=
  { messages with
    places := fun other => by
      rw [count_cons_ite, ← messages.places other, Nat.add_right_comm _ (ite ..),
        Nat.add_right_comm _ (ite ..)]
      rfl
    given := by
      obtain ⟨nodup, known⟩ := messages.given
      exact ⟨List.nodup_cons.2 ⟨fun member => fresh (known member), nodup⟩,
        List.cons_subset_cons msg known⟩
    requests := by
      have requests := messages.requests
      simp only [List.length_cons]
      push_cast
      omega
    limit := fun positive => room positive
    no_overflow := few }

/-- A message comes to its end, and the `Fini` callback is called if there is one. -/
theorem Messages.ends (messages : Messages config frame held running) (msg : Nat) :
    Messages config { frame with
      ended := msg :: frame.ended
      finis := if config.hasFini then msg :: frame.finis else frame.finis } held
      fun other => running other + if other = msg then 1 else 0 :=
  { messages with
    ended := fun other => by
      simp only [count_cons_ite, messages.ended other]
      omega
    finis := fun other => by
      have finis := messages.finis other
      dsimp only
      cases has_fini : config.hasFini with
      | false => simpa [has_fini] using finis
      | true => simpa [has_fini, List.count_cons] using finis }

theorem Messages.recycle (messages : Messages config frame
      (fun other => held other + if other = msg then 1 else 0)
      fun other => running other + if other = msg then 1 else 0) :
    Messages config (frame.recycle msg) held running :=
  { messages with
    places := fun other => by
      have places := messages.places other
      change held other + frame.underWay other + (msg :: frame.recycled).count other =
        frame.accepted.count other
      rw [count_cons_ite]
      omega
    requests := by
      have requests := messages.requests
      simp only [CAsyncFrame.recycle, List.length_cons]
      push_cast
      omega
    limit := fun positive => by
      have limit := messages.limit positive
      simp only [CAsyncFrame.recycle]
      omega
    no_overflow := by
      have few := messages.no_overflow
      simp only [CAsyncFrame.recycle]
      omega
    ended := fun other => by
      have ended := messages.ended other
      simp only [CAsyncFrame.recycle, count_cons_ite]
      omega }

/-- The messages of the sets that are under way stay, with one more. -/
theorem Messages.start (messages : Messages config frame
      (fun other => held other + if other = (frame.sets set).msg then 1 else 0) running) :
    Messages config { frame with working := set :: frame.working } held running :=
  { messages with
    places := fun other => by
      have places := messages.places other
      simp only [underWay, List.countP_cons, decide_eq_true_eq] at places ⊢
      grind }

theorem Messages.release (messages : Messages config frame held running)
    (member : set ∈ frame.working) :
    Messages config { frame with working := frame.working.erase set }
      (fun other => held other + if other = (frame.sets set).msg then 1 else 0) running :=
  { messages with
    places := fun other => by
      have places := messages.places other
      rw [underWay, (List.perm_cons_erase member).countP_eq] at places
      simp only [underWay, List.countP_cons, decide_eq_true_eq] at places ⊢
      grind }

theorem Messages.setSet (messages : Messages config frame held running) (value : CActionSet)
    (same : set ∈ frame.working → value.msg = (frame.sets set).msg) :
    Messages config (frame.setSet set value) held running :=
  { messages with
    places := fun other => by
      have under_eq : (frame.setSet set value).underWay other = frame.underWay other := by
        refine List.countP_congr fun one member => ?_
        obtain rfl | ne := eq_or_ne one set
        · simp [CAsyncFrame.setSet, same member]
        · simp [CAsyncFrame.setSet, Function.update_of_ne ne]
      rw [under_eq]
      exact messages.places other }

/-! ## Actions -/

theorem Actions.mem_working (actions : Actions frame left)
    (positive : 0 < frame.unfinished left set) : set ∈ frame.working := by
  by_contra not_working
  exact Nat.ne_of_gt positive (actions.idle set not_working)

theorem Actions.start (actions : Actions frame left) (idle : set ∉ frame.working)
    (none_finished : (frame.sets set).finished = 0) (nonempty : (frame.sets set).actions ≠ []) :
    Actions { frame with working := set :: frame.working }
      fun other => left other + if set = other then (frame.sets set).actions.length else 0 where
  working other member := by
    have none_left := actions.idle set idle
    have positive := List.length_pos_of_ne_nil nonempty
    simp only [unfinished] at none_left ⊢
    obtain rfl | old := List.mem_cons.1 member
    · rw [if_pos rfl]
      omega
    · have ne : set ≠ other := by
        rintro rfl
        exact idle old
      rw [if_neg ne]
      exact actions.working other old
  idle other not_member := by
    rw [List.mem_cons, not_or] at not_member
    rw [unfinished, if_neg (Ne.symm not_member.1)]
    exact actions.idle other not_member.2

theorem Actions.congr {network : List (Nat × Nat)} {owed : Nat → Nat} (actions : Actions frame left)
    (same : ∀ other, unfinished { frame with network } owed other = frame.unfinished left other) :
    Actions { frame with network } owed where
  working other member := by
    rw [same]
    exact actions.working other member
  idle other not_member := by
    rw [same]
    exact actions.idle other not_member

theorem Actions.toNetwork (actions : Actions frame
      fun other => left other + if other = set then 1 else 0) (action : Nat) :
    Actions { frame with network := (set, action) :: frame.network } left := by
  refine actions.congr fun other => ?_
  simp only [unfinished, List.countP_cons, decide_eq_true_eq, eq_comm (a := set)]
  omega

theorem Actions.fromNetwork (actions : Actions frame left)
    (member : (set, action) ∈ frame.network) :
    Actions { frame with network := frame.network.erase (set, action) }
      fun other => left other + if other = set then 1 else 0 := by
  refine actions.congr fun other => ?_
  have split := (List.perm_cons_erase member).countP_eq fun entry : Nat × Nat => entry.1 = other
  simp only [unfinished, split, List.countP_cons, decide_eq_true_eq, eq_comm (a := set)]
  omega

theorem Actions.setIdle (actions : Actions frame left) (value : CActionSet)
    (idle : set ∉ frame.working) : Actions (frame.setSet set value) left where
  working other member := by
    have ne : other ≠ set := by
      rintro rfl
      exact idle member
    simp only [CAsyncFrame.setSet, Function.update_of_ne ne]
    exact actions.working other member
  idle := actions.idle

/-- An action of a set has ended; it was not the last one. -/
theorem Actions.countFinished
    (actions : Actions frame fun other => left other + if other = set then 1 else 0)
    (more : (frame.sets set).actions.length ≠ (frame.sets set).finished + 1) :
    Actions (frame.setSet set
      { frame.sets set with finished := (frame.sets set).finished + 1 }) left where
  working other member := by
    have working := actions.working other member
    simp only [unfinished] at working ⊢
    obtain rfl | ne := eq_or_ne other set
    · simp only [CAsyncFrame.setSet, Function.update_self, if_true] at working ⊢
      omega
    · simpa only [CAsyncFrame.setSet, Function.update_of_ne ne, if_neg ne, add_zero] using working
  idle other not_member := by
    have idle := actions.idle other not_member
    simp only [unfinished] at idle
    change (frame.network.countP fun entry => entry.1 = other) + left other = 0
    omega

/-- The last action of a set has ended. -/
theorem Actions.release
    (actions : Actions frame fun other => left other + if other = set then 1 else 0)
    (nodup : frame.working.Nodup)
    (last : (frame.sets set).actions.length = (frame.sets set).finished + 1) :
    Actions { frame with working := frame.working.erase set } left where
  working other member := by
    obtain ⟨ne, old⟩ := nodup.mem_erase_iff.1 member
    have working := actions.working other old
    simpa only [unfinished, if_neg ne, add_zero] using working
  idle other not_member := by
    rw [nodup.mem_erase_iff, not_and] at not_member
    by_cases old : other ∈ frame.working
    · obtain rfl : other = set := not_imp_comm.1 not_member (not_not_intro old)
      have working := actions.working other old
      simp only [unfinished, if_true] at working ⊢
      omega
    · have idle := actions.idle other old
      simp only [unfinished] at idle ⊢
      omega

/-! ## Owners -/

theorem Owned.alive_of_working (owned : Owned frame owns) (member : set ∈ frame.working) :
    frame.alive set = true := by
  have positive := List.count_pos_iff.2 member
  apply (owned.alive set _).1
  unfold owners
  omega

theorem Owned.working_nodup (owned : Owned frame owns) : frame.working.Nodup := by
  refine List.nodup_iff_count_le_one.2 fun set => ?_
  have once := owned.once set
  unfold owners at once
  omega

theorem Owned.not_mem_working (owned : Owned frame owns) (positive : 0 < owns set) :
    set ∉ frame.working := by
  intro member
  have working_pos := List.count_pos_iff.2 member
  have once := owned.once set
  unfold owners at once
  omega

/-- The owners change, and no set gets another one. -/
theorem Owned.of_le {owns' : Nat → Nat} (owned : Owned frame owns)
    (owners_le : ∀ set, after.owners owns' set ≤ frame.owners owns set)
    (alive_eq : after.alive = frame.alive) (made_eq : after.made = frame.made) :
    Owned after owns' where
  once set := (owners_le set).trans (owned.once set)
  alive set positive := by
    rw [alive_eq, made_eq]
    exact owned.alive set (positive.trans_le (owners_le set))

theorem Owned.start
    (owned : Owned frame fun other => owns other + if other = set then 1 else 0) :
    Owned { frame with working := set :: frame.working } owns := by
  refine owned.of_le (fun other => ?_) rfl rfl
  simp only [owners, count_cons_ite]
  omega

theorem Owned.release (owned : Owned frame owns) (member : set ∈ frame.working) :
    Owned { frame with working := frame.working.erase set }
      fun other => owns other + if other = set then 1 else 0 := by
  refine owned.of_le (fun other => ?_) rfl rfl
  simp only [owners, (List.perm_cons_erase member).count_eq other, count_cons_ite]
  omega

/-- The set becomes the one that is deleted next. -/
theorem Owned.pend
    (owned : Owned frame fun other => owns other + if other = set then 1 else 0) :
    Owned { frame with needDelete := some set }
      fun other => owns other + frame.needDelete.toList.count other := by
  refine owned.of_le (fun other => ?_) rfl rfl
  simp only [owners, Option.toList_some, count_cons_ite, List.count_nil]
  omega

theorem Owned.delete
    (owned : Owned frame fun other => owns other + if other = set then 1 else 0) :
    Owned (frame.delete set) owns where
  once other := by
    have once := owned.once other
    simp only [owners] at once
    change owns other + frame.working.count other + frame.needDelete.toList.count other ≤ 1
    omega
  alive other positive := by
    have once := owned.once other
    have alive := owned.alive other
    change 0 < owns other + frame.working.count other + frame.needDelete.toList.count other
      at positive
    simp only [owners] at once alive
    obtain rfl | ne := eq_or_ne other set
    · rw [if_pos rfl] at once
      omega
    · rw [if_neg ne] at alive
      simp only [CAsyncFrame.delete, Function.update_of_ne ne]
      exact alive positive

/-- A set is made. -/
theorem Owned.make (owned : Owned frame owns) (value : CActionSet) :
    frame.made ∉ frame.working ∧ Owned { frame.setSet frame.made value with
      alive := Function.update frame.alive frame.made true
      made := frame.made + 1 } fun other => owns other + if other = frame.made then 1 else 0 := by
  have unowned : frame.owners owns frame.made = 0 := by
    by_contra not_zero
    exact Nat.lt_irrefl _ (owned.alive frame.made (Nat.pos_of_ne_zero not_zero)).2
  have owners_eq : ∀ other, owners { frame.setSet frame.made value with
      alive := Function.update frame.alive frame.made true
      made := frame.made + 1 } (fun other => owns other + if other = frame.made then 1 else 0)
        other = frame.owners owns other + if other = frame.made then 1 else 0 := by
    intro other
    simp only [owners, CAsyncFrame.setSet]
    omega
  refine ⟨fun member => ?_, fun other => ?_, fun other positive => ?_⟩
  · have positive := List.count_pos_iff.2 member
    unfold owners at unowned
    omega
  · rw [owners_eq]
    split
    case isTrue same => rw [same, unowned]
    case isFalse => exact owned.once other
  · rw [owners_eq] at positive
    by_cases same : other = frame.made
    · subst same
      exact ⟨Function.update_self .., Nat.lt_succ_self _⟩
    · rw [if_neg same] at positive
      obtain ⟨alive, below⟩ := owned.alive other positive
      exact ⟨(Function.update_of_ne same ..).trans alive, Nat.lt_succ_of_lt below⟩

/-! ## Duties -/

/-- Everything has its place. -/
structure Placed (config : Config) (frame : CAsyncFrame) (duties : Multiset Duty) : Prop where
  messages : Messages config frame (fun msg => duties.count (.message msg))
    fun msg => duties.count (.fini msg)
  actions : Actions frame fun set => duties.count (.action set)
  owned : Owned frame fun set => duties.count (.owner set)

theorem Placed.accept (placed : Placed config frame duties) (fresh : msg ∉ frame.given)
    (room : config.overloadLimit > 0 → frame.requestCount < config.overloadLimit)
    (few : frame.requestCount < 2147483647) :
    Placed config { frame with
      given := msg :: frame.given
      accepted := msg :: frame.accepted
      requestCount := frame.requestCount + 1 } (.message msg ::ₘ duties) := by
  have messages := placed.messages.accept fresh room few
  refine ⟨?_, ?_, ?_⟩ <;> simp [Multiset.count_cons]
  · exact messages
  · exact { placed.actions with }
  · exact { placed.owned with }

theorem Placed.ends (placed : Placed config frame duties) (msg : Nat) :
    Placed config { frame with
      ended := msg :: frame.ended
      finis := if config.hasFini then msg :: frame.finis else frame.finis }
      (.fini msg ::ₘ duties) := by
  have messages := placed.messages.ends msg
  refine ⟨?_, ?_, ?_⟩ <;> simp [Multiset.count_cons]
  · exact messages
  · exact { placed.actions with }
  · exact { placed.owned with }

theorem Placed.recycle (placed : Placed config frame (.message msg ::ₘ .fini msg ::ₘ duties)) :
    Placed config (frame.recycle msg) duties := by
  obtain ⟨messages, actions, owned⟩ := placed
  simp [Multiset.count_cons] at messages actions owned
  exact ⟨messages.recycle, { actions with }, { owned with }⟩

/-- The actions of a new set are started. -/
theorem Placed.start (placed : Placed config frame
      (.message (frame.sets set).msg ::ₘ .owner set ::ₘ duties))
    (none_finished : (frame.sets set).finished = 0) (nonempty : (frame.sets set).actions ≠ []) :
    Placed config { frame with working := set :: frame.working }
      (.replicate (frame.sets set).actions.length (.action set) + duties) := by
  obtain ⟨messages, actions, owned⟩ := placed
  simp [Multiset.count_cons] at messages actions owned
  have idle : set ∉ frame.working := owned.not_mem_working (by simp)
  have started := actions.start idle none_finished nonempty
  refine ⟨?_, ?_, ?_⟩ <;> simp [Multiset.count_replicate]
  · exact messages.start
  · simpa only [Nat.add_comm] using started
  · exact owned.start

theorem Placed.toNetwork (placed : Placed config frame (.action set ::ₘ duties)) (action : Nat) :
    Placed config { frame with network := (set, action) :: frame.network } duties := by
  obtain ⟨messages, actions, owned⟩ := placed
  simp [Multiset.count_cons] at messages actions owned
  exact ⟨{ messages with }, actions.toNetwork action, { owned with }⟩

theorem Placed.fromNetwork (placed : Placed config frame duties)
    (member : (set, action) ∈ frame.network) :
    Placed config { frame with network := frame.network.erase (set, action) }
      (.action set ::ₘ duties) := by
  have actions := placed.actions.fromNetwork member
  refine ⟨?_, ?_, ?_⟩ <;> simp [Multiset.count_cons]
  · exact { placed.messages with }
  · exact actions
  · exact { placed.owned with }

/-- A set that is not under way is written. -/
theorem Placed.setIdle (placed : Placed config frame duties) (value : CActionSet)
    (idle : set ∉ frame.working) : Placed config (frame.setSet set value) duties :=
  ⟨placed.messages.setSet value fun member => absurd member idle, placed.actions.setIdle value idle,
    { placed.owned with }⟩

theorem Placed.make (placed : Placed config frame duties) (msg : Nat) :
    Placed config { frame.setSet frame.made ⟨msg, [], 0⟩ with
      alive := Function.update frame.alive frame.made true
      made := frame.made + 1 } (.owner frame.made ::ₘ duties) := by
  obtain ⟨idle, owned⟩ := placed.owned.make ⟨msg, [], 0⟩
  have written := placed.setIdle ⟨msg, [], 0⟩ idle
  refine ⟨?_, ?_, ?_⟩ <;> simp [Multiset.count_cons]
  · exact { written.messages with }
  · exact { written.actions with }
  · exact owned

theorem Placed.mem_working (placed : Placed config frame duties) (member : .action set ∈ duties) :
    set ∈ frame.working :=
  placed.actions.mem_working (Nat.add_pos_right _ (Multiset.count_pos.2 member))

/-- An action has ended; it was not the last one of its set. -/
theorem Placed.countFinished (placed : Placed config frame (.action set ::ₘ duties))
    (more : (frame.sets set).actions.length ≠ (frame.sets set).finished + 1) :
    Placed config (frame.setSet set
      { frame.sets set with finished := (frame.sets set).finished + 1 }) duties := by
  obtain ⟨messages, actions, owned⟩ := placed
  simp [Multiset.count_cons] at messages actions owned
  exact ⟨messages.setSet _ fun _ => rfl, actions.countFinished more, { owned with }⟩

/-- The last action of a set has ended. -/
theorem Placed.release (placed : Placed config frame (.action set ::ₘ duties))
    (last : (frame.sets set).actions.length = (frame.sets set).finished + 1) :
    Placed config { frame with working := frame.working.erase set }
      (.message (frame.sets set).msg ::ₘ .owner set ::ₘ duties) := by
  have member := placed.mem_working (Multiset.mem_cons_self _ _)
  obtain ⟨messages, actions, owned⟩ := placed
  simp [Multiset.count_cons] at messages actions owned
  refine ⟨?_, ?_, ?_⟩ <;> simp [Multiset.count_cons]
  · exact messages.release member
  · exact actions.release owned.working_nodup last
  · exact owned.release member

theorem Placed.delete (placed : Placed config frame (.owner set ::ₘ duties)) :
    Placed config (frame.delete set) duties := by
  obtain ⟨messages, actions, owned⟩ := placed
  simp [Multiset.count_cons] at messages actions owned
  exact ⟨{ messages with }, { actions with }, owned.delete⟩

/-- The set before this one is deleted, and this one is the next. -/
theorem Placed.recycleSet (placed : Placed config frame (.owner set ::ₘ duties)) :
    Placed config { (frame.needDelete.elim frame frame.delete) with needDelete := some set }
      duties := by
  obtain ⟨messages, actions, owned⟩ := placed
  simp [Multiset.count_cons] at messages actions owned
  have pending := owned.pend
  cases need_eq : frame.needDelete with
  | none =>
      rw [need_eq] at pending
      exact ⟨{ messages with }, { actions with }, pending⟩
  | some old =>
      simp only [need_eq, Option.toList_some, count_cons_ite, List.count_nil, zero_add] at pending
      exact ⟨{ messages with }, { actions with }, pending.delete⟩

end CAsyncFrame

end Spp.AsyncFrame

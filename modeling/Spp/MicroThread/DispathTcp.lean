import Spp.Lib.Loop
import Spp.MicroThread.CacheRead

/-!
# The responses of a TCP link, `DispathTcp`

`CSockLink::DispathTcp` of `sync_frame/micro_thread/mt_net.cpp` copies the bytes of the receive
cache to a buffer, and a callback of the user finds the responses in it.  If the callback needs more
bytes than the buffer has room for, `reserve_sk_buffer` gives a larger one and the loop tries again.
Without memory it gives the old one, and the loop tries again with the same bytes.
-/

namespace Spp

open TRWCache TSkBuffMng

/-- `RC_CHECK_PKG_FAIL` -/
def rcCheckPkgFail : Int := -5

/-- `RC_MEM_ERROR` -/
def rcMemError : Int := -12

/-- What a `CHECK_SESSION_CALLBACK` gives for the bytes of a response. -/
structure Checked where
  ret : Int
  sid : Nat
  needLen : Nat

/-- The part of `CSockLink` that `DispathTcp` works on. -/
structure CSockLink (ι : Type) where
  recvCache : Queue ι
  rspBuff : Option TSkBuffer
  errno : Int
  mallocs : Nat
  sessions : List Nat
  /-- The responses that the sessions got, the last one at the end. -/
  answered : List (Nat × TSkBuffer)

namespace CSockLink

section Model

variable {ι : Type} [DecidableEq ι] (malloc : Nat → Option (Nat → UInt8))

/-- `new_sk_buffer`; a call of `malloc` gives memory with some bytes or fails. -/
def newSkBuffer (link : CSockLink ι) (size : Nat) : Option (Option TSkBuffer × CSockLink ι) :=
  match malloc link.mallocs with
  | none => some (none, { link with mallocs := link.mallocs + 1 })
  | some byte =>
      if mallocSize size < skBuffOffset then
        none
      else
        some (some (newBlock size byte), { link with mallocs := link.mallocs + 1 })

/-- `reserve_sk_buffer` -/
def reserveSkBuffer (link : CSockLink ι) (buff : Option TSkBuffer) (size : Nat) :
    Option (Option TSkBuffer × CSockLink ι) :=
  match buff with
  | none => link.newSkBuffer malloc size
  | some buff =>
      if buff.size ≥ size then
        some (some buff, link)
      else do
        let made ← link.newSkBuffer malloc size
        match made.1 with
        | none => return (some buff, made.2)
        | some newBuff =>
            let bytes ← buff.memory.read buff.data buff.dataLen
            let memory ← newBuff.memory.write newBuff.data bytes
            return (some { newBuff with memory, dataLen := buff.dataLen }, made.2)

/-- The bytes behind those that are there. -/
def fillRsp (link : CSockLink ι) (buff : TSkBuffer) : Option TSkBuffer := do
  let start := buff.data + buff.dataLen
  let found ← link.recvCache.cache.readCacheBegin link.recvCache.pool buff.dataLen
    (some (buff.memory.behind start)) (u32 (buff.size - buff.dataLen))
  let rest ← found.2
  return { buff with
    memory := buff.memory.withBehind start rest, dataLen := buff.dataLen + found.1 }

/-- `ExtendRecvRsp` -/
def extendRecvRsp (link : CSockLink ι) : Option (CSockLink ι) :=
  match link.rspBuff with
  | some buff => do
      let buff ← link.fillRsp buff
      return { link with rspBuff := some buff }
  | none => do
      let made ← link.newSkBuffer malloc 512
      match made.1 with
      | none => return made.2
      | some buff =>
          let buff ← made.2.fillRsp buff
          return { made.2 with rspBuff := some buff }

/-- The length that `DispathTcp` wants for the buffer: twice its size, if the buffer is full and the
callback asks for no length. -/
def needLen (buff : TSkBuffer) (asked : Nat) : Nat :=
  if asked = 0 ∧ buff.dataLen = buff.size then u32 (buff.size * 2) else asked

/-- The branch of `DispathTcp` for a response that is not complete. -/
def growRsp (link : CSockLink ι) (buff : TSkBuffer) (asked : Nat) :
    Option ((Int × CSockLink ι) ⊕ CSockLink ι) :=
  if needLen buff asked ≤ buff.size ∨ needLen buff asked > 100 * 1024 * 1024 then
    some (.inl (0, link))
  else do
    let reserved ← link.reserveSkBuffer malloc (some buff) (needLen buff asked)
    let link := { reserved.2 with rspBuff := reserved.1 }
    match reserved.1 with
    | none => return .inl (-3, { link with errno := rcMemError })
    | some buff =>
        if buff.dataLen ≥ link.recvCache.cache.len then return .inl (0, link) else return .inr link

/-- The end of a round of `DispathTcp`: a response is complete. -/
def answer (link : CSockLink ι) (buff : TSkBuffer) (checked : Checked) :
    Option ((Int × CSockLink ι) ⊕ CSockLink ι) :=
  if checked.ret > i32 link.recvCache.cache.len then
    some (.inl (0, link))
  else do
    let skipped ← link.recvCache.cache.cacheSkipData link.recvCache.pool (u32 checked.ret)
    let link := { link with recvCache := ⟨skipped.1, skipped.2⟩, rspBuff := none }
    if checked.sid ∈ link.sessions then
      return .inr { link with
        answered := link.answered ++ [(checked.sid, { buff with dataLen := u32 checked.ret })] }
    else
      return .inr link

/-- A round of the loop of `DispathTcp`: what the function returns, or the state of the next
round. -/
def dispathRound (check : List UInt8 → Checked) (link : CSockLink ι) :
    Option ((Int × CSockLink ι) ⊕ CSockLink ι) :=
  if link.recvCache.cache.len > 0 then do
    let link ← link.extendRecvRsp malloc
    match link.rspBuff with
    | none => return .inl (-3, { link with errno := rcMemError })
    | some buff =>
        let bytes ← buff.memory.read buff.data buff.dataLen
        if (check bytes).ret < 0 then
          return .inl (-1, { link with errno := rcCheckPkgFail })
        else if (check bytes).ret = 0 then
          link.growRsp malloc buff (check bytes).needLen
        else
          link.answer buff (check bytes)
  else
    some (.inl (0, link))

/-- `DispathTcp`, with what `GetSessionCallback` gives. -/
def dispathTcp (check : Option (List UInt8 → Checked)) (rounds : Nat) (link : CSockLink ι) :
    Option (Int × CSockLink ι) :=
  match check with
  | none => some (-1, link)
  | some check => loopFor (dispathRound malloc check) rounds link

end Model

/-! ## The buffer -/

/-- The pointers of a buffer lie in its memory. -/
structure RspFits (buff : TSkBuffer) : Prop where
  dataLen_le : buff.dataLen ≤ buff.size
  inside : buff.data + buff.size ≤ buff.memory.size
  size_lt : buff.size < 4294967296

/-- The cache is a queue of bytes, and the buffer is sound. -/
structure Usable {ι : Type} (link : CSockLink ι) : Prop where
  holds : Holds link.recvCache
  fits : ∀ buff, link.rspBuff = some buff → RspFits buff

section Buffer

variable {ι : Type} {malloc : Nat → Option (Nat → UInt8)} {link : CSockLink ι} {buff : TSkBuffer}
  {size : Nat}

/-- After a call of `malloc`. -/
def tried (link : CSockLink ι) : CSockLink ι := { link with mallocs := link.mallocs + 1 }

theorem newSkBuffer_none (fails : malloc link.mallocs = none) (size : Nat) :
    link.newSkBuffer malloc size = some (none, link.tried) := by
  rw [newSkBuffer, fails]
  rfl

theorem newSkBuffer_some {byte : Nat → UInt8} (gives : malloc link.mallocs = some byte)
    (small : size ≤ 4294967232) :
    ∃ buff, link.newSkBuffer malloc size = some (some buff, link.tried) ∧ RspFits buff ∧
      buff.size = size ∧ buff.data = 0 := by
  have enough := mallocSize_eq small
  refine ⟨newBlock size byte, ?_, ⟨Nat.zero_le _, ?_, ?_⟩, rfl, rfl⟩
  · rw [newSkBuffer, gives]
    exact if_neg (by omega)
  · simp only [newBlock]
    omega
  · simp only [newBlock]
    omega

theorem reserveSkBuffer_none (fails : malloc link.mallocs = none) (larger : buff.size < size) :
    link.reserveSkBuffer malloc (some buff) size = some (some buff, link.tried) := by
  rw [reserveSkBuffer, if_neg (by omega), newSkBuffer_none fails]
  rfl

theorem reserveSkBuffer_some {byte : Nat → UInt8} (gives : malloc link.mallocs = some byte)
    (fits : RspFits buff) (larger : buff.size < size) (small : size ≤ 4294967232) :
    ∃ grown, link.reserveSkBuffer malloc (some buff) size = some (some grown, link.tried) ∧
      RspFits grown ∧ grown.size = size := by
  obtain ⟨made, made_eq, made_fits, size_eq, data_eq⟩ := newSkBuffer_some gives small
  have dataLen_le := fits.dataLen_le
  have inside := fits.inside
  have made_inside := made_fits.inside
  refine ⟨{ made with
    memory := { made.memory with
      byte := splice made.memory.byte made.data (slice buff.memory.byte buff.data buff.dataLen) }
    dataLen := buff.dataLen }, ?_, ⟨?_, made_fits.inside, made_fits.size_lt⟩, size_eq⟩
  · have reads : buff.memory.read buff.data buff.dataLen =
        some (slice buff.memory.byte buff.data buff.dataLen) := ByteRegion.read_eq (by omega)
    rw [reserveSkBuffer, if_neg (by omega), made_eq]
    simp only [Option.bind_eq_bind, Option.bind_some]
    rw [reads, Option.bind_some, ByteRegion.write_eq (by rw [length_slice]; omega)]
    rfl
  · simp only
    omega

theorem fillRsp_eq (holds : Holds link.recvCache) (fits : RspFits buff) :
    ∃ filled, link.fillRsp buff = some filled ∧ RspFits filled ∧ filled.size = buff.size ∧
      (filled.dataLen < link.recvCache.cache.len → filled.dataLen = filled.size) ∧
      (buff.dataLen = buff.size → filled = buff) := by
  have dataLen_le := fits.dataLen_le
  have inside := fits.inside
  have size_lt := fits.size_lt
  have room_eq : u32 ((buff.size : Int) - buff.dataLen) = buff.size - buff.dataLen := by
    rw [u32, Int.emod_eq_of_lt (by omega) (by omega)]
    omega
  have room : HasRoom (some (buff.memory.behind (buff.data + buff.dataLen)))
      (min (buff.size - buff.dataLen) (link.recvCache.content.length - buff.dataLen)) := by
    intro region is_behind
    cases is_behind
    rw [ByteRegion.behind]
    simp only
    omega
  have reads := holds.wellFormed.readCacheBegin_eq room
  rw [fillRsp, room_eq]
  simp only [Option.bind_eq_bind]
  rw [reads]
  refine ⟨_, rfl, ⟨?_, fits.inside, fits.size_lt⟩, rfl, fun more => ?_, fun full => ?_⟩
  · simp only
    omega
  · rw [holds.len_eq] at more
    simp only at more ⊢
    omega
  · have nothing : buff.size - buff.dataLen = 0 := by omega
    simp only [nothing, List.take_zero, splice_nil, Nat.zero_min, Nat.add_zero]
    rw [ByteRegion.withBehind_behind]

/-- `ExtendRecvRsp` leaves no buffer, or one with a size that it had before or with 512 bytes.  It
is full if the cache has more bytes. -/
theorem Usable.extendRecvRsp (usable : Usable link) :
    ∃ rsp mallocs, link.extendRecvRsp malloc = some { link with rspBuff := rsp, mallocs } ∧
      ∀ buff, rsp = some buff → RspFits buff ∧
        (buff.dataLen < link.recvCache.cache.len → buff.dataLen = buff.size) ∧
        (link.rspBuff = none ∧ buff.size = 512 ∨
          ∃ old, link.rspBuff = some old ∧ old.size = buff.size ∧ mallocs = link.mallocs) := by
  cases is_rsp : link.rspBuff with
  | some old =>
      obtain ⟨filled, fills, fits, size_eq, full, -⟩ :=
        fillRsp_eq usable.holds (usable.fits old is_rsp)
      refine ⟨some filled, link.mallocs, ?_, fun buff is_buff => ?_⟩
      · rw [CSockLink.extendRecvRsp, is_rsp]
        simp only [fills, Option.bind_eq_bind, Option.bind_some]
        rfl
      · cases is_buff
        exact ⟨fits, full, Or.inr ⟨old, rfl, size_eq.symm, rfl⟩⟩
  | none =>
      cases given : malloc link.mallocs with
      | none =>
          refine ⟨none, link.mallocs + 1, ?_, fun buff is_buff => by cases is_buff⟩
          rw [CSockLink.extendRecvRsp, is_rsp]
          simp only [newSkBuffer_none given, Option.bind_eq_bind, Option.bind_some]
          rw [tried, is_rsp]
          rfl
      | some byte =>
          obtain ⟨made, made_eq, made_fits, made_size, -⟩ :=
            newSkBuffer_some given (show 512 ≤ 4294967232 by decide)
          obtain ⟨filled, fills, fits, size_eq, full, -⟩ :=
            @fillRsp_eq _ link.tried made usable.holds made_fits
          refine ⟨some filled, link.mallocs + 1, ?_, fun buff is_buff => ?_⟩
          · rw [CSockLink.extendRecvRsp, is_rsp]
            simp only [made_eq, fills, Option.bind_eq_bind, Option.bind_some]
            rfl
          · cases is_buff
            exact ⟨fits, full, Or.inl ⟨rfl, size_eq.trans made_size⟩⟩

/-- The buffer is full, and the callback wants a larger one for the response in it. -/
structure Hungry (check : List UInt8 → Checked) (link : CSockLink ι) (buff : TSkBuffer) :
    Prop where
  is_buff : link.rspBuff = some buff
  full : buff.dataLen = buff.size
  more : buff.dataLen < link.recvCache.cache.len
  incomplete : (check buff.content).ret = 0
  larger : buff.size < needLen buff (check buff.content).needLen
  small : needLen buff (check buff.content).needLen ≤ 104857600

/-- The branch ends the call, or gives a larger buffer, or fails to get memory for it. -/
theorem growRsp_eq (fits : RspFits buff) (asked : Nat) :
    (∃ result, link.growRsp malloc buff asked = some (.inl result)) ∨
      ∃ grown, link.growRsp malloc buff asked =
          some (.inr { link.tried with rspBuff := some grown }) ∧ RspFits grown ∧
        (buff.size < grown.size ∧ grown.size ≤ 104857600 ∨
          grown = buff ∧ malloc link.mallocs = none ∧ buff.dataLen < link.recvCache.cache.len ∧
            buff.size < needLen buff asked ∧ needLen buff asked ≤ 104857600) := by
  rw [growRsp]
  generalize needLen buff asked = needLen
  by_cases waits : needLen ≤ buff.size ∨ needLen > 100 * 1024 * 1024
  · exact Or.inl ⟨_, if_pos waits⟩
  · rw [if_neg waits]
    cases given : malloc link.mallocs with
    | none =>
        simp only [reserveSkBuffer_none given (show buff.size < needLen by omega),
          Option.bind_eq_bind, Option.bind_some]
        split
        · exact Or.inl ⟨_, rfl⟩
        · rename_i more
          exact Or.inr ⟨buff, rfl, fits, Or.inr ⟨rfl, trivial, not_le.1 more, by omega, by omega⟩⟩
    | some byte =>
        obtain ⟨grown, reserves, grown_fits, size_eq⟩ :=
          reserveSkBuffer_some given fits (by omega) (show needLen ≤ 4294967232 by omega)
        simp only [reserves, Option.bind_eq_bind, Option.bind_some]
        split
        · exact Or.inl ⟨_, rfl⟩
        · exact Or.inr ⟨grown, rfl, grown_fits, Or.inl (by omega)⟩

/-- Without memory a hungry round ends where it began. -/
theorem Hungry.growRsp {check : List UInt8 → Checked} (hungry : Hungry check link buff)
    (fails : malloc link.mallocs = none) :
    link.growRsp malloc buff (check buff.content).needLen = some (.inr link.tried) := by
  have larger := hungry.larger
  have small := hungry.small
  rw [CSockLink.growRsp, if_neg (by omega), reserveSkBuffer_none fails larger]
  simp only [Option.bind_eq_bind, Option.bind_some]
  rw [if_neg (show ¬ buff.dataLen ≥ link.tried.recvCache.cache.len from not_le.2 hungry.more),
    tried, ← hungry.is_buff]
  rfl

end Buffer

/-! ## Rounds -/

section Rounds

variable {ι : Type} [DecidableEq ι] {malloc : Nat → Option (Nat → UInt8)}
  {check : List UInt8 → Checked} {link after : CSockLink ι} {buff : TSkBuffer}

theorem answer_eq (holds : Holds link.recvCache) {checked : Checked} (positive : 0 < checked.ret) :
    (∃ result, link.answer buff checked = some (.inl result)) ∨
      ∃ after, link.answer buff checked = some (.inr after) ∧ Holds after.recvCache ∧
        after.rspBuff = none ∧
        after.recvCache.content.length < link.recvCache.content.length := by
  rw [answer]
  by_cases waits : checked.ret > i32 link.recvCache.cache.len
  · exact Or.inl ⟨_, if_pos waits⟩
  · have small := i32_lt (link.recvCache.cache.len : Int)
    have ret_eq : u32 checked.ret = checked.ret.toNat := by
      rw [u32, Int.emod_eq_of_lt (by omega) (by omega)]
    have some_bytes : 0 < link.recvCache.content.length := by
      rw [← holds.len_eq]
      by_contra none_left
      have len_zero : link.recvCache.cache.len = 0 := by omega
      rw [len_zero] at waits
      exact waits positive
    obtain ⟨cache, pool, skips, still, content_eq⟩ := holds.skipData (u32 checked.ret)
    have shorter : (pool.content cache.list).length < link.recvCache.content.length := by
      rw [content_eq, List.length_drop, ret_eq]
      omega
    right
    rw [if_neg waits, skips]
    simp only [Option.bind_eq_bind, Option.bind_some]
    split
    · exact ⟨_, rfl, still, rfl, shorter⟩
    · exact ⟨_, rfl, still, rfl, shorter⟩

/-- How much the buffer can still grow. -/
def room (link : CSockLink ι) : Nat := 104857600 - link.rspBuff.elim 0 TSkBuffer.size

/-- A round has taken bytes from the cache, or the buffer has grown. -/
def Progress (after before : CSockLink ι) : Prop :=
  after.recvCache.content.length < before.recvCache.content.length ∨
    after.recvCache.content.length = before.recvCache.content.length ∧ after.room < before.room

/-- A round has got no memory for a larger buffer. -/
structure Stall (malloc : Nat → Option (Nat → UInt8)) (check : List UInt8 → Checked)
    (after before : CSockLink ι) : Prop where
  length_eq : after.recvCache.content.length = before.recvCache.content.length
  room_eq : after.room = before.room
  fails : malloc before.mallocs = none
  next : after.mallocs = before.mallocs + 1
  hungry : ∃ buff, Hungry check after buff

theorem Usable.dispathRound (usable : Usable link) (check : List UInt8 → Checked) :
    (∃ result, dispathRound malloc check link = some (.inl result)) ∨
      ∃ after, dispathRound malloc check link = some (.inr after) ∧ Usable after ∧
        (Progress after link ∨ Stall malloc check after link) := by
  rw [CSockLink.dispathRound]
  by_cases some_bytes : link.recvCache.cache.len > 0
  · obtain ⟨rsp, mallocs, extends_eq, rsp_fits⟩ := @Usable.extendRecvRsp _ malloc _ usable
    simp only [if_pos some_bytes, extends_eq, Option.bind_eq_bind, Option.bind_some]
    cases rsp with
    | none => exact Or.inl ⟨_, rfl⟩
    | some buff =>
        obtain ⟨fits, full, sizes⟩ := rsp_fits buff rfl
        have dataLen_le := fits.dataLen_le
        have inside := fits.inside
        simp only [ByteRegion.read_eq (show buff.data + buff.dataLen ≤ buff.memory.size by omega),
          Option.bind_some]
        rw [show slice buff.memory.byte buff.data buff.dataLen = buff.content from rfl]
        by_cases negative : (check buff.content).ret < 0
        · exact Or.inl ⟨_, if_pos negative⟩
        · rw [if_neg negative]
          by_cases zero : (check buff.content).ret = 0
          · rw [if_pos zero]
            refine (growRsp_eq fits _).imp_right ?_
            rintro ⟨grown, grows, grown_fits, grown_size⟩
            refine ⟨_, grows, ⟨usable.holds, fun other is_other => ?_⟩, ?_⟩
            · cases is_other
              exact grown_fits
            · have after_room : ∀ changed : CSockLink ι,
                  room { changed with rspBuff := some grown } = 104857600 - grown.size :=
                fun _ => rfl
              rcases sizes with ⟨no_rsp, size_eq⟩ | ⟨old, is_old, size_eq, same⟩
              · have size_ge : 512 ≤ grown.size := by
                  rcases grown_size with ⟨larger, -⟩ | ⟨rfl, -⟩ <;> omega
                refine Or.inl (Or.inr ⟨rfl, ?_⟩)
                rw [after_room, room, no_rsp, Option.elim_none]
                omega
              · rcases grown_size with ⟨larger, small⟩ | ⟨rfl, fails, more, larger, small⟩
                · refine Or.inl (Or.inr ⟨rfl, ?_⟩)
                  rw [after_room, room, is_old, Option.elim_some]
                  omega
                · refine Or.inr ⟨rfl, ?_, same ▸ fails, congrArg Nat.succ same,
                    grown, rfl, full more, more, zero, larger, small⟩
                  rw [after_room, room, is_old, Option.elim_some, size_eq]
          · rw [if_neg zero]
            have positive : 0 < (check buff.content).ret := by omega
            refine (@answer_eq _ _ { link with rspBuff := some buff, mallocs } buff usable.holds _
              positive).imp_right ?_
            rintro ⟨after, answers, holds, no_rsp, shorter⟩
            refine ⟨after, answers, ⟨holds, fun other is_other => ?_⟩, Or.inl (Or.inl shorter)⟩
            rw [no_rsp] at is_other
            cases is_other
  · exact Or.inl ⟨_, if_neg some_bytes⟩

/-- A hungry round without memory: the next round begins where this one began. -/
theorem Hungry.dispathRound (hungry : Hungry check link buff) (usable : Usable link)
    (fails : malloc link.mallocs = none) :
    CSockLink.dispathRound malloc check link = some (.inr link.tried) := by
  have fits := usable.fits buff hungry.is_buff
  have inside := fits.inside
  have dataLen_le := fits.dataLen_le
  have more := hungry.more
  obtain ⟨filled, fills, -, -, -, same⟩ := fillRsp_eq usable.holds fits
  have extends_eq : link.extendRecvRsp malloc = some link := by
    rw [CSockLink.extendRecvRsp, hungry.is_buff]
    simp only [fills, same hungry.full, Option.bind_eq_bind, Option.bind_some]
    rw [← hungry.is_buff]
    rfl
  rw [CSockLink.dispathRound, if_pos (by omega), extends_eq]
  simp only [Option.bind_eq_bind, Option.bind_some, hungry.is_buff]
  rw [ByteRegion.read_eq (by omega), Option.bind_some,
    show slice buff.memory.byte buff.data buff.dataLen = buff.content from rfl, hungry.incomplete,
    if_neg (lt_irrefl 0), if_pos rfl]
  exact hungry.growRsp fails

end Rounds

/-! ## Calls -/

section Calls

variable {ι : Type} [DecidableEq ι] {malloc : Nat → Option (Nat → UInt8)}
  {check : List UInt8 → Checked} {link state : CSockLink ι}

/-- The next round of `DispathTcp` follows. -/
def GoesOn (malloc : Nat → Option (Nat → UInt8)) (check : List UInt8 → Checked)
    (before after : CSockLink ι) : Prop :=
  dispathRound malloc check before = some (.inr after)

/-- A larger buffer is wanted, and there will be no memory for it. -/
def Starved (malloc : Nat → Option (Nat → UInt8)) (check : List UInt8 → Checked)
    (link : CSockLink ι) : Prop :=
  (∃ buff, Hungry check link buff) ∧ ∀ call, link.mallocs ≤ call → malloc call = none

theorem Usable.reached (usable : Usable link)
    (reached : Relation.ReflTransGen (GoesOn malloc check) link state) : Usable state := by
  induction reached with
  | refl => exact usable
  | tail _ goes_on induction =>
      obtain ⟨result, ends⟩ | ⟨after, goes, after_usable, -⟩ := induction.dispathRound check
      · cases goes_on.symm.trans ends
      · cases goes_on.symm.trans goes
        exact after_usable

/-- A starved round is followed by a starved round. -/
theorem Starved.goesOn (starved : Starved malloc check link) (usable : Usable link) :
    GoesOn malloc check link link.tried ∧ Starved malloc check link.tried := by
  obtain ⟨⟨buff, hungry⟩, fails⟩ := starved
  exact ⟨hungry.dispathRound usable (fails _ le_rfl), ⟨buff, { hungry with }⟩,
    fun call le => fails call (Nat.le_of_succ_le le)⟩

/-- A call that reaches a starved round never returns. -/
theorem Starved.endless (starved : Starved malloc check state) (usable : Usable link)
    (reached : Relation.ReflTransGen (GoesOn malloc check) link state) (rounds : Nat) :
    dispathTcp malloc (some check) rounds link = none := by
  -- every round on the way to the starved one, and every round after it, is followed by another
  have step : ∀ before : CSockLink ι, (Usable before ∧ ∃ later,
      Relation.ReflTransGen (GoesOn malloc check) before later ∧ Starved malloc check later) →
      ∃ after, CSockLink.dispathRound malloc check before = some (.inr after) ∧ Usable after ∧
        ∃ later, Relation.ReflTransGen (GoesOn malloc check) after later ∧
          Starved malloc check later := by
    rintro before ⟨before_usable, later, reaches, later_starved⟩
    rcases reaches.cases_head with rfl | ⟨after, goes_on, reaches⟩
    · obtain ⟨goes_on, still⟩ := later_starved.goesOn before_usable
      exact ⟨_, goes_on, before_usable.reached (.single goes_on), _, .refl, still⟩
    · exact ⟨after, goes_on, before_usable.reached (.single goes_on), later, reaches,
        later_starved⟩
  exact loopFor_never step rounds link ⟨usable, state, reached, starved⟩

omit [DecidableEq ι] in
/-- The rounds descend if every stall is before a call of `malloc` that gives memory. -/
theorem wellFounded_descends (malloc : Nat → Option (Nat → UInt8))
    (check : List UInt8 → Checked) :
    WellFounded fun after before : CSockLink ι => Progress after before ∨
      Stall malloc check after before ∧ ∃ later, after.mallocs ≤ later ∧ (malloc later).isSome := by
  refine Subrelation.wf ?_ (invImage (fun link : CSockLink ι =>
    (link.recvCache.content.length, link.room,
      callsUntil (fun call => (malloc call).isSome = true) link.mallocs)) inferInstance).wf
  rintro after before ((shorter | ⟨same_length, grows⟩) | ⟨stall, later, le, gives⟩)
  · exact Prod.Lex.left _ _ shorter
  · exact Prod.Lex.right' _ same_length.le (Prod.Lex.left _ _ grows)
  · refine Prod.Lex.right' _ stall.length_eq.le (Prod.Lex.right' _ stall.room_eq.le ?_)
    rw [stall.next] at le ⊢
    exact callsUntil_succ_lt (Nat.le_of_succ_le le) gives (by simp [stall.fails])

/-- In a call that comes to no starved round, every round ends the call or descends. -/
theorem Usable.fed_step (usable : Usable link)
    (fed : ∀ state, Relation.ReflTransGen (GoesOn malloc check) link state →
      ¬ Starved malloc check state)
    (reached : Relation.ReflTransGen (GoesOn malloc check) link state) :
    (∃ result, CSockLink.dispathRound malloc check state = some (.inl result) ∧ True) ∨
      ∃ after, CSockLink.dispathRound malloc check state = some (.inr after) ∧
        Relation.ReflTransGen (GoesOn malloc check) link after ∧
        (Progress after state ∨ Stall malloc check after state ∧
          ∃ later, after.mallocs ≤ later ∧ (malloc later).isSome) := by
  obtain ⟨result, ends⟩ | ⟨after, goes_on, -, descends⟩ :=
    @Usable.dispathRound _ _ malloc _ (usable.reached reached) check
  · exact Or.inl ⟨result, ends, trivial⟩
  · have after_reached := reached.tail goes_on
    refine Or.inr ⟨after, goes_on, after_reached, descends.imp_right fun stall => ⟨stall, ?_⟩⟩
    by_contra never
    push Not at never
    exact fed after after_reached ⟨stall.hungry, fun call le =>
      Option.not_isSome_iff_eq_none.mp (never call le)⟩

/-- A call of `DispathTcp` returns if and only if it does not come to a round with a full buffer for
which the callback wants a larger one while `malloc` fails from then on. -/
theorem dispathTcp_returns_iff (malloc : Nat → Option (Nat → UInt8))
    (check : Option (List UInt8 → Checked)) {link : CSockLink ι} (usable : Usable link) :
    (∃ rounds ret after, dispathTcp malloc check rounds link = some (ret, after)) ↔
      ∀ callback, check = some callback → ∀ state,
        Relation.ReflTransGen (GoesOn malloc callback) link state →
          ¬ Starved malloc callback state := by
  constructor
  · rintro ⟨rounds, ret, after, returns⟩ callback rfl state reached starved
    rw [starved.endless usable reached] at returns
    cases returns
  · intro fed
    cases check with
    | none => exact ⟨0, -1, link, rfl⟩
    | some check =>
        obtain ⟨rounds, ⟨ret, after⟩, returns, -⟩ :=
          loopFor_returns (wellFounded_descends malloc check)
            (fun state reached => usable.fed_step (fed check rfl) reached) link .refl
        exact ⟨rounds, ret, after, returns⟩

/-- A block with 513 bytes in the cache, of which 512 are in a full buffer. -/
def overfull (mallocs : Nat) : CSockLink Unit where
  recvCache :=
    { cache := ⟨[()], 513, 1⟩
      pool :=
        { freeList := []
          size := 4096
          block := fun _ => some ⟨4096, 0, 4096, 0, 513, ⟨4096, fun _ => 0⟩⟩
          malloc := [] } }
  rspBuff := some ⟨512, 0, 512, 0, 512, ⟨512, fun _ => 0⟩⟩
  errno := 0
  mallocs := mallocs
  sessions := []
  answered := []

theorem length_overfull (mallocs : Nat) : (overfull mallocs).recvCache.content.length = 513 := by
  rw [Queue.content, overfull, content_cons rfl, content_nil, List.append_nil,
    TSkBuffer.length_content]

theorem usable_overfull (mallocs : Nat) : Usable (overfull mallocs) := by
  refine ⟨⟨⟨List.nodup_singleton (), fun other _ => ⟨_, rfl, ?_⟩, ?_, ?_, List.nodup_nil, ?_, ?_⟩,
    rfl, (length_overfull mallocs).symm, ?_⟩, fun buff is_buff => ?_⟩
  · constructor <;> decide
  · exact fun _ member => absurd member List.not_mem_nil
  · exact fun _ member => absurd member List.not_mem_nil
  · exact (show 0 < 4096 by decide)
  · exact (show 4096 ≤ 4294967232 by decide)
  · rw [length_overfull]
    decide
  · cases is_buff
    constructor <;> decide

/-- The first three calls of `malloc` fail; the callback finds the response only in a buffer with
all 513 bytes. -/
theorem dispathTcp_returns_overfull :
    ∃ rounds ret after,
      dispathTcp (fun call => if call < 3 then none else some fun _ => 0)
        (some fun bytes => if bytes.length < 513 then ⟨0, 0, 0⟩ else ⟨513, 0, 0⟩) rounds
        (overfull 0) = some (ret, after) := by
  refine (dispathTcp_returns_iff _ _ (usable_overfull 0)).2 ?_
  intro callback _ state _ starved
  have fails := starved.2 (state.mallocs + 3) (Nat.le_add_right ..)
  simp only [show ¬ state.mallocs + 3 < 3 by omega, if_false, reduceCtorEq] at fails

theorem hungry_overfull (mallocs : Nat) :
    ∃ buff, Hungry (fun _ => ⟨0, 0, 0⟩) (overfull mallocs) buff :=
  ⟨_, rfl, rfl, show 512 < 513 by decide, rfl, by decide, by decide⟩

/-- All calls of `malloc` fail, and the buffer is full: the callback is asked for ever about the
same 512 bytes. -/
theorem dispathTcp_endless :
    Usable (overfull 0) ∧ (overfull 0).recvCache.content.length = 513 ∧
      (∀ calls, dispathRound (fun _ => none) (fun _ => ⟨0, 0, 0⟩) (overfull calls) =
        some (.inr (overfull (calls + 1)))) ∧
      ∀ rounds, dispathTcp (fun _ => none) (some fun _ => ⟨0, 0, 0⟩) rounds (overfull 0) =
        none := by
  refine ⟨usable_overfull 0, length_overfull 0, fun calls => ?_, fun rounds => ?_⟩
  · obtain ⟨_, hungry⟩ := hungry_overfull calls
    exact hungry.dispathRound (usable_overfull calls) rfl
  · exact Starved.endless ⟨hungry_overfull 0, fun _ _ => rfl⟩ (usable_overfull 0) .refl rounds

end Calls

end CSockLink

end Spp

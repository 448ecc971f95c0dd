import Spp.Comm.SockCommuRecv

/-!
# The blob of a disconnect

`CTSockCommu` of `comm/tbase/tsockcommu/tsockcommu.cpp` has one `buff_blob_` for the callbacks of
all flows.  A receive fills it with the read cache of a flow, the receive callback
`CDefaultProxy::ator_recvdata_v2` moves its start, and then its length becomes the number of bytes
that the callback has processed.  `CB_DISCONNECT` gets the blob as it is, and `ator_disconnect` may
forward its bytes for the flow that is closed.  To the read caches `recvRound` does what the rounds
of `CTSockCommu.pollRecvOnce` do.

The blob is a place and a length.  A place in a read cache is counted from the first byte that has
not been processed.  A connection is a `κ`; a flow number that is used again is another connection.
-/

namespace Spp

/-- Where `data` points. -/
inductive BlobData (κ : Type) where
  | nowhere
  | read (flow : κ) (offset : Int)
  | sent
  deriving DecidableEq

/-- `blob_type` -/
structure BuffBlob (κ : Type) where
  len : Int
  data : BlobData κ
  deriving DecidableEq

/-- What the blob was last used for. -/
inductive BlobUse (κ : Type) where
  | emptied
  /-- It has been given to the receive callback, which has moved its start and returned a number. -/
  | received (flow : κ) (protoLen : Int) (advanced : Nat)
  /-- It has been given to `CB_SENDDONE` or `CB_SENDERROR`. -/
  | sent

/-- The blob and the connections. -/
structure BlobPoll (κ : Type) where
  /-- The read cache of each open connection: the bytes that have been received and not been
  processed. -/
  cache : κ → Option (List UInt8)
  blob : BuffBlob κ
  use : BlobUse κ
  known : κ → Bool

/-- What `poll` does that the blob takes part in. -/
inductive BlobEvent (κ : Type) where
  /-- `handle_accept`; `CB_CONNECTED` is not there, or takes the connection or denies it. -/
  | accept (flow : κ) (connected : Option Bool)
  | acceptUdp (flow : κ) (bytes : List UInt8) (connected : Option Bool) (advanced : Nat)
  | overload
  /-- `check_expire`; `CB_TIMEOUT` is there or not. -/
  | checkExpire (flows : List κ) (timeout : Bool)
  | sendDone (len : Nat)
  | sendError (flow : κ) (len : Nat)
  | recv (flow : κ) (bytes : List UInt8) (protoLen : Int) (advanced : Nat)
  /-- `CB_DISCONNECT`, after `recv` has failed or the connection has expired. -/
  | disconnect (flow : κ)
  | close (flow : κ)

namespace BlobPoll

variable {κ : Type} [DecidableEq κ]

/-- There are no connections. -/
def start : BlobPoll κ :=
  ⟨fun _ => none, ⟨0, .nowhere⟩, .emptied, fun _ => false⟩

/-- The blob is emptied. -/
def emptyBlob (state : BlobPoll κ) : BlobPoll κ :=
  { state with blob := ⟨0, .nowhere⟩, use := .emptied }

/-- `closeconn` -/
def closeconn (state : BlobPoll κ) (flow : κ) : BlobPoll κ :=
  { state with cache := Function.update state.cache flow none }

/-- `addconn` -/
def addconn (state : BlobPoll κ) (flow : κ) : BlobPoll κ :=
  { state with
    cache := Function.update state.cache flow (some [])
    known := Function.update state.known flow true }

/-- `CConnSet::recv` of some bytes; the blob becomes the read cache, and the callback moves its
start. -/
def fillBlob (state : BlobPoll κ) (flow : κ) (bytes : List UInt8) (protoLen : Int)
    (advanced : Nat) : BlobPoll κ :=
  let content := (state.cache flow).getD [] ++ bytes
  { state with
    cache := Function.update state.cache flow (some content)
    blob := ⟨content.length - advanced, .read flow advanced⟩
    use := .received flow protoLen advanced }

/-- The end of a round in which the callback has processed some bytes: `buff_blob_.len = proto_len`
and `skip`, which moves the first byte that has not been processed. -/
def skipBlob (state : BlobPoll κ) (flow : κ) (protoLen advanced : Nat) : BlobPoll κ :=
  let content := (state.cache flow).getD []
  { state with
    cache := Function.update state.cache flow (some (content.drop protoLen))
    blob := ⟨protoLen, .read flow (advanced - protoLen)⟩ }

/-- A round of the receive part of `poll` with bytes. -/
def recvRound (state : BlobPoll κ) (flow : κ) (bytes : List UInt8) (protoLen : Int)
    (advanced : Nat) : BlobPoll κ :=
  let state := state.fillBlob flow bytes protoLen advanced
  if protoLen = 0 then
    state
  else if protoLen > 0 then
    state.skipBlob flow protoLen.toNat advanced
  else
    state.closeconn flow

/-- The blob and the caches after an event. -/
def perform (state : BlobPoll κ) : BlobEvent κ → BlobPoll κ
  | .accept flow none => state.addconn flow
  | .accept flow (some true) => (state.addconn flow).emptyBlob
  | .accept flow (some false) => (state.addconn flow).emptyBlob.closeconn flow
  | .acceptUdp flow bytes connected advanced =>
      if connected = some false then
        ((state.addconn flow).fillBlob flow bytes 0 0).closeconn flow
      else
        (state.addconn flow).fillBlob flow bytes 0 advanced
  | .overload => state.emptyBlob
  | .checkExpire flows true => flows.foldl closeconn state.emptyBlob
  | .checkExpire flows false => flows.foldl closeconn state
  | .sendDone len => { state with blob := ⟨len, .sent⟩, use := .sent }
  | .sendError flow len => { state with blob := ⟨len, .sent⟩, use := .sent }.closeconn flow
  | .recv flow bytes protoLen advanced => state.recvRound flow bytes protoLen advanced
  | .disconnect flow => state.emptyBlob.closeconn flow
  | .close flow => state.closeconn flow

/-- A connection that is made is new, and a connection that receives or is disconnected is open. -/
def Possible (state : BlobPoll κ) : BlobEvent κ → Prop
  | .accept flow _ | .acceptUdp flow _ _ _ => state.known flow = false
  | .recv flow _ _ _ | .disconnect flow => (state.cache flow).isSome
  | _ => True

/-- Runs of possible events. -/
def Reaches (state : BlobPoll κ) : Prop :=
  Relation.ReflTransGen
    (fun before after => ∃ event, before.Possible event ∧ after = before.perform event) start state

/-- A blob is the unprocessed data of a connection, and empty if there is none. -/
def Belongs (flow : κ) (content : List UInt8) (blob : BuffBlob κ) : Prop :=
  blob.len = content.length ∧ (content ≠ [] → blob.data = .read flow 0)

/-- What `ator_disconnect` forwards, if `spp_handle_close` retains it. -/
def atorDisconnect (retains : Bool) (blob : BuffBlob κ) : Option (BuffBlob κ) :=
  if blob.len = 0 ∨ retains = false then none else some blob

/-- The blob fits a connection: the last use was a receive of this connection, and the callback has
processed nothing, or as many bytes as are left and it has moved the start behind them; or the blob
is empty and there is no data. -/
def Fitting (state : BlobPoll κ) (flow : κ) (content : List UInt8) : Prop :=
  match state.use with
  | .received other protoLen advanced =>
      if other = flow then
        if protoLen > 0 then (advanced : Int) = protoLen ∧ (content.length : Int) = protoLen
        else advanced = 0
      else state.blob.len = 0 ∧ content = []
  | .emptied | .sent => state.blob.len = 0 ∧ content = []

/-! ## What every event keeps -/

/-- The blob shows the bytes of its last use. -/
def Described (state : BlobPoll κ) : Prop :=
  match state.use with
  | .emptied => state.blob.data = .nowhere
  | .sent => state.blob.data = .sent
  | .received flow protoLen advanced => state.known flow = true ∧
      (∃ offset, state.blob.data = .read flow offset) ∧
      ∀ content, state.cache flow = some content → state.blob =
        if protoLen > 0 then ⟨protoLen, .read flow (advanced - protoLen)⟩
        else ⟨content.length - advanced, .read flow advanced⟩

/-- The blob shows what it was last used for. -/
structure Sound (state : BlobPoll κ) : Prop where
  described : state.Described
  known : ∀ flow content, state.cache flow = some content → state.known flow = true

variable {state : BlobPoll κ} {flow : κ} {content : List UInt8}

omit [DecidableEq κ] in
/-- The blob does not change, and of the connections that have been known none gets a cache. -/
theorem Described.of_cache {after : BlobPoll κ} (described : state.Described)
    (use_eq : after.use = state.use) (blob_eq : after.blob = state.blob)
    (known : ∀ flow, state.known flow = true → after.known flow = true)
    (cache : ∀ flow content, state.known flow = true → after.cache flow = some content →
      state.cache flow = some content) : after.Described := by
  unfold Described at described ⊢
  rw [use_eq, blob_eq]
  cases use : state.use with
  | emptied | sent =>
      rw [use] at described
      exact described
  | received flow protoLen advanced =>
      rw [use] at described
      obtain ⟨flow_known, offset, blob_of⟩ := described
      exact ⟨known flow flow_known, offset, fun content found =>
        blob_of content (cache flow content flow_known found)⟩

theorem cache_of_closeconn {other : κ} (found : (state.closeconn flow).cache other = some content) :
    state.cache other = some content := by
  have found : Function.update state.cache flow none other = some content := found
  by_cases same : other = flow
  · rw [same, Function.update_self] at found
    cases found
  · exact (Function.update_of_ne same ..).symm.trans found

theorem Sound.closeconn (sound : Sound state) (flow : κ) : Sound (state.closeconn flow) where
  described := sound.described.of_cache rfl rfl (fun _ known => known) fun _ _ _ =>
    cache_of_closeconn
  known other content found := sound.known other content (cache_of_closeconn found)

theorem Sound.foldl_closeconn (sound : Sound state) (flows : List κ) :
    Sound (flows.foldl BlobPoll.closeconn state) := by
  induction flows generalizing state with
  | nil => exact sound
  | cons flow flows induction => exact induction (sound.closeconn flow)

omit [DecidableEq κ] in
theorem Sound.emptyBlob (sound : Sound state) : Sound state.emptyBlob := ⟨rfl, sound.known⟩

theorem Sound.addconn (sound : Sound state) (new : state.known flow = false) :
    Sound (state.addconn flow) := by
  have known : ∀ other, state.known other = true → (state.addconn flow).known other = true := by
    intro other known
    show Function.update state.known flow true other = true
    rw [Function.update_apply, known, ite_self]
  have still : ∀ other content, other ≠ flow → (state.addconn flow).cache other = some content →
      state.cache other = some content := fun other content different found =>
    (Function.update_of_ne different ..).symm.trans found
  refine ⟨sound.described.of_cache rfl rfl known fun other content other_known found => ?_,
    fun other content found => ?_⟩
  · refine still other content (fun same => ?_) found
    rw [same, new] at other_known
    cases other_known
  · by_cases same : other = flow
    · rw [same]
      exact Function.update_self ..
    · exact known other (sound.known other content (still other content same found))

theorem Sound.known_update (sound : Sound state) (known : state.known flow = true)
    (after : Option (List UInt8)) (other : κ) (content : List UInt8)
    (found : Function.update state.cache flow after other = some content) :
    state.known other = true := by
  by_cases same : other = flow
  · exact same ▸ known
  · exact sound.known other content ((Function.update_of_ne same ..).symm.trans found)

theorem Sound.fillBlob (sound : Sound state) (known : state.known flow = true)
    (bytes : List UInt8) {protoLen : Int} (none_processed : ¬protoLen > 0) (advanced : Nat) :
    Sound (state.fillBlob flow bytes protoLen advanced) := by
  refine ⟨⟨known, ⟨_, rfl⟩, fun content found => ?_⟩, sound.known_update known _⟩
  have found : Function.update state.cache flow _ flow = some content := found
  rw [Function.update_self] at found
  rw [if_neg none_processed, ← Option.some.inj found]
  rfl

theorem Sound.recvRound (sound : Sound state) (known : state.known flow = true)
    (bytes : List UInt8) (protoLen : Int) (advanced : Nat) :
    Sound (state.recvRound flow bytes protoLen advanced) := by
  rw [BlobPoll.recvRound]
  split
  · rename_i incomplete
    exact sound.fillBlob known bytes (by omega) advanced
  · split
    · rename_i positive
      refine ⟨⟨known, ⟨_, rfl⟩, fun content found => ?_⟩, fun other content found => ?_⟩
      · rw [if_pos positive]
        show (⟨(protoLen.toNat : Int), .read flow (advanced - (protoLen.toNat : Int))⟩ :
          BuffBlob κ) = _
        rw [Int.toNat_of_nonneg positive.le]
      · have found : Function.update (Function.update state.cache flow _) flow _ other =
          some content := found
        rw [Function.update_idem] at found
        exact sound.known_update known _ other content found
    · rename_i invalid
      exact (sound.fillBlob known bytes invalid advanced).closeconn flow

theorem Sound.perform (sound : Sound state) {event : BlobEvent κ}
    (possible : state.Possible event) :
    Sound (state.perform event) := by
  cases event with
  | accept flow connected =>
      have added := sound.addconn possible
      cases connected with
      | none => exact added
      | some takes =>
          cases takes with
          | true => exact added.emptyBlob
          | false => exact added.emptyBlob.closeconn flow
  | acceptUdp flow bytes connected advanced =>
      have added := sound.addconn possible
      have known : (state.addconn flow).known flow = true := Function.update_self ..
      rw [BlobPoll.perform]
      split
      · exact (added.fillBlob known bytes (by decide) 0).closeconn flow
      · exact added.fillBlob known bytes (by decide) advanced
  | overload => exact sound.emptyBlob
  | checkExpire flows timeout =>
      cases timeout with
      | true => exact sound.emptyBlob.foldl_closeconn flows
      | false => exact sound.foldl_closeconn flows
  | sendDone len => exact ⟨rfl, sound.known⟩
  | sendError flow len =>
      have sent : Sound { state with blob := ⟨len, .sent⟩, use := .sent } := ⟨rfl, sound.known⟩
      exact sent.closeconn flow
  | recv flow bytes protoLen advanced =>
      obtain ⟨content, opened⟩ := Option.isSome_iff_exists.1 possible
      exact sound.recvRound (sound.known flow content opened) bytes protoLen advanced
  | disconnect flow => exact sound.emptyBlob.closeconn flow
  | close flow => exact sound.closeconn flow

theorem Reaches.sound (reaches : Reaches state) : Sound state := by
  induction reaches with
  | refl => exact ⟨rfl, fun _ _ found => nomatch found⟩
  | tail _ step sound =>
      obtain ⟨event, possible, rfl⟩ := step
      exact sound.perform possible

omit [DecidableEq κ] in
/-- A blob of another place belongs to a connection only if there is nothing. -/
theorem belongs_elsewhere {blob : BuffBlob κ} (elsewhere : blob.data ≠ .read flow 0) :
    Belongs flow content blob ↔ blob.len = 0 ∧ content = [] := by
  constructor
  · rintro ⟨len_eq, data_eq⟩
    have content_eq : content = [] := by
      by_contra some_data
      exact elsewhere (data_eq some_data)
    rw [content_eq] at len_eq
    exact ⟨len_eq, content_eq⟩
  · rintro ⟨len_eq, rfl⟩
    exact ⟨len_eq, fun some_data => absurd rfl some_data⟩

omit [DecidableEq κ] in
theorem belongs_received (flow : κ) (content : List UInt8) (protoLen : Int) (advanced : Nat) :
    Belongs flow content (if protoLen > 0 then ⟨protoLen, .read flow (advanced - protoLen)⟩
        else ⟨content.length - advanced, .read flow advanced⟩) ↔
      if protoLen > 0 then (advanced : Int) = protoLen ∧ (content.length : Int) = protoLen
      else advanced = 0 := by
  split
  · rename_i positive
    constructor
    · rintro ⟨len_eq, data_eq⟩
      have len_eq : protoLen = content.length := len_eq
      have offset_eq : (advanced : Int) - protoLen = 0 :=
        (BlobData.read.inj (data_eq (List.ne_nil_of_length_pos (by omega)))).2
      exact ⟨by omega, len_eq.symm⟩
    · rintro ⟨advanced_eq, len_eq⟩
      refine ⟨len_eq.symm, fun _ => ?_⟩
      rw [advanced_eq, sub_self]
  · constructor
    · rintro ⟨len_eq, -⟩
      have len_eq : (content.length : Int) - advanced = content.length := len_eq
      omega
    · rintro rfl
      exact ⟨sub_zero _, fun _ => rfl⟩

/-- At every state of a run, `CB_DISCONNECT` of an open connection gets the unprocessed data of the
connection if and only if the blob fits; then `ator_disconnect` forwards this data or nothing. -/
theorem reaches_belongs_iff (reaches : Reaches state) {content : List UInt8}
    (opened : state.cache flow = some content) :
    (Belongs flow content state.blob ↔ state.Fitting flow content) ∧
      (state.Fitting flow content → ∀ retains, atorDisconnect retains state.blob = none ∨
        atorDisconnect retains state.blob = some ⟨content.length, .read flow 0⟩) := by
  have described := reaches.sound.described
  have belongs_iff : Belongs flow content state.blob ↔ state.Fitting flow content := by
    unfold Described at described
    unfold Fitting
    cases use : state.use with
    | emptied | sent =>
        rw [use] at described
        refine belongs_elsewhere ?_
        rw [described]
        exact nofun
    | received other protoLen advanced =>
        rw [use] at described
        obtain ⟨-, ⟨offset, data_eq⟩, blob_of⟩ := described
        dsimp only
        split
        · rename_i same
          rw [blob_of content (same ▸ opened), same]
          exact belongs_received ..
        · rename_i different
          refine belongs_elsewhere ?_
          rw [data_eq]
          intro same
          exact different (BlobData.read.inj same).1
  refine ⟨belongs_iff, fun fitting retains => ?_⟩
  obtain ⟨len_eq, data_eq⟩ := belongs_iff.2 fitting
  rw [atorDisconnect]
  split
  · exact Or.inl rfl
  · rename_i forwards
    refine Or.inr (congrArg some ?_)
    have some_data : content ≠ [] := by
      rintro rfl
      exact forwards (Or.inl len_eq)
    rw [← len_eq, ← data_eq some_data]

/-- Connection 1 has received a part of a packet, and connection 2 is open as well. -/
def partOfOne : BlobPoll Nat :=
  ((start.perform (.accept 1 none)).perform (.accept 2 none)).perform (.recv 1 [7, 8, 9] 0 0)

theorem reaches_partOfOne : Reaches partOfOne := by
  have first : Reaches (start.perform (.accept 1 none)) :=
    Relation.ReflTransGen.single ⟨.accept 1 none, rfl, rfl⟩
  have second : Reaches ((start.perform (.accept 1 none)).perform (.accept 2 none)) :=
    Relation.ReflTransGen.tail first ⟨.accept 2 none, rfl, rfl⟩
  exact Relation.ReflTransGen.tail second ⟨.recv 1 [7, 8, 9] 0 0, rfl, rfl⟩

theorem reaches_belongs_one : Belongs 1 [7, 8, 9] partOfOne.blob ∧
    ∀ retains, atorDisconnect retains partOfOne.blob = none ∨
      atorDisconnect retains partOfOne.blob = some ⟨3, .read 1 0⟩ := by
  have found : partOfOne.cache 1 = some [7, 8, 9] := rfl
  obtain ⟨belongs_iff, forwards⟩ := reaches_belongs_iff reaches_partOfOne found
  exact ⟨belongs_iff.2 rfl, forwards rfl⟩

/-- Connection 2 is disconnected without having received a byte, and the three bytes of connection 1
are forwarded for it. -/
theorem disconnect_forwards_other :
    partOfOne.cache 2 = some [] ∧ ¬Belongs 2 [] partOfOne.blob ∧
      atorDisconnect true partOfOne.blob = some ⟨3, .read 1 0⟩ :=
  ⟨rfl, fun belongs => absurd belongs.1 (by decide), by decide⟩

end BlobPoll

/-! ## The rounds of `poll` -/

namespace CTSockCommu

variable {ι γ : Type} {commu after : CTSockCommu} {flow : Nat} {conn : ConnCache}

/-- The bytes of an open connection that have been received and not been processed. -/
def unprocessed (commu : CTSockCommu) (flow : Nat) : Option (List UInt8) :=
  if commu.conns.Unknown flow then none else some (commu.conns.getcc flow).r.content

/-- The connection of a flow changes or is closed. -/
theorem unprocessed_of_ccs (known : ¬commu.conns.Unknown flow)
    (ccs_eq : after.conns.ccs = (commu.conns.setcc flow conn).ccs)
    (maxconn_eq : after.conns.maxconn = commu.conns.maxconn)
    (flow_eq : conn.flow = flow ∨ conn.flow = 0) :
    after.unprocessed = Function.update commu.unprocessed flow
      (if conn.flow = flow then some conn.r.content else none) := by
  funext other
  have getcc_eq : after.conns.getcc other =
      if other % commu.conns.maxconn = flow % commu.conns.maxconn then conn
      else commu.conns.getcc other := by
    rw [CConnSet.getcc, ccs_eq, maxconn_eq]
    exact Function.update_apply ..
  rw [Function.update_apply]
  grind [unprocessed, CConnSet.Unknown, CConnSet.getcc]

theorem unprocessed_withConn (known : ¬commu.conns.Unknown flow) (flow_eq : conn.flow = flow) :
    (commu.withConn flow conn).unprocessed =
      Function.update commu.unprocessed flow (some conn.r.content) := by
  have moved : (commu.withConn flow conn).unprocessed = _ :=
    unprocessed_of_ccs known rfl rfl (Or.inl flow_eq)
  rwa [if_pos flow_eq] at moved

theorem unprocessed_closeconn (known : ¬commu.conns.Unknown flow) :
    (commu.closeconn flow).unprocessed = Function.update commu.unprocessed flow none := by
  have ccs_eq : (commu.closeconn flow).conns.ccs =
      (commu.conns.setcc flow (commu.conns.getcc flow).close).ccs := by
    simp only [closeconn, CConnSet.closeconn, if_neg known]
  have maxconn_eq : (commu.closeconn flow).conns.maxconn = commu.conns.maxconn := by
    simp only [closeconn, CConnSet.closeconn, if_neg known]
    rfl
  have open_flow : ¬0 = flow := fun zero => known (Or.inr zero.symm)
  rw [unprocessed_of_ccs known ccs_eq maxconn_eq (Or.inr rfl)]
  exact congrArg _ (if_neg open_flow)

variable {blob : BlobPoll Nat} {bytes : List UInt8} {protoLen : Int} {state : γ}

/-- The end of a round with bytes is that of `recvRound`. -/
theorem recvdataDone_recvRound (known : ¬commu.conns.Unknown flow)
    (sound : (commu.conns.getcc flow).r.Sound)
    (cache_eq : commu.unprocessed =
      Function.update blob.cache flow (some ((blob.cache flow).getD [] ++ bytes)))
    (int : protoLen < 2147483648) (advanced : Nat) :
    (commu.recvdataDone flow protoLen state).commu.unprocessed =
      (blob.recvRound flow bytes protoLen advanced).cache := by
  have content_eq : commu.unprocessed flow = some (commu.conns.getcc flow).r.content := if_neg known
  rw [cache_eq, Function.update_self, Option.some.injEq] at content_eq
  unfold recvdataDone BlobPoll.recvRound
  split
  · exact cache_eq
  · split
    · have length_eq : u32 protoLen = protoLen.toNat := by
        unfold u32
        omega
      have flow_eq : (commu.conns.getcc flow).flow = flow := by
        by_contra other
        exact known (Or.inl other)
      dsimp only
      rw [unprocessed_withConn known (by exact flow_eq), cache_eq, CRawCache.content_skip sound,
        ← content_eq, length_eq, Function.update_idem]
      simp [BlobPoll.skipBlob, BlobPoll.fillBlob]
    · rw [unprocessed_closeconn known, cache_eq, Function.update_idem]
      simp [BlobPoll.closeconn, BlobPoll.fillBlob]

/-- A round of `poll` that receives bytes does to the read caches what `recvRound` does. -/
theorem pollRecvOnce_recvRound {recvdata : ι → TConnExtInfo → List UInt8 → γ → Option (Int × γ)}
    {input : RecvInput ι} {after : γ} (known : ¬commu.conns.Unknown flow)
    (sound : (commu.conns.getcc flow).r.Sound)
    (open_bit : (commu.conns.getcc flow).r.finBit = false)
    (small : bytes.length + (commu.conns.getcc flow).r.dataHead +
      (commu.conns.getcc flow).r.dataLen < 4294967296)
    (received : input.outcome = .received bytes) (some_bytes : bytes ≠ [])
    (memory : input.fresh ≠ none)
    (called : recvdata input.callback ((commu.conns.getcc flow).touch input.now).info
      ((commu.conns.getcc flow).r.content ++ bytes) state = some (protoLen, after))
    (int : protoLen < 2147483648) (cache_eq : commu.unprocessed = blob.cache) (advanced : Nat) :
    ∃ polled, commu.pollRecvOnce recvdata flow state input = some polled ∧
      polled.commu.unprocessed = (blob.recvRound flow bytes protoLen advanced).cache := by
  obtain ⟨appended, append_eq, appends, throws⟩ :=
    CRawCache.append_eq sound open_bit input.fresh small
  have returns : appended.thrown = false := by
    by_contra thrown
    exact memory (throws (by simpa using thrown))
  have content_eq := appends.content_eq
  rw [returns, if_neg Bool.false_ne_true] at content_eq
  let conn := { (commu.conns.getcc flow).touch input.now with r := appended.cache }
  have flow_eq : conn.flow = flow := by
    by_contra other
    exact known (Or.inl other)
  have known_after : ¬(commu.withConn flow conn).conns.Unknown flow := by
    rw [CConnSet.Unknown, withConn_getcc, flow_eq]
    exact fun unknown => known (Or.inr (unknown.resolve_left (not_not.2 rfl)))
  have cached : commu.unprocessed flow = some (commu.conns.getcc flow).r.content := if_neg known
  refine ⟨(commu.withConn flow conn).recvdataDone flow protoLen after, ?_, ?_⟩
  · have positive : (conn.recvdLen bytes.length) > 0 ∨ conn.recvdLen bytes.length = -eRecvDone := by
      rw [ConnCache.recvdLen]
      split
      · exact Or.inr rfl
      · exact Or.inl (Int.natCast_pos.2 (List.length_pos_iff.2 some_bytes))
    have recv_eq : (commu.conns.getcc flow).recv input.now input.outcome input.fresh =
        some ⟨some (conn.recvdLen bytes.length), conn⟩ := by
      simp only [ConnCache.recv, received, if_neg some_bytes]
      refine Option.bind_eq_some_iff.2 ⟨appended, append_eq, ?_⟩
      rw [returns]
      rfl
    have data_eq : ((commu.withConn flow conn).conns.getcc flow).r.data =
        some ((commu.conns.getcc flow).r.content ++ bytes) := by
      rw [withConn_getcc, ← content_eq]
      exact appends.sound.data_eq
    simp only [pollRecvOnce, CConnSet.recv, if_neg known, recv_eq, Option.bind_eq_bind,
      Option.bind_some, Option.pure_def, Option.getD_some, if_pos positive]
    refine Option.bind_eq_some_iff.2 ⟨_, data_eq,
      Option.bind_eq_some_iff.2 ⟨(protoLen, after), ?_, rfl⟩⟩
    dsimp only
    rw [getcc_setcc]
    exact called
  · refine recvdataDone_recvRound known_after ?_ ?_ int advanced
    · rw [withConn_getcc]
      exact appends.sound
    · rw [unprocessed_withConn known flow_eq, cache_eq, content_eq, ← cache_eq, cached]
      rfl

end CTSockCommu

end Spp

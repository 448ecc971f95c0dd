import Spp.Nest.ChannelRecv

/-!
# Both ends of a link

A proxy and a worker are connected by a channel at each end.  One end calls `SendEx`, `Send` and
`SendCache`, the other one `Recv` and `RecvCache`, in any order and with any results of the system
calls; the socket keeps what it has accepted until `recv` gives it to the other end.
-/

namespace Spp

open TNestChannel ChannelRun

/-- One direction of a link. -/
structure NestLink where
  /-- The end that sends. -/
  channel : TNestChannel
  /-- The bytes in the socket. -/
  transit : List UInt8
  /-- The read cache of the other end. -/
  r : CRawCache
  /-- The messages of the calls that did not fail. -/
  sent : List NestSent
  handled : List HandledMsg

namespace NestLink

/-- A new link. -/
def start : NestLink := ⟨connected, [], .init, [], []⟩

/-- The other end, with the bytes that the socket can give. -/
def receiver (link : NestLink) : ChannelRun := ⟨link.r, link.transit, link.handled⟩

/-- One call at one of the ends. -/
inductive Step : NestLink → NestLink → Prop where
  /-- `SendEx` or `Send` with a message. -/
  | send {link : NestLink} {call : SendCall} {message : NestSent} {result : Sent}
      (passes : call.passed = message.bytes) (fits : message.Fits) (safe : call.Safe link.channel)
      (performs : call.perform link.channel = some result) :
      Step link
        { link with
          channel := result.channel
          transit := link.transit ++ result.accepted
          sent := link.sent ++ if 0 ≤ result.ret then [message] else [] }
  /-- `SendCache`, when the socket is writable. -/
  | flush {link : NestLink} {outcome : WriteOutcome} {retry : Bool} {result : Sent}
      (performs : link.channel.sendCache outcome retry = some result) :
      Step link
        { link with channel := result.channel, transit := link.transit ++ result.accepted }
  /-- `Recv` or `RecvCache`. -/
  | receive {link : NestLink} {call : RecvCall} {input : ChannelInput}
      (safe : call.Safe link.receiver) (performs : call.perform link.receiver = some input) :
      Step link
        { link with
          transit := link.transit.drop call.count
          r := input.r
          handled := link.handled ++ input.handled }

/-- Runs of both ends from a new link. -/
def Reaches : NestLink → Prop := Relation.ReflTransGen Step start

/-! ## The bytes on their way -/

/-- The other end, if the socket had accepted everything. -/
def flushed (link : NestLink) : ChannelRun :=
  ⟨link.r, link.transit ++ link.channel.w.content, link.handled⟩

/-- What has left the sender is what the receiver has handled or will read. -/
structure Valid (link : NestLink) : Prop where
  output : Output.Holds ⟨link.channel, [], link.channel.w.content⟩
  fits : ∀ message ∈ link.sent, message.Fits
  input : Holds link.sent link.flushed

theorem valid_start : start.Valid where
  output := Output.holds_start
  fits := nofun
  input := holds_start []

variable {link next : NestLink}

theorem Holds.append {messages : List NestSent} {state : ChannelRun}
    (holds : Holds messages state) (more : List NestSent) :
    Holds (messages ++ more)
      { state with coming := state.coming ++ more.flatMap NestSent.bytes } := by
  obtain ⟨rest, handled_eq, ⟨front, rfl⟩, stream⟩ := holds.inStream
  refine ⟨holds.modest, holds.few, rest ++ more, ?_, ⟨front, by simp⟩, ?_⟩
  · rw [List.map_append, handled_eq, List.map_append, List.append_assoc]
  · rw [← List.append_assoc, stream, List.flatMap_append]

/-- A call at the sending end hands over the bytes of `more`, or it fails and hands over none. -/
theorem Valid.sends (valid : link.Valid) {call : SendCall} {result : Sent} {more : List NestSent}
    (passes : call.passed = more.flatMap NestSent.bytes) (fits : ∀ message ∈ more, message.Fits)
    (safe : call.Safe link.channel) (performs : call.perform link.channel = some result) :
    Valid { link with
      channel := result.channel
      transit := link.transit ++ result.accepted
      sent := link.sent ++ if 0 ≤ result.ret then more else [] } := by
  have after := valid.output.step safe ⟨result, performs, rfl⟩
  have handed : result.accepted ++ result.channel.w.content = link.channel.w.content ++
      (if 0 ≤ result.ret then more else []).flatMap NestSent.bytes := by
    refine after.passed_eq.trans (congrArg (link.channel.w.content ++ ·) ?_)
    rw [passes]
    split <;> rfl
  refine ⟨{ after with passed_eq := rfl }, ?_, ?_⟩
  · intro message member
    rcases List.mem_append.mp member with old | new
    · exact valid.fits message old
    · split at new
      · exact fits message new
      · cases new
  · have input := Holds.append valid.input (if 0 ≤ result.ret then more else [])
    rwa [flushed, List.append_assoc, ← handed, ← List.append_assoc] at input

/-- A call at the other end takes its bytes from the socket. -/
theorem perform_flushed {call : RecvCall} (safe : call.Safe link.receiver) :
    call.Safe link.flushed ∧ call.perform link.flushed = call.perform link.receiver ∧
      link.flushed.coming.drop call.count =
        link.transit.drop call.count ++ link.channel.w.content := by
  cases call with
  | recv count fresh =>
      obtain ⟨⟨positive, most, enough⟩, few⟩ := safe
      change count ≤ link.transit.length at enough
      refine ⟨⟨⟨positive, most, ?_⟩, few⟩, ?_, List.drop_append_of_le_length enough⟩
      · exact enough.trans (by simp [flushed])
      · rw [RecvCall.perform, RecvCall.perform, flushed, receiver,
          List.take_append_of_le_length enough]
  | recvCache block => exact ⟨safe, rfl, rfl⟩

theorem Valid.step (valid : link.Valid) (step : link.Step next) : next.Valid := by
  cases step with
  | @send call message result passes fits safe performs =>
      exact valid.sends (by simpa using passes) (by simpa using fits) safe performs
  | @flush outcome retry result performs =>
      have sends := @Valid.sends _ valid (.sendCache outcome retry) result [] rfl nofun
        ⟨valid.output.few, fun retries => retries.elim⟩ performs
      simpa using sends
  | @receive call input safe performs =>
      obtain ⟨safe, same, left⟩ := perform_flushed safe
      rw [← same] at performs
      have holds := ((valid.input.perform valid.fits safe).of_some performs).holds
      rw [left] at holds
      exact ⟨valid.output, valid.fits, holds⟩

/-- In every interleaving the messages arrive in the order of the calls, each with its header and
its body.  While bytes are not written the output event is enabled, and when all bytes are written
and read, `RecvCache` handles all messages that are left. -/
theorem reaches_delivered (reaches : link.Reaches) :
    link.handled <+: link.sent.map NestSent.handled ∧
      (link.channel.oldEvents = true ↔ link.channel.w.content ≠ []) ∧
      (link.channel.w.content = [] → link.transit = [] →
        ∃ input, link.r.recvCache true = some input ∧
          link.handled ++ input.handled = link.sent.map NestSent.handled) := by
  have valid : link.Valid := by
    induction reaches with
    | refl => exact valid_start
    | tail _ step induction => exact induction.step step
  refine ⟨?_, valid.output.output.2, fun written read => ?_⟩
  · obtain ⟨rest, handled_eq, -⟩ := valid.input.inStream
    exact ⟨_, handled_eq.symm⟩
  · have safe : RecvCall.Safe link.flushed (.recvCache true) := ⟨trivial, valid.input.few⟩
    obtain ⟨input, performs, handles⟩ | ⟨-, impossible⟩ := valid.input.perform valid.fits safe
    · refine ⟨input, performs, handles.all true rfl ?_⟩
      rw [flushed, written, read]
      rfl
    · exact impossible.elim

/-- The socket accepts a part of a registration. -/
def registered : Sent :=
  (connected.send (.accepted 40) zeros (NestSent.doConnected 1).bytes).get (by decide)

/-- The socket accepts the rest of it. -/
def completed : Sent := (registered.channel.sendCache (.accepted 8) false).get (by decide)

/-- All bytes are received at once. -/
def readAll : ChannelInput :=
  (CRawCache.init.recv (some fun _ => 0)
    (.received ((registered.accepted ++ completed.accepted).take 48))).get (by decide)

theorem reaches_delivered_registered :
    ∃ link : NestLink, link.Reaches ∧ link.sent = [.doConnected 1] ∧ link.transit = [] ∧
      link.channel.oldEvents = false ∧
      ∃ input, link.r.recvCache true = some input ∧
        link.handled ++ input.handled = [(NestSent.doConnected 1).handled] := by
  have first : Reaches ⟨registered.channel, registered.accepted, .init, [.doConnected 1], []⟩ := by
    have accepted : 0 ≤ registered.ret := by decide
    have step := @Step.send start (.send (.accepted 40) zeros (NestSent.doConnected 1).bytes)
      (.doConnected 1) registered rfl (by unfold NestSent.Fits; decide)
      ⟨by decide, fun retry => nomatch retry⟩ (Option.some_get _).symm
    rw [if_pos accepted] at step
    exact .single step
  have flushes : registered.channel.sendCache (.accepted 8) false = some completed :=
    (Option.some_get _).symm
  have reads : CRawCache.init.recv (some fun _ => 0)
      (.received ((registered.accepted ++ completed.accepted).take 48)) = some readAll :=
    (Option.some_get _).symm
  have second := first.tail (Step.flush flushes)
  have third := second.tail (@Step.receive _ (.recv 48 (some fun _ => 0)) _
    ⟨⟨by decide, by decide, by decide⟩, by decide⟩ reads)
  have written : completed.channel.w.content = [] := by decide
  have empty : (registered.accepted ++ completed.accepted).drop 48 = [] := by decide
  obtain ⟨-, -, all⟩ := reaches_delivered third
  exact ⟨_, third, rfl, empty, by decide, all written empty⟩

end NestLink
end Spp

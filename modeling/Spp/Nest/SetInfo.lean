import Spp.Lib.Executions
import Spp.Lib.MachineInt
import Mathlib.Data.List.GetD
import Mathlib.Data.List.TakeWhile

/-!
# The set of the agent, `CAgentProxy` and `TAgentNetMng`

The agent of `nest/agent/nest_agent.cpp` keeps the id of its set and the addresses of the servers
three times: in `CAgentProxy`, in `TAgentNetMng`, which is connected to one of the servers, and in a
text file that `LoadSetInfo` reads after a restart.

`UpdateSetInfo` writes the file before it tells `TAgentNetMng`, and takes back what it has done if
the file cannot be opened.  `ClearSetInfo` tells `TAgentNetMng` first, and does not take that back.
-/

namespace Spp

/-- An IPv4 `TNestAddress`: the bytes that are compared. -/
structure TNestAddress where
  ip : UInt8 × UInt8 × UInt8 × UInt8
  port : UInt16
  zero : UInt64
  deriving DecidableEq

/-- `%u` -/
def decimal (number : Nat) : List Char := Nat.toDigits 10 number

/-- `IPString` -/
def TNestAddress.ipString (addr : TNestAddress) : List Char :=
  decimal addr.ip.1.toNat ++ '.' :: (decimal addr.ip.2.1.toNat ++ '.' ::
    (decimal addr.ip.2.2.1.toNat ++ '.' :: decimal addr.ip.2.2.2.toNat))

/-! ## The connection to a server -/

/-- `TAgentNetMng` -/
structure TAgentNetMng where
  setid : UInt32
  serverAddrs : List TNestAddress
  server : TNestAddress
  serverIndex : Nat
  retryCount : Nat
  /-- `_keep_conn` is not `NULL`. -/
  keepConn : Bool

namespace TAgentNetMng

/-- `ChangeServerAddr` -/
def changeServerAddr (net : TAgentNetMng) : TAgentNetMng :=
  match net.serverAddrs with
  | [] => net
  | first :: _ =>
      let next := u32 (net.serverIndex + 1)
      let index := if net.serverAddrs.length ≤ next then 0 else next
      { net with serverIndex := index, server := net.serverAddrs.getD index first }

/-- `CheckKeepAlive`: whether `InitKeepChannel` works and whether the channel is connected are
arguments. -/
def checkKeepAlive (net : TAgentNetMng) (channel connected : Bool) : TAgentNetMng :=
  if net.keepConn = false ∧ channel = false then net
  else
    let net := { net with keepConn := true }
    if connected ∨ net.serverAddrs = [] then net
    else
      let net := if 10 < net.retryCount then { net.changeServerAddr with retryCount := 0 } else net
      { net with retryCount := net.retryCount + 1 }

/-- `UpdateSetInfo`; `shuffled` is what `random_shuffle` makes of the servers. -/
def updateSetInfo (net : TAgentNetMng) (setid : UInt32) (shuffled : List TNestAddress)
    (channel : Bool) : TAgentNetMng :=
  let net := { net with setid, serverAddrs := shuffled }
  if net.server ∈ shuffled then net
  else
    let net := { net with keepConn := false }
    let net := match shuffled with
      | [] => net
      | first :: _ => { net with server := first, serverIndex := 0 }
    checkKeepAlive { net with retryCount := 0 } channel false

/-- The server in use is one of the list. -/
def Connected (net : TAgentNetMng) : Prop := net.serverAddrs ≠ [] → net.server ∈ net.serverAddrs

/-- The set is this one, and the connection is to one of its servers. -/
structure Holds (net : TAgentNetMng) (setid : UInt32) (servers : List TNestAddress) : Prop where
  setid_eq : net.setid = setid
  servers_eq : net.serverAddrs = servers
  connected : net.Connected

variable {net : TAgentNetMng} {setid : UInt32} {servers : List TNestAddress}

theorem Holds.changeServerAddr (holds : net.Holds setid servers) :
    net.changeServerAddr.Holds setid servers := by
  rw [TAgentNetMng.changeServerAddr]
  split
  case h_1 => exact holds
  case h_2 first rest addrs_eq =>
    refine ⟨holds.setid_eq, holds.servers_eq, fun _ => ?_⟩
    show net.serverAddrs.getD _ first ∈ net.serverAddrs
    rw [List.getD_eq_getElem _ _ (by rw [addrs_eq]; split <;> simp_all)]
    exact List.getElem_mem _

theorem Holds.checkKeepAlive (holds : net.Holds setid servers) (channel connected : Bool) :
    (net.checkKeepAlive channel connected).Holds setid servers := by
  have opened : { net with keepConn := true : TAgentNetMng }.Holds setid servers :=
    { holds with }
  rw [TAgentNetMng.checkKeepAlive]
  split
  · exact holds
  · dsimp only
    split
    · exact opened
    · split
      · exact { opened.changeServerAddr with }
      · exact { opened with }

theorem holds_updateSetInfo (net : TAgentNetMng) (setid : UInt32) (shuffled : List TNestAddress)
    (channel : Bool) : (net.updateSetInfo setid shuffled channel).Holds setid shuffled := by
  rw [TAgentNetMng.updateSetInfo]
  split
  case isTrue member => exact ⟨rfl, rfl, fun _ => member⟩
  case isFalse =>
    refine Holds.checkKeepAlive ?_ channel false
    cases shuffled with
    | nil => exact ⟨rfl, rfl, fun ne => absurd rfl ne⟩
    | cons first rest => exact ⟨rfl, rfl, fun _ => List.mem_cons_self⟩

end TAgentNetMng

/-! ## The file -/

/-- `isspace` -/
def isSpace (char : Char) : Bool := char ∈ [' ', '\t', '\n', '\x0b', '\x0c', '\r']

/-- A string that `%s` stores in a buffer of 16 bytes. -/
def scanToken (text : List Char) : Option (List Char) :=
  let token := (text.dropWhile isSpace).takeWhile fun char => ¬isSpace char
  if token.length < 16 then some token else none

/-- `[SET_ID]` -/
def setIdLabel : List Char := ['[', 'S', 'E', 'T', '_', 'I', 'D', ']']

/-- `[SERVER_NUM]` -/
def serverNumLabel : List Char :=
  ['[', 'S', 'E', 'R', 'V', 'E', 'R', '_', 'N', 'U', 'M', ']']

/-- `sscanf` of the line with the id; the buffer stays empty if the line does not match. -/
def scanSetId (line : List Char) : Option (List Char) :=
  if setIdLabel <+: line then scanToken (line.drop 8) else some []

/-- `atoi`, stored in a `uint32_t`; there are at most 15 digits. -/
def atoi (text : List Char) : UInt32 :=
  UInt32.ofNat (Nat.ofDigitChars 10 (text.takeWhile Char.isDigit) 0)

/-- `fgets`: the line, with the newline if there is one, and the rest. -/
def fgets : (room : Nat) → List Char → List Char × List Char
  | 0, text => ([], text)
  | _ + 1, [] => ([], [])
  | room + 1, char :: text =>
      if char = '\n' then ([char], text)
      else (char :: (fgets room text).1, (fgets room text).2)

/-- A round of the loop of `LoadSetInfo`. -/
def loadLine (line : List Char) (info : UInt32 × List (List Char)) :
    Option (UInt32 × List (List Char)) :=
  if setIdLabel <:+: line then (scanSetId line).map fun setstr => (atoi setstr, info.2)
  else if serverNumLabel <:+: line then some info
  else if 7 < line.length ∧ '#' ∉ line then
    (scanToken line).map fun ipstr => (info.1, info.2 ++ [ipstr])
  else some info

/-- The loop of `LoadSetInfo`. -/
def loadLoop : (rounds : Nat) → List Char → UInt32 × List (List Char) →
    Option (UInt32 × List (List Char))
  | 0, _, _ => none
  | _ + 1, [], info => some info
  | rounds + 1, text, info => (loadLine (fgets 255 text).1 info).bind fun info =>
      loadLoop rounds (fgets 255 text).2 info

/-- `LoadSetInfo` of an agent that has just started: the id and the servers. -/
def loadSetInfo (file : Option (List Char)) : Option (UInt32 × List (List Char)) :=
  match file with
  | none => some (0, [])
  | some text => loadLoop (text.length + 1) text (0, [])

/-- A line of the file. -/
def textLine (text : List Char) : List Char := text ++ ['\n']

/-- What `DumpSetInfo` writes. -/
def dumpText (setId : UInt32) (servers : List (List Char)) : List Char :=
  textLine (setIdLabel ++ ' ' :: decimal setId.toNat) ++
    (textLine (serverNumLabel ++ ' ' :: decimal (u32 servers.length)) ++ servers.flatMap textLine)

/-! ### The file is read back -/

/-- Only digits and dots. -/
def Plain (text : List Char) : Prop := ∀ char ∈ text, char.isDigit = true ∨ char = '.'

variable {char : Char} {text rest : List Char} {servers : List (List Char)}

theorem plain_decimal (number : Nat) : Plain (decimal number) := fun _ member =>
  Or.inl (Nat.isDigit_of_mem_toDigits (by decide) le_rfl member)

theorem isSpace_of_plain (plain : char.isDigit = true ∨ char = '.') : isSpace char = false := by
  rw [isSpace, decide_eq_false_iff_not]
  rintro space
  fin_cases space <;> revert plain <;> decide

theorem Plain.notMem (plain : Plain text) (other : ¬(char.isDigit = true ∨ char = '.')) :
    char ∉ text :=
  fun member => other (plain char member)

theorem Plain.append {more : List Char} (plain : Plain text) (plain' : Plain more) :
    Plain (text ++ more) :=
  List.forall_mem_append.2 ⟨plain, plain'⟩

theorem Plain.dot (plain : Plain text) : Plain ('.' :: text) :=
  List.forall_mem_cons.2 ⟨Or.inr rfl, plain⟩

theorem length_decimal_byte (byte : UInt8) :
    1 ≤ (decimal byte.toNat).length ∧ (decimal byte.toNat).length ≤ 3 := by
  refine ⟨Nat.length_toDigits_pos, (Nat.length_toDigits_le_iff (by decide) (by decide)).2 ?_⟩
  have := byte.toNat_lt
  omega

/-- A line that `LoadSetInfo` takes for an address. -/
structure IsAddress (text : List Char) : Prop where
  plain : Plain text
  le_length : 7 ≤ text.length
  length_lt : text.length < 16

theorem TNestAddress.isAddress_ipString (addr : TNestAddress) : IsAddress addr.ipString := by
  have first := length_decimal_byte addr.ip.1
  have second := length_decimal_byte addr.ip.2.1
  have third := length_decimal_byte addr.ip.2.2.1
  have fourth := length_decimal_byte addr.ip.2.2.2
  refine ⟨?_, ?_, ?_⟩
  · exact (plain_decimal _).append ((plain_decimal _).append ((plain_decimal _).append
      (plain_decimal _).dot).dot).dot
  · simp only [ipString, List.length_append, List.length_cons]
    omega
  · simp only [ipString, List.length_append, List.length_cons]
    omega

theorem fgets_textLine {room : Nat} (no_newline : '\n' ∉ text) (short : text.length < room) :
    fgets room (textLine text ++ rest) = (textLine text, rest) := by
  induction text generalizing room with
  | nil =>
      obtain ⟨room, rfl⟩ := Nat.exists_eq_succ_of_ne_zero (Nat.ne_zero_of_lt short)
      rfl
  | cons char text induction =>
      obtain ⟨room, rfl⟩ := Nat.exists_eq_succ_of_ne_zero (Nat.ne_zero_of_lt short)
      have ne : char ≠ '\n' := fun same => no_newline (same ▸ List.mem_cons_self)
      have step := induction (fun member => no_newline (List.mem_cons_of_mem _ member))
        (Nat.lt_of_succ_lt_succ short)
      show (if char = '\n' then _ else (char :: (fgets room (textLine text ++ rest)).1,
        (fgets room (textLine text ++ rest)).2)) = _
      rw [if_neg ne, step]
      rfl

theorem loadLoop_textLine {info : UInt32 × List (List Char)} (rounds : Nat)
    (no_newline : '\n' ∉ text) (short : text.length < 255) :
    loadLoop (rounds + 1) (textLine text ++ rest) info =
      (loadLine (textLine text) info).bind (loadLoop rounds rest) := by
  have line := @fgets_textLine text rest 255 no_newline short
  obtain ⟨char, more, eq⟩ : ∃ char more, textLine text ++ rest = char :: more :=
    List.exists_cons_of_ne_nil (by simp [textLine])
  rw [eq] at line ⊢
  rw [loadLoop, line]
  exact List.cons_ne_nil _ _

theorem scanToken_textLine (plain : Plain text) (ne : text ≠ []) (short : text.length < 16) :
    scanToken (textLine text) = some text := by
  obtain ⟨char, more, rfl⟩ := List.exists_cons_of_ne_nil ne
  have first : isSpace char = false := isSpace_of_plain (plain char List.mem_cons_self)
  have all : ∀ other ∈ char :: more, (decide ¬isSpace other = true) = true := fun other member => by
    simp [isSpace_of_plain (plain other member)]
  have dropped : (textLine (char :: more)).dropWhile isSpace = textLine (char :: more) := by
    rw [textLine, List.cons_append, List.dropWhile_cons_of_neg (by simp [first])]
  have taken : (textLine (char :: more)).takeWhile (fun other => ¬isSpace other) =
      char :: more := by
    rw [textLine, List.takeWhile_append_of_pos all]
    simp [isSpace]
  rw [scanToken, dropped, taken, if_pos short]

theorem atoi_decimal (number : UInt32) : atoi (decimal number.toNat) = number := by
  have digits : (decimal number.toNat).takeWhile Char.isDigit = decimal number.toNat :=
    List.takeWhile_eq_self_iff.2 fun _ member =>
      Nat.isDigit_of_mem_toDigits (by decide) le_rfl member
  rw [atoi, digits, decimal, Nat.ofDigitChars_toDigits (by decide) le_rfl, UInt32.ofNat_toNat]

theorem u32_length_lt (list : List (List Char)) : u32 list.length < 4294967296 := by
  unfold u32
  omega

theorem length_decimal_lt {number : Nat} (lt : number < 4294967296) :
    (decimal number).length < 16 := by
  have le : (decimal number).length ≤ 10 :=
    (Nat.length_toDigits_le_iff (by decide) (by decide)).2 (by omega)
  omega

theorem loadLine_setId (setId : UInt32) (info : UInt32 × List (List Char)) :
    loadLine (textLine (setIdLabel ++ ' ' :: decimal setId.toNat)) info =
      some (setId, info.2) := by
  have whole : textLine (setIdLabel ++ ' ' :: decimal setId.toNat) =
      setIdLabel ++ ' ' :: textLine (decimal setId.toNat) := rfl
  have prefixed : setIdLabel <+: textLine (setIdLabel ++ ' ' :: decimal setId.toNat) :=
    ⟨_, whole.symm⟩
  have token : scanToken (' ' :: textLine (decimal setId.toNat)) = some (decimal setId.toNat) :=
    scanToken_textLine (plain_decimal _) Nat.toDigits_ne_nil (length_decimal_lt setId.toNat_lt)
  rw [loadLine, if_pos prefixed.isInfix, scanSetId, if_pos prefixed]
  calc (scanToken (' ' :: textLine (decimal setId.toNat))).map (fun setstr => (atoi setstr, info.2))
    _ = some (atoi (decimal setId.toNat), info.2) := congrArg _ token
    _ = some (setId, info.2) := by rw [atoi_decimal]

theorem loadLine_serverNum (number : Nat) (info : UInt32 × List (List Char)) :
    loadLine (textLine (serverNumLabel ++ ' ' :: decimal number)) info = some info := by
  have not_id : ¬setIdLabel <:+: textLine (serverNumLabel ++ ' ' :: decimal number) := by
    intro infixed
    have member : 'D' ∈ textLine (serverNumLabel ++ ' ' :: decimal number) :=
      infixed.subset (by decide)
    rcases List.mem_append.1 member with member | member
    · rcases List.mem_append.1 member with member | member
      · exact absurd member (by decide)
      · rcases List.mem_cons.1 member with same | member
        · exact absurd same (by decide)
        · exact (plain_decimal number).notMem (by decide) member
    · exact absurd member (by decide)
  have is_num : serverNumLabel <:+: textLine (serverNumLabel ++ ' ' :: decimal number) :=
    List.IsPrefix.isInfix ⟨' ' :: textLine (decimal number), rfl⟩
  rw [loadLine, if_neg not_id, if_pos is_num]

theorem loadLine_address (address : IsAddress text) (info : UInt32 × List (List Char)) :
    loadLine (textLine text) info = some (info.1, info.2 ++ [text]) := by
  have absent : ∀ {char : Char}, ¬(char.isDigit = true ∨ char = '.') → char ≠ '\n' →
      char ∉ textLine text := by
    intro char other ne member
    rcases List.mem_append.1 member with member | member
    · exact address.plain.notMem other member
    · exact ne (List.mem_singleton.1 member)
  have bracket : '[' ∉ textLine text := absent (by decide) (by decide)
  have long : 7 < (textLine text).length := by
    rw [textLine, List.length_append]
    exact Nat.lt_succ_of_le address.le_length
  have ne : text ≠ [] := fun nil => absurd address.le_length (by simp [nil])
  rw [loadLine, if_neg fun infixed => bracket (infixed.subset (by decide)),
    if_neg fun infixed => bracket (infixed.subset (by decide)),
    if_pos ⟨long, absent (by decide) (by decide)⟩,
    scanToken_textLine address.plain ne address.length_lt]
  rfl

theorem loadLoop_addresses (all : ∀ text ∈ servers, IsAddress text) {rounds : Nat}
    (enough : servers.length < rounds) (info : UInt32 × List (List Char)) :
    loadLoop rounds (servers.flatMap textLine) info = some (info.1, info.2 ++ servers) := by
  induction servers generalizing rounds info with
  | nil =>
      obtain ⟨rounds, rfl⟩ := Nat.exists_eq_succ_of_ne_zero (Nat.ne_zero_of_lt enough)
      exact congrArg (fun servers => some (info.1, servers)) (List.append_nil _).symm
  | cons text servers induction =>
      obtain ⟨rounds, rfl⟩ := Nat.exists_eq_succ_of_ne_zero (Nat.ne_zero_of_lt enough)
      have address := all text List.mem_cons_self
      rw [List.flatMap_cons, loadLoop_textLine rounds (address.plain.notMem (by decide))
        (by have := address.length_lt; omega), loadLine_address address, Option.bind_some,
        induction (fun other member => all other (List.mem_cons_of_mem _ member))
          (Nat.lt_of_succ_lt_succ enough), List.append_assoc]
      rfl

theorem loadSetInfo_dumpText (setId : UInt32) (all : ∀ text ∈ servers, IsAddress text) :
    loadSetInfo (some (dumpText setId servers)) = some (setId, servers) := by
  have lines : servers.length ≤ (servers.flatMap textLine).length := by
    rw [List.length_flatMap]
    calc servers.length = (servers.map fun _ => 1).sum := by simp
      _ ≤ _ := List.sum_le_sum fun text _ => by simp [textLine]
  have no_newline : ∀ number, '\n' ∉ ' ' :: decimal number := fun number member =>
    (List.mem_cons.1 member).elim (by decide) ((plain_decimal number).notMem (by decide))
  have id_line : '\n' ∉ setIdLabel ++ ' ' :: decimal setId.toNat := by
    rw [List.mem_append]
    exact not_or_intro (by decide) (no_newline _)
  have num_line : '\n' ∉ serverNumLabel ++ ' ' :: decimal (u32 servers.length) := by
    rw [List.mem_append]
    exact not_or_intro (by decide) (no_newline _)
  have id_short := length_decimal_lt setId.toNat_lt
  have num_short := length_decimal_lt (u32_length_lt servers)
  rw [loadSetInfo]
  obtain ⟨rounds, rounds_eq, enough⟩ : ∃ rounds,
      (dumpText setId servers).length + 1 = rounds + 1 + 1 ∧ servers.length < rounds := by
    refine ⟨(dumpText setId servers).length - 1, ?_, ?_⟩ <;>
      simp only [dumpText, textLine, List.length_append, List.length_cons] at lines ⊢ <;> omega
  rw [rounds_eq, dumpText, loadLoop_textLine _ id_line, loadLine_setId, Option.bind_some,
    loadLoop_textLine _ num_line, loadLine_serverNum, Option.bind_some,
    loadLoop_addresses all enough]
  · rfl
  · simp only [serverNumLabel, List.length_append, List.length_cons, List.length_nil]
    omega
  · simp only [setIdLabel, List.length_append, List.length_cons, List.length_nil]
    omega

/-! ## The agent -/

/-- `CAgentProxy`, with the manager of its connection and the file. -/
structure CAgentProxy where
  setId : UInt32
  setServers : List (List Char)
  net : TAgentNetMng
  file : Option (List Char)

/-- The calls that change the sets. -/
inductive SetCall
  | update (setid : UInt32) (servers shuffled : List TNestAddress) (opened channel : Bool)
  | clear (opened channel : Bool)
  | keepAlive (channel connected : Bool)

namespace CAgentProxy

/-- `DumpSetInfo` -/
def dumpSetInfo (agent : CAgentProxy) (opened : Bool) : Int × CAgentProxy :=
  if opened then (0, { agent with file := some (dumpText agent.setId agent.setServers) })
  else (-1, agent)

/-- `UpdateSetInfo` -/
def updateSetInfo (agent : CAgentProxy) (setid : UInt32) (servers shuffled : List TNestAddress)
    (opened channel : Bool) : Int × CAgentProxy :=
  if agent.setId ≠ 0 ∧ agent.setId ≠ setid then (-1, agent)
  else
    let updated := { agent with setId := setid, setServers := servers.map TNestAddress.ipString }
    let (ret, dumped) := updated.dumpSetInfo opened
    if ret < 0 then (-2, { dumped with setId := agent.setId, setServers := agent.setServers })
    else (0, { dumped with net := dumped.net.updateSetInfo setid shuffled channel })

/-- `ClearSetInfo` -/
def clearSetInfo (agent : CAgentProxy) (opened channel : Bool) : Int × CAgentProxy :=
  let cleared := { agent with
    setId := 0, setServers := [], net := agent.net.updateSetInfo 0 [] channel }
  let (ret, dumped) := cleared.dumpSetInfo opened
  if ret < 0 then (-1, { dumped with setId := agent.setId, setServers := agent.setServers })
  else (0, dumped)

/-- A call: its result and the agent after it. -/
def perform (agent : CAgentProxy) : SetCall → Int × CAgentProxy
  | .update setid servers shuffled opened channel =>
      agent.updateSetInfo setid servers shuffled opened channel
  | .clear opened channel => agent.clearSetInfo opened channel
  | .keepAlive channel connected =>
      (0, { agent with net := agent.net.checkKeepAlive channel connected })

/-- The id and the servers are the same in the three places, and the current server is one of
them. -/
structure Consistent (agent : CAgentProxy) : Prop where
  setid_eq : agent.net.setid = agent.setId
  servers_perm : (agent.net.serverAddrs.map TNestAddress.ipString).Perm agent.setServers
  loaded : loadSetInfo agent.file = some (agent.setId, agent.setServers)
  connected : agent.net.Connected

/-- The id and the servers are as before in the three places. -/
structure Kept (agent after : CAgentProxy) : Prop where
  setId_eq : after.setId = agent.setId
  setServers_eq : after.setServers = agent.setServers
  file_eq : after.file = agent.file
  setid_eq : after.net.setid = agent.net.setid
  servers_perm : after.net.serverAddrs.Perm agent.net.serverAddrs

/-- The proxy after a call. -/
def after (agent : CAgentProxy) (call : SetCall) : CAgentProxy := (agent.perform call).2

/-- A call that leaves the three places consistent, and as they were if it fails. -/
def Right (agent : CAgentProxy) (call : SetCall) : Prop :=
  (agent.after call).Consistent ∧ ((agent.perform call).1 < 0 → agent.Kept (agent.after call))

/-- The shuffle is a permutation. -/
def Shuffles (_ : CAgentProxy) : SetCall → Prop
  | .update _ servers shuffled _ _ => shuffled.Perm servers
  | _ => True

/-- `ClearSetInfo` can write the file, or there is nothing to clear. -/
def Writes (agent : CAgentProxy) : SetCall → Prop
  | .clear opened _ => opened = true ∨ agent.setId = 0 ∧ agent.setServers = []
  | _ => True

variable {agent : CAgentProxy} {call : SetCall}

theorem Consistent.right_of_eq (consistent : agent.Consistent) (same : agent.after call = agent) :
    agent.Right call := by
  rw [Right, same]
  exact ⟨consistent, fun _ => ⟨rfl, rfl, rfl, rfl, List.Perm.refl _⟩⟩

theorem Consistent.right_update (consistent : agent.Consistent) {setid : UInt32}
    {servers shuffled : List TNestAddress} (perm : shuffled.Perm servers) (opened channel : Bool) :
    agent.Right (.update setid servers shuffled opened channel) := by
  by_cases other : agent.setId ≠ 0 ∧ agent.setId ≠ setid
  · have refused : agent.perform (.update setid servers shuffled opened channel) = (-1, agent) :=
      if_pos other
    exact consistent.right_of_eq (congrArg Prod.snd refused)
  cases opened with
  | false =>
      have restored : agent.perform (.update setid servers shuffled false channel) = (-2, agent) :=
        if_neg other
      exact consistent.right_of_eq (congrArg Prod.snd restored)
  | true =>
      have updated : agent.perform (.update setid servers shuffled true channel) =
          (0, ⟨setid, servers.map TNestAddress.ipString,
            agent.net.updateSetInfo setid shuffled channel,
            some (dumpText setid (servers.map TNestAddress.ipString))⟩) := if_neg other
      have holds := agent.net.holds_updateSetInfo setid shuffled channel
      rw [Right, after, updated]
      refine ⟨⟨holds.setid_eq, ?_, ?_, holds.connected⟩,
        fun negative => absurd negative (lt_irrefl (0 : Int))⟩
      · show ((agent.net.updateSetInfo setid shuffled channel).serverAddrs.map _).Perm _
        rw [holds.servers_eq]
        exact perm.map _
      · refine loadSetInfo_dumpText setid fun text member => ?_
        obtain ⟨addr, -, rfl⟩ := List.mem_map.1 member
        exact addr.isAddress_ipString

theorem Consistent.right_keepAlive (consistent : agent.Consistent) (channel connected : Bool) :
    agent.Right (.keepAlive channel connected) := by
  have holds : agent.net.Holds agent.setId agent.net.serverAddrs :=
    ⟨consistent.setid_eq, rfl, consistent.connected⟩
  have kept := holds.checkKeepAlive channel connected
  refine ⟨⟨kept.setid_eq, ?_, consistent.loaded, kept.connected⟩,
    fun negative => absurd negative (lt_irrefl (0 : Int))⟩
  show ((agent.net.checkKeepAlive channel connected).serverAddrs.map _).Perm _
  rw [kept.servers_eq]
  exact consistent.servers_perm

/-- The connection has lost the set even if the file could not be opened. -/
theorem Consistent.right_clear_iff (consistent : agent.Consistent) (opened channel : Bool) :
    agent.Right (.clear opened channel) ↔ agent.Writes (.clear opened channel) := by
  have holds := agent.net.holds_updateSetInfo 0 [] channel
  cases opened with
  | true =>
      refine iff_of_true ?_ (Or.inl rfl)
      refine ⟨⟨holds.setid_eq, ?_, loadSetInfo_dumpText 0 (by simp), holds.connected⟩,
        fun negative => absurd negative (lt_irrefl (0 : Int))⟩
      show ((agent.net.updateSetInfo 0 [] channel).serverAddrs.map _).Perm []
      rw [holds.servers_eq]
      exact List.Perm.refl _
  | false =>
      have failed : agent.perform (.clear false channel) =
          (-1, { agent with net := agent.net.updateSetInfo 0 [] channel }) := rfl
      have perm_iff : ((agent.net.updateSetInfo 0 [] channel).serverAddrs.map
          TNestAddress.ipString).Perm agent.setServers ↔ agent.setServers = [] := by
        rw [holds.servers_eq, List.map_nil, List.nil_perm]
      constructor
      · rintro ⟨after_consistent, -⟩
        exact Or.inr ⟨after_consistent.setid_eq.symm.trans holds.setid_eq,
          perm_iff.1 after_consistent.servers_perm⟩
      · rintro (impossible | ⟨id_eq, servers_eq⟩)
        · exact absurd impossible (by decide)
        have addrs_eq : agent.net.serverAddrs = [] := by
          have perm := consistent.servers_perm
          rwa [servers_eq, List.perm_nil, List.map_eq_nil_iff] at perm
        refine ⟨⟨holds.setid_eq.trans id_eq.symm, perm_iff.2 servers_eq, consistent.loaded,
          holds.connected⟩, fun _ => ⟨rfl, rfl, rfl, ?_, ?_⟩⟩
        · exact holds.setid_eq.trans (id_eq.symm.trans consistent.setid_eq.symm)
        · exact List.Perm.of_eq (holds.servers_eq.trans addrs_eq.symm)

theorem Consistent.right_iff (consistent : agent.Consistent) (shuffles : agent.Shuffles call) :
    agent.Right call ↔ agent.Writes call := by
  cases call with
  | update setid servers shuffled opened channel =>
      exact iff_of_true (consistent.right_update shuffles opened channel) trivial
  | clear opened channel => exact consistent.right_clear_iff opened channel
  | keepAlive channel connected =>
      exact iff_of_true (consistent.right_keepAlive channel connected) trivial

/-- All calls of a run are right exactly if `ClearSetInfo` can write the file whenever there is
something to clear. -/
theorem along_consistent_iff {agent : CAgentProxy} {calls : List SetCall}
    (consistent : agent.Consistent)
    (shuffled : Executions.Along CAgentProxy.after CAgentProxy.Shuffles agent calls) :
    Executions.Along CAgentProxy.after CAgentProxy.Right agent calls ↔
      Executions.Along CAgentProxy.after CAgentProxy.Writes agent calls :=
  Executions.along_iff (fun _ _ consistent shuffles => consistent.right_iff shuffles)
    (fun _ _ consistent shuffles writes => ((consistent.right_iff shuffles).2 writes).1)
    consistent shuffled

/-- An agent without a set, that has never written its file. -/
def fresh : CAgentProxy :=
  { setId := 0, setServers := [], file := none
    net := { setid := 0, serverAddrs := [], server := ⟨(0, 0, 0, 0), 0, 0⟩, serverIndex := 0
             retryCount := 0, keepConn := false } }

theorem consistent_fresh : fresh.Consistent :=
  ⟨rfl, List.Perm.refl _, rfl, fun ne => absurd rfl ne⟩

/-- The agent joins a set and leaves it, and cannot write the file for another set between. -/
theorem along_consistent_leaves :
    Executions.Along CAgentProxy.after CAgentProxy.Right fresh
      [.update 7 [⟨(10, 0, 0, 1), 0, 0⟩, ⟨(10, 0, 0, 2), 0, 0⟩]
        [⟨(10, 0, 0, 2), 0, 0⟩, ⟨(10, 0, 0, 1), 0, 0⟩] true true,
       .update 7 [] [] false true, .clear true true, .clear false true] := by
  refine (along_consistent_iff consistent_fresh ?_).2 ?_
  · exact ⟨List.Perm.swap _ _ _, List.Perm.refl _, trivial, trivial, trivial⟩
  · exact ⟨trivial, trivial, Or.inl rfl, Or.inr ⟨rfl, rfl⟩, trivial⟩

/-- `ClearSetInfo` fails to open the file: the agent is still in the set, and `TAgentNetMng` is
not. -/
theorem clearSetInfo_halves :
    let joined := fresh.after (.update 7 [⟨(10, 0, 0, 1), 0, 0⟩] [⟨(10, 0, 0, 1), 0, 0⟩] true true)
    let cleared := joined.perform (.clear false true)
    joined.Consistent ∧ cleared.1 = -1 ∧ cleared.2.setId = 7 ∧ cleared.2.net.setid = 0 ∧
      cleared.2.net.serverAddrs = [] ∧ ¬cleared.2.Consistent ∧ ¬joined.Kept cleared.2 := by
  intro joined cleared
  have consistent : joined.Consistent :=
    (consistent_fresh.right_update (List.Perm.refl _) true true).1
  refine ⟨consistent, rfl, rfl, rfl, rfl, fun after => ?_, fun kept => ?_⟩
  · exact absurd after.setid_eq (by decide)
  · exact absurd kept.setid_eq (by decide)

end CAgentProxy

end Spp

import AppleSilicon.Lib.Bytes
import AppleSilicon.Lib.LogRun

/-!
# The mailbox of the ASMedia controller

The host and the controller talk through two one-place channels in configuration space: `READ` of
the control register is up while a reply of the controller sits unread in the two `DATA_READ`
registers, `WRITE` while a message of the host has not been taken.  The host polls a flag, moves the
two halves of the word and writes the flag; the controller may act between any two of its steps.

* `take_inv`, `post_inv`     the steps of the controller;
* `host_inv`                the steps of the host, if it reads the data only while a reply is there;
* `mailbox_right`           what holds in every state of such a run;
* `noReply_received`        the poll of `AppleAsmediaReceiveMessage` ends when no reply is there.
-/

namespace AppleSilicon

/-- `TIMEOUT_USEC` -/
def timeoutUsec : ℕ := 10000

/-- `ASMEDIA_CONFIGURATION_CONTROL_READ_BIT` -/
def asmediaConfigurationControlReadBit : UInt8 := 1

/-- `ASMEDIA_CONFIGURATION_CONTROL_WRITE_BIT` -/
def asmediaConfigurationControlWriteBit : UInt8 := 2

/-- `ASMEDIA_COMMAND_GET_FIRMWARE_VERSION` -/
def asmediaCommandGetFirmwareVersion : UInt64 := 0x8000060840

/-! ## the registers -/

structure Mailbox where
  /-- a reply is unread -/
  read : Bool
  /-- a message has not been taken -/
  write : Bool
  dataRead0 : UInt32
  dataRead1 : UInt32
  dataWrite0 : UInt32
  dataWrite1 : UInt32
deriving DecidableEq, Repr

/-- `((UINT64)high << 32) | low` -/
def joinWords (low high : UInt32) : UInt64 := high.toUInt64 <<< 32 ||| low.toUInt64

/-- the low and the high half of a message -/
def lowWord (message : UInt64) : UInt32 := message.toUInt32

def highWord (message : UInt64) : UInt32 := (message >>> 32).toUInt32

namespace Mailbox

/-- what the control register reads as -/
def control (m : Mailbox) : UInt8 :=
  (if m.read then asmediaConfigurationControlReadBit else 0) |||
    (if m.write then asmediaConfigurationControlWriteBit else 0)

/-- a write to the control register: `READ` consumes the reply, `WRITE` hands the message over -/
def writeControl (m : Mailbox) (value : UInt8) : Mailbox :=
  { m with
    read := m.read && value &&& asmediaConfigurationControlReadBit = 0
    write := m.write || value &&& asmediaConfigurationControlWriteBit ≠ 0 }

/-- the reply that sits in the data registers -/
def unread (m : Mailbox) : Option UInt64 :=
  if m.read then some (joinWords m.dataRead0 m.dataRead1) else none

/-- the message that was not taken -/
def untaken (m : Mailbox) : Option UInt64 :=
  if m.write then some (joinWords m.dataWrite0 m.dataWrite1) else none

/-- the controller posts a reply -/
def post (m : Mailbox) (reply : UInt64) : Mailbox :=
  { m with read := true, dataRead0 := lowWord reply, dataRead1 := highWord reply }

/-- the controller takes the message -/
def take (m : Mailbox) : Mailbox := { m with write := false }

end Mailbox

/-! ## the host -/

/-- who called `AppleAsmediaSendMessage` or `AppleAsmediaReceiveMessage`: a client, or one of the
four calls of `AppleAsmediaGetFirmwareVersion` -/
inductive Caller where
  | client
  | versionCommand
  | versionZero
  | versionEcho
  | version (command : UInt64)
deriving DecidableEq, Repr

/-- the next access of the host -/
inductive Host where
  | idle
  | sendPoll (caller : Caller) (message : UInt64) (i : ℕ)
  | sendData0 (caller : Caller) (message : UInt64)
  | sendData1 (caller : Caller) (message : UInt64)
  | sendControl (caller : Caller) (message : UInt64)
  | receivePoll (caller : Caller) (i : ℕ)
  | receiveData0 (caller : Caller)
  | receiveData1 (caller : Caller) (messageLow : UInt32)
  | receiveControl (caller : Caller) (messageLow messageHigh : UInt32)
deriving DecidableEq, Repr

inductive MailEvent where
  | posted (reply : UInt64)
  | taken (message : UInt64)
  /-- `AppleAsmediaSendMessage` returns `EFI_SUCCESS` -/
  | sent (message : UInt64)
  /-- `AppleAsmediaReceiveMessage` returns `EFI_SUCCESS` -/
  | received (reply : UInt64)
  /-- either returns `EFI_TIMEOUT`, after so many writes -/
  | timeout (writes : ℕ)
  /-- `AppleAsmediaGetFirmwareVersion` returns `EFI_SUCCESS` -/
  | version (firmwareVersion : UInt64)
deriving DecidableEq, Repr

/-- where the host goes on after a message was sent, or not -/
def afterSend : Caller → Bool → Host
  | .versionCommand, true => .sendPoll .versionZero 0 0
  | .versionZero, true => .receivePoll .versionEcho 0
  | _, _ => .idle

/-- where it goes on after a reply was received, or none -/
def afterReceive : Caller → Option UInt64 → Host × List MailEvent
  | .versionEcho, some command => (.receivePoll (.version command) 0, [])
  | .version command, some firmwareVersion =>
    (.idle, if command ≠ asmediaCommandGetFirmwareVersion then [] else [.version firmwareVersion])
  | _, _ => (.idle, [])

structure MailSystem where
  mailbox : Mailbox
  host : Host
  /-- the writes of the call so far -/
  writes : ℕ
deriving DecidableEq, Repr

inductive MailCall where
  | sendMessage (message : UInt64)
  | receiveMessage
  | getFirmwareVersion
deriving DecidableEq, Repr

/-- the first access of a call -/
def MailCall.start : MailCall → Host
  | sendMessage message => .sendPoll .client message 0
  | receiveMessage => .receivePoll .client 0
  | getFirmwareVersion => .sendPoll .versionCommand asmediaCommandGetFirmwareVersion 0

namespace MailSystem

/-- the next access of `AppleAsmediaSendMessage` or `AppleAsmediaReceiveMessage`.  A polling loop
that ends without a break has seen the flag up in its last turn. -/
def hostStep (s : MailSystem) : Option (MailSystem × List MailEvent) :=
  match s.host with
  | .idle => none
  | .sendPoll caller message i =>
    if s.mailbox.control &&& asmediaConfigurationControlWriteBit = 0 then
      some ({ s with host := .sendData0 caller message }, [])
    else if i + 1 < timeoutUsec then some ({ s with host := .sendPoll caller message (i + 1) }, [])
    else some (⟨s.mailbox, afterSend caller false, 0⟩, [.timeout s.writes])
  | .sendData0 caller message =>
    some (⟨{ s.mailbox with dataWrite0 := lowWord message }, .sendData1 caller message,
      s.writes + 1⟩, [])
  | .sendData1 caller message =>
    some (⟨{ s.mailbox with dataWrite1 := highWord message }, .sendControl caller message,
      s.writes + 1⟩, [])
  | .sendControl caller message =>
    some (⟨s.mailbox.writeControl asmediaConfigurationControlWriteBit, afterSend caller true, 0⟩,
      [.sent message])
  | .receivePoll caller i =>
    if s.mailbox.control &&& asmediaConfigurationControlReadBit = 0 then
      some ({ s with host := .receiveData0 caller }, [])
    else if i + 1 < timeoutUsec then some ({ s with host := .receivePoll caller (i + 1) }, [])
    else some (⟨s.mailbox, (afterReceive caller none).1, 0⟩, [.timeout s.writes])
  | .receiveData0 caller => some ({ s with host := .receiveData1 caller s.mailbox.dataRead0 }, [])
  | .receiveData1 caller messageLow =>
    some ({ s with host := .receiveControl caller messageLow s.mailbox.dataRead1 }, [])
  | .receiveControl caller messageLow messageHigh =>
    let message := joinWords messageLow messageHigh
    some (⟨s.mailbox.writeControl asmediaConfigurationControlReadBit,
      (afterReceive caller (some message)).1, 0⟩,
      .received message :: (afterReceive caller (some message)).2)

end MailSystem

inductive MailAction where
  | call (c : MailCall)
  | host
  /-- the controller takes a message -/
  | take
  /-- the controller posts a reply -/
  | post (reply : UInt64)
deriving DecidableEq, Repr

/-- a step of the host or of the controller -/
def MailSystem.step (s : MailSystem) : MailAction → Option (MailSystem × List MailEvent)
  | .call c => if s.host = .idle then some (⟨s.mailbox, c.start, 0⟩, []) else none
  | .host => s.hostStep
  | .take =>
    if s.mailbox.write then
      some ({ s with mailbox := s.mailbox.take },
        [.taken (joinWords s.mailbox.dataWrite0 s.mailbox.dataWrite1)])
    else none
  | .post reply =>
    if s.mailbox.read then none
    else some ({ s with mailbox := s.mailbox.post reply }, [.posted reply])

/-! ## the two channels -/

namespace MailEvent

def posted? : MailEvent → Option UInt64
  | posted reply => some reply
  | _ => none

def taken? : MailEvent → Option UInt64
  | taken message => some message
  | _ => none

def sent? : MailEvent → Option UInt64
  | sent message => some message
  | _ => none

def received? : MailEvent → Option UInt64
  | received reply => some reply
  | _ => none

/-- a message or a reply moves -/
def moves : MailEvent → Bool
  | timeout _ => false
  | version _ => false
  | _ => true

end MailEvent

/-- the replies that `AppleAsmediaReceiveMessage` returned -/
def receivedReplies (log : List MailEvent) : List UInt64 := log.filterMap MailEvent.received?

/-- the mailbox agrees with the log -/
structure MailboxRight (m : Mailbox) (log : List MailEvent) : Prop where
  /-- what was received is what was posted, in order and each once, but for the unread reply -/
  replies : log.filterMap MailEvent.posted? = receivedReplies log ++ m.unread.toList
  /-- what was taken is what was sent, but for the message that was not taken: none was overwritten -/
  messages : log.filterMap MailEvent.sent? = log.filterMap MailEvent.taken? ++ m.untaken.toList
  /-- a call that times out has written nothing -/
  timeouts : ∀ writes, .timeout writes ∈ log → writes = 0
  /-- a version is returned when the last two replies are the echo of the command and that version -/
  versions : ∀ pre firmwareVersion post, log = pre ++ .version firmwareVersion :: post →
    ∃ rs, pre.filterMap MailEvent.posted? =
      rs ++ [asmediaCommandGetFirmwareVersion, firmwareVersion]

/-- the next access is to the first half of a reply -/
def Host.readsData : Host → Bool
  | receiveData0 _ => true
  | _ => false

/-- the host reads the data while a reply is there -/
def ReplyThere (s : MailSystem) : MailAction → Prop
  | .host => s.host.readsData = true → s.mailbox.read = true
  | _ => True

instance (s : MailSystem) : ∀ a : MailAction, Decidable (ReplyThere s a)
  | .host => inferInstanceAs (Decidable (_ → _))
  | .call _ => isTrue trivial
  | .take => isTrue trivial
  | .post _ => isTrue trivial

/-! ## the registers, read and written -/

theorem joinWords_toNat (low high : UInt32) :
    (joinWords low high).toNat = high.toNat * 2 ^ 32 + low.toNat := by
  have hlow := low.toNat_lt
  have hhigh := high.toNat_lt
  rw [joinWords, UInt64.toNat_or, UInt64.toNat_shiftLeft, UInt32.toNat_toUInt64,
    UInt32.toNat_toUInt64, show (32 : UInt64).toNat % 64 = 32 from rfl,
    shiftLeft_mod_or _ _ _ _ hlow (by omega), Nat.add_comm, Nat.mul_comm]

theorem joinWords_halves (message : UInt64) :
    joinWords (lowWord message) (highWord message) = message := by
  have hmessage := message.toNat_lt
  apply UInt64.toNat_inj.mp
  rw [joinWords_toNat, lowWord, highWord, UInt64.toNat_toUInt32, UInt64.toNat_toUInt32,
    UInt64.toNat_shiftRight, show (32 : UInt64).toNat % 64 = 32 from rfl, Nat.shiftRight_eq_div_pow]
  omega

namespace Mailbox

theorem control_write (m : Mailbox) :
    m.control &&& asmediaConfigurationControlWriteBit = 0 ↔ m.write = false := by
  rw [control]
  cases m.read <;> cases m.write <;> decide

theorem untaken_none {m : Mailbox} (h : m.write = false) : m.untaken = none := by
  rw [untaken, h]
  rfl

theorem unread_none {m : Mailbox} (h : m.read = false) : m.unread = none := by
  rw [unread, h]
  rfl

/-- the host hands a message over -/
theorem writeControl_write (m : Mailbox) :
    m.writeControl asmediaConfigurationControlWriteBit = { m with write := true } := by
  rw [writeControl]
  cases m.read <;> cases m.write <;> rfl

/-- the host consumes a reply -/
theorem writeControl_read (m : Mailbox) :
    m.writeControl asmediaConfigurationControlReadBit = { m with read := false } := by
  rw [writeControl]
  cases m.read <;> cases m.write <;> rfl

end Mailbox

/-! ## what a step keeps -/

/-- new events and a new state of the registers: the channels carry on -/
theorem MailboxRight.append {m m' : Mailbox} {log : List MailEvent} (h : MailboxRight m log)
    (es : List MailEvent)
    (hreplies : m.unread.toList ++ es.filterMap MailEvent.posted? =
      receivedReplies es ++ m'.unread.toList)
    (hmessages : m.untaken.toList ++ es.filterMap MailEvent.sent? =
      es.filterMap MailEvent.taken? ++ m'.untaken.toList)
    (htimeouts : ∀ writes, .timeout writes ∈ es → writes = 0)
    (hversions : ∀ pre firmwareVersion post, es = pre ++ .version firmwareVersion :: post →
      ∃ rs, (log ++ pre).filterMap MailEvent.posted? =
        rs ++ [asmediaCommandGetFirmwareVersion, firmwareVersion]) :
    MailboxRight m' (log ++ es) := by
  constructor
  · rw [receivedReplies, List.filterMap_append, List.filterMap_append, h.replies, receivedReplies,
      List.append_assoc, hreplies, receivedReplies, List.append_assoc]
  · rw [List.filterMap_append, List.filterMap_append, h.messages, List.append_assoc, hmessages,
      List.append_assoc]
  · intro writes hmem
    cases List.mem_append.mp hmem with
    | inl hlog => exact h.timeouts writes hlog
    | inr hes => exact htimeouts writes hes
  · intro pre firmwareVersion post heq
    obtain ⟨mid, hpre, hes⟩ | ⟨mid, hlog, hmid⟩ := List.append_eq_append_iff.mp heq
    · rw [hpre]
      exact hversions mid firmwareVersion post hes
    · cases mid with
      | nil =>
        rw [List.nil_append] at hmid
        rw [List.append_nil] at hlog
        have hversion := hversions [] firmwareVersion post (by rw [List.nil_append, hmid])
        rw [List.append_nil, hlog] at hversion
        exact hversion
      | cons e mid =>
        obtain ⟨rfl, _⟩ := List.cons.inj hmid
        exact h.versions pre firmwareVersion mid hlog

/-- the registers move and nothing is said -/
theorem MailboxRight.silent {m m' : Mailbox} {log : List MailEvent} (h : MailboxRight m log)
    (hunread : m'.unread = m.unread) (huntaken : m'.untaken = m.untaken) :
    MailboxRight m' (log ++ []) := by
  refine h.append [] ?_ ?_ ?_ ?_
  · simp [receivedReplies, hunread]
  · simp [huntaken]
  · simp
  · simp

theorem filterMap_one {α β : Type*} (f : α → Option β) (a : α) :
    [a].filterMap f = (f a).toList := by
  cases h : f a <;> simp [h]

/-- one message or reply that moves -/
theorem MailboxRight.single {m m' : Mailbox} {log : List MailEvent} (h : MailboxRight m log)
    (e : MailEvent) (hmoves : e.moves = true)
    (hreplies : m.unread.toList ++ e.posted?.toList = e.received?.toList ++ m'.unread.toList)
    (hmessages : m.untaken.toList ++ e.sent?.toList = e.taken?.toList ++ m'.untaken.toList) :
    MailboxRight m' (log ++ [e]) := by
  refine h.append [e] ?_ ?_ ?_ ?_
  · rw [receivedReplies, filterMap_one, filterMap_one]
    exact hreplies
  · rw [filterMap_one, filterMap_one]
    exact hmessages
  · intro writes hmem
    rw [← List.mem_singleton.mp hmem] at hmoves
    cases hmoves
  · intro pre firmwareVersion post heq
    have hmem : MailEvent.version firmwareVersion ∈ [e] := by
      rw [heq]
      exact List.mem_append_right pre List.mem_cons_self
    rw [← List.mem_singleton.mp hmem] at hmoves
    cases hmoves

/-- a call that times out, without a write -/
theorem MailboxRight.timedOut {m : Mailbox} {log : List MailEvent} (h : MailboxRight m log) :
    MailboxRight m (log ++ [.timeout 0]) := by
  refine h.append _ ?_ ?_ ?_ ?_
  · exact List.append_nil _
  · exact List.append_nil _
  · intro writes hmem
    cases List.mem_singleton.mp hmem
    rfl
  · intro pre firmwareVersion post heq
    cases pre with
    | nil => cases heq
    | cons e pre => simp at heq

/-- the last call of `AppleAsmediaGetFirmwareVersion` runs with the reply to the one before it -/
def CallerRight (caller : Caller) (log : List MailEvent) : Prop :=
  ∀ command, caller = .version command → ∃ rs, receivedReplies log = rs ++ [command]

/-- what the host has done of its call so far -/
def HostRight (s : MailSystem) (log : List MailEvent) : Prop :=
  match s.host with
  | .idle => True
  | .sendPoll _ _ _ => s.writes = 0
  | .sendData0 _ _ => s.mailbox.write = false
  | .sendData1 _ message => s.mailbox.write = false ∧ s.mailbox.dataWrite0 = lowWord message
  | .sendControl _ message => s.mailbox.write = false ∧
    s.mailbox.dataWrite0 = lowWord message ∧ s.mailbox.dataWrite1 = highWord message
  | .receivePoll caller _ => s.writes = 0 ∧ CallerRight caller log
  | .receiveData0 caller => CallerRight caller log
  | .receiveData1 caller messageLow => CallerRight caller log ∧ s.mailbox.read = true ∧
    s.mailbox.dataRead0 = messageLow
  | .receiveControl caller messageLow messageHigh => CallerRight caller log ∧
    s.mailbox.read = true ∧ s.mailbox.dataRead0 = messageLow ∧ s.mailbox.dataRead1 = messageHigh

structure MailInv (s : MailSystem) (log : List MailEvent) : Prop where
  mailbox : MailboxRight s.mailbox log
  host : HostRight s log

theorem CallerRight.append {caller : Caller} {log : List MailEvent} (h : CallerRight caller log)
    (es : List MailEvent) (hes : receivedReplies es = []) : CallerRight caller (log ++ es) := by
  intro command hcaller
  obtain ⟨rs, hrs⟩ := h command hcaller
  refine ⟨rs, ?_⟩
  rw [receivedReplies] at hrs hes
  rw [receivedReplies, List.filterMap_append, hrs, hes, List.append_nil]

/-- the host goes on after `AppleAsmediaSendMessage`, with nothing written yet -/
theorem afterSend_right (m : Mailbox) (log : List MailEvent) (caller : Caller) (sent : Bool) :
    HostRight ⟨m, afterSend caller sent, 0⟩ log := by
  cases caller <;> cases sent <;> simp [HostRight, afterSend, CallerRight]

/-- a step of the controller: it may not touch the message while it is being written, nor the reply
while it is being read -/
theorem HostRight.frame {s : MailSystem} {log : List MailEvent} (h : HostRight s log) (m : Mailbox)
    (es : List MailEvent) (hes : receivedReplies es = [])
    (hmessage : s.mailbox.write = false →
      (m.write, m.dataWrite0, m.dataWrite1) = (false, s.mailbox.dataWrite0, s.mailbox.dataWrite1))
    (hreply : s.mailbox.read = true →
      (m.read, m.dataRead0, m.dataRead1) = (true, s.mailbox.dataRead0, s.mailbox.dataRead1)) :
    HostRight { s with mailbox := m } (log ++ es) := by
  rw [HostRight] at h ⊢
  simp only [Prod.mk.injEq] at hmessage hreply
  cases hs : s.host with
  | idle => trivial
  | sendPoll caller message i =>
    rw [hs] at h
    exact h
  | sendData0 caller message =>
    rw [hs] at h
    exact (hmessage h).1
  | sendData1 caller message =>
    rw [hs] at h
    obtain ⟨hw, h0, _⟩ := hmessage h.1
    exact ⟨hw, h0.trans h.2⟩
  | sendControl caller message =>
    rw [hs] at h
    obtain ⟨hw, h0, h1⟩ := hmessage h.1
    exact ⟨hw, h0.trans h.2.1, h1.trans h.2.2⟩
  | receivePoll caller i =>
    rw [hs] at h
    exact ⟨h.1, h.2.append es hes⟩
  | receiveData0 caller =>
    rw [hs] at h
    exact CallerRight.append h es hes
  | receiveData1 caller messageLow =>
    rw [hs] at h
    obtain ⟨hr, h0, _⟩ := hreply h.2.1
    exact ⟨h.1.append es hes, hr, h0.trans h.2.2⟩
  | receiveControl caller messageLow messageHigh =>
    rw [hs] at h
    obtain ⟨hr, h0, h1⟩ := hreply h.2.1
    exact ⟨h.1.append es hes, hr, h0.trans h.2.2.1, h1.trans h.2.2.2⟩

/-- the controller takes a message: no call has one half written -/
theorem take_inv (s : MailSystem) (log : List MailEvent) (h : MailInv s log)
    (hwrite : s.mailbox.write = true) :
    MailInv { s with mailbox := s.mailbox.take }
      (log ++ [.taken (joinWords s.mailbox.dataWrite0 s.mailbox.dataWrite1)]) := by
  constructor
  · refine h.mailbox.single _ rfl ?_ ?_
    · exact List.append_nil _
    · rw [Mailbox.untaken, if_pos hwrite]
      rfl
  · refine h.host.frame _ _ rfl ?_ ?_
    · intro hfree
      rw [hwrite] at hfree
      cases hfree
    · intro hread
      rw [← hread]
      rfl

/-- the controller posts a reply: no call has one half read -/
theorem post_inv (s : MailSystem) (log : List MailEvent) (h : MailInv s log) (reply : UInt64)
    (hread : s.mailbox.read = false) :
    MailInv { s with mailbox := s.mailbox.post reply } (log ++ [.posted reply]) := by
  constructor
  · refine h.mailbox.single _ rfl ?_ ?_
    · show s.mailbox.unread.toList ++ [reply] =
        [] ++ (some (joinWords (lowWord reply) (highWord reply))).toList
      rw [Mailbox.unread_none hread, joinWords_halves]
      rfl
    · exact List.append_nil _
  · refine h.host.frame _ _ rfl ?_ ?_
    · intro hwrite
      rw [← hwrite]
      rfl
    · intro hthere
      rw [hread] at hthere
      cases hthere

/-! ## the calls -/

/-- a call that times out: it has written nothing -/
theorem timeout_inv (s : MailSystem) (log : List MailEvent) (h : MailInv s log)
    (hwrites : s.writes = 0) (next : Host)
    (hnext : ∀ es, HostRight ⟨s.mailbox, next, 0⟩ (log ++ es)) :
    MailInv ⟨s.mailbox, next, 0⟩ (log ++ [.timeout s.writes]) := by
  rw [hwrites]
  exact ⟨h.mailbox.timedOut, hnext _⟩

/-- the message is handed over: it is what was to be sent, and the one before it was taken -/
theorem sendControl_inv (s : MailSystem) (log : List MailEvent) (h : MailboxRight s.mailbox log)
    (caller : Caller) (message : UInt64) (hwrite : s.mailbox.write = false)
    (h0 : s.mailbox.dataWrite0 = lowWord message) (h1 : s.mailbox.dataWrite1 = highWord message) :
    MailInv ⟨s.mailbox.writeControl asmediaConfigurationControlWriteBit, afterSend caller true, 0⟩
      (log ++ [.sent message]) := by
  rw [Mailbox.writeControl_write]
  refine ⟨h.single _ rfl ?_ ?_, afterSend_right _ _ caller true⟩
  · exact List.append_nil _
  · show s.mailbox.untaken.toList ++ [message] =
      [] ++ [joinWords s.mailbox.dataWrite0 s.mailbox.dataWrite1]
    rw [Mailbox.untaken_none hwrite, h0, h1, joinWords_halves]
    rfl

/-- the host goes on after `AppleAsmediaReceiveMessage` -/
theorem afterReceive_right (m : Mailbox) (log : List MailEvent) (caller : Caller)
    (reply : UInt64) (hlast : ∃ rs, receivedReplies log = rs ++ [reply]) :
    HostRight ⟨m, (afterReceive caller (some reply)).1, 0⟩ log := by
  cases caller with
  | versionEcho =>
    refine ⟨rfl, ?_⟩
    intro command hcommand
    cases hcommand
    exact hlast
  | client => trivial
  | versionCommand => trivial
  | versionZero => trivial
  | version command => trivial

/-- a version is returned to the caller that holds the echo of the command -/
theorem afterReceive_events (caller : Caller) (reply : UInt64) :
    (afterReceive caller (some reply)).2 = [] ∨
      caller = .version asmediaCommandGetFirmwareVersion ∧
        (afterReceive caller (some reply)).2 = [.version reply] := by
  cases caller with
  | version command =>
    by_cases hcommand : command = asmediaCommandGetFirmwareVersion
    · right
      exact ⟨congrArg Caller.version hcommand, if_neg (not_not.mpr hcommand)⟩
    · left
      exact if_pos hcommand
  | client => exact Or.inl rfl
  | versionCommand => exact Or.inl rfl
  | versionZero => exact Or.inl rfl
  | versionEcho => exact Or.inl rfl

/-- the reply is consumed: it is the one that was unread -/
theorem MailboxRight.consume {m : Mailbox} {log : List MailEvent} (h : MailboxRight m log)
    (hread : m.read = true) :
    MailboxRight { m with read := false } (log ++ [.received (joinWords m.dataRead0 m.dataRead1)]) := by
  refine h.single _ rfl ?_ ?_
  · rw [Mailbox.unread, if_pos hread]
    rfl
  · exact List.append_nil _

/-- the version is returned: it is the last reply, and the one before it is the echo -/
theorem MailboxRight.version {m : Mailbox} {log : List MailEvent} (h : MailboxRight m log)
    (hread : m.read = false) (firmwareVersion : UInt64) (rs : List UInt64)
    (hlast : receivedReplies log = rs ++ [asmediaCommandGetFirmwareVersion, firmwareVersion]) :
    MailboxRight m (log ++ [.version firmwareVersion]) := by
  refine h.append _ ?_ ?_ ?_ ?_
  · exact List.append_nil _
  · exact List.append_nil _
  · intro writes hes
    simp at hes
  · intro pre returned post heq
    cases pre with
    | nil =>
      cases heq
      refine ⟨rs, ?_⟩
      rw [List.append_nil, h.replies, hlast, Mailbox.unread_none hread]
      exact List.append_nil _
    | cons e pre => simp at heq

theorem receiveControl_inv (s : MailSystem) (log : List MailEvent) (h : MailboxRight s.mailbox log)
    (caller : Caller) (hcaller : CallerRight caller log) (hread : s.mailbox.read = true)
    (reply : UInt64) (hreply : joinWords s.mailbox.dataRead0 s.mailbox.dataRead1 = reply) :
    MailInv ⟨s.mailbox.writeControl asmediaConfigurationControlReadBit,
        (afterReceive caller (some reply)).1, 0⟩
      (log ++ .received reply :: (afterReceive caller (some reply)).2) := by
  have hreceived := h.consume hread
  rw [hreply] at hreceived
  have hlast : receivedReplies (log ++ [.received reply]) = receivedReplies log ++ [reply] := by
    rw [receivedReplies, List.filterMap_append]
    rfl
  rw [Mailbox.writeControl_read, List.append_cons]
  obtain hnone | ⟨hversion, hsome⟩ := afterReceive_events caller reply
  · rw [hnone, List.append_nil]
    exact ⟨hreceived, afterReceive_right _ _ caller reply ⟨_, hlast⟩⟩
  · obtain ⟨rs, hrs⟩ := hcaller _ hversion
    rw [hsome]
    refine ⟨hreceived.version rfl reply rs ?_, ?_⟩
    · rw [hlast, hrs, List.append_assoc]
      rfl
    · rw [hversion]
      trivial

/-- a step of the host, which reads the data only while a reply is there -/
theorem host_inv (s s' : MailSystem) (log es : List MailEvent) (h : MailInv s log)
    (hok : s.host.readsData = true → s.mailbox.read = true)
    (hstep : s.hostStep = some (s', es)) : MailInv s' (log ++ es) := by
  have hhost := h.host
  rw [HostRight] at hhost
  rw [MailSystem.hostStep] at hstep
  cases hs : s.host with
  | idle =>
    rw [hs] at hstep
    cases hstep
  | sendPoll caller message i =>
    rw [hs] at hstep hhost
    dsimp only at hstep hhost
    split_ifs at hstep with hcontrol hlast
    · cases hstep
      exact ⟨h.mailbox.silent rfl rfl, s.mailbox.control_write.mp hcontrol⟩
    · cases hstep
      exact ⟨h.mailbox.silent rfl rfl, hhost⟩
    · cases hstep
      exact timeout_inv s log h hhost _ fun es => afterSend_right s.mailbox _ caller false
  | sendData0 caller message =>
    rw [hs] at hstep hhost
    cases hstep
    refine ⟨h.mailbox.silent rfl ?_, hhost, rfl⟩
    rw [Mailbox.untaken_none hhost]
    exact Mailbox.untaken_none hhost
  | sendData1 caller message =>
    rw [hs] at hstep hhost
    cases hstep
    refine ⟨h.mailbox.silent rfl ?_, hhost.1, hhost.2, rfl⟩
    rw [Mailbox.untaken_none hhost.1]
    exact Mailbox.untaken_none hhost.1
  | sendControl caller message =>
    rw [hs] at hstep hhost
    obtain ⟨rfl, rfl⟩ := Prod.mk.inj (Option.some.inj hstep)
    exact sendControl_inv s log h.mailbox caller message hhost.1 hhost.2.1 hhost.2.2
  | receivePoll caller i =>
    rw [hs] at hstep hhost
    dsimp only at hstep hhost
    split_ifs at hstep with hcontrol hlast
    · cases hstep
      exact ⟨h.mailbox.silent rfl rfl, hhost.2.append [] rfl⟩
    · cases hstep
      exact ⟨h.mailbox.silent rfl rfl, hhost.1, hhost.2.append [] rfl⟩
    · cases hstep
      refine timeout_inv s log h hhost.1 _ ?_
      intro es
      cases caller <;> trivial
  | receiveData0 caller =>
    rw [hs] at hstep hhost
    cases hstep
    have hread : s.mailbox.read = true := hok (by rw [hs, Host.readsData])
    exact ⟨h.mailbox.silent rfl rfl, CallerRight.append hhost [] rfl, hread, rfl⟩
  | receiveData1 caller messageLow =>
    rw [hs] at hstep hhost
    cases hstep
    exact ⟨h.mailbox.silent rfl rfl, hhost.1.append [] rfl, hhost.2.1, hhost.2.2, rfl⟩
  | receiveControl caller messageLow messageHigh =>
    rw [hs] at hstep hhost
    obtain ⟨rfl, rfl⟩ := Prod.mk.inj (Option.some.inj hstep)
    obtain ⟨hcaller, hread, rfl, rfl⟩ := hhost
    exact receiveControl_inv s log h.mailbox caller hcaller hread _ rfl

/-- **a step** of either side, where the host reads the data only while a reply is there -/
theorem step_inv (s : MailSystem) (past : List MailEvent) (a : MailAction) (s' : MailSystem)
    (log : List MailEvent) (h : MailInv s past) (hok : ReplyThere s a)
    (hstep : s.step a = some (s', log)) : MailInv s' (past ++ log) := by
  cases a with
  | call c =>
    rw [MailSystem.step] at hstep
    split_ifs at hstep with hidle
    cases hstep
    refine ⟨h.mailbox.silent rfl rfl, ?_⟩
    cases c with
    | sendMessage message => exact rfl
    | receiveMessage =>
      refine ⟨rfl, ?_⟩
      intro command hcommand
      cases hcommand
    | getFirmwareVersion => exact rfl
  | host => exact host_inv s s' past log h hok hstep
  | take =>
    rw [MailSystem.step] at hstep
    split_ifs at hstep with hwrite
    cases hstep
    exact take_inv s past h hwrite
  | post reply =>
    rw [MailSystem.step] at hstep
    split_ifs at hstep with hread
    cases hstep
    exact post_inv s past h reply (Bool.not_eq_true _ ▸ hread)

/-! ## every run -/

/-- nothing was posted, and nothing sent -/
def Mailbox.fresh (m : Mailbox) : MailSystem :=
  ⟨{ m with read := false, write := false }, .idle, 0⟩

theorem fresh_inv (m : Mailbox) : MailInv m.fresh [] := by
  refine ⟨⟨rfl, rfl, ?_, ?_⟩, trivial⟩
  · intro writes hmem
    cases hmem
  · intro pre firmwareVersion post heq
    simp at heq

/-- **the mailbox is right** in every state of a run of the host and the controller, if the host
reads the data only while a reply is there -/
theorem mailbox_right (m : Mailbox) (as : List MailAction) (s : MailSystem) (log : List MailEvent)
    (hok : Meets MailSystem.step ReplyThere m.fresh as)
    (hrun : runLog MailSystem.step m.fresh as = some (s, log)) : MailboxRight s.mailbox log :=
  (runLog_invariant MailSystem.step ReplyThere MailInv step_inv m.fresh s [] as log (fresh_inv m)
    hok hrun).mailbox

def emptyMailbox : Mailbox := ⟨false, false, 0, 0, 0, 0⟩

/-- the poll of `AppleAsmediaReceiveMessage` ends, then the reply comes, and then it is read -/
def lateReply : List MailAction :=
  [.call .receiveMessage, .host, .post 0x1122334455667788, .host, .host, .host]

theorem lateReply_right :
    ∃ s, runLog MailSystem.step emptyMailbox.fresh lateReply =
        some (s, [.posted 0x1122334455667788, .received 0x1122334455667788]) ∧
      MailboxRight s.mailbox [.posted 0x1122334455667788, .received 0x1122334455667788] := by
  have hok : Meets MailSystem.step ReplyThere emptyMailbox.fresh lateReply := by decide +kernel
  have hrun : runLog MailSystem.step emptyMailbox.fresh lateReply =
      some (⟨⟨false, false, 0x55667788, 0x11223344, 0, 0⟩, .idle, 0⟩,
        [.posted 0x1122334455667788, .received 0x1122334455667788]) := by
    decide +kernel
  exact ⟨_, hrun, mailbox_right emptyMailbox lateReply _ _ hok hrun⟩

/-- `AppleAsmediaReceiveMessage` returns the stale data registers as a reply when none is there -/
theorem noReply_received :
    ∃ s log, runLog MailSystem.step emptyMailbox.fresh
        [.call .receiveMessage, .host, .host, .host, .host] = some (s, log) ∧
      log = [.received 0] ∧ ¬ MailboxRight s.mailbox log := by
  refine ⟨⟨emptyMailbox, .idle, 0⟩, [.received 0], by decide +kernel, rfl, ?_⟩
  intro h
  exact absurd h.replies (by decide +kernel)

end AppleSilicon

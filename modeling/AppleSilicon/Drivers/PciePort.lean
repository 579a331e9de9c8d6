import AppleSilicon.Drivers.Gpio
import AppleSilicon.Lib.Traced

/-!
# `AppleSiliconPciPlatformDxe`: bringing up a root port

The driver turns on the clocks of a port, holds the device behind it in reset meanwhile, and starts
the link.  The registers and the other end answer as they like; a run is what the driver does to
them, in order.

`PortRegs.step` is the order in which a port may be brought up, as a monitor of one port's
registers: PERST# is asserted before REFCLK is requested, both acknowledgements are read before
REFCLK is enabled, PERST# is released no sooner than 100 us later, and the link is started after a
status with the ready bit was read no sooner than 100 ms after that.

* `pollBit_ends`       a poll ends, and what it leaves behind;
* `bringUpPort_ends`   a run keeps to that order, starts the link or else times out with the last
  answer clear, and waits 550.5 ms at most.
-/

namespace AppleSilicon

open Traced

def bit32 (x : UInt32) : UInt32 := 1 <<< x

/-! ## registers -/

def phyLaneCfg : UInt64 := 0x0
def phyLaneCfgRefclk0Req : UInt32 := bit32 0
def phyLaneCfgRefclk1Req : UInt32 := bit32 1
def phyLaneCfgRefclk0Ack : UInt32 := bit32 2
def phyLaneCfgRefclk1Ack : UInt32 := bit32 3
def phyLaneCfgRefclkEn : UInt32 := bit32 9 ||| bit32 10
def phyLaneCfgRefclkCgen : UInt32 := bit32 30 ||| bit32 31
def phyLaneCtl : UInt64 := 0x4
def phyLaneCtlCfgacc : UInt32 := bit32 15

def portLtssmctl : UInt64 := 0x80
def portLtssmctlStart : UInt32 := bit32 0
def portLinksts : UInt64 := 0x208
def portLinkstsUp : UInt32 := bit32 0
def portAppclk : UInt64 := 0x800
def portAppclkEn : UInt32 := bit32 0
def portAppclkCgdis : UInt32 := bit32 8
def portStatus : UInt64 := 0x804
def portStatusReady : UInt32 := bit32 0
def portRefclk : UInt64 := 0x810
def portRefclkEn : UInt32 := bit32 0
def portRefclkCgdis : UInt32 := bit32 8
def portPerst : UInt64 := 0x814
def portPerstOff : UInt32 := bit32 0
def portT602xPerst : UInt64 := 0x82c

/-- `CORE_PHY_DEFAULT_BASE(port)` -/
def corePhyDefaultBase (port : UInt32) : UInt32 := 0x84000 + 0x4000 * port

/-! ## the driver -/

structure ApplePcieGpioDesc where
  gpioNum : UInt32
  gpioActivePolarity : UInt32
deriving DecidableEq

structure ApplePcieDevicePortInfo where
  deviceBaseAddress : UInt64
  devicePhyBaseAddress : UInt64
  resetGpioDesc : ApplePcieGpioDesc

/-- what the driver does to the machine -/
inductive PcieOp where
  | read (address : UInt64) (value : UInt32)
  | write (address : UInt64) (value : UInt32)
  | delay (us : ℕ)
  | gpioGet (gpio : UInt32)
  | gpioSet (gpio : UInt32) (mode : EmbeddedGpioMode)
  | addMemorySpace (base length : UInt64)
  | setMemorySpaceAttributes (base length : UInt64)
deriving DecidableEq

/-- the value of a register, after what was done so far -/
abbrev PcieHw := List PcieOp → UInt64 → UInt32

section
variable (hw : PcieHw)

def mmioRead32 (address : UInt64) : Traced PcieOp UInt32 :=
  ask (fun past => hw past address) (.read address)

def mmioWrite32 (address : UInt64) (value : UInt32) : Traced PcieOp Unit := act (.write address value)

def microSecondDelay (us : ℕ) : Traced PcieOp Unit := act (.delay us)

/-- a register read, changed, written and read back for a message -/
def pcieModify (f : UInt32 → UInt32) (address : UInt64) : Traced PcieOp Unit :=
  (mmioRead32 hw address).bind fun originalValue =>
    (mmioWrite32 address (f originalValue)).bind fun _ =>
      (mmioRead32 hw address).bind fun _ => Traced.pure ()

def appleSiliconPcieSetBits (bitsToSet : UInt32) : UInt64 → Traced PcieOp Unit :=
  pcieModify hw fun originalValue => originalValue ||| bitsToSet

def appleSiliconPcieClearBits (bitsToClear : UInt32) : UInt64 → Traced PcieOp Unit :=
  pcieModify hw fun originalValue => originalValue &&& ~~~bitsToClear

/-- the turns of a `while` loop that waits for a bit, with `n` more before `i` is at its bound -/
def pollTurns (address : UInt64) (bit : UInt32) : ℕ → Traced PcieOp Bool
  | 0 =>
    (microSecondDelay 100).bind fun _ =>
      (mmioRead32 hw address).bind fun value => Traced.pure (decide (value &&& bit ≠ 0))
  | n + 1 =>
    (microSecondDelay 100).bind fun _ =>
      (mmioRead32 hw address).bind fun value =>
        if value &&& bit ≠ 0 then Traced.pure true else pollTurns address bit n

/-- the bit is read, and the loop entered if it is clear -/
def pollBit (address : UInt64) (bit : UInt32) (bound : ℕ) : Traced PcieOp Bool :=
  (mmioRead32 hw address).bind fun value =>
    if value &&& bit ≠ 0 then Traced.pure true else pollTurns hw address bit bound

/-- the cases `0x6020`, `0x6021` and `0x6022` of the switches -/
def isT602x (pcdAppleSocIdentifier : UInt32) : Bool :=
  pcdAppleSocIdentifier = 0x6020 ∨ pcdAppleSocIdentifier = 0x6021 ∨ pcdAppleSocIdentifier = 0x6022

/-- a `switch` over `PcdAppleSocIdentifier` -/
def switchT602x (soc : UInt32) (t602x other : Traced PcieOp Unit) : Traced PcieOp Unit :=
  if isT602x soc then t602x else other

section
variable (soc : UInt32) (port : ApplePcieDevicePortInfo)

/-- the application clock, and PERST# asserted -/
def assertPerst : Traced PcieOp Unit :=
  (appleSiliconPcieSetBits hw portAppclkEn (port.deviceBaseAddress + portAppclk)).bind fun _ =>
    (act (.gpioGet port.resetGpioDesc.gpioNum)).bind fun _ =>
      (act (.gpioSet port.resetGpioDesc.gpioNum .output0)).bind fun _ =>
        act (.gpioGet port.resetGpioDesc.gpioNum)

/-- one REFCLK request and its acknowledgement -/
def requestRefclk (req ack : UInt32) : Traced PcieOp Bool :=
  (appleSiliconPcieSetBits hw req (port.devicePhyBaseAddress + phyLaneCfg)).bind fun _ =>
    pollBit hw (port.devicePhyBaseAddress + phyLaneCfg) ack 500

/-- from the acknowledged REFCLK to the release of PERST# -/
def releasePerst : Traced PcieOp Unit :=
  (switchT602x soc (Traced.pure ()) (appleSiliconPcieClearBits hw phyLaneCtlCfgacc
      (port.devicePhyBaseAddress + phyLaneCtl))).bind fun _ =>
    (appleSiliconPcieSetBits hw phyLaneCfgRefclkEn
        (port.devicePhyBaseAddress + phyLaneCfg)).bind fun _ =>
      (switchT602x soc (Traced.pure ()) (appleSiliconPcieSetBits hw portRefclkEn
          (port.deviceBaseAddress + portRefclk))).bind fun _ =>
        (microSecondDelay 100).bind fun _ =>
          (switchT602x soc
              (appleSiliconPcieSetBits hw portPerstOff (port.deviceBaseAddress + portT602xPerst))
              (appleSiliconPcieSetBits hw portPerstOff
                (port.deviceBaseAddress + portPerst))).bind fun _ =>
            (act (.gpioSet port.resetGpioDesc.gpioNum .output1)).bind fun _ =>
              microSecondDelay (100 * 1000)

/-- the link of a ready port; that it may not come up is not looked at -/
def startLink : Traced PcieOp StatusCode :=
  (mmioWrite32 (port.deviceBaseAddress + portLtssmctl) portLtssmctlStart).bind fun _ =>
    (pollBit hw (port.deviceBaseAddress + portLinksts) portLinkstsUp 1000).bind fun _ =>
      (switchT602x soc
          (appleSiliconPcieSetBits hw phyLaneCfgRefclkCgen (port.devicePhyBaseAddress + phyLaneCfg))
          (appleSiliconPcieClearBits hw portRefclkCgdis
            (port.deviceBaseAddress + portRefclk))).bind fun _ =>
        (appleSiliconPcieClearBits hw portAppclkCgdis
            (port.deviceBaseAddress + portAppclk)).bind fun _ =>
          Traced.pure .success

/-- `AppleSiliconPciePlatformDxeSetupPciePort`, from the first access to the port on -/
def bringUpPort : Traced PcieOp StatusCode :=
  (assertPerst hw port).bind fun _ =>
    (switchT602x soc (Traced.pure ()) (appleSiliconPcieSetBits hw phyLaneCtlCfgacc
        (port.devicePhyBaseAddress + phyLaneCtl))).bind fun _ =>
      (requestRefclk hw port phyLaneCfgRefclk0Req phyLaneCfgRefclk0Ack).bind fun refClk0Acked =>
        if refClk0Acked = false then Traced.pure .timeout
        else (requestRefclk hw port phyLaneCfgRefclk1Req phyLaneCfgRefclk1Ack).bind
          fun refClk1Acked =>
            if refClk1Acked = false then Traced.pure .timeout
            else (releasePerst hw soc port).bind fun _ =>
              (pollBit hw (port.deviceBaseAddress + portStatus) portStatusReady 2500).bind
                fun portReady =>
                  if portReady = false then Traced.pure .timeout else startLink hw soc port

end

end

/-! ## the order of a bring-up -/

/-- how far a port is; microseconds are counted where a wait is due -/
inductive PortPhase where
  | off
  | powered
  /-- PERST# is asserted -/
  | held
  | requested0
  | acked0
  | requested1
  | acked1
  /-- REFCLK is enabled -/
  | clocked (us : ℕ)
  | perstOff
  /-- PERST# is released -/
  | released (us : ℕ)
  | ready
  /-- the link was started -/
  | started
deriving DecidableEq

def PortPhase.wait (us : ℕ) : PortPhase → PortPhase
  | .clocked n => .clocked (n + us)
  | .released n => .released (n + us)
  | p => p

/-- the registers and the pin of one port -/
structure PortRegs where
  device : UInt64
  phy : UInt64
  perstGpio : UInt32
  t602x : Bool
deriving DecidableEq

/-- `last` is the last read of one of the port's registers, if nothing was written since -/
structure PortState where
  phase : PortPhase
  last : Option (UInt64 × UInt32)
  elapsed : ℕ
deriving DecidableEq

namespace PortRegs

variable (r : PortRegs)

/-- `PORT_PERST`, which is elsewhere on T602X -/
def perst : UInt64 := r.device + if r.t602x then portT602xPerst else portPerst

def registers : List UInt64 :=
  [r.phy + phyLaneCfg, r.phy + phyLaneCtl, r.device + portLtssmctl, r.device + portLinksts,
    r.device + portAppclk, r.device + portStatus, r.device + portRefclk, r.perst]

def owns : PcieOp → Bool
  | .read a _ => a ∈ r.registers
  | .write a _ => a ∈ r.registers
  | .delay _ => true
  | .gpioGet gpio => gpio = r.perstGpio
  | .gpioSet gpio _ => gpio = r.perstGpio
  | .addMemorySpace .. => false
  | .setMemorySpaceAttributes .. => false

/-- what is learned from a read -/
def onRead (a : UInt64) (v : UInt32) : PortPhase → PortPhase
  | .requested0 =>
    if a = r.phy + phyLaneCfg ∧ v &&& phyLaneCfgRefclk0Ack ≠ 0 then .acked0 else .requested0
  | .requested1 =>
    if a = r.phy + phyLaneCfg ∧ v &&& phyLaneCfgRefclk1Ack ≠ 0 then .acked1 else .requested1
  | .released us =>
    if a = r.device + portStatus ∧ v &&& portStatusReady ≠ 0 ∧ 100000 ≤ us then .ready
    else .released us
  | p => p

/-- a register that read `w` is written with `v`: where that change is due, the phase it leads to -/
def edit (a : UInt64) (w v : UInt32) : PortPhase → Option PortPhase
  | .off => if a = r.device + portAppclk ∧ v = w ||| portAppclkEn then some .powered else none
  | .held =>
    if a = r.phy + phyLaneCfg ∧ v = w ||| phyLaneCfgRefclk0Req then some .requested0
    else if a = r.phy + phyLaneCtl ∧ r.t602x = false ∧ v = w ||| phyLaneCtlCfgacc then some .held
    else none
  | .acked0 =>
    if a = r.phy + phyLaneCfg ∧ v = w ||| phyLaneCfgRefclk1Req then some .requested1 else none
  | .acked1 =>
    if a = r.phy + phyLaneCfg ∧ v = w ||| phyLaneCfgRefclkEn then some (.clocked 0)
    else if a = r.phy + phyLaneCtl ∧ r.t602x = false ∧ v = w &&& ~~~phyLaneCtlCfgacc then
      some .acked1
    else none
  | .clocked us =>
    if a = r.perst ∧ v = w ||| portPerstOff ∧ 100 ≤ us then some .perstOff
    else if a = r.device + portRefclk ∧ r.t602x = false ∧ v = w ||| portRefclkEn then
      some (.clocked us)
    else none
  | .started =>
    if a = r.device + portAppclk ∧ v = w &&& ~~~portAppclkCgdis ∨
        a = r.phy + phyLaneCfg ∧ r.t602x = true ∧ v = w ||| phyLaneCfgRefclkCgen ∨
        a = r.device + portRefclk ∧ r.t602x = false ∧ v = w &&& ~~~portRefclkCgdis then
      some .started
    else none
  | _ => none

/-- a write starts the link of a ready port, or it changes the register that was just read -/
def onWrite (s : PortState) (a : UInt64) (v : UInt32) : Option PortPhase :=
  if s.phase = .ready ∧ a = r.device + portLtssmctl ∧ v = portLtssmctlStart then some .started
  else s.last.bind fun last => if last.1 = a then r.edit a last.2 v s.phase else none

/-- PERST# is asserted before anything else and released at its time -/
def onGpio : PortPhase → EmbeddedGpioMode → Option PortPhase
  | .powered, .output0 => some .held
  | .perstOff, .output1 => some (.released 0)
  | _, _ => none

/-- the monitor of one port -/
def step (s : PortState) (op : PcieOp) : Option PortState :=
  if r.owns op then
    match op with
    | .read a v => some ⟨r.onRead a v s.phase, some (a, v), s.elapsed⟩
    | .write a v => (r.onWrite s a v).map fun p => ⟨p, none, s.elapsed⟩
    | .delay us => some ⟨s.phase.wait us, s.last, s.elapsed + us⟩
    | .gpioGet _ => some s
    | .gpioSet _ mode => (onGpio s.phase mode).map fun p => ⟨p, s.last, s.elapsed⟩
    | _ => none
  else none

end PortRegs

/-! ## single operations -/

section
variable (hw : PcieHw) (r : PortRegs)

theorem read_ends (s : PortState) (a : UInt64) (post : Option UInt32 → PortState → Prop)
    (ha : a ∈ r.registers)
    (hpost : ∀ v, post (some v) ⟨r.onRead a v s.phase, some (a, v), s.elapsed⟩) :
    Ends r.step s (mmioRead32 hw a) post := by
  apply Ends.ask
  intro v
  refine ⟨_, ?_, hpost v⟩
  unfold PortRegs.step
  rw [if_pos (by simpa [PortRegs.owns] using ha)]

theorem delay_ends (s : PortState) (us : ℕ) (post : Option Unit → PortState → Prop)
    (hpost : post (some ()) ⟨s.phase.wait us, s.last, s.elapsed + us⟩) :
    Ends r.step s (microSecondDelay us) post := Ends.act _ _ _ _ _ rfl hpost

theorem gpioGet_ends (s : PortState) (post : Option Unit → PortState → Prop)
    (hpost : post (some ()) s) : Ends r.step s (act (.gpioGet r.perstGpio)) post := by
  refine Ends.act _ _ _ _ _ ?_ hpost
  unfold PortRegs.step
  rw [if_pos (by simp [PortRegs.owns])]

theorem gpioSet_ends (s : PortState) (mode : EmbeddedGpioMode) (p : PortPhase)
    (post : Option Unit → PortState → Prop) (hp : PortRegs.onGpio s.phase mode = some p)
    (hpost : post (some ()) ⟨p, s.last, s.elapsed⟩) :
    Ends r.step s (act (.gpioSet r.perstGpio mode)) post := by
  refine Ends.act _ _ _ _ _ ?_ hpost
  unfold PortRegs.step
  rw [if_pos (by simp [PortRegs.owns])]
  dsimp only
  rw [hp]
  rfl

/-- a change that is due, in a phase that reads do not end -/
theorem modify_ends (s : PortState) (f : UInt32 → UInt32) (a : UInt64) (p : PortPhase)
    (post : Option Unit → PortState → Prop) (ha : a ∈ r.registers)
    (hquiet : ∀ v, r.onRead a v s.phase = s.phase)
    (hedit : ∀ w, r.edit a w (f w) s.phase = some p)
    (hpost : ∀ v, post (some ()) ⟨r.onRead a v p, some (a, v), s.elapsed⟩) :
    Ends r.step s (pcieModify hw f a) post := by
  have hread : Ends r.step s (mmioRead32 hw a) fun o q => ∃ v, o = some v ∧
      q = ⟨s.phase, some (a, v), s.elapsed⟩ :=
    read_ends hw r s a _ ha fun v => ⟨v, rfl, by rw [hquiet]⟩
  refine hread.seq fun v q hq => ?_
  rw [hq]
  have hnot : s.phase ≠ .ready := by
    intro h
    have he := hedit 0
    rw [h] at he
    cases he
  have hwrite : Ends r.step ⟨s.phase, some (a, v), s.elapsed⟩ (mmioWrite32 a (f v))
      fun o q => ∃ u, o = some u ∧ q = ⟨p, none, s.elapsed⟩ := by
    refine Ends.act _ _ ⟨p, none, s.elapsed⟩ _ _ ?_ ⟨(), rfl, rfl⟩
    unfold PortRegs.step PortRegs.onWrite
    rw [if_pos (by simpa [PortRegs.owns] using ha)]
    dsimp only
    rw [if_neg (fun h => hnot h.1), Option.bind_some, if_pos rfl, hedit]
    rfl
  refine hwrite.seq fun _ q' hq' => ?_
  rw [hq']
  have hback : Ends r.step ⟨p, none, s.elapsed⟩ (mmioRead32 hw a) fun o q => ∃ v, o = some v ∧
      q = ⟨r.onRead a v p, some (a, v), s.elapsed⟩ := read_ends hw r _ a _ ha fun v => ⟨v, rfl, rfl⟩
  refine hback.seq fun v q'' hq'' => ?_
  rw [hq'']
  exact Ends.pure _ _ _ _ (hpost v)

/-! ## polls -/

/-- what a poll of a bit makes of the port: `clear` is kept while the bit is clear, and `set` holds
once it was read set -/
structure PollOk (a : UInt64) (bit : UInt32) (clear set : PortPhase → Prop) : Prop where
  mem : a ∈ r.registers
  wait : ∀ p us, clear p → clear (p.wait us)
  stays : ∀ p v, clear p → v &&& bit = 0 → clear (r.onRead a v p)
  leaves : ∀ p v, clear p → v &&& bit ≠ 0 → set (r.onRead a v p)

/-- after a poll with the answer `acked`, at most `us` later -/
def Polled (a : UInt64) (bit : UInt32) (clear set : PortPhase → Prop) (us : ℕ) (s : PortState)
    (acked : Bool) (q : PortState) : Prop :=
  q.elapsed ≤ s.elapsed + us ∧
    if acked then set q.phase
    else clear q.phase ∧ ∃ v, q.last = some (a, v) ∧ v &&& bit = 0

variable {r} {a : UInt64} {bit : UInt32} {clear set : PortPhase → Prop}

/-- one read of the polled bit -/
theorem pollRead_ends (hok : PollOk r a bit clear set) (s : PortState) (hs : clear s.phase) :
    Ends r.step s (mmioRead32 hw a) fun o q => ∃ v, o = some v ∧
      Polled a bit clear set 0 s (decide (v &&& bit ≠ 0)) q := by
  apply read_ends hw r s a _ hok.mem
  intro v
  refine ⟨v, rfl, le_refl _, ?_⟩
  by_cases hv : v &&& bit ≠ 0
  · rw [decide_eq_true hv, if_pos rfl]
    exact hok.leaves _ v hs hv
  · rw [decide_eq_false hv, if_neg (by simp)]
    rw [not_not] at hv
    exact ⟨hok.stays _ v hs hv, v, rfl, hv⟩

/-- one turn of the loop, up to its read -/
theorem pollTurn_ends (hok : PollOk r a bit clear set) (s : PortState) (hs : clear s.phase)
    (f : UInt32 → Traced PcieOp Bool) (post : Option Bool → PortState → Prop)
    (hf : ∀ v q, Polled a bit clear set 100 s (decide (v &&& bit ≠ 0)) q →
      Ends r.step q (f v) post) :
    Ends r.step s ((microSecondDelay 100).bind fun _ => (mmioRead32 hw a).bind f) post := by
  have hdelay : Ends r.step s (microSecondDelay 100) fun o q => ∃ u, o = some u ∧
      q = ⟨s.phase.wait 100, s.last, s.elapsed + 100⟩ := delay_ends r s 100 _ ⟨(), rfl, rfl⟩
  refine hdelay.seq fun _ q hq => ?_
  rw [hq]
  exact (pollRead_ends hw hok _ (hok.wait _ 100 hs)).seq fun v q' hq' => hf v q' hq'

theorem pollTurns_ends (hok : PollOk r a bit clear set) (n : ℕ) (s : PortState)
    (hs : clear s.phase) :
    Ends r.step s (pollTurns hw a bit n) fun o q => ∃ acked, o = some acked ∧
      Polled a bit clear set ((n + 1) * 100) s acked q := by
  induction n generalizing s with
  | zero =>
    refine pollTurn_ends hw hok s hs _ _ fun v q hq => ?_
    obtain ⟨htime, hq⟩ := hq
    exact Ends.pure _ _ _ _ ⟨decide (v &&& bit ≠ 0), rfl, by omega, hq⟩
  | succ n ih =>
    refine pollTurn_ends hw hok s hs _ _ fun v q hq => ?_
    obtain ⟨htime, hq⟩ := hq
    by_cases hv : v &&& bit ≠ 0
    · rw [decide_eq_true hv] at hq
      rw [if_pos hv]
      exact Ends.pure _ _ _ _ ⟨true, rfl, by omega, hq⟩
    · rw [decide_eq_false hv, if_neg (by simp)] at hq
      rw [if_neg hv]
      refine (ih q hq.1).mono fun o q' h => ?_
      obtain ⟨acked, e, htime', h⟩ := h
      exact ⟨acked, e, by omega, h⟩

/-- **a poll** ends at most `bound + 1` waits later -/
theorem pollBit_ends (hok : PollOk r a bit clear set) (bound : ℕ) (s : PortState)
    (hs : clear s.phase) :
    Ends r.step s (pollBit hw a bit bound) fun o q => ∃ acked, o = some acked ∧
      Polled a bit clear set ((bound + 1) * 100) s acked q := by
  refine (pollRead_ends hw hok s hs).seq fun v q hq => ?_
  obtain ⟨htime, hq⟩ := hq
  by_cases hv : v &&& bit ≠ 0
  · rw [decide_eq_true hv] at hq
    rw [if_pos hv]
    exact Ends.pure _ _ _ _ ⟨true, rfl, by omega, hq⟩
  · rw [decide_eq_false hv, if_neg (by simp)] at hq
    rw [if_neg hv]
    refine (pollTurns_ends hw hok bound q hq.1).mono fun o q' h => ?_
    obtain ⟨acked, e, htime', h⟩ := h
    exact ⟨acked, e, by omega, h⟩

end

/-! ## the stages of a bring-up -/

/-- the registers of a port of the driver -/
def ApplePcieDevicePortInfo.regs (port : ApplePcieDevicePortInfo) (soc : UInt32) : PortRegs where
  device := port.deviceBaseAddress
  phy := port.devicePhyBaseAddress
  perstGpio := port.resetGpioDesc.gpioNum
  t602x := isT602x soc

section
variable (hw : PcieHw) (soc : UInt32) (port : ApplePcieDevicePortInfo)

theorem phy_ne (x : UInt64) : x + phyLaneCtl ≠ x + phyLaneCfg := by
  intro h
  have h2 := congrArg (fun y => y - x) h
  simp [phyLaneCtl, phyLaneCfg] at h2

theorem assertPerst_ends (s : PortState) (hs : s.phase = .off) :
    Ends (port.regs soc).step s (assertPerst hw port) fun o q => ∃ u, o = some u ∧
      q.phase = .held ∧ q.elapsed = s.elapsed := by
  have hclock : Ends (port.regs soc).step s (appleSiliconPcieSetBits hw portAppclkEn
      (port.deviceBaseAddress + portAppclk)) fun o q => ∃ u, o = some u ∧
        q.phase = .powered ∧ q.elapsed = s.elapsed := by
    refine modify_ends hw _ s _ _ .powered _ ?_ ?_ ?_ fun v => ⟨(), rfl, rfl, rfl⟩
    · simp [PortRegs.registers, ApplePcieDevicePortInfo.regs]
    · intro v
      rw [hs]
      rfl
    · rw [hs]
      simp [PortRegs.edit, ApplePcieDevicePortInfo.regs]
  refine hclock.seq fun _ q ⟨hp, ht⟩ => ?_
  have hget : Ends (port.regs soc).step q (act (.gpioGet port.resetGpioDesc.gpioNum)) fun o q' =>
      ∃ u, o = some u ∧ q' = q := gpioGet_ends (port.regs soc) q _ ⟨(), rfl, rfl⟩
  refine hget.seq fun _ q' hq' => ?_
  rw [hq']
  have hset : Ends (port.regs soc).step q (act (.gpioSet port.resetGpioDesc.gpioNum .output0))
      fun o q' => ∃ u, o = some u ∧ q'.phase = .held ∧ q'.elapsed = s.elapsed :=
    gpioSet_ends (port.regs soc) q .output0 .held _ (by rw [hp]; rfl) ⟨(), rfl, rfl, ht⟩
  refine hset.seq fun _ q'' h => ?_
  exact gpioGet_ends (port.regs soc) q'' _ ⟨(), rfl, h⟩

/-- an access that only some SoCs need -/
theorem switchT602x_ends (r : PortRegs) (s : PortState) (x y : Traced PcieOp Unit)
    (post : Option Unit → PortState → Prop) (hx : isT602x soc = true → Ends r.step s x post)
    (hy : isT602x soc = false → Ends r.step s y post) :
    Ends r.step s (switchT602x soc x y) post := by
  unfold switchT602x
  cases h : isT602x soc with
  | true =>
    rw [if_pos rfl]
    exact hx h
  | false =>
    rw [if_neg Bool.false_ne_true]
    exact hy h

/-- the PHY lane control is written where it is there -/
theorem laneCtl_ends (s : PortState) (p : PortPhase) (x : Traced PcieOp Unit)
    (f : UInt32 → UInt32) (hx : x = pcieModify hw f (port.devicePhyBaseAddress + phyLaneCtl))
    (hquiet : ∀ a v, (port.regs soc).onRead a v p = p) (hs : s.phase = p)
    (hedit : isT602x soc = false → ∀ w,
      (port.regs soc).edit (port.devicePhyBaseAddress + phyLaneCtl) w (f w) p = some p) :
    Ends (port.regs soc).step s (switchT602x soc (Traced.pure ()) x) fun o q =>
      ∃ u, o = some u ∧ q.phase = p ∧ q.elapsed = s.elapsed := by
  apply switchT602x_ends
  · intro _
    exact Ends.pure _ _ _ _ ⟨(), rfl, hs, rfl⟩
  · intro hsoc
    rw [hx]
    refine modify_ends hw _ s f _ p _ ?_ ?_ ?_ fun v => ⟨(), rfl, hquiet _ v, rfl⟩
    · simp [PortRegs.registers, ApplePcieDevicePortInfo.regs]
    · intro v
      rw [hs]
      exact hquiet _ v
    · rw [hs]
      exact hedit hsoc

/-- **a request** leads from phase `from` to `requested`, and its acknowledgement to `acked` -/
theorem requestRefclk_ends (s : PortState) (req ack : UInt32) (idle requested acked : PortPhase)
    (hs : s.phase = idle) (hquiet : ∀ a v, (port.regs soc).onRead a v idle = idle)
    (hedit : ∀ w, (port.regs soc).edit (port.devicePhyBaseAddress + phyLaneCfg) w (w ||| req) idle
      = some requested)
    (hwait : ∀ us, requested.wait us = requested ∧ acked.wait us = acked)
    (hdone : ∀ a v, (port.regs soc).onRead a v acked = acked)
    (hread : ∀ v, (port.regs soc).onRead (port.devicePhyBaseAddress + phyLaneCfg) v requested
      = if v &&& ack ≠ 0 then acked else requested) :
    Ends (port.regs soc).step s (requestRefclk hw port req ack) fun o q => ∃ b, o = some b ∧
      Polled (port.devicePhyBaseAddress + phyLaneCfg) ack
        (fun p => p = requested ∨ p = acked) (fun p => p = acked) 50100 s b q := by
  have hmem : port.devicePhyBaseAddress + phyLaneCfg ∈ (port.regs soc).registers := by
    simp [PortRegs.registers, ApplePcieDevicePortInfo.regs]
  have hok : PollOk (port.regs soc) (port.devicePhyBaseAddress + phyLaneCfg) ack
      (fun p => p = requested ∨ p = acked) (fun p => p = acked) := by
    refine ⟨hmem, ?_, ?_, ?_⟩
    · intro p us hp
      rcases hp with rfl | rfl
      · exact .inl (hwait us).1
      · exact .inr (hwait us).2
    · intro p v hp hv
      rcases hp with rfl | rfl
      · rw [hread, if_neg (fun h => h hv)]
        exact .inl rfl
      · exact .inr (hdone _ v)
    · intro p v hp hv
      rcases hp with rfl | rfl
      · rw [hread, if_pos hv]
      · exact hdone _ v
  have hreq : Ends (port.regs soc).step s (appleSiliconPcieSetBits hw req
      (port.devicePhyBaseAddress + phyLaneCfg)) fun o q => ∃ u, o = some u ∧
        (q.phase = requested ∨ q.phase = acked) ∧ q.elapsed = s.elapsed := by
    refine modify_ends hw _ s _ _ requested _ hmem ?_ ?_ fun v => ⟨(), rfl, ?_, rfl⟩
    · intro v
      rw [hs]
      exact hquiet _ v
    · rw [hs]
      exact hedit
    · show (port.regs soc).onRead _ v requested = requested ∨ _
      rw [hread]
      by_cases hv : v &&& ack ≠ 0
      · exact .inr (if_pos hv)
      · exact .inl (if_neg hv)
  refine hreq.seq fun _ q ⟨hp, ht⟩ => ?_
  refine (pollBit_ends hw hok 500 q hp).mono fun o q' h => ?_
  obtain ⟨b, e, htime, h⟩ := h
  exact ⟨b, e, by omega, h⟩

/-- PERST# is taken off once the clock has run for 100 us -/
theorem perstOff_ends (s : PortState) (hs : s.phase = .clocked 100) (a : UInt64)
    (ha : a = (port.regs soc).perst) :
    Ends (port.regs soc).step s (appleSiliconPcieSetBits hw portPerstOff a) fun o q =>
      ∃ u, o = some u ∧ q.phase = .perstOff ∧ q.elapsed = s.elapsed := by
  refine modify_ends hw _ s _ _ .perstOff _ ?_ ?_ ?_ fun v => ⟨(), rfl, rfl, rfl⟩
  · rw [ha]
    simp [PortRegs.registers]
  · intro v
    rw [hs]
    rfl
  · rw [hs, ha]
    exact fun w => if_pos ⟨rfl, rfl, le_refl _⟩

theorem releasePerst_ends (s : PortState) (hs : s.phase = .acked1) :
    Ends (port.regs soc).step s (releasePerst hw soc port) fun o q => ∃ u, o = some u ∧
      (∃ us, 100000 ≤ us ∧ q.phase = .released us) ∧ q.elapsed = s.elapsed + 100100 := by
  have hctl := laneCtl_ends hw soc port s .acked1
    (appleSiliconPcieClearBits hw phyLaneCtlCfgacc (port.devicePhyBaseAddress + phyLaneCtl))
    _ rfl (fun _ _ => rfl) hs (fun hsoc w => by
      have hne := phy_ne port.devicePhyBaseAddress
      exact (if_neg fun h => hne h.1).trans (if_pos ⟨rfl, hsoc, rfl⟩))
  refine hctl.seq fun _ q ⟨hp, ht⟩ => ?_
  have hen : Ends (port.regs soc).step q (appleSiliconPcieSetBits hw phyLaneCfgRefclkEn
      (port.devicePhyBaseAddress + phyLaneCfg)) fun o q' => ∃ u, o = some u ∧
        q'.phase = .clocked 0 ∧ q'.elapsed = s.elapsed := by
    refine modify_ends hw _ q _ _ (.clocked 0) _ ?_ ?_ ?_ fun v => ⟨(), rfl, rfl, ht⟩
    · simp [PortRegs.registers, ApplePcieDevicePortInfo.regs]
    · intro v
      rw [hp]
      rfl
    · rw [hp]
      exact fun w => if_pos ⟨rfl, rfl⟩
  refine hen.seq fun _ q₁ ⟨hp₁, ht₁⟩ => ?_
  have hrefclk : Ends (port.regs soc).step q₁ (switchT602x soc (Traced.pure ())
      (appleSiliconPcieSetBits hw portRefclkEn (port.deviceBaseAddress + portRefclk)))
      fun o q' => ∃ u, o = some u ∧ q'.phase = .clocked 0 ∧ q'.elapsed = s.elapsed := by
    apply switchT602x_ends
    · intro _
      exact Ends.pure _ _ _ _ ⟨(), rfl, hp₁, ht₁⟩
    · intro hsoc
      refine modify_ends hw _ q₁ _ _ (.clocked 0) _ ?_ ?_ ?_ fun v => ⟨(), rfl, rfl, ht₁⟩
      · simp [PortRegs.registers, ApplePcieDevicePortInfo.regs]
      · intro v
        rw [hp₁]
        rfl
      · rw [hp₁]
        simp [PortRegs.edit, ApplePcieDevicePortInfo.regs, hsoc]
  refine hrefclk.seq fun _ q₂ ⟨hp₂, ht₂⟩ => ?_
  have hwait : Ends (port.regs soc).step q₂ (microSecondDelay 100) fun o q' => ∃ u, o = some u ∧
      q'.phase = .clocked 100 ∧ q'.elapsed = s.elapsed + 100 :=
    delay_ends _ q₂ 100 _ ⟨(), rfl, by rw [hp₂]; rfl, by rw [ht₂]⟩
  refine hwait.seq fun _ q₃ ⟨hp₃, ht₃⟩ => ?_
  have hperst := switchT602x_ends soc (port.regs soc) q₃
    (appleSiliconPcieSetBits hw portPerstOff (port.deviceBaseAddress + portT602xPerst))
    (appleSiliconPcieSetBits hw portPerstOff (port.deviceBaseAddress + portPerst)) _
    (fun hsoc => perstOff_ends hw soc port q₃ hp₃ _
      (by simp [PortRegs.perst, ApplePcieDevicePortInfo.regs, hsoc]))
    (fun hsoc => perstOff_ends hw soc port q₃ hp₃ _
      (by simp [PortRegs.perst, ApplePcieDevicePortInfo.regs, hsoc]))
  refine hperst.seq fun _ q₄ ⟨hp₄, ht₄⟩ => ?_
  have hset : Ends (port.regs soc).step q₄ (act (.gpioSet port.resetGpioDesc.gpioNum .output1))
      fun o q' => ∃ u, o = some u ∧ q'.phase = .released 0 ∧ q'.elapsed = s.elapsed + 100 :=
    gpioSet_ends (port.regs soc) q₄ .output1 (.released 0) _ (by rw [hp₄]; rfl)
      ⟨(), rfl, rfl, ht₄.trans ht₃⟩
  refine hset.seq fun _ q₅ ⟨hp₅, ht₅⟩ => ?_
  refine delay_ends _ q₅ _ _ ⟨(), rfl, ⟨100000, le_refl _, by rw [hp₅]; rfl⟩, ?_⟩
  show q₅.elapsed + 100 * 1000 = s.elapsed + 100100
  omega

/-- the poll for the link leaves a started port started -/
theorem linkPoll_ok : PollOk (port.regs soc) (port.deviceBaseAddress + portLinksts) portLinkstsUp
    (fun p => p = .started) (fun p => p = .started) := by
  refine ⟨?_, ?_, ?_, ?_⟩
  · simp [PortRegs.registers, ApplePcieDevicePortInfo.regs]
  · intro p us hp
    rw [hp]
    rfl
  · intro p v hp _
    rw [hp]
    rfl
  · intro p v hp _
    rw [hp]
    rfl

/-- an edit that a started port allows -/
theorem startedEdit_ends (s : PortState) (hs : s.phase = .started) (f : UInt32 → UInt32) (a : UInt64)
    (ha : a ∈ (port.regs soc).registers)
    (hf : ∀ w, (port.regs soc).edit a w (f w) .started = some .started) :
    Ends (port.regs soc).step s (pcieModify hw f a) fun o q => ∃ u, o = some u ∧
      q.phase = .started ∧ q.elapsed = s.elapsed := by
  refine modify_ends hw _ s f a .started _ ha ?_ ?_ fun v => ⟨(), rfl, rfl, rfl⟩
  · intro v
    rw [hs]
    rfl
  · rw [hs]
    exact hf

/-- the link of a ready port is started, and the port stays so -/
theorem startLink_ends (s : PortState) (hs : s.phase = .ready) :
    Ends (port.regs soc).step s (startLink hw soc port) fun o q => o = some .success ∧
      q.phase = .started ∧ q.elapsed ≤ s.elapsed + 100100 := by
  have hstart : Ends (port.regs soc).step s (mmioWrite32 (port.deviceBaseAddress + portLtssmctl)
      portLtssmctlStart) fun o q => ∃ u, o = some u ∧ q = ⟨.started, none, s.elapsed⟩ := by
    refine Ends.act _ _ ⟨.started, none, s.elapsed⟩ _ _ ?_ ⟨(), rfl, rfl⟩
    simp [PortRegs.step, PortRegs.owns, PortRegs.onWrite, PortRegs.registers,
      ApplePcieDevicePortInfo.regs, hs]
  refine hstart.seq fun _ q hq => ?_
  refine (pollBit_ends hw (linkPoll_ok soc port) 1000 q (by rw [hq])).seq fun up q₁ ⟨ht₁, hp₁⟩ => ?_
  have hp₁ : q₁.phase = .started := by
    cases up with
    | true => exact hp₁
    | false => exact hp₁.1
  rw [hq] at ht₁
  have hgate := switchT602x_ends soc (port.regs soc) q₁
    (appleSiliconPcieSetBits hw phyLaneCfgRefclkCgen (port.devicePhyBaseAddress + phyLaneCfg))
    (appleSiliconPcieClearBits hw portRefclkCgdis (port.deviceBaseAddress + portRefclk)) _
    (fun hsoc => startedEdit_ends hw soc port q₁ hp₁ _ _
      (by simp [PortRegs.registers, ApplePcieDevicePortInfo.regs])
      fun w => if_pos (.inr (.inl ⟨rfl, hsoc, rfl⟩)))
    (fun hsoc => startedEdit_ends hw soc port q₁ hp₁ _ _
      (by simp [PortRegs.registers, ApplePcieDevicePortInfo.regs])
      fun w => by simp [PortRegs.edit, ApplePcieDevicePortInfo.regs, hsoc])
  refine hgate.seq fun _ q₂ ⟨hp₂, ht₂⟩ => ?_
  refine (startedEdit_ends hw soc port q₂ hp₂ (fun w => w &&& ~~~portAppclkCgdis)
    (port.deviceBaseAddress + portAppclk) ?_ ?_).seq fun _ q₃ ⟨hp₃, ht₃⟩ => ?_
  · simp [PortRegs.registers, ApplePcieDevicePortInfo.regs]
  · simp [PortRegs.edit, ApplePcieDevicePortInfo.regs]
  · refine Ends.pure _ _ _ _ ⟨rfl, hp₃, ?_⟩
    dsimp only at ht₁
    omega

end

/-! ## the whole bring-up -/

/-- the last read of a register showed an acknowledgement or the ready bit clear -/
def PortRegs.Unanswered (r : PortRegs) (q : PortState) : Prop :=
  ∃ v, q.last = some (r.phy + phyLaneCfg, v) ∧
      (v &&& phyLaneCfgRefclk0Ack = 0 ∨ v &&& phyLaneCfgRefclk1Ack = 0) ∨
    q.last = some (r.device + portStatus, v) ∧ v &&& portStatusReady = 0

/-- the link was started, or the wait for an answer is over and it was not -/
def PortRegs.Outcome (r : PortRegs) (status : StatusCode) (q : PortState) : Prop :=
  status = .success ∧ q.phase = .started ∨
    status = .timeout ∧ q.phase ≠ .started ∧ r.Unanswered q

section
variable (hw : PcieHw) (soc : UInt32) (port : ApplePcieDevicePortInfo)

theorem readyPoll_ok (r : PortRegs) : PollOk r (r.device + portStatus) portStatusReady
    (fun p => ∃ us, 100000 ≤ us ∧ p = .released us) (fun p => p = .ready) := by
  refine ⟨by simp [PortRegs.registers], ?_, ?_, ?_⟩
  · intro p us hp
    obtain ⟨n, hn, rfl⟩ := hp
    exact ⟨n + us, by omega, rfl⟩
  · intro p v hp hv
    obtain ⟨n, hn, rfl⟩ := hp
    exact ⟨n, hn, by simp [PortRegs.onRead, hv]⟩
  · intro p v hp hv
    obtain ⟨n, hn, rfl⟩ := hp
    simp [PortRegs.onRead, hv, hn]

theorem bringUpPort_ends (s : PortState) (hs : s.phase = .off) :
    Ends (port.regs soc).step s (bringUpPort hw soc port) fun o q => ∃ status, o = some status ∧
      (port.regs soc).Outcome status q ∧ q.elapsed ≤ s.elapsed + 550500 := by
  refine (assertPerst_ends hw soc port s hs).seq fun _ q ⟨hp, ht⟩ => ?_
  have hctl := laneCtl_ends hw soc port q .held
    (appleSiliconPcieSetBits hw phyLaneCtlCfgacc (port.devicePhyBaseAddress + phyLaneCtl))
    _ rfl (fun _ _ => rfl) hp (fun hsoc w => by
      have hne := phy_ne port.devicePhyBaseAddress
      exact (if_neg fun h => hne h.1).trans (if_pos ⟨rfl, hsoc, rfl⟩))
  refine hctl.seq fun _ q₁ ⟨hp₁, ht₁⟩ => ?_
  have hreq0 := requestRefclk_ends hw soc port q₁ phyLaneCfgRefclk0Req phyLaneCfgRefclk0Ack
    .held .requested0 .acked0 hp₁ (fun _ _ => rfl) (fun _ => if_pos ⟨rfl, rfl⟩)
    (fun _ => ⟨rfl, rfl⟩) (fun _ _ => rfl)
    (fun v => by simp [PortRegs.onRead, ApplePcieDevicePortInfo.regs])
  refine hreq0.seq fun refClk0Acked q₂ ⟨ht₂, hp₂⟩ => ?_
  cases refClk0Acked with
  | false =>
    obtain ⟨hp₂, v, hlast, hv⟩ := hp₂
    refine Ends.pure _ _ _ _ ⟨.timeout, rfl, .inr ⟨rfl, ?_, v, .inl ⟨hlast, .inl hv⟩⟩, by omega⟩
    rcases hp₂ with h | h <;> rw [h] <;> simp
  | true =>
    have hp₂ : q₂.phase = .acked0 := hp₂
    have hreq1 := requestRefclk_ends hw soc port q₂ phyLaneCfgRefclk1Req phyLaneCfgRefclk1Ack
      .acked0 .requested1 .acked1 hp₂ (fun _ _ => rfl) (fun _ => if_pos ⟨rfl, rfl⟩)
      (fun _ => ⟨rfl, rfl⟩) (fun _ _ => rfl)
      (fun v => by simp [PortRegs.onRead, ApplePcieDevicePortInfo.regs])
    refine hreq1.seq fun refClk1Acked q₃ ⟨ht₃, hp₃⟩ => ?_
    cases refClk1Acked with
    | false =>
      obtain ⟨hp₃, v, hlast, hv⟩ := hp₃
      refine Ends.pure _ _ _ _ ⟨.timeout, rfl, .inr ⟨rfl, ?_, v, .inl ⟨hlast, .inr hv⟩⟩, by omega⟩
      rcases hp₃ with h | h <;> rw [h] <;> simp
    | true =>
      refine (releasePerst_ends hw soc port q₃ hp₃).seq fun _ q₄ ⟨hp₄, ht₄⟩ => ?_
      refine (pollBit_ends hw (readyPoll_ok (port.regs soc)) 2500 q₄ hp₄).seq
        fun portReady q₅ ⟨ht₅, hp₅⟩ => ?_
      cases portReady with
      | false =>
        obtain ⟨⟨us, _, hp₅⟩, v, hlast, hv⟩ := hp₅
        refine Ends.pure _ _ _ _ ⟨.timeout, rfl, .inr ⟨rfl, ?_, v, .inr ⟨hlast, hv⟩⟩, by omega⟩
        rw [hp₅]
        simp
      | true =>
        refine (startLink_ends hw soc port q₅ hp₅).mono fun o q₆ ⟨e, hp₆, ht₆⟩ => ?_
        exact ⟨.success, e, .inl ⟨rfl, hp₆⟩, by omega⟩

end

end AppleSilicon

import AppleSilicon.Drivers.Dart
import AppleSilicon.Drivers.PciePort

/-!
# `AppleSiliconPciPlatformDxe`: the ports of the complex

The driver takes the register bases of four ports from the tree and brings up each whose
`pci-bridge` node is there, up to the first that is not.  A port's monitor now reads the log of the
whole run and leaves alone what is not the port's.

* `initialize_waits`   how long a run of the driver waits, and what it returns;
* `own_monitored`, `foreign_monitored`   a bring-up in the eyes of its own port and of another;
* `pcie_ports`   besides, every port of its own is brought up in order, and where `ASSERT` is compiled
  in a run that returns has started every link it should.
-/

namespace AppleSilicon

open Traced

/-! ## the driver -/

structure ApplePcieComplexInfo where
  ecamCfgRegionBase : UInt64
  ecamCfgRegionSize : UInt32
  rcRegionBase : UInt64
  portRegionBase : Fin 4 → UInt64

/-- `"function-perst"` -/
def functionPerstKey : List UInt8 :=
  ascii ['f', 'u', 'n', 'c', 't', 'i', 'o', 'n', '-', 'p', 'e', 'r', 's', 't']

/-- `AppleSiliconPciePlatformDxeGetResetGpios`; the property is read even if it is not there -/
def appleSiliconPciePlatformDxeGetResetGpios (t : Adt) (subNode : ℕ) : Option ApplePcieGpioDesc :=
  (dtProp t.lib t.mem subNode functionPerstKey).bind fun functionPerst =>
    let functionPerst := (functionPerst.map Prod.fst).getD 0
    (t.mem.le32 (functionPerst + 8)).bind fun gpioNum =>
      (t.mem.le32 (functionPerst + 12)).map fun polarity =>
        ⟨UInt32.ofNat gpioNum, if polarity = 0 then 1 else 0⟩

/-- what the driver is answered -/
structure PcieServices where
  /-- the status for `gEmbeddedGpioProtocolGuid` -/
  locateProtocol : StatusCode
  /-- the status for the memory of the emulated configuration space -/
  addMemorySpace : StatusCode
  pcdAppleSocIdentifier : UInt32

def ApplePcieComplexInfo.port (complex : ApplePcieComplexInfo) (index : Fin 4)
    (gpio : ApplePcieGpioDesc) : ApplePcieDevicePortInfo where
  deviceBaseAddress := complex.portRegionBase index
  devicePhyBaseAddress :=
    complex.rcRegionBase + (corePhyDefaultBase (UInt32.ofNat index)).toUInt64
  resetGpioDesc := gpio

section
variable (hw : PcieHw) (t : Adt) (services : PcieServices)

/-- `AppleSiliconPciePlatformDxeSetupPciePort` -/
def appleSiliconPciePlatformDxeSetupPciePort
    (complex : ApplePcieComplexInfo) (subNode : Option ℕ) (portIndex : Fin 4) :
    Traced PcieOp StatusCode :=
  match subNode with
  | none => Traced.pure .success
  | some subNode =>
    if services.locateProtocol.isError then Traced.pure services.locateProtocol
    else (Traced.ofOption (appleSiliconPciePlatformDxeGetResetGpios t subNode)).bind fun gpio =>
      bringUpPort hw services.pcdAppleSocIdentifier (complex.port portIndex gpio)

/-- `AsciiSPrint (PcieBridgeName, 31, "pci-bridge%d", PciePortIndex)` -/
def pcieBridgeName (i : Fin 4) : List UInt8 :=
  (ascii (['p', 'c', 'i', '-', 'b', 'r', 'i', 'd', 'g', 'e'] ++ decimal (i32 i))).take 30

/-- one `dt_node_reg` for the base of port `i` -/
def ApplePcieComplexInfo.setPort (complex : ApplePcieComplexInfo) (i : Fin 4) (out : RegOut) :
    ApplePcieComplexInfo :=
  { complex with
    portRegionBase := Function.update complex.portRegionBase i
      (out.stored (complex.portRegionBase i)) }

/-- the `for` loop; `PciePortIndex` is always `i` -/
def pciePortLoop (apcieNode : ℕ) : List (Fin 4) → ApplePcieComplexInfo → Traced PcieOp StatusCode
  | [], _ => Traced.pure .success
  | i :: rest, complex =>
    (Traced.ofOption (t.reg apcieNode (6 + i * 5))).bind fun out =>
      (Traced.ofOption (t.get (pcieBridgeName i))).bind fun pcieSubNode =>
        match pcieSubNode with
        | none => Traced.pure .success
        | some pcieSubNode =>
          (appleSiliconPciePlatformDxeSetupPciePort hw t services (complex.setPort i out)
              (some pcieSubNode) i).bind fun status =>
            (Traced.ofOption (debugAssert t.pcd !status.isError)).bind fun _ =>
              pciePortLoop apcieNode rest (complex.setPort i out)

/-- the emulated configuration space is made known as MMIO -/
def registerEcam : Traced PcieOp Unit :=
  (act (.addMemorySpace 0x690000000 0x100000)).bind fun _ =>
    if services.addMemorySpace.isError then Traced.pure ()
    else act (.setMemorySpaceAttributes 0x690000000 0x100000)

/-- the node of the complex; a missing one is a pointer to 0 -/
def Adt.apcieNode : Option ℕ :=
  (t.get (ascii ['a', 'p', 'c', 'i', 'e'])).map fun node => node.getD 0

/-- the complex before the loop, from a zeroed pool -/
def Adt.pcieComplex (apcieNode : ℕ) : Option ApplePcieComplexInfo :=
  (t.reg apcieNode 0).bind fun ecam =>
    (t.reg apcieNode 1).map fun rc =>
      { ecamCfgRegionBase := ecam.stored 0
        ecamCfgRegionSize := UInt32.ofNat (ecam.psize.getD 0)
        rcRegionBase := rc.stored 0
        portRegionBase := fun _ => 0 }

/-- `AppleSiliconPciPlatformDxeInitialize` -/
def appleSiliconPciPlatformDxeInitialize : Traced PcieOp StatusCode :=
  (Traced.ofOption t.apcieNode).bind fun apcieNode =>
    (registerEcam services).bind fun _ =>
      (Traced.ofOption (t.pcieComplex apcieNode)).bind fun complex =>
        (appleSiliconPciePlatformDxeSetupPciePort hw t services complex none 0).bind fun _ =>
          pciePortLoop hw t services apcieNode (List.finRange 4) complex

end

/-! ## a port's monitor in the log of the whole run -/

theorem PortPhase.wait_zero (p : PortPhase) : p.wait 0 = p := by cases p <;> rfl

theorem PortPhase.wait_wait (p : PortPhase) (m n : ℕ) : (p.wait m).wait n = p.wait (m + n) := by
  cases p <;> simp [PortPhase.wait, Nat.add_assoc]

/-- a port while others are brought up -/
def PortState.waited (s : PortState) (us : ℕ) : PortState :=
  ⟨s.phase.wait us, s.last, s.elapsed + us⟩

theorem PortState.waited_zero (s : PortState) : s.waited 0 = s := by
  unfold waited
  rw [PortPhase.wait_zero]
  rfl

theorem PortState.waited_waited (s : PortState) (m n : ℕ) :
    (s.waited m).waited n = s.waited (m + n) := by
  unfold waited
  dsimp only
  rw [PortPhase.wait_wait, Nat.add_assoc]

theorem PortState.waited_started (s : PortState) (us : ℕ) (h : s.phase = .started) :
    (s.waited us).phase = .started := by
  show s.phase.wait us = _
  rw [h]
  rfl

theorem PortState.waited_off (s : PortState) (us : ℕ) (h : s.phase = .off) :
    (s.waited us).phase = .off := by
  show s.phase.wait us = _
  rw [h]
  rfl

namespace PortRegs

/-- the monitor of a port among others -/
def next (r : PortRegs) (s : PortState) (op : PcieOp) : Option PortState :=
  if r.owns op then r.step s op else some s

/-- two ports share no register and no pin -/
structure Apart (r r' : PortRegs) : Prop where
  registers : ∀ a ∈ r'.registers, a ∉ r.registers
  perstGpio : r'.perstGpio ≠ r.perstGpio

theorem step_owns (r : PortRegs) (s q : PortState) (op : PcieOp) (h : r.step s op = some q) :
    r.owns op = true := by
  by_contra hn
  unfold step at h
  rw [if_neg hn] at h
  cases h

theorem own_monitored (r : PortRegs) (log : List PcieOp) (s q : PortState)
    (h : monitor r.step s log = some q) : monitor r.next s log = some q := by
  induction log generalizing s with
  | nil => exact h
  | cons op log ih =>
    rw [monitor_cons] at h ⊢
    obtain ⟨p, hp, h⟩ := Option.bind_eq_some_iff.mp h
    unfold next
    rw [if_pos (r.step_owns s p op hp), hp, Option.bind_some]
    exact ih p h

/-- an operation on another port is a wait at most -/
theorem foreign_step (r r' : PortRegs) (hapart : r.Apart r') (s s' q' : PortState) (op : PcieOp)
    (h : r'.step s' op = some q') :
    ∃ us, r.next s op = some (s.waited us) := by
  have howns := r'.step_owns s' q' op h
  have hskip : r.owns op = false → r.next s op = some (s.waited 0) := by
    intro hn
    unfold next
    rw [hn, if_neg Bool.false_ne_true, s.waited_zero]
  unfold step at h
  rw [if_pos howns] at h
  cases op with
  | read a v =>
    have ha : a ∈ r'.registers := by simpa [owns] using howns
    exact ⟨0, hskip (by simpa [owns] using hapart.registers a ha)⟩
  | write a v =>
    have ha : a ∈ r'.registers := by simpa [owns] using howns
    exact ⟨0, hskip (by simpa [owns] using hapart.registers a ha)⟩
  | delay us => exact ⟨us, rfl⟩
  | gpioGet gpio =>
    have hg : gpio = r'.perstGpio := by simpa [owns] using howns
    exact ⟨0, hskip (by simpa [owns, hg] using hapart.perstGpio)⟩
  | gpioSet gpio mode =>
    have hg : gpio = r'.perstGpio := by simpa [owns] using howns
    exact ⟨0, hskip (by simpa [owns, hg] using hapart.perstGpio)⟩
  | addMemorySpace base length => cases h
  | setMemorySpaceAttributes base length => cases h

theorem foreign_monitored (r r' : PortRegs) (hapart : r.Apart r') (log : List PcieOp)
    (s s' q' : PortState) (h : monitor r'.step s' log = some q') :
    ∃ us, monitor r.next s log = some (s.waited us) := by
  induction log generalizing s s' with
  | nil =>
    refine ⟨0, ?_⟩
    rw [s.waited_zero]
    rfl
  | cons op log ih =>
    rw [monitor_cons] at h
    obtain ⟨p', hp', h⟩ := Option.bind_eq_some_iff.mp h
    obtain ⟨m, hop⟩ := r.foreign_step r' hapart s s' p' op hp'
    obtain ⟨n, hlog⟩ := ih (s.waited m) p' h
    refine ⟨m + n, ?_⟩
    rw [monitor_cons, hop, Option.bind_some, hlog, s.waited_waited]

end PortRegs

section
variable {α : Type*}

theorem ends_own {r : PortRegs} {s : PortState} {x : Traced PcieOp α}
    {post : Option α → PortState → Prop} (h : Ends r.step s x post) : Ends r.next s x post := by
  intro past
  obtain ⟨q, hq, hpost⟩ := h past
  exact ⟨q, r.own_monitored _ s q hq, hpost⟩

theorem ends_foreign {r r' : PortRegs} (hapart : r.Apart r') {x : Traced PcieOp α}
    {post : Option α → PortState → Prop} {s' : PortState} (h : Ends r'.step s' x post)
    (s : PortState) : Ends r.next s x fun _ q => ∃ us, q = s.waited us := by
  intro past
  obtain ⟨q', hq', _⟩ := h past
  obtain ⟨us, hm⟩ := r.foreign_monitored r' hapart _ s s' q' hq'
  exact ⟨_, hm, us, rfl⟩

end

/-! ## the run of the driver -/

section
variable (hw : PcieHw) (t : Adt) (services : PcieServices)

/-- the registers of port `i`, as the tree has them -/
def Adt.pcieRegs (apcieNode : ℕ) (rc : UInt64) (i : Fin 4) : Option PortRegs :=
  (t.reg apcieNode (6 + i * 5)).bind fun out =>
    (t.get (pcieBridgeName i)).bind fun pcieSubNode =>
      pcieSubNode.bind fun pcieSubNode =>
        (appleSiliconPciePlatformDxeGetResetGpios t pcieSubNode).map fun gpio =>
          { device := out.stored 0
            phy := rc + (corePhyDefaultBase (UInt32.ofNat i)).toUInt64
            perstGpio := gpio.gpioNum
            t602x := isT602x services.pcdAppleSocIdentifier }

/-- the registers that are driven are those of the tree -/
theorem setPort_regs (complex : ApplePcieComplexInfo) (i : Fin 4) (out : RegOut)
    (gpio : ApplePcieGpioDesc) (soc : UInt32) (hbase : complex.portRegionBase i = 0) :
    ((complex.setPort i out).port i gpio).regs soc
      = ⟨out.stored 0, complex.rcRegionBase + (corePhyDefaultBase (UInt32.ofNat i)).toUInt64,
        gpio.gpioNum, isT602x soc⟩ := by
  unfold ApplePcieDevicePortInfo.regs ApplePcieComplexInfo.port ApplePcieComplexInfo.setPort
  simp only [Function.update_self, hbase]

/-- the bases of the ports that are still to come -/
theorem setPort_zero (complex : ApplePcieComplexInfo) (j : Fin 4) (out : RegOut)
    (rest : List (Fin 4)) (hlt : ∀ k ∈ rest, j < k)
    (h : ∀ k ∈ j :: rest, complex.portRegionBase k = 0) :
    ∀ k ∈ rest, (complex.setPort j out).portRegionBase k = 0 := by
  intro k hk
  have hne : k ≠ j := (ne_of_lt (hlt k hk)).symm
  show Function.update _ j _ k = 0
  rw [Function.update_of_ne hne]
  exact h k (List.mem_cons_of_mem _ hk)

/-- a bring-up in the eyes of its own port -/
theorem setup_own (apcieNode : ℕ) (complex : ApplePcieComplexInfo) (i : Fin 4) (r : PortRegs)
    (hr : t.pcieRegs services apcieNode complex.rcRegionBase i = some r) (out : RegOut)
    (hout : t.reg apcieNode (6 + i * 5) = some out) (sub : ℕ)
    (hsub : t.get (pcieBridgeName i) = some (some sub)) (hbase : complex.portRegionBase i = 0)
    (s : PortState) (hs : s.phase = .off) :
    Ends r.next s (appleSiliconPciePlatformDxeSetupPciePort hw t services (complex.setPort i out)
      (some sub) i) fun o q =>
        ∀ status, o = some status → status.isError = false → q.phase = .started := by
  unfold Adt.pcieRegs at hr
  rw [hout, Option.bind_some, hsub, Option.bind_some, Option.bind_some] at hr
  obtain ⟨gpio, hgpio, rfl⟩ := Option.map_eq_some_iff.mp hr
  unfold appleSiliconPciePlatformDxeSetupPciePort
  dsimp only
  by_cases herr : services.locateProtocol.isError = true
  · rw [if_pos herr]
    refine Ends.pure _ _ _ _ ?_
    intro status e h
    rw [← Option.some.inj e, herr] at h
    cases h
  · rw [if_neg herr, hgpio, ofOption_bind]
    have h := bringUpPort_ends hw services.pcdAppleSocIdentifier
      ((complex.setPort i out).port i gpio) s hs
    rw [setPort_regs complex i out gpio _ hbase] at h
    refine (ends_own h).mono fun o q hpost => ?_
    obtain ⟨status, e, hout', _⟩ := hpost
    intro status' e' hok
    rw [e] at e'
    obtain rfl := Option.some.inj e'
    rcases hout' with ⟨_, hp⟩ | ⟨ht, _⟩
    · exact hp
    · rw [ht] at hok
      cases hok

/-- a bring-up in the eyes of another port -/
theorem setup_foreign (apcieNode : ℕ) (complex : ApplePcieComplexInfo) (j : Fin 4) (r : PortRegs)
    (hapart : ∀ r', t.pcieRegs services apcieNode complex.rcRegionBase j = some r' → r.Apart r')
    (out : RegOut) (hout : t.reg apcieNode (6 + j * 5) = some out) (sub : ℕ)
    (hsub : t.get (pcieBridgeName j) = some (some sub)) (hbase : complex.portRegionBase j = 0)
    (s : PortState) :
    Ends r.next s (appleSiliconPciePlatformDxeSetupPciePort hw t services (complex.setPort j out)
      (some sub) j) fun _ q => ∃ us, q = s.waited us := by
  have hstay : ∃ us, s = s.waited us := ⟨0, s.waited_zero.symm⟩
  unfold Adt.pcieRegs at hapart
  rw [hout, Option.bind_some, hsub, Option.bind_some, Option.bind_some] at hapart
  unfold appleSiliconPciePlatformDxeSetupPciePort
  dsimp only
  by_cases herr : services.locateProtocol.isError = true
  · rw [if_pos herr]
    exact Ends.pure _ _ _ _ hstay
  · rw [if_neg herr]
    refine Ends.given _ _ _ _ _ (fun gpio hgpio => ?_) fun _ => hstay
    rw [hgpio, Option.map_some] at hapart
    have h := bringUpPort_ends hw services.pcdAppleSocIdentifier
      ((complex.setPort j out).port j gpio) ⟨.off, none, 0⟩ rfl
    rw [setPort_regs complex j out gpio _ hbase] at h
    exact ends_foreign (hapart _ rfl) h s

/-- every `pci-bridge` up to the `i`-th is there -/
def BridgesTo (i : Fin 4) : Prop := ∀ j, j ≤ i → ∃ sub, t.get (pcieBridgeName j) = some (some sub)

/-- what the loop over `rest` makes of port `i`: it stays as it is if its turn is over, and if its
turn comes and nothing goes wrong, it is started -/
structure PortAfter (i : Fin 4) (rest : List (Fin 4)) (s : PortState) (o : Option StatusCode)
    (q : PortState) : Prop where
  stays : i ∉ rest → s.phase = .started → q.phase = .started
  starts : i ∈ rest → t.pcd.debugAssertEnabled = true → o.isSome = true → BridgesTo t i →
    q.phase = .started

/-- a run that stops -/
theorem portAfter_stop (i : Fin 4) (rest : List (Fin 4)) (s q : PortState)
    (hstays : i ∉ rest → s.phase = .started → q.phase = .started) :
    PortAfter t i rest s none q where
  stays := hstays
  starts := fun _ _ h => by cases h

/-- with no bridge for port `j` the loop ends -/
theorem portAfter_missing (i j : Fin 4) (rest : List (Fin 4)) (s : PortState)
    (hlt : ∀ k ∈ rest, j < k) (hnode : t.get (pcieBridgeName j) = some none) :
    PortAfter t i (j :: rest) s (some .success) s where
  stays := fun _ h => h
  starts := by
    intro hi _ _ hbridges
    have hle : j ≤ i := by
      rcases List.mem_cons.mp hi with h | h
      · exact le_of_eq h.symm
      · exact le_of_lt (hlt i h)
    obtain ⟨sub, hsub⟩ := hbridges j hle
    rw [hnode] at hsub
    cases hsub

/-- the turn of the port itself, and the turns behind it -/
theorem portAfter_own (j : Fin 4) (rest : List (Fin 4)) (s q q' : PortState) (status : StatusCode)
    (o : Option StatusCode) (hnot : j ∉ rest)
    (hstarted : status.isError = false → q.phase = .started) (u : Unit)
    (hassert : debugAssert t.pcd (!status.isError) = some u) (h : PortAfter t j rest q o q') :
    PortAfter t j (j :: rest) s o q' where
  stays := fun hn => absurd List.mem_cons_self hn
  starts := by
    intro _ hen _ _
    apply h.stays hnot
    apply hstarted
    by_contra herr
    unfold debugAssert at hassert
    rw [if_pos ⟨by simpa using herr, hen⟩] at hassert
    cases hassert

/-- the turn of another port, and the turns behind it -/
theorem portAfter_foreign (i j : Fin 4) (hji : j ≠ i) (rest : List (Fin 4)) (s q' : PortState)
    (us : ℕ) (o : Option StatusCode) (h : PortAfter t i rest (s.waited us) o q') :
    PortAfter t i (j :: rest) s o q' where
  stays := by
    intro hn hp
    exact h.stays (fun hi => hn (List.mem_cons_of_mem _ hi)) (s.waited_started us hp)
  starts := by
    intro hi
    rcases List.mem_cons.mp hi with hi | hi
    · exact absurd hi.symm hji
    · exact h.starts hi

theorem pciePortLoop_ends (apcieNode : ℕ) (rc : UInt64) (i : Fin 4) (r : PortRegs)
    (hr : t.pcieRegs services apcieNode rc i = some r)
    (hapart : ∀ j, j ≠ i → ∀ r', t.pcieRegs services apcieNode rc j = some r' → r.Apart r')
    (rest : List (Fin 4)) (complex : ApplePcieComplexInfo) (s : PortState)
    (hsorted : rest.Pairwise (· < ·)) (hrc : complex.rcRegionBase = rc)
    (hbase : ∀ j ∈ rest, complex.portRegionBase j = 0) (hs : i ∈ rest → s.phase = .off) :
    Ends r.next s (pciePortLoop hw t services apcieNode rest complex) (PortAfter t i rest s) := by
  induction rest generalizing complex s with
  | nil =>
    refine Ends.pure _ _ _ _ ⟨?_, ?_⟩
    · exact fun _ h => h
    · intro h
      cases h
  | cons j rest ih =>
    obtain ⟨hlt, hsorted⟩ := List.pairwise_cons.mp hsorted
    have hj := hbase j List.mem_cons_self
    have hkeep := fun out => setPort_zero complex j out rest hlt hbase
    refine Ends.given _ _ _ _ _ (fun out hout => ?_)
      fun _ => portAfter_stop t i _ s s fun _ h => h
    refine Ends.given _ _ _ _ _ (fun node hnode => ?_)
      fun _ => portAfter_stop t i _ s s fun _ h => h
    cases node with
    | none => exact Ends.pure _ _ _ _ (portAfter_missing t i j rest s hlt hnode)
    | some sub =>
      by_cases hji : j = i
      · subst hji
        have hnot : j ∉ rest := fun h => lt_irrefl j (hlt j h)
        have hown := setup_own hw t services apcieNode complex j r (by rw [hrc]; exact hr) out hout
          sub hnode hj s (hs List.mem_cons_self)
        refine hown.bind (fun status q hstarted => ?_) fun q _ => ?_
        · refine Ends.given _ _ _ _ _ (fun u hassert => ?_)
            fun _ => portAfter_stop t j _ s q fun h => absurd List.mem_cons_self h
          have hrest := ih (complex.setPort j out) q hsorted hrc (hkeep out) fun h => absurd h hnot
          exact hrest.mono fun o q' => portAfter_own t j rest s q q' status o hnot
            (hstarted status rfl) u hassert
        · exact portAfter_stop t j _ s q fun h => absurd List.mem_cons_self h
      · have hforeign := setup_foreign hw t services apcieNode complex j r
          (fun r' h => hapart j hji r' (by rw [← hrc]; exact h)) out hout sub hnode hj s
        have hstop : ∀ us, PortAfter t i (j :: rest) s none (s.waited us) :=
          fun us => portAfter_stop t i _ s _ fun _ => s.waited_started us
        refine hforeign.bind (fun status q hq => ?_) fun q hq => ?_
        · obtain ⟨us, rfl⟩ := hq
          refine Ends.given _ _ _ _ _ (fun _ _ => ?_) fun _ => hstop us
          have hrest := ih (complex.setPort j out) (s.waited us) hsorted hrc (hkeep out)
            fun h => s.waited_off us (hs (List.mem_cons_of_mem _ h))
          exact hrest.mono fun o q' => portAfter_foreign t i j hji rest s q' us o
        · obtain ⟨us, rfl⟩ := hq
          exact hstop us

end

/-- the microseconds of a wait -/
def PcieOp.us : PcieOp → ℕ
  | .delay us => us
  | _ => 0

theorem PortRegs.step_elapsed (r : PortRegs) (s q : PortState) (op : PcieOp)
    (h : r.step s op = some q) : q.elapsed = s.elapsed + op.us := by
  have howns := r.step_owns s q op h
  unfold PortRegs.step at h
  rw [if_pos howns] at h
  cases op with
  | write a v =>
    obtain ⟨p, _, rfl⟩ := Option.map_eq_some_iff.mp h
    rfl
  | gpioSet gpio mode =>
    obtain ⟨p, _, rfl⟩ := Option.map_eq_some_iff.mp h
    rfl
  | addMemorySpace base length => cases h
  | setMemorySpaceAttributes base length => cases h
  | read a v =>
    rw [← Option.some.inj h]
    rfl
  | delay us =>
    rw [← Option.some.inj h]
    rfl
  | gpioGet gpio =>
    rw [← Option.some.inj h]
    rfl

/-- the monitor counts the waits of the log -/
theorem next_elapsed (r : PortRegs) (log : List PcieOp) (s q : PortState)
    (h : monitor r.next s log = some q) : q.elapsed = s.elapsed + (log.map PcieOp.us).sum := by
  induction log generalizing s with
  | nil =>
    rw [← Option.some.inj h]
    rfl
  | cons op log ih =>
    rw [monitor_cons] at h
    obtain ⟨p, hp, h⟩ := Option.bind_eq_some_iff.mp h
    have hop : p.elapsed = s.elapsed + op.us := by
      unfold PortRegs.next at hp
      by_cases howns : r.owns op = true
      · rw [if_pos howns] at hp
        exact r.step_elapsed s p op hp
      · rw [if_neg howns] at hp
        rw [← Option.some.inj hp]
        cases op with
        | delay us => exact absurd rfl howns
        | _ => rfl
    have hlog := ih p h
    rw [List.map_cons, List.sum_cons]
    omega

/-- a port nothing was done to -/
def PortState.fresh : PortState := ⟨.off, none, 0⟩

section
variable (hw : PcieHw) (t : Adt) (services : PcieServices)

/-- **One port.**  Whatever the hardware answers, a set-up whose pin can be told does only what the
order of a bring-up allows, and only to the port's registers and pin; it returns `EFI_SUCCESS` with
the link started, or `EFI_TIMEOUT` with the link not started and the bit it waited for still clear;
and it waits 550.5 ms at most. -/
theorem setupPciePort_outcome (complex : ApplePcieComplexInfo) (sub : ℕ) (i : Fin 4)
    (gpio : ApplePcieGpioDesc) (hlocate : services.locateProtocol.isError = false)
    (hgpio : appleSiliconPciePlatformDxeGetResetGpios t sub = some gpio) (past : List PcieOp) :
    let r := (complex.port i gpio).regs services.pcdAppleSocIdentifier
    let run := appleSiliconPciePlatformDxeSetupPciePort hw t services complex (some sub) i past
    (∀ op ∈ run.log, r.owns op = true) ∧ (run.log.map PcieOp.us).sum ≤ 550500 ∧
      ∃ q status, monitor r.step .fresh run.log = some q ∧ run.result = some status ∧
        r.Outcome status q := by
  intro r run
  have hrun : appleSiliconPciePlatformDxeSetupPciePort hw t services complex (some sub) i
      = bringUpPort hw services.pcdAppleSocIdentifier (complex.port i gpio) := by
    unfold appleSiliconPciePlatformDxeSetupPciePort
    dsimp only
    rw [if_neg (by rw [hlocate]; exact Bool.false_ne_true), hgpio, ofOption_bind]
  obtain ⟨q, hq, status, hstatus, hout, htime⟩ :=
    bringUpPort_ends hw services.pcdAppleSocIdentifier (complex.port i gpio) .fresh rfl past
  rw [← hrun] at hq hstatus
  have hsum := next_elapsed r run.log .fresh q (r.own_monitored _ _ q hq)
  refine ⟨?_, ?_, q, status, hq, hstatus, hout⟩
  · intro op hop
    obtain ⟨pre, post, hlog⟩ := List.append_of_mem hop
    obtain ⟨p, p', _, hstep, _⟩ := monitor_split r.step .fresh q pre post op (by rw [← hlog]; exact hq)
    exact r.step_owns p p' op hstep
  · have h0 : PortState.fresh.elapsed = 0 := rfl
    omega

/-! ## how long the driver waits -/

/-- the microseconds so far -/
def waited (n : ℕ) (op : PcieOp) : Option ℕ := some (n + op.us)

theorem monitor_waited (n : ℕ) (log : List PcieOp) :
    monitor waited n log = some (n + (log.map PcieOp.us).sum) := by
  induction log generalizing n with
  | nil => rfl
  | cons op log ih =>
    rw [monitor_cons, waited, Option.bind_some, ih, List.map_cons, List.sum_cons, Nat.add_assoc]

/-- a set-up waits 550.5 ms at most, whatever its port -/
theorem setup_waits (complex : ApplePcieComplexInfo) (sub : ℕ) (i : Fin 4) (n : ℕ) :
    Ends waited n (appleSiliconPciePlatformDxeSetupPciePort hw t services complex (some sub) i)
      fun _ q => q ≤ n + 550500 := by
  unfold appleSiliconPciePlatformDxeSetupPciePort
  dsimp only
  by_cases herr : services.locateProtocol.isError = true
  · rw [if_pos herr]
    exact Ends.pure _ _ _ _ (Nat.le_add_right ..)
  · rw [if_neg herr]
    refine Ends.given _ _ _ _ _ (fun gpio _ => ?_) fun _ => Nat.le_add_right ..
    intro past
    refine ⟨_, monitor_waited n _, ?_⟩
    obtain ⟨q, hq, _, _, _, htime⟩ :=
      bringUpPort_ends hw services.pcdAppleSocIdentifier (complex.port i gpio) .fresh rfl past
    have hsum := next_elapsed _ _ .fresh q (PortRegs.own_monitored _ _ _ q hq)
    have h0 : PortState.fresh.elapsed = 0 := rfl
    omega

/-- the loop waits so long for each of its ports, and returns `EFI_SUCCESS` if it returns -/
theorem pciePortLoop_waits (apcieNode : ℕ) (rest : List (Fin 4)) (complex : ApplePcieComplexInfo)
    (n : ℕ) : Ends waited n (pciePortLoop hw t services apcieNode rest complex) fun o q =>
      q ≤ n + rest.length * 550500 ∧ ∀ status, o = some status → status = .success := by
  induction rest generalizing complex n with
  | nil =>
    refine Ends.pure _ _ _ _ ⟨Nat.le_add_right .., ?_⟩
    intro status e
    exact (Option.some.inj e).symm
  | cons i rest ih =>
    have hstop : ∀ q : ℕ, q ≤ n + 550500 → q ≤ n + (i :: rest).length * 550500 ∧
        ∀ status, (none : Option StatusCode) = some status → status = .success := by
      intro q hq
      refine ⟨?_, ?_⟩
      · rw [List.length_cons]
        omega
      · intro status e
        cases e
    refine Ends.given _ _ _ _ _ (fun out _ => ?_) fun _ => hstop n (Nat.le_add_right ..)
    refine Ends.given _ _ _ _ _ (fun node _ => ?_) fun _ => hstop n (Nat.le_add_right ..)
    cases node with
    | none =>
      refine Ends.pure _ _ _ _ ⟨Nat.le_add_right .., ?_⟩
      intro status e
      exact (Option.some.inj e).symm
    | some sub =>
      refine (setup_waits hw t services (complex.setPort i out) sub i n).bind
        (fun status q hq => ?_) fun q hq => hstop q hq
      refine Ends.given _ _ _ _ _ (fun _ _ => ?_) fun _ => hstop q hq
      refine (ih (complex.setPort i out) q).mono fun o q' h => ⟨?_, h.2⟩
      have hrest := h.1
      rw [List.length_cons]
      omega

/-- what stands in front of the loop neither waits nor stops -/
theorem initialize_waits (past : List PcieOp) :
    ((appleSiliconPciPlatformDxeInitialize hw t services past).log.map PcieOp.us).sum ≤ 2202000 ∧
      ∀ status, (appleSiliconPciPlatformDxeInitialize hw t services past).result = some status →
        status = .success := by
  have h : Ends waited 0 (appleSiliconPciPlatformDxeInitialize hw t services) fun o q =>
      q ≤ 2202000 ∧ ∀ status, o = some status → status = .success := by
    have hstop : (0 : ℕ) ≤ 2202000 ∧
        ∀ status, (none : Option StatusCode) = some status → status = .success := by
      refine ⟨Nat.zero_le _, ?_⟩
      intro status e
      cases e
    unfold appleSiliconPciPlatformDxeInitialize
    refine Ends.given _ _ _ _ _ (fun apcieNode _ => ?_) fun _ => hstop
    have hecam : Ends waited 0 (registerEcam services) fun o q => ∃ u, o = some u ∧ q = 0 := by
      have hadd : Ends waited 0 (act (.addMemorySpace 0x690000000 0x100000))
          fun o q => ∃ u, o = some u ∧ q = 0 := Ends.act _ _ _ _ _ rfl ⟨(), rfl, rfl⟩
      refine hadd.seq fun _ q hq => ?_
      rw [hq]
      by_cases herr : services.addMemorySpace.isError = true
      · rw [if_pos herr]
        exact Ends.pure _ _ _ _ ⟨(), rfl, rfl⟩
      · rw [if_neg herr]
        exact Ends.act _ _ _ _ _ rfl ⟨(), rfl, rfl⟩
    refine hecam.seq fun _ q hq => ?_
    rw [hq]
    refine Ends.given _ _ _ _ _ (fun complex _ => ?_) fun _ => hstop
    have hnull : Ends waited 0 (appleSiliconPciePlatformDxeSetupPciePort hw t services complex
        none 0) fun o q => ∃ u, o = some u ∧ q = 0 := Ends.pure _ _ _ _ ⟨_, rfl, rfl⟩
    refine hnull.seq fun _ q hq => ?_
    rw [hq]
    exact pciePortLoop_waits hw t services apcieNode (List.finRange 4) complex 0
  obtain ⟨q, hq, htime, hstatus⟩ := h past
  rw [monitor_waited, Nat.zero_add] at hq
  rw [Option.some.inj hq]
  exact ⟨htime, hstatus⟩

/-! ## every port -/

/-- a port whose registers and pin are its own -/
def OwnPort (i : Fin 4) (r : PortRegs) : Prop :=
  ∃ apcieNode complex, t.apcieNode = some apcieNode ∧
    t.pcieComplex apcieNode = some complex ∧
    t.pcieRegs services apcieNode complex.rcRegionBase i = some r ∧
    ∀ j, j ≠ i → ∀ r', t.pcieRegs services apcieNode complex.rcRegionBase j = some r' → r.Apart r'

theorem initialize_port (i : Fin 4) (r : PortRegs) (h : OwnPort t services i r) :
    Ends r.next .fresh (appleSiliconPciPlatformDxeInitialize hw t services)
      (PortAfter t i (List.finRange 4) .fresh) := by
  obtain ⟨apcieNode, complex, hnode, hcomplex, hr, hapart⟩ := h
  unfold appleSiliconPciPlatformDxeInitialize
  rw [hnode, ofOption_bind]
  have hecam : Ends r.next .fresh (registerEcam services) fun o q => ∃ u, o = some u ∧
      q = .fresh := by
    have hadd : Ends r.next .fresh (act (.addMemorySpace 0x690000000 0x100000))
        fun o q => ∃ u, o = some u ∧ q = .fresh := Ends.act _ _ _ _ _ rfl ⟨(), rfl, rfl⟩
    refine hadd.seq fun _ q hq => ?_
    rw [hq]
    by_cases herr : services.addMemorySpace.isError = true
    · rw [if_pos herr]
      exact Ends.pure _ _ _ _ ⟨(), rfl, rfl⟩
    · rw [if_neg herr]
      exact Ends.act _ _ _ _ _ rfl ⟨(), rfl, rfl⟩
  refine hecam.seq fun _ q hq => ?_
  rw [hq, hcomplex, ofOption_bind]
  have hnull : Ends r.next .fresh (appleSiliconPciePlatformDxeSetupPciePort hw t services complex
      none 0) fun o q => ∃ u, o = some u ∧ q = .fresh := Ends.pure _ _ _ _ ⟨_, rfl, rfl⟩
  refine hnull.seq fun _ q hq => ?_
  rw [hq]
  refine pciePortLoop_ends hw t services apcieNode complex.rcRegionBase i r hr hapart _ complex
    _ (List.pairwise_lt_finRange 4) rfl (fun j _ => ?_) fun _ => rfl
  unfold Adt.pcieComplex at hcomplex
  obtain ⟨ecam, _, hcomplex⟩ := Option.bind_eq_some_iff.mp hcomplex
  obtain ⟨rc, _, rfl⟩ := Option.map_eq_some_iff.mp hcomplex
  rfl

/-- **All ports.**  A run of the driver waits 2.202 s at most and returns `EFI_SUCCESS` if it
returns, whatever the tree and the hardware; every port whose registers and pin are its own is
brought up in the order of a bring-up, whatever is done to the other ports in between; and where
`ASSERT` is compiled in, a run that returns has started the link of every such port up to the first
missing `pci-bridge`. -/
theorem pcie_ports (past : List PcieOp) :
    let run := appleSiliconPciPlatformDxeInitialize hw t services past
    (run.log.map PcieOp.us).sum ≤ 2202000 ∧
      (∀ status, run.result = some status → status = .success) ∧
      ∀ i r, OwnPort t services i r → ∃ q, monitor r.next .fresh run.log = some q ∧
        (t.pcd.debugAssertEnabled = true → run.result.isSome = true → BridgesTo t i →
          q.phase = .started) := by
  intro run
  obtain ⟨htime, hstatus⟩ := initialize_waits hw t services past
  refine ⟨htime, hstatus, ?_⟩
  intro i r h
  obtain ⟨q, hq, hafter⟩ := initialize_port hw t services i r h past
  exact ⟨q, hq, hafter.starts (List.mem_finRange i)⟩

end

/-! ## a complex with two ports -/

/-- a `reg` entry of the complex -/
def regCells (addr size : ℕ) : List ℕ := [addr % 2^32, addr / 2^32, size, 0]

/-- a complex whose sixth and eleventh entries are ports -/
def pcieBytes : List UInt8 :=
  rootBytes 3 ++
  wordBytes 2 ++ wordBytes 0 ++ namePropBytes ['a', 'p', 'c', 'i', 'e'] ++
    propBytes regKey (regCells 0x690000000 0x1000000 ++ regCells 0x680000000 0x40000 ++
      (List.replicate 4 (regCells 0 0x4000)).flatten ++ regCells 0x681000000 0x8000 ++
      (List.replicate 4 (regCells 0 0x4000)).flatten ++ regCells 0x682000000 0x8000) ++
  wordBytes 2 ++ wordBytes 0 ++
    namePropBytes ['p', 'c', 'i', '-', 'b', 'r', 'i', 'd', 'g', 'e', '0'] ++
    propBytes functionPerstKey [0, 0, 152, 1] ++
  wordBytes 2 ++ wordBytes 0 ++
    namePropBytes ['p', 'c', 'i', '-', 'b', 'r', 'i', 'd', 'g', 'e', '1'] ++
    propBytes functionPerstKey [0, 0, 153, 1]

def pcieServices : PcieServices := ⟨.success, .success, 0x8103⟩

def firstPort : PortRegs := ⟨0x681000000, 0x680084000, 152, false⟩

def secondPort : PortRegs := ⟨0x682000000, 0x680088000, 153, false⟩

theorem secondPort_apart : secondPort.Apart firstPort where
  registers := by
    simp [secondPort, firstPort, PortRegs.registers, PortRegs.perst, phyLaneCfg, phyLaneCtl,
      portLtssmctl, portLinksts, portAppclk, portStatus, portRefclk, portPerst]
  perstGpio := by decide

theorem pcieBytes_bridges (j : Fin 4) : (exampleAdt pcieBytes).get (pcieBridgeName j)
    = some (if j = 0 then some 0x800000170 else if j = 1 then some 0x8000001dc else none) := by
  fin_cases j <;> decide +kernel

theorem pcieBytes_regs (j : Fin 4) (hj : j ≠ 1) (r' : PortRegs)
    (h : (exampleAdt pcieBytes).pcieRegs pcieServices 0x800000058 0x680000000 j = some r') :
    r' = firstPort := by
  have hnone : ∀ k : Fin 4, k ≠ 0 → k ≠ 1 →
      (exampleAdt pcieBytes).pcieRegs pcieServices 0x800000058 0x680000000 k ≠ some r' := by
    intro k h0 h1 hk
    unfold Adt.pcieRegs at hk
    obtain ⟨out, _, hk⟩ := Option.bind_eq_some_iff.mp hk
    rw [pcieBytes_bridges, if_neg h0, if_neg h1, Option.bind_some] at hk
    cases hk
  by_cases h0 : j = 0
  · subst h0
    have hfirst : (exampleAdt pcieBytes).pcieRegs pcieServices 0x800000058 0x680000000 0
        = some firstPort := by decide +kernel
    exact Option.some.inj (h.symm.trans hfirst)
  · exact absurd h (hnone j h0 hj)

/-- registers that never answer -/
def deadHw : PcieHw := fun _ _ => 0

/-- registers with every bit set -/
def readyHw : PcieHw := fun _ _ => 0xffffffff

/-- the set-up of the first port starts the link on hardware that answers, and ends on hardware that
does not -/
theorem pcieBytes_setup : ∃ complex, (exampleAdt pcieBytes).pcieComplex 0x800000058 = some complex ∧
    let r := (complex.port 0 ⟨152, 0⟩).regs pcieServices.pcdAppleSocIdentifier
    let run := fun hw => appleSiliconPciePlatformDxeSetupPciePort hw (exampleAdt pcieBytes)
      pcieServices complex (some 0x800000170) 0 []
    (∃ q, monitor r.step .fresh (run readyHw).log = some q ∧ q.phase = .started) ∧
      ∃ q status, monitor r.step .fresh (run deadHw).log = some q ∧ r.Outcome status q := by
  have hcomplex : ((exampleAdt pcieBytes).pcieComplex 0x800000058).isSome = true := by
    decide +kernel
  obtain ⟨complex, hc⟩ := Option.isSome_iff_exists.mp hcomplex
  have hgpio : appleSiliconPciePlatformDxeGetResetGpios (exampleAdt pcieBytes) 0x800000170
      = some ⟨152, 0⟩ := by decide +kernel
  obtain ⟨_, _, q, status, hq, hstatus, hout⟩ := setupPciePort_outcome readyHw
    (exampleAdt pcieBytes) pcieServices complex 0x800000170 0 ⟨152, 0⟩ rfl hgpio []
  obtain ⟨_, _, q', status', hq', _, hout'⟩ := setupPciePort_outcome deadHw
    (exampleAdt pcieBytes) pcieServices complex 0x800000170 0 ⟨152, 0⟩ rfl hgpio []
  refine ⟨complex, hc, ⟨q, hq, ?_⟩, q', status', hq', hout'⟩
  have hready : ((exampleAdt pcieBytes).pcieComplex 0x800000058).map (fun complex =>
      (appleSiliconPciePlatformDxeSetupPciePort readyHw (exampleAdt pcieBytes) pcieServices complex
        (some 0x800000170) 0 []).result) = some (some .success) := by decide +kernel
  rw [hc] at hready
  obtain rfl := Option.some.inj (hstatus.symm.trans (Option.some.inj hready))
  obtain ⟨_, hstarted⟩ | ⟨htimeout, _⟩ := hout
  · exact hstarted
  · cases htimeout

theorem secondPort_own : OwnPort (exampleAdt pcieBytes) pcieServices 1 secondPort := by
  have hcomplex : ((exampleAdt pcieBytes).pcieComplex 0x800000058).isSome = true := by
    decide +kernel
  obtain ⟨complex, hc⟩ := Option.isSome_iff_exists.mp hcomplex
  have hrc : complex.rcRegionBase = 0x680000000 := by
    have h : ((exampleAdt pcieBytes).pcieComplex 0x800000058).map
        ApplePcieComplexInfo.rcRegionBase = some 0x680000000 := by decide +kernel
    rw [hc] at h
    exact Option.some.inj h
  refine ⟨0x800000058, complex, by decide +kernel, hc, by rw [hrc]; decide +kernel, ?_⟩
  intro j hj r' h
  rw [hrc] at h
  rw [pcieBytes_regs j hj r' h]
  exact secondPort_apart

theorem secondPort_bridges : BridgesTo (exampleAdt pcieBytes) 1 := by
  intro j hj
  rw [pcieBytes_bridges]
  by_cases h0 : j = 0
  · rw [if_pos h0]
    exact ⟨_, rfl⟩
  · rw [if_neg h0, if_pos (by omega)]
    exact ⟨_, rfl⟩

/-- on hardware that answers the link of the second port is started too -/
theorem pcieBytes_started : ∃ q,
    monitor secondPort.next .fresh (appleSiliconPciPlatformDxeInitialize readyHw
      (exampleAdt pcieBytes) pcieServices []).log = some q ∧ q.phase = .started := by
  obtain ⟨_, _, hports⟩ := pcie_ports readyHw (exampleAdt pcieBytes) pcieServices []
  obtain ⟨q, hq, hstarted⟩ := hports 1 secondPort secondPort_own
  exact ⟨q, hq, hstarted (by decide) (by decide +kernel) secondPort_bridges⟩

end AppleSilicon

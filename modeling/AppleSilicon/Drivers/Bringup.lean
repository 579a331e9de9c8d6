import AppleSilicon.Drivers.Device
import AppleSilicon.Lib.Status

/-!
# The USB, GPIO and interrupt controller drivers

The callback of `AppleUsbTypeCBringupDxe` goes through the DWC3 controllers with one variable for
the base address of all of them; the GPIO driver has one controller and a variable on the stack; the
interrupt controller driver writes the base address to a static variable.

* `bringup_right_iff`   the callback drives right exactly when every controller it does not skip is
  absent or found;
* `gpio_right_iff`, `aic_right_iff`   the same of the other two.
-/

namespace AppleSilicon

/-! ## `AppleUsbTypeCBringupDxe` -/

/-- the loop of the callback, with `n` turns left; `base` is `Dwc3ControllerBaseAddr` -/
def bringupLoop (t : Adt) : ℕ → ℕ → UInt64 → Option (List DriverEvent)
  | 0, _, _ => some []
  | n + 1, i, base =>
    if i = 0 ∨ i = 2 then bringupLoop t n (i + 1) base
    else
      (t.get (dwc3RegNodeName i)).bind fun dwc3Node =>
        match dwc3Node with
        | none => bringupLoop t n (i + 1) base
        | some dwc3Node =>
          (t.reg dwc3Node 0).bind fun out =>
            let base := out.stored base
            (bringupLoop t n (i + 1) base).map fun log =>
              .nodeReg dwc3Node 0 out :: .use (.dwc3 i) base .initializeUsbController ::
                .use (.dwc3 i) base (.registerMmioDevice 0x100000) :: log

/-- `AppleUsbTypeCBringupDxeBringupCallback`; `uninitialized` is what the variable holds at first -/
def appleUsbTypeCBringupDxeBringupCallback (t : Adt) (pcdAppleNumDwc3Controllers : UInt32)
    (uninitialized : UInt64) : Option (List DriverEvent) :=
  bringupLoop t pcdAppleNumDwc3Controllers.toNat 0 uninitialized

theorem BaseGiven.mono {t : Adt} {log log' : List DriverEvent} {device : Device} {base : UInt64}
    (h : BaseGiven t log device base) (hsub : ∀ e ∈ log, e ∈ log') :
    BaseGiven t log' device base := by
  obtain ⟨hdfu, node, out, hnode, hreg, h0, hbase, hmem⟩ := h
  exact ⟨hdfu, node, out, hnode, hreg, h0, hbase, hsub _ hmem⟩

/-- where every controller that is not skipped is absent or found, the loop drives right -/
theorem bringupLoop_right (t : Adt) (n i : ℕ) (base : UInt64)
    (h : ∀ j, i ≤ j → j < i + n → (Device.dwc3 j).dfuPort = false →
      Absent t (.dwc3 j) ∨ LookupOk t (.dwc3 j)) : DrivenRight t (bringupLoop t n i base) := by
  induction n generalizing i base with
  | zero => exact ⟨[], rfl, fun _ _ _ hmem => nomatch hmem⟩
  | succ n ih =>
    have hrest : ∀ j, i + 1 ≤ j → j < i + 1 + n → (Device.dwc3 j).dfuPort = false →
        Absent t (.dwc3 j) ∨ LookupOk t (.dwc3 j) :=
      fun j h1 h2 => h j (by omega) (by omega)
    rw [bringupLoop]
    by_cases hskip : i = 0 ∨ i = 2
    · rw [if_pos hskip]
      exact ih (i + 1) base hrest
    · rw [if_neg hskip]
      have hdfu : (Device.dwc3 i).dfuPort = false := decide_eq_false hskip
      rcases h i (le_refl i) (by omega) hdfu with habs | ⟨node, out, hnode, hreg, h0⟩
      · have hget : t.get (dwc3RegNodeName i) = some none := habs
        rw [hget]
        exact ih (i + 1) base hrest
      · have hget : t.get (dwc3RegNodeName i) = some (some node) := hnode
        have hreg' : t.reg node 0 = some out := hreg
        obtain ⟨log, hlog, hgiven⟩ := ih (i + 1) (out.stored base) hrest
        rw [hget, Option.bind_some]
        show DrivenRight t ((t.reg node 0).bind _)
        rw [hreg', Option.bind_some]
        show DrivenRight t ((bringupLoop t n (i + 1) (out.stored base)).map _)
        rw [hlog, Option.map_some]
        refine ⟨_, rfl, ?_⟩
        have hown : BaseGiven t [.nodeReg node 0 out] (.dwc3 i) (out.stored base) :=
          ⟨hdfu, node, out, hnode, hreg, h0, reg_stored t node 0 out base hreg h0,
            List.mem_singleton_self _⟩
        intro device b how hmem
        rcases List.mem_cons.mp hmem with he | hmem
        · cases he
        · rcases List.mem_cons.mp hmem with he | hmem
          · obtain ⟨rfl, rfl, _⟩ := DriverEvent.use.inj he
            exact hown.mono (by simp)
          · rcases List.mem_cons.mp hmem with he | hmem
            · obtain ⟨rfl, rfl, _⟩ := DriverEvent.use.inj he
              exact hown.mono (by simp)
            · exact (hgiven device b how hmem).mono fun e he => by simp [he]

/-- a run of the loop drives every controller that is not skipped and not absent -/
theorem bringupLoop_uses (t : Adt) (n i : ℕ) (base : UInt64) (log : List DriverEvent)
    (h : bringupLoop t n i base = some log) (j : ℕ) (h1 : i ≤ j) (h2 : j < i + n)
    (hdfu : (Device.dwc3 j).dfuPort = false) :
    Absent t (.dwc3 j) ∨ ∃ b how, .use (.dwc3 j) b how ∈ log := by
  induction n generalizing i base log with
  | zero => omega
  | succ n ih =>
    rw [bringupLoop] at h
    by_cases hskip : i = 0 ∨ i = 2
    · rw [if_pos hskip] at h
      have hne : i ≠ j := by
        intro he
        rw [he] at hskip
        exact of_decide_eq_false hdfu hskip
      exact ih (i + 1) base log h (by omega) (by omega)
    · rw [if_neg hskip] at h
      obtain ⟨node, hget, h⟩ := Option.bind_eq_some_iff.mp h
      cases node with
      | none =>
        by_cases he : i = j
        · rw [he] at hget
          exact .inl hget
        · exact ih (i + 1) base log h (by omega) (by omega)
      | some node =>
        obtain ⟨out, hreg, h⟩ := Option.bind_eq_some_iff.mp h
        obtain ⟨rest, hrest, rfl⟩ := Option.map_eq_some_iff.mp h
        by_cases he : i = j
        · rw [he]
          exact .inr ⟨_, _, List.mem_cons_of_mem _ (List.mem_cons_self ..)⟩
        · rcases ih (i + 1) _ rest hrest (by omega) (by omega) with habs | ⟨b, how, hmem⟩
          · exact .inl habs
          · exact .inr ⟨b, how, List.mem_cons_of_mem _
              (List.mem_cons_of_mem _ (List.mem_cons_of_mem _ hmem))⟩

/-- the loop drives no controller of a DFU port -/
theorem bringupLoop_mem (t : Adt) (n i : ℕ) (base : UInt64) (log : List DriverEvent)
    (h : bringupLoop t n i base = some log) (device : Device) (b : UInt64) (how : BaseUse)
    (hmem : .use device b how ∈ log) : device.dfuPort = false := by
  induction n generalizing i base log with
  | zero =>
    obtain rfl := Option.some.inj h
    cases hmem
  | succ n ih =>
    rw [bringupLoop] at h
    by_cases hskip : i = 0 ∨ i = 2
    · rw [if_pos hskip] at h
      exact ih (i + 1) base log h hmem
    · rw [if_neg hskip] at h
      have hdfu : (Device.dwc3 i).dfuPort = false := decide_eq_false hskip
      obtain ⟨node, _, h⟩ := Option.bind_eq_some_iff.mp h
      cases node with
      | none => exact ih (i + 1) base log h hmem
      | some node =>
        obtain ⟨out, _, h⟩ := Option.bind_eq_some_iff.mp h
        obtain ⟨rest, hrest, rfl⟩ := Option.map_eq_some_iff.mp h
        rcases List.mem_cons.mp hmem with he | hmem
        · cases he
        · rcases List.mem_cons.mp hmem with he | hmem
          · rw [(DriverEvent.use.inj he).1]
            exact hdfu
          · rcases List.mem_cons.mp hmem with he | hmem
            · rw [(DriverEvent.use.inj he).1]
              exact hdfu
            · exact ih (i + 1) _ rest hrest hmem

/-- every controller of the callback that belongs to no DFU port is absent or found -/
def BringupLookups (t : Adt) (pcdAppleNumDwc3Controllers : UInt32) : Prop :=
  ∀ i, i < pcdAppleNumDwc3Controllers.toNat → (Device.dwc3 i).dfuPort = false →
    Absent t (.dwc3 i) ∨ LookupOk t (.dwc3 i)

theorem bringup_right_iff (t : Adt) (num : UInt32) (uninitialized : UInt64) :
    DrivenRight t (appleUsbTypeCBringupDxeBringupCallback t num uninitialized) ↔
      BringupLookups t num := by
  constructor
  · intro h i hi hdfu
    obtain ⟨log, hlog, hgiven⟩ := h
    rcases bringupLoop_uses t _ 0 uninitialized log hlog i (Nat.zero_le i) (by omega) hdfu with
      habs | ⟨b, how, hmem⟩
    · exact .inl habs
    · exact .inr (hgiven _ b how hmem).lookupOk
  · intro h
    exact bringupLoop_right t _ 0 uninitialized fun j _ hj => h j (by omega)

/-! ## `AppleEmbeddedGpioControllerDxe` -/

def gpioPinsKey : List UInt8 := ascii ['#', 'g', 'p', 'i', 'o', '-', 'p', 'i', 'n', 's']

/-- what the driver is answered -/
structure GpioServices where
  /-- the status for `gPlatformGpioProtocolGuid` -/
  locateProtocol : StatusCode
  midr : UInt32
  /-- `AllocateZeroPool` gives memory -/
  allocated : Bool

/-- the driver brings a controller up: there is none, and the SoC is Apple's -/
def GpioServices.wanted (services : GpioServices) : Bool :=
  services.locateProtocol.isError && services.locateProtocol = .notFound && isAppleSoc services.midr

/-- `AppleEmbeddedGpioControllerDxeInitialize`, but for its status; `uninitialized` is what
`PinCtrlApReg` holds at first -/
def appleEmbeddedGpioControllerDxeInitialize (t : Adt) (services : GpioServices)
    (uninitialized : UInt64) : Option (List DriverEvent) :=
  if services.wanted = true then
    t.pinCtrlApNode.bind fun pinCtrlApNode =>
      match pinCtrlApNode with
      | none => some []
      | some node =>
        (t.u32 node gpioPinsKey).bind fun _ =>
          if services.allocated = false then some []
          else (t.reg node 0).map fun out =>
            [.nodeReg node 0 out, .use .gpio (out.stored uninitialized) .store]
  else some []

/-- the controller is not brought up, or absent, or its number of pins is there and, where the
memory for it is, its address is found -/
def GpioLookups (t : Adt) (services : GpioServices) : Prop :=
  services.wanted = true → Absent t .gpio ∨ ∃ node, t.pinCtrlApNode = some (some node) ∧
    (∃ pins, t.u32 node gpioPinsKey = some pins) ∧ (services.allocated = true → LookupOk t .gpio)

/-- one call of `dt_node_reg`, and what it left in the variable -/
theorem drivenRight_once (t : Adt) (device : Device) (node : ℕ) (out : RegOut) (old : UInt64)
    (how : BaseUse) (hdfu : device.dfuPort = false) (hnode : device.node t = some (some node))
    (hreg : t.reg node device.index = some out) (h0 : out.ret = 0) :
    DrivenRight t (some [.nodeReg node device.index out, .use device (out.stored old) how]) := by
  refine ⟨_, rfl, ?_⟩
  intro device' base how' hmem
  rcases List.mem_cons.mp hmem with he | hmem
  · cases he
  · obtain ⟨rfl, rfl, _⟩ := DriverEvent.use.inj (List.mem_singleton.mp hmem)
    exact ⟨hdfu, node, out, hnode, hreg, h0, reg_stored t node _ out old hreg h0,
      List.mem_cons_self ..⟩

theorem drivenRight_nil (t : Adt) : DrivenRight t (some []) :=
  ⟨[], rfl, fun _ _ _ hmem => nomatch hmem⟩

theorem gpio_right_iff (t : Adt) (services : GpioServices) (uninitialized : UInt64) :
    DrivenRight t (appleEmbeddedGpioControllerDxeInitialize t services uninitialized) ↔
      GpioLookups t services := by
  unfold appleEmbeddedGpioControllerDxeInitialize GpioLookups
  by_cases hw : services.wanted = true
  · rw [if_pos hw]
    constructor
    · intro h _
      obtain ⟨log, hlog, hgiven⟩ := h
      obtain ⟨node, hnode, hlog⟩ := Option.bind_eq_some_iff.mp hlog
      cases node with
      | none => exact .inl hnode
      | some node =>
        obtain ⟨pins, hpins, hlog⟩ := Option.bind_eq_some_iff.mp hlog
        refine .inr ⟨node, hnode, ⟨pins, hpins⟩, ?_⟩
        intro halloc
        rw [if_neg (by rw [halloc]; decide)] at hlog
        obtain ⟨out, _, rfl⟩ := Option.map_eq_some_iff.mp hlog
        exact (hgiven .gpio _ _ (List.mem_cons_of_mem _ (List.mem_cons_self ..))).lookupOk
    · intro h
      rcases h hw with habs | ⟨node, hnode, ⟨pins, hpins⟩, hok⟩
      · have hnone : t.pinCtrlApNode = some none := habs
        rw [hnone]
        exact drivenRight_nil t
      · rw [hnode, Option.bind_some]
        show DrivenRight t ((t.u32 node gpioPinsKey).bind _)
        rw [hpins, Option.bind_some]
        by_cases halloc : services.allocated = false
        · rw [if_pos halloc]
          exact drivenRight_nil t
        · rw [if_neg halloc]
          obtain ⟨node', out, hnode', hreg, h0⟩ := hok (by simpa using halloc)
          obtain rfl := Option.some.inj (Option.some.inj (hnode'.symm.trans hnode))
          have hreg' : t.reg node' 0 = some out := hreg
          rw [hreg', Option.map_some]
          exact drivenRight_once t .gpio node' out uninitialized .store rfl hnode' hreg h0
  · rw [if_neg hw]
    exact ⟨fun _ h => absurd h hw, fun _ => drivenRight_nil t⟩

/-! ## `AppleAicDxe` -/

def aicIackOffsetKey : List UInt8 :=
  ascii ['a', 'i', 'c', '-', 'i', 'a', 'c', 'k', '-', 'o', 'f', 'f', 's', 'e', 't']

/-- the node of the controller; where `ASSERT` is compiled out, a missing one is a pointer to 0 -/
def Adt.assertedAicNode (t : Adt) : Option ℕ :=
  t.interruptControllerNode.bind fun node =>
    (debugAssert t.pcd node.isSome).map fun _ => node.getD 0

/-- `AppleArmGetAicVersion` -/
def appleArmGetAicVersion (t : Adt) (midr : UInt32) : Option AicVersion :=
  if midr &&& 0x61000000 ≠ 0 then
    t.assertedAicNode.bind fun node =>
      (t.strCmpProp node compatibleKey (ascii ['a', 'i', 'c', ',', '2'])).bind fun r =>
        if r = 0 then some .version2
        else (t.strCmpProp node compatibleKey (ascii ['a', 'i', 'c', ',', '3'])).map fun r =>
          if r = 0 then .version2 else .version1
  else some .unknown

/-- `AppleAicV2CalculateRegisterOffsets`, as far as it reads the tree -/
def appleAicV2CalculateRegisterOffsets (t : Adt) (version : AicVersion) (aicV2Base : UInt64) :
    Option (List DriverEvent) :=
  t.assertedAicNode.bind fun node =>
    (t.reg node 0).bind fun out =>
      if version = .version2 then
        (t.u32 node aicIackOffsetKey).map fun _ =>
          [.nodeReg node 0 out, .use .aic (out.stored aicV2Base) .store]
      else some [.nodeReg node 0 out, .use .aic (out.stored aicV2Base) .store]

/-- `InterruptDxeInitialize`, up to the register offsets -/
def interruptDxeInitialize (t : Adt) (midr : UInt32) (aicV2Base : UInt64) :
    Option (List DriverEvent) :=
  (appleArmGetAicVersion t midr).bind fun version =>
    match version with
    | .version1 => appleAicV2CalculateRegisterOffsets t .version1 aicV2Base
    | .version2 => appleAicV2CalculateRegisterOffsets t .version2 aicV2Base
    | _ => some []

/-- the SoC is not Apple's, or the controller is found, with its `compatible` and, in the second
version, the offset of its event register -/
def AicLookups (t : Adt) (midr : UInt32) : Prop :=
  midr &&& 0x61000000 ≠ 0 → ∃ node version, t.interruptControllerNode = some (some node) ∧
    appleArmGetAicVersion t midr = some version ∧
    (version = .version2 → ∃ offset, t.u32 node aicIackOffsetKey = some offset) ∧ LookupOk t .aic

theorem assertedAicNode_some (t : Adt) (node : ℕ)
    (h : t.interruptControllerNode = some (some node)) : t.assertedAicNode = some node := by
  rw [Adt.assertedAicNode, h, Option.bind_some, debugAssert, if_neg (fun h => nomatch h.1)]
  rfl

theorem appleArmGetAicVersion_cases (t : Adt) (midr : UInt32) (version : AicVersion)
    (hm : midr &&& 0x61000000 ≠ 0) (h : appleArmGetAicVersion t midr = some version) :
    version = .version1 ∨ version = .version2 := by
  rw [appleArmGetAicVersion, if_pos hm] at h
  obtain ⟨node, _, h⟩ := Option.bind_eq_some_iff.mp h
  obtain ⟨r, _, h⟩ := Option.bind_eq_some_iff.mp h
  by_cases hr : r = 0
  · rw [if_pos hr] at h
    exact .inr (Option.some.inj h).symm
  · rw [if_neg hr] at h
    obtain ⟨r', _, rfl⟩ := Option.map_eq_some_iff.mp h
    by_cases hr' : r' = 0
    · exact .inr (if_pos hr')
    · exact .inl (if_neg hr')

theorem offsets_right_iff (t : Adt) (version : AicVersion) (aicV2Base : UInt64) :
    DrivenRight t (appleAicV2CalculateRegisterOffsets t version aicV2Base) ↔
      ∃ node, t.interruptControllerNode = some (some node) ∧
        (version = .version2 → ∃ offset, t.u32 node aicIackOffsetKey = some offset) ∧
        LookupOk t .aic := by
  unfold appleAicV2CalculateRegisterOffsets
  constructor
  · intro h
    obtain ⟨log, hlog, hgiven⟩ := h
    obtain ⟨node, hnode, hlog⟩ := Option.bind_eq_some_iff.mp hlog
    obtain ⟨out, _, hlog⟩ := Option.bind_eq_some_iff.mp hlog
    have hfinal : log = [.nodeReg node 0 out, .use .aic (out.stored aicV2Base) .store] ∧
        (version = .version2 → ∃ offset, t.u32 node aicIackOffsetKey = some offset) := by
      by_cases hv : version = .version2
      · rw [if_pos hv] at hlog
        obtain ⟨offset, hoff, rfl⟩ := Option.map_eq_some_iff.mp hlog
        exact ⟨rfl, fun _ => ⟨offset, hoff⟩⟩
      · rw [if_neg hv] at hlog
        exact ⟨(Option.some.inj hlog).symm, fun h => absurd h hv⟩
    obtain ⟨rfl, hoff⟩ := hfinal
    have hok := (hgiven .aic _ _ (List.mem_cons_of_mem _ (List.mem_cons_self ..))).lookupOk
    obtain ⟨node', _, hnode', _⟩ := id hok
    have hsame : node' = node :=
      Option.some.inj ((assertedAicNode_some t node' hnode').symm.trans hnode)
    rw [hsame] at hnode'
    exact ⟨node, hnode', hoff, hok⟩
  · intro h
    obtain ⟨node, hnode, hoff, node', out, hnode', hreg, h0⟩ := h
    obtain rfl := Option.some.inj (Option.some.inj (hnode'.symm.trans hnode))
    have hreg' : t.reg node' 0 = some out := hreg
    have hright := drivenRight_once t .aic node' out aicV2Base .store rfl hnode hreg h0
    rw [assertedAicNode_some t node' hnode, Option.bind_some, hreg', Option.bind_some]
    by_cases hv : version = .version2
    · obtain ⟨offset, ho⟩ := hoff hv
      rw [if_pos hv, ho]
      exact hright
    · rw [if_neg hv]
      exact hright

theorem interruptDxeInitialize_eq (t : Adt) (midr : UInt32) (aicV2Base : UInt64)
    (version : AicVersion) (hm : midr &&& 0x61000000 ≠ 0)
    (hv : appleArmGetAicVersion t midr = some version) :
    interruptDxeInitialize t midr aicV2Base
      = appleAicV2CalculateRegisterOffsets t version aicV2Base := by
  rw [interruptDxeInitialize, hv]
  rcases appleArmGetAicVersion_cases t midr version hm hv with rfl | rfl
  · rfl
  · rfl

theorem aic_right_iff (t : Adt) (midr : UInt32) (aicV2Base : UInt64) :
    DrivenRight t (interruptDxeInitialize t midr aicV2Base) ↔ AicLookups t midr := by
  by_cases hm : midr &&& 0x61000000 ≠ 0
  · constructor
    · intro h _
      obtain ⟨_, hlog, _⟩ := id h
      obtain ⟨version, hv, _⟩ := Option.bind_eq_some_iff.mp hlog
      rw [interruptDxeInitialize_eq t midr aicV2Base version hm hv] at h
      obtain ⟨node, hnode, hoff, hok⟩ := (offsets_right_iff t version aicV2Base).mp h
      exact ⟨node, version, hnode, hv, hoff, hok⟩
    · intro h
      obtain ⟨node, version, hnode, hv, hoff, hok⟩ := h hm
      rw [interruptDxeInitialize_eq t midr aicV2Base version hm hv]
      exact (offsets_right_iff t version aicV2Base).mpr ⟨node, hnode, hoff, hok⟩
  · refine ⟨fun _ h => absurd h hm, fun _ => ?_⟩
    rw [interruptDxeInitialize, appleArmGetAicVersion, if_neg hm]
    exact drivenRight_nil t

end AppleSilicon

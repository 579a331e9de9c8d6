import AppleSilicon.Drivers.Dart
import AppleSilicon.Lib.Logged

/-!
# The initialisation of the DWC3 controllers

`AppleUsbTypeCBringupDxeBringupCallback` initialises each controller while it evaluates the
arguments of `RegisterNonDiscoverableMmioDevice`: what the initialisation returns is the argument
`InitFunc`. The status of `Dwc3XhciCoreInit` becomes a pointer there.

* `bringupLoopLog_view`      without the register accesses this is the loop of the bring-up;
* `dwc3XhciCoreInit_status`  the core is initialised exactly when its id is that of a DWC3;
* `bringupLoopLog_coreInit`  what the log says in front of a registration;
* `registers_right_iff`      the callback registers only initialised controllers exactly when every
  controller it comes to has that id.
-/

namespace AppleSilicon

open Logged

/-! ## the accesses -/

inductive UsbEvent where
  /-- a call of `dt_node_reg` that returned -/
  | nodeReg (node : ℕ) (out : RegOut)
  | mmioRead32 (address : UInt64) (value : UInt32)
  | mmioWrite32 (address : UInt64) (value : UInt32)
  | memoryFence
  | microSecondDelay (microSeconds : UInt64)
  | registerMmioDevice (dwc3Index : ℕ) (initFunc base : UInt64) (size : UInt32)
deriving DecidableEq

/-- `MmioOr32`, where the register reads as `value` -/
def mmioOr32 (address : UInt64) (value orData : UInt32) : List UsbEvent :=
  [.mmioRead32 address value, .mmioWrite32 address (value ||| orData)]

/-- `MmioAnd32` -/
def mmioAnd32 (address : UInt64) (value andData : UInt32) : List UsbEvent :=
  [.mmioRead32 address value, .mmioWrite32 address (value &&& andData)]

/-- `MmioAndThenOr32` -/
def mmioAndThenOr32 (address : UInt64) (value andData orData : UInt32) : List UsbEvent :=
  [.mmioRead32 address value, .mmioWrite32 address (value &&& andData ||| orData)]

/-! ## `DWC3_CONTROLLER` -/

/-- where the registers are in it -/
def gSBusCfg0 : UInt64 := 0x0
def gSBusCfg1 : UInt64 := 0x4
def gCtl : UInt64 := 0x10
def gSnpsId : UInt64 := 0x20
def gHwParams1 : UInt64 := 0x44
def gUsb2PhyCfg : UInt64 := 0x100
def gUsb3PipeCtl : UInt64 := 0x1c0
def gFLAdj : UInt64 := 0x530

def dwc3RegOffset : UInt64 := 0xc100

def dwc3GsnpsidMask : UInt32 := 0xffff0000
def dwc3SynopsysAltId : UInt32 := 0x33310000
def dwc3ReleaseMask : UInt32 := 0xffff
def dwc3Release190a : UInt32 := 0x190a

def dwc3GctlU2rstecn : UInt32 := 0x10000
def dwc3GctlPrtcapdir (n : UInt32) : UInt32 := n <<< 12
def dwc3GctlPrtcapHost : UInt32 := 1
def dwc3GctlPrtcapOtg : UInt32 := 3
def dwc3GctlCoresoftreset : UInt32 := 0x800
def dwc3GctlScaledownMask : UInt32 := (3 : UInt32) <<< (4 : UInt32)
def dwc3GctlDisscramble : UInt32 := 0x8
def dwc3GctlDsblclkgtng : UInt32 := 0x1

/-- `DWC3_GHWPARAMS1_EN_PWROPT` -/
def dwc3Ghwparams1EnPwropt (n : UInt32) : UInt32 := (n &&& ((3 : UInt32) <<< (24 : UInt32))) >>> 24
def dwc3Ghwparams1EnPwroptClk : UInt32 := 1

def dwc3Gusb2phycfgPhysoftrst : UInt32 := 0x80000000
def dwc3Gusb3pipectlPhysoftrst : UInt32 := 0x80000000

/-! ## the initialisation

`read` gives what the MMIO reads return, in the order in which a controller's are made. -/

/-- `Dwc3XhciSetBeatBurstLength` -/
def dwc3XhciSetBeatBurstLength (controller : UInt64) (read : ℕ → UInt32) : List UsbEvent :=
  mmioAndThenOr32 (controller + gSBusCfg0) (read 0) (~~~0xff) 0xf ++
  mmioOr32 (controller + gSBusCfg1) (read 1) 0xf00

/-- `Dwc3SetFladj` -/
def dwc3SetFladj (controller : UInt64) (value : UInt32) (read : ℕ → UInt32) : List UsbEvent :=
  mmioOr32 (controller + gFLAdj) (read 0) (0x80 ||| (value &&& 0x3f))

/-- `Dwc3SetMode` -/
def dwc3SetMode (controller : UInt64) (mode : UInt32) (read : ℕ → UInt32) : List UsbEvent :=
  mmioAndThenOr32 (controller + gCtl) (read 0) (~~~(dwc3GctlPrtcapdir dwc3GctlPrtcapOtg))
    (dwc3GctlPrtcapdir mode)

/-- `Dwc3AppleSetupCio` -/
def dwc3AppleSetupCio (dwc3ControllerBaseReg : UInt64) (read : ℕ → UInt32) : List UsbEvent :=
  [.mmioWrite32 (dwc3ControllerBaseReg + 0xcd38) 0x0f800f80,
    .mmioWrite32 (dwc3ControllerBaseReg + 0xcd3c) 0x0fc00fc0] ++
  mmioAndThenOr32 (dwc3ControllerBaseReg + 0xcd40) (read 0) (~~~0x00ffffff) 0x00140a10

/-- `Dwc3ControllerSoftReset` -/
def dwc3ControllerSoftReset (controller : UInt64) (read : ℕ → UInt32) : List UsbEvent :=
  mmioOr32 (controller + gCtl) (read 0) dwc3GctlCoresoftreset ++
  mmioOr32 (controller + gUsb3PipeCtl) (read 1) dwc3Gusb3pipectlPhysoftrst ++
  mmioOr32 (controller + gUsb2PhyCfg) (read 2) dwc3Gusb2phycfgPhysoftrst ++
  [.memoryFence, .microSecondDelay (100 * 1000)] ++
  mmioAnd32 (controller + gUsb3PipeCtl) (read 3) (~~~dwc3Gusb3pipectlPhysoftrst) ++
  mmioAnd32 (controller + gUsb2PhyCfg) (read 4) (~~~dwc3Gusb2phycfgPhysoftrst) ++
  [.memoryFence, .microSecondDelay (100 * 1000)] ++
  mmioAnd32 (controller + gCtl) (read 5) (~~~dwc3GctlCoresoftreset)

/-- what `Dwc3XhciCoreInit` writes to `GCtl`, where that and `GHwParams1` read so -/
def dwc3CoreControl (dwc3Revision dwc3HwParams1Reg dwc3RegVal : UInt32) : UInt32 :=
  let dwc3RegVal := dwc3RegVal &&& ~~~dwc3GctlScaledownMask
  let dwc3RegVal := dwc3RegVal &&& ~~~dwc3GctlDisscramble
  let dwc3RegVal :=
    if dwc3Ghwparams1EnPwropt dwc3HwParams1Reg = dwc3Ghwparams1EnPwroptClk then
      dwc3RegVal &&& ~~~dwc3GctlDsblclkgtng
    else dwc3RegVal
  if dwc3Revision &&& dwc3ReleaseMask < dwc3Release190a then dwc3RegVal ||| dwc3GctlU2rstecn
  else dwc3RegVal

/-- `Dwc3XhciCoreInit` and its status -/
def dwc3XhciCoreInit (controller : UInt64) (read : ℕ → UInt32) : List UsbEvent × StatusCode :=
  let dwc3Revision := read 0
  if dwc3Revision &&& dwc3GsnpsidMask ≠ dwc3SynopsysAltId then
    ([.mmioRead32 (controller + gSnpsId) dwc3Revision], .notFound)
  else
    (.mmioRead32 (controller + gSnpsId) dwc3Revision ::
      dwc3ControllerSoftReset controller (fun k => read (1 + k)) ++
      [.mmioRead32 (controller + gHwParams1) (read 7), .mmioRead32 (controller + gCtl) (read 8),
        .mmioWrite32 (controller + gCtl) (dwc3CoreControl dwc3Revision (read 7) (read 8))],
      .success)

/-- `AppleUsbTypeCBringupDxeInitializeUsbController` and the pointer it returns -/
def initializeUsbController (dwc3ControllerBaseReg : UInt64) (read : ℕ → UInt32) :
    List UsbEvent × UInt64 :=
  let dwc3Controller := dwc3ControllerBaseReg + dwc3RegOffset
  let coreInit := dwc3XhciCoreInit dwc3Controller read
  if coreInit.2.isError then (coreInit.1, StatusCode.deviceError)
  else
    (coreInit.1 ++ dwc3AppleSetupCio dwc3ControllerBaseReg (fun k => read (9 + k)) ++
      [.mmioRead32 (dwc3Controller + gUsb2PhyCfg) (read 10),
        .mmioWrite32 (dwc3Controller + gUsb2PhyCfg) (read 10)] ++
      dwc3SetMode dwc3Controller dwc3GctlPrtcapHost (fun k => read (11 + k)) ++
      dwc3SetFladj dwc3Controller 0x20 (fun k => read (12 + k)) ++
      dwc3XhciSetBeatBurstLength dwc3Controller (fun k => read (13 + k)), coreInit.2)

/-- the loop of the callback, as `bringupLoop`, with the accesses -/
def bringupLoopLog (t : Adt) (read : ℕ → ℕ → UInt32) : ℕ → ℕ → UInt64 → Logged UsbEvent Unit
  | 0, _, _ => Logged.pure ()
  | n + 1, i, base =>
    if i = 0 ∨ i = 2 then bringupLoopLog t read n (i + 1) base
    else
      (ofOption (t.get (dwc3RegNodeName i))).bind fun dwc3Node =>
        match dwc3Node with
        | none => bringupLoopLog t read n (i + 1) base
        | some dwc3Node =>
          (ofOption (t.reg dwc3Node 0)).bind fun out =>
            let base := out.stored base
            let initFunc := initializeUsbController base (read i)
            (notes (.nodeReg dwc3Node out :: initFunc.1 ++
              [.registerMmioDevice i initFunc.2 base 0x100000])).bind fun _ =>
                bringupLoopLog t read n (i + 1) base

/-- `AppleUsbTypeCBringupDxeBringupCallback`; `read i k` is the value of the `k`-th read from
controller `i`, and `uninitialized` what `Dwc3ControllerBaseAddr` holds at first -/
def bringupCallbackLog (t : Adt) (pcdAppleNumDwc3Controllers : UInt32) (read : ℕ → ℕ → UInt32)
    (uninitialized : UInt64) : Logged UsbEvent Unit :=
  bringupLoopLog t read pcdAppleNumDwc3Controllers.toNat 0 uninitialized

/-! ## the callback without the accesses -/

/-- what the model of the bring-up shows of an event -/
def UsbEvent.view : UsbEvent → List DriverEvent
  | .nodeReg node out => [.nodeReg node 0 out]
  | .registerMmioDevice i _ base size =>
    [.use (.dwc3 i) base .initializeUsbController, .use (.dwc3 i) base (.registerMmioDevice size)]
  | _ => []

@[simp] theorem mmioOr32_view (address : UInt64) (value orData : UInt32) :
    (mmioOr32 address value orData).flatMap UsbEvent.view = [] := rfl

@[simp] theorem mmioAnd32_view (address : UInt64) (value andData : UInt32) :
    (mmioAnd32 address value andData).flatMap UsbEvent.view = [] := rfl

@[simp] theorem mmioAndThenOr32_view (address : UInt64) (value andData orData : UInt32) :
    (mmioAndThenOr32 address value andData orData).flatMap UsbEvent.view = [] := rfl

theorem dwc3XhciCoreInit_view (controller : UInt64) (read : ℕ → UInt32) :
    (dwc3XhciCoreInit controller read).1.flatMap UsbEvent.view = [] := by
  rw [dwc3XhciCoreInit]
  by_cases hid : read 0 &&& dwc3GsnpsidMask ≠ dwc3SynopsysAltId
  · rw [if_pos hid]
    rfl
  · rw [if_neg hid]
    simp [dwc3ControllerSoftReset, UsbEvent.view]

theorem initializeUsbController_view (base : UInt64) (read : ℕ → UInt32) :
    (initializeUsbController base read).1.flatMap UsbEvent.view = [] := by
  rw [initializeUsbController]
  by_cases herror : (dwc3XhciCoreInit (base + dwc3RegOffset) read).2.isError
  · rw [if_pos herror]
    exact dwc3XhciCoreInit_view _ read
  · rw [if_neg herror]
    simp [dwc3XhciCoreInit_view, dwc3AppleSetupCio, dwc3SetMode, dwc3SetFladj,
      dwc3XhciSetBeatBurstLength, UsbEvent.view]

/-- **the loop with its accesses is the loop of the bring-up** -/
theorem bringupLoopLog_view (t : Adt) (read : ℕ → ℕ → UInt32) (n i : ℕ) (base : UInt64) :
    bringupLoop t n i base = (bringupLoopLog t read n i base).result.map fun _ =>
      (bringupLoopLog t read n i base).log.flatMap UsbEvent.view := by
  induction n generalizing i base with
  | zero => rfl
  | succ n ih =>
    rw [bringupLoop, bringupLoopLog]
    by_cases hskip : i = 0 ∨ i = 2
    · rw [if_pos hskip, if_pos hskip]
      exact ih (i + 1) base
    · rw [if_neg hskip, if_neg hskip]
      cases hget : t.get (dwc3RegNodeName i) with
      | none => rfl
      | some node =>
        rw [ofOption_bind _ _ node rfl, Option.bind_some]
        cases node with
        | none => exact ih (i + 1) base
        | some node =>
          dsimp only
          cases hreg : t.reg node 0 with
          | none => rfl
          | some out =>
            rw [ofOption_bind _ _ out rfl, Option.bind_some]
            rw [ih (i + 1) (out.stored base), Option.map_map, bind_some _ _ () rfl]
            congr 1
            funext _
            show _ = (((_ :: _) ++ _) ++ _ : List UsbEvent).flatMap UsbEvent.view
            rw [List.flatMap_append, List.flatMap_append, List.flatMap_cons,
              initializeUsbController_view]
            rfl

/-! ## what is registered -/

/-- the argument `InitFunc` is `NULL` or a function, and no error -/
def InitFuncRight (isFunction : UInt64 → Prop) (initFunc : UInt64) : Prop :=
  initFunc = 0 ∨ isFunction initFunc ∧ StatusCode.isError initFunc = false

/-- if the event registers a controller, the argument `InitFunc` is right, and its
`Dwc3XhciCoreInit` succeeds with what its registers read -/
def StatusRight (isFunction : UInt64 → Prop) (read : ℕ → ℕ → UInt32) : UsbEvent → Prop
  | .registerMmioDevice i initFunc base _ =>
    (dwc3XhciCoreInit (base + dwc3RegOffset) (read i)).2.isError = false ∧
      InitFuncRight isFunction initFunc
  | _ => True

def UsbEvent.registers : UsbEvent → Bool
  | .registerMmioDevice _ _ _ _ => true
  | _ => false

/-- if the event registers a controller, the accesses of its `Dwc3XhciCoreInit` are in the log in
front of it, behind every other registration -/
def CoreInitDone (read : ℕ → ℕ → UInt32) (before : List UsbEvent) : UsbEvent → Prop
  | .registerMmioDevice i _ base _ =>
    ∃ pre mid, before = pre ++ (dwc3XhciCoreInit (base + dwc3RegOffset) (read i)).1 ++ mid ∧
      ∀ e ∈ mid, e.registers = false
  | _ => True

/-- if the event registers a controller, its `Dwc3XhciCoreInit` was run before and succeeded, and
the argument `InitFunc` is right -/
def RegisteredRight (isFunction : UInt64 → Prop) (read : ℕ → ℕ → UInt32)
    (before : List UsbEvent) (e : UsbEvent) : Prop :=
  CoreInitDone read before e ∧ StatusRight isFunction read e

/-- **the status of the core initialisation** is decided by the id -/
theorem dwc3XhciCoreInit_status (controller : UInt64) (read : ℕ → UInt32) :
    (dwc3XhciCoreInit controller read).2.isError = false ↔
      read 0 &&& dwc3GsnpsidMask = dwc3SynopsysAltId := by
  by_cases hid : read 0 &&& dwc3GsnpsidMask ≠ dwc3SynopsysAltId
  · rw [dwc3XhciCoreInit, if_pos hid]
    refine ⟨?_, fun h => absurd h hid⟩
    intro h
    cases h
  · rw [dwc3XhciCoreInit, if_neg hid]
    exact ⟨fun _ => not_not.mp hid, fun _ => rfl⟩

/-- the pointer is `NULL` where the core is initialised -/
theorem initializeUsbController_null (base : UInt64) (read : ℕ → UInt32)
    (hid : read 0 &&& dwc3GsnpsidMask = dwc3SynopsysAltId) :
    (initializeUsbController base read).2 = 0 := by
  rw [initializeUsbController, dwc3XhciCoreInit, if_neg (not_not.mpr hid)]
  rfl

/-- the initialisation registers nothing -/
theorem initializeUsbController_registers (base : UInt64) (own : ℕ → UInt32) :
    ∀ e ∈ (initializeUsbController base own).1, e.registers = false := by
  intro e he
  have hview : e.view = [] :=
    List.flatMap_eq_nil_iff.mp (initializeUsbController_view base own) e he
  cases e with
  | registerMmioDevice i initFunc base size => cases hview
  | _ => rfl

/-- the initialisation starts with that of the core -/
theorem initializeUsbController_coreInit (base : UInt64) (own : ℕ → UInt32) :
    ∃ mid, (initializeUsbController base own).1
      = (dwc3XhciCoreInit (base + dwc3RegOffset) own).1 ++ mid := by
  rw [initializeUsbController]
  by_cases herror : (dwc3XhciCoreInit (base + dwc3RegOffset) own).2.isError = true
  · simp only [if_pos herror]
    exact ⟨[], (List.append_nil _).symm⟩
  · simp only [if_neg herror, List.append_assoc]
    exact ⟨_, rfl⟩

theorem initializeUsbController_silent (isFunction : UInt64 → Prop) (read : ℕ → ℕ → UInt32)
    (base : UInt64) (own : ℕ → UInt32) :
    ∀ e ∈ (initializeUsbController base own).1, StatusRight isFunction read e := by
  intro e he
  have hsilent := initializeUsbController_registers base own e he
  cases e with
  | registerMmioDevice i initFunc base size => cases hsilent
  | _ => exact trivial

/-- one controller that is found: what is done with it is right exactly when the id is -/
theorem controller_right_iff (isFunction : UInt64 → Prop) (read : ℕ → ℕ → UInt32) (i node : ℕ)
    (out : RegOut) (base : UInt64) :
    (∀ e ∈ .nodeReg node out :: (initializeUsbController base (read i)).1 ++
        [.registerMmioDevice i (initializeUsbController base (read i)).2 base 0x100000],
      StatusRight isFunction read e) ↔ read i 0 &&& dwc3GsnpsidMask = dwc3SynopsysAltId := by
  constructor
  · intro h
    have hreg := h _ (List.mem_append_right _ (List.mem_singleton_self _))
    exact (dwc3XhciCoreInit_status _ (read i)).mp hreg.1
  · intro hid e he
    rcases List.mem_append.mp he with he | he
    · rcases List.mem_cons.mp he with rfl | he
      · exact trivial
      · exact initializeUsbController_silent isFunction read base (read i) e he
    · rw [List.mem_singleton.mp he]
      exact ⟨(dwc3XhciCoreInit_status _ (read i)).mpr hid,
        .inl (initializeUsbController_null base (read i) hid)⟩

/-- in front of its registration, the core of a controller that is found is initialised -/
theorem controller_coreInit (read : ℕ → ℕ → UInt32) (i node : ℕ) (out : RegOut) (base : UInt64) :
    Preceded (CoreInitDone read) (.nodeReg node out ::
      (initializeUsbController base (read i)).1 ++
        [.registerMmioDevice i (initializeUsbController base (read i)).2 base 0x100000]) := by
  apply preceded_concat
  · intro before e he
    rcases List.mem_cons.mp he with rfl | he
    · trivial
    · have hsilent := initializeUsbController_registers base (read i) e he
      cases e with
      | registerMmioDevice i initFunc base size => cases hsilent
      | _ => trivial
  · obtain ⟨mid, hmid⟩ := initializeUsbController_coreInit base (read i)
    refine ⟨[.nodeReg node out], mid, ?_, ?_⟩
    · rw [hmid]
      rfl
    · intro e he
      apply initializeUsbController_registers base (read i) e
      rw [hmid]
      exact List.mem_append_right _ he

theorem coreInitDone_append (read : ℕ → ℕ → UInt32) (l before : List UsbEvent) (e : UsbEvent)
    (h : CoreInitDone read before e) : CoreInitDone read (l ++ before) e := by
  cases e with
  | registerMmioDevice i initFunc base size =>
    obtain ⟨pre, mid, rfl, hmid⟩ := h
    exact ⟨l ++ pre, mid, by simp only [List.append_assoc], hmid⟩
  | _ => trivial

/-! ## the controllers the callback comes to -/

/-- the lookups for controller `i` return -/
def LookupsReturn (t : Adt) (i : ℕ) : Prop :=
  (Device.dwc3 i).dfuPort = false → ∃ node, t.get (dwc3RegNodeName i) = some node ∧
    ∀ dwc3Node, node = some dwc3Node → ∃ out, t.reg dwc3Node 0 = some out

/-- from turn `i` on, the loop comes to controller `j` and finds its node -/
def ReachedFrom (t : Adt) (i j : ℕ) : Prop :=
  (Device.dwc3 j).dfuPort = false ∧
    (∃ node out, t.get (dwc3RegNodeName j) = some (some node) ∧ t.reg node 0 = some out) ∧
    ∀ k, i ≤ k → k < j → LookupsReturn t k

theorem lookupsReturn_found (t : Adt) (i node : ℕ) (out : RegOut)
    (hget : t.get (dwc3RegNodeName i) = some (some node)) (hreg : t.reg node 0 = some out) :
    LookupsReturn t i := by
  refine fun _ => ⟨some node, hget, ?_⟩
  intro dwc3Node he
  obtain rfl := Option.some.inj he
  exact ⟨out, hreg⟩

theorem reachedFrom_step (t : Adt) (n i : ℕ) (Q : ℕ → Prop) :
    (∀ j, i ≤ j → j < i + (n + 1) → ReachedFrom t i j → Q j) ↔
      (ReachedFrom t i i → Q i) ∧
      (LookupsReturn t i → ∀ j, i + 1 ≤ j → j < i + 1 + n → ReachedFrom t (i + 1) j → Q j) := by
  constructor
  · intro h
    refine ⟨h i (le_refl i) (by omega), ?_⟩
    intro hi j h1 h2 ⟨hdfu, hfound, hrest⟩
    refine h j (by omega) (by omega) ⟨hdfu, hfound, ?_⟩
    intro k hk1 hk2
    by_cases hk : k = i
    · rw [hk]
      exact hi
    · exact hrest k (by omega) hk2
  · intro ⟨hown, hrest⟩ j h1 h2 hj
    by_cases hij : i = j
    · rw [← hij] at hj ⊢
      exact hown hj
    · obtain ⟨hdfu, hfound, hbefore⟩ := hj
      exact hrest (hbefore i (le_refl i) (by omega)) j (by omega) (by omega)
        ⟨hdfu, hfound, fun k hk1 hk2 => hbefore k (by omega) hk2⟩

/-- what a turn does, told by the lookups -/
theorem lookups_cases (t : Adt) (i : ℕ) :
    (i = 0 ∨ i = 2) ∨ ¬ (i = 0 ∨ i = 2) ∧ (¬ LookupsReturn t i ∨
      t.get (dwc3RegNodeName i) = some none ∨
      ∃ node out, t.get (dwc3RegNodeName i) = some (some node) ∧ t.reg node 0 = some out) := by
  by_cases hskip : i = 0 ∨ i = 2
  · exact .inl hskip
  · refine .inr ⟨hskip, ?_⟩
    have hdfu : (Device.dwc3 i).dfuPort = false := decide_eq_false hskip
    by_cases hreturn : LookupsReturn t i
    · obtain ⟨node, hget, hout⟩ := hreturn hdfu
      cases node with
      | none => exact .inr (.inl hget)
      | some node =>
        obtain ⟨out, hreg⟩ := hout node rfl
        exact .inr (.inr ⟨node, out, hget, hreg⟩)
    · exact .inl hreturn

theorem bringupLoopLog_stuck (t : Adt) (read : ℕ → ℕ → UInt32) (n i : ℕ) (base : UInt64)
    (hskip : ¬ (i = 0 ∨ i = 2)) (h : ¬ LookupsReturn t i) :
    (bringupLoopLog t read (n + 1) i base).log = [] := by
  rw [bringupLoopLog, if_neg hskip]
  cases hget : t.get (dwc3RegNodeName i) with
  | none => rfl
  | some node =>
    rw [ofOption_bind _ _ node rfl]
    cases node with
    | none => exact absurd (fun _ => ⟨none, hget, fun _ h => nomatch h⟩) h
    | some node =>
      dsimp only
      cases hreg : t.reg node 0 with
      | none => rfl
      | some out => exact absurd (lookupsReturn_found t i node out hget hreg) h

theorem bringupLoopLog_absent (t : Adt) (read : ℕ → ℕ → UInt32) (n i : ℕ) (base : UInt64)
    (hskip : ¬ (i = 0 ∨ i = 2)) (hget : t.get (dwc3RegNodeName i) = some none) :
    bringupLoopLog t read (n + 1) i base = bringupLoopLog t read n (i + 1) base := by
  rw [bringupLoopLog, if_neg hskip, ofOption_bind _ _ none hget]

theorem bringupLoopLog_found (t : Adt) (read : ℕ → ℕ → UInt32) (n i : ℕ) (base : UInt64)
    (node : ℕ) (out : RegOut) (hskip : ¬ (i = 0 ∨ i = 2))
    (hget : t.get (dwc3RegNodeName i) = some (some node)) (hreg : t.reg node 0 = some out) :
    bringupLoopLog t read (n + 1) i base =
      (notes (.nodeReg node out :: (initializeUsbController (out.stored base) (read i)).1 ++
        [.registerMmioDevice i (initializeUsbController (out.stored base) (read i)).2
          (out.stored base) 0x100000])).bind fun _ =>
        bringupLoopLog t read n (i + 1) (out.stored base) := by
  rw [bringupLoopLog, if_neg hskip, ofOption_bind _ _ _ hget]
  dsimp only
  rw [ofOption_bind _ _ out hreg]

/-- **the loop passes no status for a function** exactly when all it comes to have the id -/
theorem bringupLoopLog_right (t : Adt) (read : ℕ → ℕ → UInt32) (isFunction : UInt64 → Prop)
    (n i : ℕ) (base : UInt64) :
    (bringupLoopLog t read n i base).All (StatusRight isFunction read) ↔
      ∀ j, i ≤ j → j < i + n → ReachedFrom t i j →
        read j 0 &&& dwc3GsnpsidMask = dwc3SynopsysAltId := by
  induction n generalizing i base with
  | zero => exact ⟨fun _ j h1 h2 => absurd h2 (by omega), fun _ => all_silent _ _ rfl⟩
  | succ n ih =>
    rw [reachedFrom_step]
    rcases lookups_cases t i with hskip | ⟨hskip, hturn⟩
    · have hdfu : (Device.dwc3 i).dfuPort = true := decide_eq_true hskip
      have hreturn : LookupsReturn t i := fun h => nomatch hdfu.symm.trans h
      rw [bringupLoopLog, if_pos hskip, ih (i + 1) base]
      exact ⟨fun h => ⟨fun hr => (nomatch hdfu.symm.trans hr.1), fun _ => h⟩, fun h => h.2 hreturn⟩
    · have hdfu : (Device.dwc3 i).dfuPort = false := decide_eq_false hskip
      rcases hturn with hstuck | hget | ⟨node, out, hget, hreg⟩
      · have hlog := bringupLoopLog_stuck t read n i base hskip hstuck
        refine ⟨fun _ => ⟨?_, fun hreturn => absurd hreturn hstuck⟩, fun _ => all_silent _ _ hlog⟩
        intro ⟨_, ⟨node, out, hget, hreg⟩, _⟩
        exact absurd (lookupsReturn_found t i node out hget hreg) hstuck
      · have hreturn : LookupsReturn t i := fun _ => ⟨none, hget, fun _ h => nomatch h⟩
        rw [bringupLoopLog_absent t read n i base hskip hget, ih (i + 1) base]
        refine ⟨fun h => ⟨?_, fun _ => h⟩, fun h => h.2 hreturn⟩
        intro ⟨_, ⟨node, out, hnode, _⟩, _⟩
        cases hget.symm.trans hnode
      · have hreturn := lookupsReturn_found t i node out hget hreg
        have hreached : ReachedFrom t i i :=
          ⟨hdfu, ⟨node, out, hget, hreg⟩, fun k h1 h2 => absurd h2 (by omega)⟩
        rw [bringupLoopLog_found t read n i base node out hskip hget hreg, notes_bind_all,
          controller_right_iff, ih (i + 1) (out.stored base)]
        exact ⟨fun h => ⟨fun _ => h.1, fun _ => h.2⟩, fun h => ⟨h.1 hreached, h.2 hreturn⟩⟩

/-- **in front of each registration** the log has the core initialisation of the controller -/
theorem bringupLoopLog_coreInit (t : Adt) (read : ℕ → ℕ → UInt32) (n i : ℕ) (base : UInt64) :
    Preceded (CoreInitDone read) (bringupLoopLog t read n i base).log := by
  have hnil : Preceded (CoreInitDone read) [] := by
    intro before e after h
    cases before <;> cases h
  induction n generalizing i base with
  | zero => exact hnil
  | succ n ih =>
    rcases lookups_cases t i with hskip | ⟨hskip, hturn⟩
    · rw [bringupLoopLog, if_pos hskip]
      exact ih (i + 1) base
    · rcases hturn with hstuck | hget | ⟨node, out, hget, hreg⟩
      · rw [bringupLoopLog_stuck t read n i base hskip hstuck]
        exact hnil
      · rw [bringupLoopLog_absent t read n i base hskip hget]
        exact ih (i + 1) base
      · rw [bringupLoopLog_found t read n i base node out hskip hget hreg, bind_some _ _ () rfl]
        exact preceded_append (coreInitDone_append read)
          (controller_coreInit read i node out (out.stored base)) (ih (i + 1) (out.stored base))

/-- **the callback registers only initialised controllers** exactly when every controller it comes
to reports the id of a DWC3 -/
theorem registers_right_iff (t : Adt) (num : UInt32) (read : ℕ → ℕ → UInt32)
    (uninitialized : UInt64) (isFunction : UInt64 → Prop) :
    Preceded (RegisteredRight isFunction read) (bringupCallbackLog t num read uninitialized).log ↔
      ∀ i, i < num.toNat → ReachedFrom t 0 i →
        read i 0 &&& dwc3GsnpsidMask = dwc3SynopsysAltId := by
  have hids : (bringupCallbackLog t num read uninitialized).All (StatusRight isFunction read) ↔
      ∀ i, i < num.toNat → ReachedFrom t 0 i →
        read i 0 &&& dwc3GsnpsidMask = dwc3SynopsysAltId := by
    refine (bringupLoopLog_right t read isFunction num.toNat 0 uninitialized).trans ?_
    exact ⟨fun h i hi => h i (Nat.zero_le i) (by omega), fun h i _ hi => h i (by omega)⟩
  rw [← hids]
  constructor
  · intro h
    exact h.all fun _ _ he => he.2
  · intro h before e after hlog
    refine ⟨bringupLoopLog_coreInit t read num.toNat 0 uninitialized before e after hlog, ?_⟩
    apply h e
    rw [hlog]
    simp

/-- a controller on the second Type-C port that reports no id at all: it is registered, with the
device error in place of a function -/
theorem noId_registered :
    (dtCheck (exampleAdt driverBytes).mem 0x800000000 driverBytes.length).map CheckOut.ret
      = some 0 ∧
    (bringupCallbackLog (exampleAdt driverBytes) 2 (fun _ _ => 0) 0xdeadbeef).log
      = [.nodeReg 0x800000104 ⟨0, some 0x502280000, some 0x100000⟩, .mmioRead32 0x50228c120 0,
          .registerMmioDevice 1 0x8000000000000007 0x502280000 0x100000] ∧
    ¬ Preceded (RegisteredRight (fun address => address < 0x1000000000) (fun _ _ => 0))
      (bringupCallbackLog (exampleAdt driverBytes) 2 (fun _ _ => 0) 0xdeadbeef).log := by
  have hget : (exampleAdt driverBytes).get (dwc3RegNodeName 1) = some (some 0x800000104) := by
    decide +kernel
  have hreg : (exampleAdt driverBytes).reg 0x800000104 0 =
      some ⟨0, some 0x502280000, some 0x100000⟩ := by decide +kernel
  have hlog : (bringupCallbackLog (exampleAdt driverBytes) 2 (fun _ _ => 0) 0xdeadbeef).log
      = [.nodeReg 0x800000104 ⟨0, some 0x502280000, some 0x100000⟩, .mmioRead32 0x50228c120 0,
          .registerMmioDevice 1 0x8000000000000007 0x502280000 0x100000] := by
    show (bringupLoopLog (exampleAdt driverBytes) (fun _ _ => 0) 2 0 0xdeadbeef).log = _
    rw [bringupLoopLog, if_pos (.inl rfl), bringupLoopLog_found _ _ 0 1 _ _ _ (by decide) hget hreg]
    decide
  refine ⟨by decide +kernel, hlog, ?_⟩
  intro h
  have hone := h [_, _] (.registerMmioDevice 1 0x8000000000000007 0x502280000 0x100000) [] hlog
  exact absurd hone.2.1 (by decide)

end AppleSilicon

import AppleSilicon.Drivers.Dart
import AppleSilicon.Lib.LineArray
import AppleSilicon.Lib.LogRun
import AppleSilicon.Lib.Store

/-!
# `AppleEmbeddedGpioControllerDxe`: the pins

A pin is found in a table of controllers and has one 32-bit register.  `SetGpio` encodes a mode in
it, `GetMode` decodes it.

`SetRegister` computes the word with the bits outside the mask kept, prints it, and writes the word
without them.

* `gpioInitialize_events`   the driver with its table is the driver;
* `GpioPins.setGpio_eq`     what a `SetGpio` does;
* `gpio_independent`        the pins of the table that the driver builds are independent stores;
* `setGpio_confined_iff`    a `SetGpio` keeps the bits outside its mask exactly when there are none.
-/

namespace AppleSilicon

def fieldPrep (field val : UInt64) : UInt64 := val * fieldLsb field

/-! ## the registers -/

def gpioReg (x : UInt64) : UInt64 := x <<< 2

def gpioxRegData : UInt64 := bit64 0

def gpioxMode : UInt64 := genmask 3 1

def gpioxOutMode : UInt64 := 1

def gpioxInModeIrqOff : UInt64 := 7

def gpioxPeripheral : UInt64 := genmask 6 5

def gpioxInputEnable : UInt64 := bit64 9

/-- the bit mask of every `SetRegister` -/
def gpioxSetMask : UInt64 := gpioxPeripheral ||| gpioxMode ||| gpioxInputEnable ||| gpioxRegData

inductive EmbeddedGpioMode where
  | input
  | output0
  | output1
  | other (value : UInt32)
deriving DecidableEq, Repr

structure GpioController where
  registerBase : UInt64
  gpioIndex : UInt64
  internalGpioCount : UInt64
deriving DecidableEq, Repr

/-- `PLATFORM_GPIO_CONTROLLER`; `GpioControllerCount` is the length of the table -/
structure PlatformGpioController where
  gpioCount : UInt64
  gpioController : List GpioController
deriving DecidableEq, Repr

/-- the outputs of `Locate` -/
structure GpioLocation where
  controllerIndex : UInt64
  controllerOffset : UInt64
  gpioRegisterBase : UInt64
deriving DecidableEq, Repr

def GpioLocation.register (l : GpioLocation) : UInt64 :=
  l.gpioRegisterBase + gpioReg l.controllerOffset

/-! ## the driver -/

def GpioController.found (c : GpioController) (gpio : UInt64) : Bool :=
  gpio ≥ c.gpioIndex ∧ gpio < c.gpioIndex + c.internalGpioCount

/-- the search from controller `index` on; `located` is what the outputs hold -/
def gpioLocateLoop (gpio : UInt64) :
    List GpioController → ℕ → Option GpioLocation → StatusCode × Option GpioLocation
  | [], _, located => (.success, located)
  | c :: rest, index, located =>
    if c.found gpio then
      gpioLocateLoop gpio rest (index + 1)
        (some ⟨UInt64.ofNat index, gpio % c.internalGpioCount, c.registerBase⟩)
    else (.notFound, located)

/-- `AppleEmbeddedGpioControllerLocate`; outputs that are not written are `none` -/
def appleEmbeddedGpioControllerLocate (table : PlatformGpioController) (gpio : UInt64) :
    StatusCode × Option GpioLocation :=
  gpioLocateLoop gpio table.gpioController 0 none

def appleEmbeddedGpioControllerGetRegister (regs : UInt64 → UInt32) (registerBase offset : UInt64) :
    UInt64 :=
  (regs (registerBase + gpioReg offset)).toUInt64

/-- `AppleEmbeddedGpioControllerSetRegister`: the value that it prints, and the register that it
writes; what is written is `Value` and not `UpdatedValue` -/
def appleEmbeddedGpioControllerSetRegister (regs : UInt64 → UInt32)
    (registerBase offset bitmask value : UInt64) : UInt64 × List (UInt64 × UInt32) :=
  let originalValue := (regs (registerBase + gpioReg offset)).toUInt64
  let updatedValue := originalValue &&& ~~~bitmask
  let updatedValue := updatedValue ||| value
  (updatedValue, [(registerBase + gpioReg offset, value.toUInt32)])

section
variable (pcd : Pcds) (table : PlatformGpioController) (uninitialized : GpioLocation)

/-- where a protocol function goes on: a failed search is an `ASSERT`, and where that is compiled
out the variables hold what they held -/
def gpioLocated (gpio : UInt64) : Option GpioLocation :=
  let r := appleEmbeddedGpioControllerLocate table gpio
  (debugAssert pcd !r.1.isError).map fun _ => r.2.getD uninitialized

/-- the new values of the fields, for a mode that is supported -/
def EmbeddedGpioMode.fields : EmbeddedGpioMode → Option UInt64
  | .input => some (fieldPrep gpioxMode gpioxInModeIrqOff ||| gpioxInputEnable)
  | .output0 => some (fieldPrep gpioxMode gpioxOutMode)
  | .output1 => some (fieldPrep gpioxMode gpioxOutMode ||| gpioxRegData)
  | .other _ => none

/-- `AppleEmbeddedGpioSetGpio`: the status, and the registers written -/
def appleEmbeddedGpioSetGpio (regs : UInt64 → UInt32) (gpio : UInt64) (mode : EmbeddedGpioMode) :
    Option (StatusCode × List (UInt64 × UInt32)) :=
  (gpioLocated pcd table uninitialized gpio).map fun l =>
    match mode.fields with
    | some value => (.success, (appleEmbeddedGpioControllerSetRegister regs l.gpioRegisterBase
        l.controllerOffset gpioxSetMask value).2)
    | none => (.unsupported, [])

/-- `AppleEmbeddedGpioGetGpio`; `null` is a `Value` of `NULL` -/
def appleEmbeddedGpioGetGpio (regs : UInt64 → UInt32) (gpio : UInt64) (null : Bool) :
    Option (StatusCode × Option UInt64) :=
  (gpioLocated pcd table uninitialized gpio).map fun l =>
    if null then (.invalidParameter, none)
    else (.success, some (appleEmbeddedGpioControllerGetRegister regs l.gpioRegisterBase
      l.controllerOffset))

def gpioDecode (gpioValue : UInt64) : EmbeddedGpioMode :=
  if fieldGet gpioxMode gpioValue = gpioxOutMode then
    if gpioValue &&& gpioxRegData ≠ 0 then .output1 else .output0
  else .input

/-- `AppleEmbeddedGpioControllerGetMode`; `null` is a `Mode` of `NULL` -/
def appleEmbeddedGpioControllerGetMode (regs : UInt64 → UInt32) (gpio : UInt64) (null : Bool) :
    Option (StatusCode × Option EmbeddedGpioMode) :=
  (gpioLocated pcd table uninitialized gpio).map fun l =>
    if null then (.invalidParameter, none)
    else (.success, some (gpioDecode (appleEmbeddedGpioControllerGetRegister regs l.gpioRegisterBase
      l.controllerOffset)))

end

/-- `AppleEmbeddedGpioControllerDxeInitialize`: its status, what it asks the tree and drives, and
the table that it builds; `installed` is the status of installing the protocol -/
def gpioInitialize (t : Adt) (services : GpioServices) (installed : StatusCode)
    (uninitialized : UInt64) :
    Option (StatusCode × List DriverEvent × Option PlatformGpioController) :=
  if services.locateProtocol.isError && services.locateProtocol = .notFound then
    if isAppleSoc services.midr = false then some (.notFound, [], none)
    else
      t.pinCtrlApNode.bind fun pinCtrlApNode =>
        match pinCtrlApNode with
        | none => some (.notFound, [], none)
        | some node =>
          (t.u32 node gpioPinsKey).bind fun pins =>
            -- the number of pins is kept in a `UINT8`
            let numberOfGpioPins := (UInt8.ofNat pins).toUInt64
            if services.allocated = false then some (.outOfResources, [], none)
            else (t.reg node 0).map fun out =>
              (if installed.isError then .outOfResources else installed,
                [.nodeReg node 0 out, .use .gpio (out.stored uninitialized) .store],
                some ⟨numberOfGpioPins, [⟨out.stored uninitialized, 0, numberOfGpioPins⟩]⟩)
  else some (services.locateProtocol, [], none)

/-- with the table and the status left out, this is the driver as the addresses are told by it -/
theorem gpioInitialize_events (t : Adt) (services : GpioServices) (installed : StatusCode)
    (uninitialized : UInt64) :
    (gpioInitialize t services installed uninitialized).map (fun r => r.2.1)
      = appleEmbeddedGpioControllerDxeInitialize t services uninitialized := by
  unfold gpioInitialize appleEmbeddedGpioControllerDxeInitialize GpioServices.wanted
  cases hl : services.locateProtocol.isError && services.locateProtocol = .notFound with
  | false => rfl
  | true =>
    cases hs : isAppleSoc services.midr with
    | false => rfl
    | true =>
      simp only [Bool.and_true, if_true, Bool.true_eq_false, if_false]
      rw [Option.map_bind]
      refine congrArg (Option.bind t.pinCtrlApNode) ?_
      funext pinCtrlApNode
      cases pinCtrlApNode with
      | none => rfl
      | some node =>
        simp only [Function.comp_apply, Option.map_bind]
        refine congrArg (Option.bind (t.u32 node gpioPinsKey)) ?_
        funext pins
        by_cases ha : services.allocated = false
        · rw [if_pos ha, if_pos ha]
          rfl
        · rw [if_neg ha, if_neg ha, Option.map_map]
          rfl

/-- **the table that the driver builds**: one controller with its pins from 0 on, their number cut
down to eight bits -/
theorem gpioInitialize_table (t : Adt) (services : GpioServices) (installed : StatusCode)
    (uninitialized : UInt64) (status : StatusCode) (events : List DriverEvent)
    (table : PlatformGpioController)
    (h : gpioInitialize t services installed uninitialized = some (status, events, some table)) :
    ∃ node pins base, t.pinCtrlApNode = some (some node) ∧ t.u32 node gpioPinsKey = some pins ∧
      table = ⟨(UInt8.ofNat pins).toUInt64, [⟨base, 0, (UInt8.ofNat pins).toUInt64⟩]⟩ := by
  unfold gpioInitialize at h
  by_cases hl : (services.locateProtocol.isError && services.locateProtocol = .notFound) = true
  · rw [if_pos hl] at h
    by_cases hs : isAppleSoc services.midr = false
    · rw [if_pos hs] at h
      cases h
    · rw [if_neg hs] at h
      obtain ⟨node, hnode, h⟩ := Option.bind_eq_some_iff.mp h
      cases node with
      | none => cases h
      | some node =>
        obtain ⟨pins, hpins, h⟩ := Option.bind_eq_some_iff.mp h
        dsimp only at h
        by_cases ha : services.allocated = false
        · rw [if_pos ha] at h
          cases h
        · rw [if_neg ha] at h
          obtain ⟨out, _, he⟩ := Option.map_eq_some_iff.mp h
          obtain ⟨_, he⟩ := Prod.mk.inj he
          obtain ⟨_, he⟩ := Prod.mk.inj he
          exact ⟨node, pins, out.stored uninitialized, hnode, hpins, (Option.some.inj he).symm⟩
  · rw [if_neg hl] at h
    cases h

/-! ## pins as stores -/

theorem locate_first (count base n pin : UInt64) (h : pin < n) :
    appleEmbeddedGpioControllerLocate ⟨count, [⟨base, 0, n⟩]⟩ pin
      = (.success, some ⟨0, pin, base⟩) := by
  have hfound : (GpioController.mk base 0 n).found pin = true := by
    refine decide_eq_true ⟨UInt64.le_iff_toNat_le.mpr (Nat.zero_le _), ?_⟩
    rwa [UInt64.zero_add]
  rw [appleEmbeddedGpioControllerLocate, gpioLocateLoop, if_pos hfound, gpioLocateLoop,
    UInt64.mod_eq_of_lt h]
  rfl

theorem gpioLocated_single (pcd : Pcds) (count base n : UInt64) (uninitialized : GpioLocation)
    (pin : UInt64) (h : pin < n) :
    gpioLocated pcd ⟨count, [⟨base, 0, n⟩]⟩ uninitialized pin = some ⟨0, pin, base⟩ := by
  rw [gpioLocated, locate_first count base n pin h]
  rfl

theorem gpioReg_toNat (pin : UInt64) (h : pin.toNat < 256) :
    (gpioReg pin).toNat = 4 * pin.toNat := by
  rw [gpioReg, UInt64.toNat_shiftLeft]
  show pin.toNat <<< 2 % 2^64 = 4 * pin.toNat
  rw [Nat.shiftLeft_eq, Nat.mod_eq_of_lt (by omega), Nat.mul_comm]

theorem gpioReg_ne (base pin pin' : UInt64) (h : pin.toNat < 256) (h' : pin'.toNat < 256)
    (hne : pin ≠ pin') : base + gpioReg pin ≠ base + gpioReg pin' := by
  intro he
  have hn := congrArg UInt64.toNat ((UInt64.add_right_inj base).mp he)
  rw [gpioReg_toNat pin h, gpioReg_toNat pin' h'] at hn
  exact hne (UInt64.toNat_inj.mp (by omega))

theorem gpioDecode_fields (mode : EmbeddedGpioMode) (value : UInt64)
    (h : mode.fields = some value) : gpioDecode value.toUInt32.toUInt64 = mode := by
  cases mode with
  | other _ => cases h
  | input =>
    obtain rfl := Option.some.inj h
    decide
  | output0 =>
    obtain rfl := Option.some.inj h
    decide
  | output1 =>
    obtain rfl := Option.some.inj h
    decide

/-- `GPIO_MODE_INPUT`, `GPIO_MODE_OUTPUT_0` or `GPIO_MODE_OUTPUT_1` -/
def EmbeddedGpioMode.supported : EmbeddedGpioMode → Bool
  | .other _ => false
  | _ => true

/-- what a `SetGpio` with this mode is to return -/
def EmbeddedGpioMode.status (mode : EmbeddedGpioMode) : StatusCode :=
  if mode.supported then .success else .unsupported

theorem fields_supported (mode : EmbeddedGpioMode) :
    (∃ value, mode.fields = some value ∧ mode.status = .success) ∨
      mode.fields = none ∧ mode.status = .unsupported := by
  cases mode with
  | other _ => exact .inr ⟨rfl, rfl⟩
  | input => exact .inl ⟨_, rfl, rfl⟩
  | output0 => exact .inl ⟨_, rfl, rfl⟩
  | output1 => exact .inl ⟨_, rfl, rfl⟩

section
variable (pcd : Pcds) (table : PlatformGpioController) (uninitialized : GpioLocation)

/-- a `SetGpio` as a step of the registers -/
def gpioSetStep (regs : UInt64 → UInt32) (call : UInt64 × EmbeddedGpioMode) :
    Option ((UInt64 → UInt32) × List StatusCode) :=
  (appleEmbeddedGpioSetGpio pcd table uninitialized regs call.1 call.2).map fun out =>
    (applyWrites regs out.2, [out.1])

end

/-- a `SetGpio` that returned `EFI_SUCCESS` sets its pin to its mode -/
def gpioSets (answered : (UInt64 × EmbeddedGpioMode) × StatusCode) :
    Option (UInt64 × EmbeddedGpioMode) :=
  if answered.2 = .success then some answered.1 else none

/-- the registers of one controller with its pins from 0 on -/
structure GpioPins where
  base : UInt64
  internalGpioCount : UInt64
  fits : internalGpioCount.toNat ≤ 256

namespace GpioPins
variable (g : GpioPins)

def table : PlatformGpioController := ⟨g.internalGpioCount, [⟨g.base, 0, g.internalGpioCount⟩]⟩

def value (regs : UInt64 → UInt32) (pin : UInt64) : UInt64 := (regs (g.base + gpioReg pin)).toUInt64

variable (pcd : Pcds) (uninitialized : GpioLocation)

theorem getMode_eq (regs : UInt64 → UInt32) (pin : UInt64) (h : pin < g.internalGpioCount) :
    appleEmbeddedGpioControllerGetMode pcd g.table uninitialized regs pin false
      = some (.success, some (gpioDecode (g.value regs pin))) := by
  rw [appleEmbeddedGpioControllerGetMode, table, gpioLocated_single pcd _ _ _ _ pin h]
  rfl

theorem getGpio_eq (regs : UInt64 → UInt32) (pin : UInt64) (h : pin < g.internalGpioCount) :
    appleEmbeddedGpioGetGpio pcd g.table uninitialized regs pin false
      = some (.success, some (g.value regs pin)) := by
  rw [appleEmbeddedGpioGetGpio, table, gpioLocated_single pcd _ _ _ _ pin h]
  rfl

/-- **what a `SetGpio` does**: it writes the fields to the register of its pin, or nothing -/
theorem setGpio_eq (regs : UInt64 → UInt32) (pin : UInt64) (h : pin < g.internalGpioCount)
    (mode : EmbeddedGpioMode) :
    appleEmbeddedGpioSetGpio pcd g.table uninitialized regs pin mode = some (match mode.fields with
      | some value => (.success, [(g.base + gpioReg pin, value.toUInt32)])
      | none => (.unsupported, [])) := by
  rw [appleEmbeddedGpioSetGpio, table, gpioLocated_single pcd _ _ _ _ pin h]
  rfl

theorem setGpio_other (regs : UInt64 → UInt32) (pin : UInt64) (h : pin < g.internalGpioCount)
    (mode : EmbeddedGpioMode) (out : StatusCode × List (UInt64 × UInt32))
    (hout : appleEmbeddedGpioSetGpio pcd g.table uninitialized regs pin mode = some out)
    (other : UInt64) (h' : other < g.internalGpioCount) (hne : other ≠ pin) :
    g.value (applyWrites regs out.2) other = g.value regs other := by
  rw [g.setGpio_eq pcd uninitialized regs pin h mode] at hout
  obtain rfl := Option.some.inj hout
  cases mode.fields with
  | none => rfl
  | some value =>
    have hfits := g.fits
    refine congrArg UInt32.toUInt64 (applyWrites_untouched regs _ _ ?_)
    intro w hw
    rw [List.mem_singleton.mp hw]
    exact gpioReg_ne g.base pin other (Nat.lt_of_lt_of_le (UInt64.lt_iff_toNat_lt.mp h) hfits)
      (Nat.lt_of_lt_of_le (UInt64.lt_iff_toNat_lt.mp h') hfits) hne.symm

/-- **one step**: the status is that of the mode; a pin that is set reads as its mode, every other
one as before -/
theorem setStep_mode (regs : UInt64 → UInt32) (call : UInt64 × EmbeddedGpioMode)
    (h : call.1 < g.internalGpioCount) :
    ∃ regs', gpioSetStep pcd g.table uninitialized regs call = some (regs', [call.2.status]) ∧
      ∀ pin, pin < g.internalGpioCount → gpioDecode (g.value regs' pin) =
        ((gpioSets (call, call.2.status)).bind fun p => if p.1 = pin then some p.2 else none).getD
          (gpioDecode (g.value regs pin)) := by
  obtain ⟨pin₀, mode⟩ := call
  have hout := g.setGpio_eq pcd uninitialized regs pin₀ h mode
  cases fields_supported mode with
  | inl hf =>
    obtain ⟨value, hf, hs⟩ := hf
    rw [hf] at hout
    refine ⟨_, by rw [gpioSetStep, hout, hs]; rfl, ?_⟩
    intro pin hpin
    rw [gpioSets, hs, if_pos rfl, Option.bind_some]
    by_cases he : pin = pin₀
    · subst he
      rw [if_pos rfl, Option.getD_some]
      show gpioDecode (applyWrites regs [(g.base + gpioReg pin, value.toUInt32)]
        (g.base + gpioReg pin)).toUInt64 = mode
      rw [applyWrites_single]
      exact gpioDecode_fields mode value hf
    · rw [if_neg (Ne.symm he), Option.getD_none]
      exact congrArg gpioDecode
        (g.setGpio_other pcd uninitialized regs pin₀ h mode _ hout pin hpin he)
  | inr hf =>
    obtain ⟨hf, hs⟩ := hf
    rw [hf] at hout
    refine ⟨_, by rw [gpioSetStep, hout, hs]; rfl, ?_⟩
    intro pin _
    rw [gpioSets, hs]
    rfl

/-- **a run**: each call returns the status of its mode, and a pin reads as the mode of the last
call for it that returned `EFI_SUCCESS`, or as at the start -/
theorem run_mode (calls : List (UInt64 × EmbeddedGpioMode)) (regs : UInt64 → UInt32)
    (h : ∀ call ∈ calls, call.1 < g.internalGpioCount) :
    ∃ regs', runLog (gpioSetStep pcd g.table uninitialized) regs calls
        = some (regs', calls.map fun call => call.2.status) ∧
      ∀ pin, pin < g.internalGpioCount → gpioDecode (g.value regs' pin) =
        (lastWrite gpioSets (calls.zip (calls.map fun call => call.2.status)) pin).getD
          (gpioDecode (g.value regs pin)) := by
  induction calls generalizing regs with
  | nil => exact ⟨regs, rfl, fun _ _ => rfl⟩
  | cons call calls ih =>
    obtain ⟨regs₁, hstep, hmode₁⟩ :=
      g.setStep_mode pcd uninitialized regs call (h call (List.mem_cons_self ..))
    obtain ⟨regs', hrun, hmode⟩ := ih regs₁ fun c hc => h c (List.mem_cons_of_mem _ hc)
    refine ⟨regs', (runLog_cons _ _ _ _ _ _).mpr ⟨regs₁, _, _, hstep, hrun, rfl⟩, ?_⟩
    intro pin hpin
    rw [hmode pin hpin, hmode₁ pin hpin, List.map_cons, List.zip_cons_cons, lastWrite]
    cases lastWrite gpioSets (calls.zip (calls.map fun call => call.2.status)) pin with
    | none => rfl
    | some mode => rfl

end GpioPins

/-- the table that the driver builds is one of pins from 0 on -/
theorem gpioInitialize_pins (t : Adt) (services : GpioServices) (installed : StatusCode)
    (uninitialized : UInt64) (status : StatusCode) (events : List DriverEvent)
    (table : PlatformGpioController)
    (h : gpioInitialize t services installed uninitialized = some (status, events, some table)) :
    ∃ g : GpioPins, table = g.table := by
  obtain ⟨_, pins, base, _, _, rfl⟩ :=
    gpioInitialize_table t services installed uninitialized status events table h
  refine ⟨⟨base, (UInt8.ofNat pins).toUInt64, ?_⟩, rfl⟩
  rw [UInt8.toNat_toUInt64]
  exact Nat.le_of_lt (UInt8.toNat_lt _)

/-- **the pins are independent stores**: with the table that the driver builds, whatever the
registers held, a run of `SetGpio` succeeds with the three modes and refuses any other, and leaves
each pin to be read as the mode of the last call for it that returned `EFI_SUCCESS`; a `SetGpio`
leaves what is read of another pin alone, and one that is refused writes nothing -/
theorem gpio_independent (t : Adt) (services : GpioServices) (installed : StatusCode)
    (uninitialized : UInt64) (status : StatusCode) (events : List DriverEvent)
    (table : PlatformGpioController)
    (h : gpioInitialize t services installed uninitialized = some (status, events, some table))
    (pcd : Pcds) (stack : GpioLocation) :
    ∃ c, table.gpioController = [c] ∧
      (∀ regs calls, (∀ call ∈ calls, call.1 < c.internalGpioCount) →
        ∃ regs' statuses, runLog (gpioSetStep pcd table stack) regs calls = some (regs', statuses) ∧
          statuses = calls.map (fun call =>
            if call.2.supported then StatusCode.success else .unsupported) ∧
          ∀ pin, pin < c.internalGpioCount →
            appleEmbeddedGpioControllerGetMode pcd table stack regs' pin false =
              match lastWrite gpioSets (calls.zip statuses) pin with
              | some mode => some (.success, some mode)
              | none => appleEmbeddedGpioControllerGetMode pcd table stack regs pin false) ∧
      (∀ regs pin mode, pin < c.internalGpioCount →
        ∃ out, appleEmbeddedGpioSetGpio pcd table stack regs pin mode = some out ∧
          (mode.supported = true → out.1 = .success) ∧
          (mode.supported = false → out = (.unsupported, [])) ∧
          ∀ other, other < c.internalGpioCount → other ≠ pin →
            appleEmbeddedGpioControllerGetMode pcd table stack (applyWrites regs out.2) other false
              = appleEmbeddedGpioControllerGetMode pcd table stack regs other false ∧
            appleEmbeddedGpioGetGpio pcd table stack (applyWrites regs out.2) other false
              = appleEmbeddedGpioGetGpio pcd table stack regs other false) := by
  obtain ⟨g, rfl⟩ :=
    gpioInitialize_pins t services installed uninitialized status events table h
  refine ⟨_, rfl, ?_, ?_⟩
  · intro regs calls hcalls
    obtain ⟨regs', hrun, hmode⟩ := g.run_mode pcd stack calls regs hcalls
    refine ⟨regs', _, hrun, rfl, ?_⟩
    intro pin hpin
    rw [g.getMode_eq pcd stack regs' pin hpin, g.getMode_eq pcd stack regs pin hpin,
      hmode pin hpin]
    cases lastWrite gpioSets (calls.zip (calls.map fun call => call.2.status)) pin with
    | none => rfl
    | some mode => rfl
  · intro regs pin mode hpin
    have hout := g.setGpio_eq pcd stack regs pin hpin mode
    refine ⟨_, hout, ?_, ?_, ?_⟩
    · intro hs
      cases fields_supported mode with
      | inl hf =>
        obtain ⟨value, hf, _⟩ := hf
        rw [hf]
      | inr hf =>
        rw [EmbeddedGpioMode.status, if_pos hs] at hf
        cases hf.2
    · intro hs
      cases fields_supported mode with
      | inl hf =>
        obtain ⟨_, _, hf⟩ := hf
        rw [EmbeddedGpioMode.status, hs] at hf
        cases hf
      | inr hf => rw [hf.1]
    · intro other hother hne
      have hvalue := g.setGpio_other pcd stack regs pin hpin mode _ hout other hother hne
      rw [g.getMode_eq pcd stack _ other hother, g.getMode_eq pcd stack regs other hother,
        g.getGpio_eq pcd stack _ other hother, g.getGpio_eq pcd stack regs other hother, hvalue]
      exact ⟨rfl, rfl⟩

/-- a tree with a pin controller alone -/
def gpioBytes (pins : ℕ) : List UInt8 :=
  rootBytes 1 ++
  wordBytes 3 ++ wordBytes 0 ++ namePropBytes ['g', 'p', 'i', 'o'] ++
    propBytes gpioPinsKey [pins] ++ propBytes regKey [0x3c100000, 0x2, 0x100000, 0x0]

def gpioAdt (pins : ℕ) : Adt := exampleAdt (gpioBytes pins)

/-- one pin is driven and then refused a mode, another one is an input -/
theorem gpioAdt_independent :
    ∃ regs' statuses, runLog (gpioSetStep examplePcds ⟨212, [⟨0x23c100000, 0, 212⟩]⟩ ⟨0, 0, 0⟩)
        (fun _ => 0) [(5, .output1), (6, .input), (5, .other 1)] = some (regs', statuses) ∧
      statuses = [.success, .success, .unsupported] ∧
      appleEmbeddedGpioControllerGetMode examplePcds ⟨212, [⟨0x23c100000, 0, 212⟩]⟩ ⟨0, 0, 0⟩
        regs' 5 false = some (.success, some .output1) := by
  have hrun : gpioInitialize (gpioAdt 212) exampleGpioServices .success 0 = some (.success,
      [.nodeReg 0x800000058 0 ⟨0, some 0x23c100000, some 0x100000⟩, .use .gpio 0x23c100000 .store],
      some ⟨212, [⟨0x23c100000, 0, 212⟩]⟩) := by decide +kernel
  obtain ⟨c, hc, hmode, _⟩ := gpio_independent (gpioAdt 212) exampleGpioServices .success 0
    .success _ _ hrun examplePcds ⟨0, 0, 0⟩
  obtain rfl := (List.cons.inj hc).1
  obtain ⟨regs', statuses, hlog, rfl, hpins⟩ := hmode (fun _ => 0)
    [(5, .output1), (6, .input), (5, .other 1)] (by decide)
  exact ⟨regs', _, hlog, rfl, hpins 5 (by decide)⟩

/-! ## the bits outside the mask -/

theorem fields_in_mask (mode : EmbeddedGpioMode) (value : UInt64) (h : mode.fields = some value) :
    value.toUInt32 &&& ~~~gpioxSetMask.toUInt32 = 0 := by
  cases mode with
  | other _ => cases h
  | input =>
    obtain rfl := Option.some.inj h
    decide
  | output0 =>
    obtain rfl := Option.some.inj h
    decide
  | output1 =>
    obtain rfl := Option.some.inj h
    decide

/-- a `SetGpio` is confined to its mask: it succeeds, writes no register but that of its pin, and
there the fields take their new values and every other bit keeps its old one -/
def SetConfined (regs : UInt64 → UInt32) (register : UInt64) (value : UInt64)
    (out : StatusCode × List (UInt64 × UInt32)) : Prop :=
  out.1 = .success ∧ (∀ w ∈ out.2, w.1 = register) ∧
    applyWrites regs out.2 register
      = regs register &&& ~~~gpioxSetMask.toUInt32 ||| value.toUInt32 ∧
    applyWrites regs out.2 register &&& ~~~gpioxSetMask.toUInt32
      = regs register &&& ~~~gpioxSetMask.toUInt32

/-- **a `SetGpio` with a supported mode is confined to its mask exactly when its register had no bit
outside it** -/
theorem setGpio_confined_iff (pcd : Pcds) (table : PlatformGpioController)
    (uninitialized l : GpioLocation) (regs : UInt64 → UInt32) (gpio : UInt64)
    (mode : EmbeddedGpioMode) (value : UInt64) (out : StatusCode × List (UInt64 × UInt32))
    (hmode : mode.fields = some value)
    (hl : gpioLocated pcd table uninitialized gpio = some l)
    (hout : appleEmbeddedGpioSetGpio pcd table uninitialized regs gpio mode = some out) :
    SetConfined regs l.register value out ↔
      regs l.register &&& ~~~gpioxSetMask.toUInt32 = 0 := by
  rw [appleEmbeddedGpioSetGpio, hl, Option.map_some, hmode] at hout
  obtain rfl := Option.some.inj hout
  have hlast := applyWrites_single regs l.register value.toUInt32
  have hfields := fields_in_mask mode value hmode
  constructor
  · intro h
    obtain ⟨_, _, _, hkept⟩ := h
    have hkept' : value.toUInt32 &&& ~~~gpioxSetMask.toUInt32
        = regs l.register &&& ~~~gpioxSetMask.toUInt32 := by
      rw [← hkept]
      exact congrArg (· &&& _) hlast.symm
    rw [← hkept', hfields]
  · intro h
    have hvalue : value.toUInt32
        = regs l.register &&& ~~~gpioxSetMask.toUInt32 ||| value.toUInt32 := by
      rw [h, UInt32.zero_or]
    refine ⟨rfl, fun w hw => congrArg Prod.fst (List.mem_singleton.mp hw), hlast.trans hvalue, ?_⟩
    show applyWrites regs [(l.register, value.toUInt32)] l.register &&& _ = _
    rw [hlast, hfields, h]

/-- a register that holds nothing takes the fields and no other bit -/
theorem clearPin_confined :
    SetConfined (fun _ => 0) 0x23c10000c 0x3 (.success, [(0x23c10000c, 0x3)]) :=
  (setGpio_confined_iff examplePcds ⟨212, [⟨0x23c100000, 0, 212⟩]⟩ ⟨0, 0, 0⟩ ⟨0, 3, 0x23c100000⟩
    (fun _ => 0) 3 .output1 0x3 _ rfl rfl rfl).mpr rfl

/-- a pin that is pulled up loses its pull when it is set -/
theorem pulledUpPin_loses_pull :
    appleEmbeddedGpioSetGpio examplePcds ⟨212, [⟨0x23c100000, 0, 212⟩]⟩ ⟨0, 0, 0⟩
      (fun _ => 0x180) 3 .output1 = some (.success, [(0x23c10000c, 0x3)]) ∧
    (0x180 : UInt32) &&& ~~~gpioxSetMask.toUInt32 ||| 0x3 = 0x183 ∧
    ¬ SetConfined (fun _ => 0x180) 0x23c10000c 0x3 (.success, [(0x23c10000c, 0x3)]) := by
  refine ⟨by decide, by decide, ?_⟩
  intro h
  exact absurd h.2.2.2 (by decide)

end AppleSilicon

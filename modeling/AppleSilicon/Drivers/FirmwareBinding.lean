import AppleSilicon.Drivers.LoadFirmware
import AppleSilicon.Lib.Status
import AppleSilicon.Lib.Traced

/-!
# The driver binding of the firmware helper

The driver has no controller of its own: it loads the firmware of an ASMedia controller when it is
asked whether it supports that controller, and then says that it does not.  Where there is firmware
on one, it uninstalls the driver binding.

The boot services, `PciIo` and the controllers may answer anything, and what they answer may depend
on all that happened before; the driver may be asked about any controllers in any order.

* `supported_ends`        one question;
* `uploads_le`, `uploads_right`   what the monitor lets through;
* `supportedCalls_answers`, `supportedCalls_total`   every question has its answer;
* `firmwareBinding_run`   any number of questions about any controllers.
-/

namespace AppleSilicon

open Traced

def pciVendorIdAsmedia : UInt32 := 0x1b21

def pciDeviceIdAsmedia2214a : UInt32 := 0x2142

def pciVendorIdBitmask : UInt32 := 0xffff

def asmediaRomFirmwareRevision : UInt64 := 0x010250090816

/-- the controllers are numbered -/
inductive BindingEvent where
  /-- `gBS->OpenProtocol` of `PciIo`, by the driver -/
  | openProtocol (controller : ℕ) (status : StatusCode)
  /-- `Pci.Read` of `PCI_VENDOR_ID_OFFSET` -/
  | readPciId (controller : ℕ) (status : StatusCode) (pciId : UInt32)
  | getLocation (controller : ℕ) (status : StatusCode)
  | attributes (controller : ℕ) (operation : AttributeOperation)
  /-- `AppleAsmediaGetFirmwareVersion`: its status, and what is in `FirmwareVersion` behind it -/
  | firmwareVersion (controller : ℕ) (status : StatusCode) (version : UInt64)
  /-- `AppleAsmediaLoadFirmware`: its accesses and `*FirmwareUploadSuccessful`, or an assertion in
  it has stopped the machine -/
  | loadFirmware (controller : ℕ) (outcome : Option (List PciAccess × Bool))
  | closeProtocol (controller : ℕ)
  /-- `EfiLibUninstallDriverBinding` -/
  | uninstall (status : StatusCode)
  /-- `AppleBootTimeEmbeddedFirmwareDriverBindingSupported` returns -/
  | returned (controller : ℕ) (status : StatusCode)

/-- what is answered behind some events -/
structure BindingWorld where
  openProtocol : List BindingEvent → StatusCode
  readPciId : List BindingEvent → StatusCode × UInt32
  getLocation : List BindingEvent → StatusCode
  firmwareVersion : List BindingEvent → StatusCode × UInt64
  /-- the answers of the controller to `AppleAsmediaLoadFirmware` -/
  xhci : List BindingEvent → XhciController
  uninstall : List BindingEvent → StatusCode

section
variable (w : BindingWorld) (debugAssertEnabled : Bool) (xhciFirmwareBlob : List UInt8) (fuel : ℕ)

/-- `ASSERT_EFI_ERROR (Status)` -/
def assertEfiError (status : StatusCode) : Traced BindingEvent Unit :=
  if debugAssertEnabled && status.isError then ofOption none else Traced.pure ()

def appleAsmediaCheckFirmwareIsLoaded (controller : ℕ) : Traced BindingEvent Bool :=
  Traced.bind (ask w.firmwareVersion fun a => .firmwareVersion controller a.1 a.2) fun a =>
  Traced.bind (assertEfiError debugAssertEnabled a.1) fun _ =>
  Traced.pure (decide (a.2 ≠ asmediaRomFirmwareRevision))

/-- the call of `AppleAsmediaLoadFirmware` -/
def loadFirmware (controller : ℕ) : Traced BindingEvent Bool :=
  Traced.bind (ask (fun past => appleAsmediaLoadFirmware debugAssertEnabled xhciFirmwareBlob
    (w.xhci past) fuel) fun outcome => .loadFirmware controller outcome) fun outcome =>
  Traced.ofOption (outcome.map Prod.snd)

/-- is this the controller that the driver looks for -/
def isAsmedia2214a (pciId : UInt32) : Bool :=
  ¬ (pciId &&& pciVendorIdBitmask ≠ pciVendorIdAsmedia ∨ pciId >>> 16 ≠ pciDeviceIdAsmedia2214a)

/-- from the right controller on: `UsbFirmwareLoadSuccessful` -/
def bootstrapController (controller : ℕ) : Traced BindingEvent Bool :=
  Traced.bind (act (.attributes controller .get)) fun _ =>
  Traced.bind (act (.attributes controller .supported)) fun _ =>
  Traced.bind (appleAsmediaCheckFirmwareIsLoaded w debugAssertEnabled controller) fun loaded =>
    if loaded then Traced.pure true
    else
      Traced.bind (loadFirmware w debugAssertEnabled xhciFirmwareBlob fuel controller) fun ok =>
      -- the second check is not looked at
      Traced.bind (appleAsmediaCheckFirmwareIsLoaded w debugAssertEnabled controller) fun _ =>
      Traced.pure ok

/-- between the opening and the closing of `PciIo`; `false` is a way to `CloseProtocolAndExit`
without firmware -/
def inspectController (controller : ℕ) : Traced BindingEvent Bool :=
  Traced.bind (ask w.readPciId fun a => .readPciId controller a.1 a.2) fun id =>
    if id.1.isError then Traced.pure false
    else
      Traced.bind (ask w.getLocation fun status => .getLocation controller status) fun status =>
        if status.isError then Traced.pure false
        else if isAsmedia2214a id.2 then
          bootstrapController w debugAssertEnabled xhciFirmwareBlob fuel controller
        else Traced.pure false

/-- the status is not looked at -/
def uninstallDriverBinding : Traced BindingEvent Unit :=
  Traced.bind (ask w.uninstall fun status => .uninstall status) fun _ => Traced.pure ()

/-- `AppleBootTimeEmbeddedFirmwareDriverBindingSupported` -/
def appleBootTimeEmbeddedFirmwareDriverBindingSupported (controller : ℕ) :
    Traced BindingEvent StatusCode :=
  Traced.bind (ask w.openProtocol fun status => .openProtocol controller status) fun status =>
    if status.isError then Traced.pure status
    else
      Traced.bind (inspectController w debugAssertEnabled xhciFirmwareBlob fuel controller)
        fun successful =>
      Traced.bind (act (.closeProtocol controller)) fun _ =>
      Traced.bind (if successful then uninstallDriverBinding w else Traced.pure ()) fun _ =>
      Traced.pure StatusCode.unsupported

/-- the driver is asked about one controller after the other -/
def supportedCalls : List ℕ → Traced BindingEvent Unit
  | [] => Traced.pure ()
  | controller :: controllers =>
    Traced.bind (appleBootTimeEmbeddedFirmwareDriverBindingSupported w debugAssertEnabled
      xhciFirmwareBlob fuel controller) fun status =>
    Traced.bind (act (.returned controller status)) fun _ =>
    supportedCalls controllers

end

/-! ## what is allowed -/

inductive BindingPhase where
  /-- no `PciIo` is open -/
  | idle
  /-- `PciIo` is open -/
  | held (controller : ℕ)
  /-- and it is the right controller -/
  | asmedia (controller : ℕ)
  /-- which runs the firmware from its ROM -/
  | rom (controller : ℕ)
  /-- the firmware was not loaded -/
  | failed (controller : ℕ)
  /-- the firmware is not the one from the ROM -/
  | loaded (controller : ℕ)
  /-- `PciIo` is closed, and the driver binding is to be uninstalled -/
  | closed (controller : ℕ)
  /-- `PciIo` is closed, or was not opened -/
  | returning (controller : ℕ)
  /-- an `ASSERT` has stopped the machine -/
  | stopped
deriving DecidableEq

/-- one controller after the other: `PciIo` is opened, the firmware is loaded only into the right
controller and over the one from the ROM, `PciIo` is closed, the driver binding is uninstalled where
there is firmware on the controller, and the answer is an error -/
def bindingNext (debugAssertEnabled : Bool) : BindingPhase → BindingEvent → Option BindingPhase
  | .idle, .openProtocol c status => some (if status.isError then .returning c else .held c)
  | .held c, .readPciId c' status id =>
    if c' = c then some (if !status.isError && isAsmedia2214a id then .asmedia c else .held c)
    else none
  | .held c, .getLocation c' _ => if c' = c then some (.held c) else none
  | .held c, .closeProtocol c' => if c' = c then some (.returning c) else none
  | .asmedia c, .getLocation c' status =>
    if c' = c then some (if status.isError then .held c else .asmedia c) else none
  | .asmedia c, .attributes c' _ => if c' = c then some (.asmedia c) else none
  | .asmedia c, .firmwareVersion c' status version =>
    if c' = c then
      some (if debugAssertEnabled && status.isError then .stopped
        else if version = asmediaRomFirmwareRevision then .rom c else .loaded c)
    else none
  | .rom c, .loadFirmware c' outcome =>
    if c' = c then
      some (match outcome with
        | none => .stopped
        | some (_, ok) => if ok then .loaded c else .failed c)
    else none
  | .failed c, .firmwareVersion c' status _ =>
    if c' = c then some (if debugAssertEnabled && status.isError then .stopped else .failed c)
    else none
  | .failed c, .closeProtocol c' => if c' = c then some (.returning c) else none
  | .loaded c, .firmwareVersion c' status _ =>
    if c' = c then some (if debugAssertEnabled && status.isError then .stopped else .loaded c)
    else none
  | .loaded c, .closeProtocol c' => if c' = c then some (.closed c) else none
  | .closed c, .uninstall _ => some (.returning c)
  | .returning c, .returned c' status =>
    if c' = c ∧ status.isError = true then some .idle else none
  | _, _ => none

/-- what holds of the result, if there is one -/
def Settles {α : Type*} (f : α → BindingPhase → Prop) : Option α → BindingPhase → Prop
  | none, _ => True
  | some a, q => f a q

/-! ## one question -/

section
variable (w : BindingWorld) (debugAssertEnabled : Bool) (xhciFirmwareBlob : List UInt8) (fuel : ℕ)
variable (c : ℕ)

/-- a check of the firmware takes one phase to another, told by the version, or stops the machine -/
theorem checkFirmware_ends (p : BindingPhase) (next : Bool → BindingPhase)
    (hnext : ∀ status version, bindingNext debugAssertEnabled p (.firmwareVersion c status version)
      = some (if debugAssertEnabled && status.isError then .stopped
          else next (decide (version ≠ asmediaRomFirmwareRevision)))) :
    Ends (bindingNext debugAssertEnabled) p
      (appleAsmediaCheckFirmwareIsLoaded w debugAssertEnabled c)
      (Settles fun loaded q => q = next loaded) := by
  have hask : Ends (bindingNext debugAssertEnabled) p
      (ask w.firmwareVersion fun a => .firmwareVersion c a.1 a.2)
      (Settles fun a q => q = if debugAssertEnabled && a.1.isError then .stopped
        else next (decide (a.2 ≠ asmediaRomFirmwareRevision))) :=
    Ends.ask _ _ _ _ _ fun a => ⟨_, hnext a.1 a.2, rfl⟩
  refine hask.bind (fun a q hq => ?_) fun _ _ => trivial
  have hassert : Ends (bindingNext debugAssertEnabled) q (assertEfiError debugAssertEnabled a.1)
      (Settles fun _ q => q = next (decide (a.2 ≠ asmediaRomFirmwareRevision))) := by
    unfold assertEfiError
    cases hstop : debugAssertEnabled && a.1.isError with
    | true =>
      rw [if_pos rfl]
      exact fun _ => ⟨q, rfl, trivial⟩
    | false =>
      rw [if_neg Bool.false_ne_true]
      apply Ends.pure
      rw [show q = _ from hq, hstop, if_neg Bool.false_ne_true]
      rfl
  refine hassert.bind (fun _ q' hq' => ?_) fun _ _ => trivial
  exact Ends.pure _ _ _ _ hq'

theorem loadFirmware_ends :
    Ends (bindingNext debugAssertEnabled) (.rom c)
      (loadFirmware w debugAssertEnabled xhciFirmwareBlob fuel c)
      (Settles fun ok q => q = if ok then .loaded c else .failed c) := by
  have hask : Ends (bindingNext debugAssertEnabled) (.rom c)
      (ask (fun past => appleAsmediaLoadFirmware debugAssertEnabled xhciFirmwareBlob
        (w.xhci past) fuel) fun outcome => .loadFirmware c outcome)
      (Settles fun outcome q => ∀ ok, outcome.map Prod.snd = some ok →
        q = if ok then .loaded c else .failed c) := by
    refine Ends.ask _ _ _ _ _ fun outcome => ⟨_, if_pos rfl, ?_⟩
    intro ok hok
    cases outcome with
    | none => cases hok
    | some result =>
      cases hok
      rfl
  refine hask.bind (fun outcome q hq => ?_) fun _ _ => trivial
  cases hok : outcome.map Prod.snd with
  | none => exact fun _ => ⟨q, rfl, trivial⟩
  | some ok => exact Ends.pure _ _ _ _ (hq ok hok)

theorem bootstrapController_ends :
    Ends (bindingNext debugAssertEnabled) (.asmedia c)
      (bootstrapController w debugAssertEnabled xhciFirmwareBlob fuel c)
      (Settles fun ok q => q = if ok then .loaded c else .failed c) := by
  have hattributes : ∀ operation, Ends (bindingNext debugAssertEnabled) (.asmedia c)
      (act (.attributes c operation)) (Settles fun _ q => q = .asmedia c) :=
    fun operation => Ends.act _ _ _ _ _ (if_pos rfl) rfl
  refine (hattributes .get).bind (fun _ q hq => ?_) fun _ _ => trivial
  rw [hq]
  refine (hattributes .supported).bind (fun _ q hq => ?_) fun _ _ => trivial
  rw [hq]
  have hcheck := checkFirmware_ends w debugAssertEnabled c (.asmedia c)
    (fun loaded => if loaded then .loaded c else .rom c) fun status version => by
      refine (if_pos rfl).trans ?_
      by_cases hv : version = asmediaRomFirmwareRevision
      · rw [if_pos hv, decide_eq_false (fun h => h hv), if_neg Bool.false_ne_true]
      · rw [if_neg hv, decide_eq_true hv, if_pos rfl]
  refine hcheck.bind (fun loaded q hq => ?_) fun _ _ => trivial
  rw [hq]
  cases loaded with
  | true => exact Ends.pure _ _ _ _ rfl
  | false =>
    refine (loadFirmware_ends w debugAssertEnabled xhciFirmwareBlob fuel c).bind (fun ok q hq => ?_)
      fun _ _ => trivial
    rw [hq]
    -- the second check moves nothing
    have hagain := checkFirmware_ends w debugAssertEnabled c (if ok then .loaded c else .failed c)
      (fun _ => if ok then .loaded c else .failed c) fun status version => by
        cases ok with
        | true => exact if_pos rfl
        | false => exact if_pos rfl
    refine hagain.bind (fun _ q hq => ?_) fun _ _ => trivial
    exact Ends.pure _ _ _ _ hq

/-- the phases in which `PciIo` may be closed, without firmware and with it -/
def Inspected (c : ℕ) (successful : Bool) (q : BindingPhase) : Prop :=
  if successful then q = .loaded c else q = .held c ∨ q = .failed c

theorem inspectController_ends :
    Ends (bindingNext debugAssertEnabled) (.held c)
      (inspectController w debugAssertEnabled xhciFirmwareBlob fuel c) (Settles (Inspected c)) := by
  have hid : Ends (bindingNext debugAssertEnabled) (.held c)
      (ask w.readPciId fun a => .readPciId c a.1 a.2)
      (Settles fun a q => q = if !a.1.isError && isAsmedia2214a a.2 then .asmedia c
        else .held c) :=
    Ends.ask _ _ _ _ _ fun a => ⟨_, if_pos rfl, rfl⟩
  refine hid.bind (fun a q hq => ?_) fun _ _ => trivial
  rw [hq]
  cases herr : a.1.isError with
  | true => exact Ends.pure _ _ _ _ (.inl rfl)
  | false =>
    rw [if_neg Bool.false_ne_true, Bool.not_false, Bool.true_and]
    have hlocation : Ends (bindingNext debugAssertEnabled)
        (if isAsmedia2214a a.2 then .asmedia c else .held c)
        (ask w.getLocation fun status => .getLocation c status)
        (Settles fun status q => q = if !status.isError && isAsmedia2214a a.2 then .asmedia c
          else .held c) := by
      refine Ends.ask _ _ _ _ _ fun status => ⟨_, ?_, rfl⟩
      cases isAsmedia2214a a.2 with
      | true =>
        refine (if_pos rfl).trans ?_
        cases status.isError with
        | true => rfl
        | false => rfl
      | false =>
        refine (if_pos rfl).trans ?_
        rw [Bool.and_false, if_neg Bool.false_ne_true]
    refine hlocation.bind (fun status q hq => ?_) fun _ _ => trivial
    rw [hq]
    cases hstatus : status.isError with
    | true => exact Ends.pure _ _ _ _ (.inl rfl)
    | false =>
      rw [if_neg Bool.false_ne_true, Bool.not_false, Bool.true_and]
      cases isAsmedia2214a a.2 with
      | false => exact Ends.pure _ _ _ _ (.inl rfl)
      | true =>
        refine (bootstrapController_ends w debugAssertEnabled xhciFirmwareBlob fuel c).mono ?_
        intro r q h
        cases r with
        | none => trivial
        | some ok =>
          show Inspected c ok q
          cases ok with
          | true => exact h
          | false => exact .inr h

theorem uninstall_ends : Ends (bindingNext debugAssertEnabled) (.closed c)
    (uninstallDriverBinding w) (Settles fun _ q => q = .returning c) := by
  have hask : Ends (bindingNext debugAssertEnabled) (.closed c)
      (ask w.uninstall fun status => .uninstall status) (Settles fun _ q => q = .returning c) :=
    Ends.ask _ _ _ _ _ fun status => ⟨_, rfl, rfl⟩
  refine hask.bind (fun status q hq => ?_) fun _ _ => trivial
  exact Ends.pure _ _ _ _ hq

/-- **one question**: the driver is left behind with `PciIo` closed and an error to return -/
theorem supported_ends :
    Ends (bindingNext debugAssertEnabled) .idle
      (appleBootTimeEmbeddedFirmwareDriverBindingSupported w debugAssertEnabled xhciFirmwareBlob
        fuel c) (Settles fun status q => status.isError = true ∧ q = .returning c) := by
  have hopen : Ends (bindingNext debugAssertEnabled) .idle
      (ask w.openProtocol fun status => .openProtocol c status)
      (Settles fun status q => q = if status.isError then .returning c else .held c) :=
    Ends.ask _ _ _ _ _ fun status => ⟨_, rfl, rfl⟩
  refine hopen.bind (fun status q hq => ?_) fun _ _ => trivial
  rw [hq]
  cases herr : status.isError with
  | true => exact Ends.pure _ _ _ _ ⟨herr, rfl⟩
  | false =>
    rw [if_neg Bool.false_ne_true, if_neg Bool.false_ne_true]
    refine (inspectController_ends w debugAssertEnabled xhciFirmwareBlob fuel c).bind
      (fun successful q hq => ?_) fun _ _ => trivial
    have hclose : Ends (bindingNext debugAssertEnabled) q (act (.closeProtocol c))
        (Settles fun _ q => q = if successful then .closed c else .returning c) := by
      cases successful with
      | true =>
        rw [show q = .loaded c from hq]
        exact Ends.act _ _ _ _ _ (if_pos rfl) rfl
      | false =>
        rcases (show q = .held c ∨ q = .failed c from hq) with rfl | rfl
        · exact Ends.act _ _ _ _ _ (if_pos rfl) rfl
        · exact Ends.act _ _ _ _ _ (if_pos rfl) rfl
    refine hclose.bind (fun _ q hq => ?_) fun _ _ => trivial
    rw [hq]
    have hdone : Ends (bindingNext debugAssertEnabled)
        (if successful then .closed c else .returning c)
        (if successful then uninstallDriverBinding w else Traced.pure ())
        (Settles fun _ q => q = .returning c) := by
      cases successful with
      | false => exact Ends.pure _ _ _ _ rfl
      | true => exact uninstall_ends w debugAssertEnabled c
    refine hdone.bind (fun _ q hq => ?_) fun _ _ => trivial
    exact Ends.pure _ _ _ _ ⟨by decide, hq⟩

end

/-! ## any number of questions -/

/-- a question begins: `PciIo` is to be opened -/
def BindingEvent.opens : BindingEvent → Bool
  | .openProtocol _ _ => true
  | _ => false

/-- the firmware is loaded, whether that succeeds or not -/
def BindingEvent.uploads : BindingEvent → Bool
  | .loadFirmware _ _ => true
  | _ => false

/-- an upload may still come before `PciIo` is closed -/
def BindingPhase.pending : BindingPhase → ℕ
  | .held _ => 1
  | .asmedia _ => 1
  | .rom _ => 1
  | _ => 0

/-- what an allowed event does to the upload that may come -/
theorem bindingNext_pending (debugAssertEnabled : Bool) (q q' : BindingPhase) (e : BindingEvent)
    (h : bindingNext debugAssertEnabled q e = some q') :
    e.uploads.toNat + q'.pending ≤ e.opens.toNat + q.pending := by
  unfold bindingNext at h
  split at h
  all_goals
    simp only [Option.ite_none_right_eq_some, Option.some.injEq, reduceCtorEq] at h
  all_goals
    obtain ⟨_, rfl⟩ := h
  -- the event or the answer may choose the phase behind it
  all_goals
    try split
  all_goals
    try split
  all_goals
    simp [BindingPhase.pending, BindingEvent.uploads, BindingEvent.opens]

/-- there is at most one upload for each time that `PciIo` was to be opened -/
theorem uploads_le (debugAssertEnabled : Bool) (log : List BindingEvent) (q : BindingPhase)
    (h : monitor (bindingNext debugAssertEnabled) .idle log = some q) :
    log.countP BindingEvent.uploads ≤ log.countP BindingEvent.opens := by
  have hinv := monitor_invariant (bindingNext debugAssertEnabled) (fun q past =>
    past.countP BindingEvent.uploads + q.pending ≤ past.countP BindingEvent.opens)
    ?_ .idle q [] log (Nat.le_refl _) h
  · rw [List.nil_append] at hinv
    omega
  · intro q past e q' hq hnext
    have hpending := bindingNext_pending debugAssertEnabled q q' e hnext
    have hcount : ∀ f : BindingEvent → Bool,
        (past ++ [e]).countP f = past.countP f + (f e).toNat := by
      intro f
      rw [List.countP_append, List.countP_singleton]
      cases f e with
      | true => rfl
      | false => rfl
    rw [hcount, hcount]
    omega

/-- the controller has shown that it is the one that the driver looks for -/
def Identified (past : List BindingEvent) (c : ℕ) : Prop :=
  ∃ status pciId, .readPciId c status pciId ∈ past ∧ status.isError = false ∧
    isAsmedia2214a pciId = true

theorem Identified.append {past : List BindingEvent} {c : ℕ} (h : Identified past c)
    (e : BindingEvent) : Identified (past ++ [e]) c := by
  obtain ⟨status, pciId, hmem, hid⟩ := h
  exact ⟨status, pciId, List.mem_append_left _ hmem, hid⟩

/-- and the last thing it was asked for is the version, which was that of the ROM -/
def RunsRom (debugAssertEnabled : Bool) (past : List BindingEvent) (c : ℕ) : Prop :=
  ∃ before status, past = before ++ [.firmwareVersion c status asmediaRomFirmwareRevision] ∧
    (debugAssertEnabled = true → status.isError = false) ∧ Identified before c

/-- what a phase says of the events before it -/
def PhaseSeen (debugAssertEnabled : Bool) (q : BindingPhase) (past : List BindingEvent) : Prop :=
  match q with
  | .asmedia c => Identified past c
  | .rom c => RunsRom debugAssertEnabled past c
  | _ => True

/-- the controller is the right one when it shows the IDs, and stays it -/
theorem bindingNext_asmedia (debugAssertEnabled : Bool) (q : BindingPhase) (e : BindingEvent)
    (c : ℕ) (h : bindingNext debugAssertEnabled q e = some (.asmedia c)) :
    q = .asmedia c ∨ ∃ status pciId, e = .readPciId c status pciId ∧ status.isError = false ∧
      isAsmedia2214a pciId = true := by
  unfold bindingNext at h
  split at h
  all_goals grind

/-- it runs the firmware from its ROM when the right controller has just answered that -/
theorem bindingNext_rom (debugAssertEnabled : Bool) (q : BindingPhase) (e : BindingEvent) (c : ℕ)
    (h : bindingNext debugAssertEnabled q e = some (.rom c)) :
    q = .asmedia c ∧ ∃ status, e = .firmwareVersion c status asmediaRomFirmwareRevision ∧
      (debugAssertEnabled = true → status.isError = false) := by
  unfold bindingNext at h
  split at h
  all_goals grind

theorem phaseSeen_next (debugAssertEnabled : Bool) (q q' : BindingPhase) (past : List BindingEvent)
    (e : BindingEvent) (hq : PhaseSeen debugAssertEnabled q past)
    (hnext : bindingNext debugAssertEnabled q e = some q') :
    PhaseSeen debugAssertEnabled q' (past ++ [e]) := by
  cases q' with
  | asmedia c =>
    cases bindingNext_asmedia debugAssertEnabled q e c hnext with
    | inl h =>
      rw [h] at hq
      exact Identified.append hq e
    | inr h =>
      obtain ⟨status, pciId, rfl, herr, hid⟩ := h
      exact ⟨status, pciId, by simp, herr, hid⟩
  | rom c =>
    obtain ⟨rfl, status, rfl, herr⟩ := bindingNext_rom debugAssertEnabled q e c hnext
    exact ⟨past, status, rfl, herr, hq⟩
  -- the other phases do not say what was seen
  | _ => exact trivial

/-- **the firmware is loaded** only over that from the ROM of the right controller -/
theorem uploads_right (debugAssertEnabled : Bool) (pre post : List BindingEvent) (q : BindingPhase)
    (c : ℕ) (outcome : Option (List PciAccess × Bool))
    (h : monitor (bindingNext debugAssertEnabled) .idle (pre ++ .loadFirmware c outcome :: post)
      = some q) : RunsRom debugAssertEnabled pre c := by
  obtain ⟨p, p', hpre, hstep, _⟩ := monitor_split _ _ _ _ _ _ h
  have hseen := monitor_invariant (bindingNext debugAssertEnabled) (PhaseSeen debugAssertEnabled)
    (fun q past e q' => phaseSeen_next debugAssertEnabled q q' past e) .idle p [] pre trivial hpre
  have hrom : p = .rom c := by
    cases p with
    | rom c' =>
      obtain ⟨rfl, _⟩ := Option.ite_none_right_eq_some.mp hstep
      rfl
    | _ => cases hstep
  rw [hrom, List.nil_append] at hseen
  exact hseen

/-- the driver answers with an error -/
theorem returned_error (debugAssertEnabled : Bool) (pre post : List BindingEvent) (q : BindingPhase)
    (c : ℕ) (status : StatusCode)
    (h : monitor (bindingNext debugAssertEnabled) .idle (pre ++ .returned c status :: post)
      = some q) :
    status.isError = true := by
  obtain ⟨p, p', _, hstep, _⟩ := monitor_split _ _ _ _ _ _ h
  cases p with
  | returning c' =>
    obtain ⟨⟨_, herr⟩, _⟩ := Option.ite_none_right_eq_some.mp hstep
    exact herr
  | _ => cases hstep

/-! ## the questions and the answers -/

/-- the controller that the driver is asked about: what it does first is to open `PciIo` on it -/
def BindingEvent.opened : BindingEvent → Option ℕ
  | .openProtocol controller _ => some controller
  | _ => none

/-- the controller that the driver has answered about -/
def BindingEvent.answered : BindingEvent → Option ℕ
  | .returned controller _ => some controller
  | _ => none

/-- neither the first nor the last event of a question -/
def BindingEvent.Inner (e : BindingEvent) : Prop := e.opened = none ∧ e.answered = none

theorem filterMap_inner (log : List BindingEvent) (h : ∀ e ∈ log, e.Inner) :
    log.filterMap BindingEvent.opened = [] ∧ log.filterMap BindingEvent.answered = [] :=
  ⟨List.filterMap_eq_nil_iff.mpr fun e he => (h e he).1,
    List.filterMap_eq_nil_iff.mpr fun e he => (h e he).2⟩

section
variable (w : BindingWorld) (debugAssertEnabled : Bool) (xhciFirmwareBlob : List UInt8) (fuel : ℕ)
variable (c : ℕ)

theorem checkFirmware_inner :
    Only BindingEvent.Inner (appleAsmediaCheckFirmwareIsLoaded w debugAssertEnabled c) := by
  refine (only_ask _ _ _ fun _ => ⟨rfl, rfl⟩).bind fun a => ?_
  refine Only.bind ?_ fun _ => only_pure _ _
  unfold assertEfiError
  split
  · exact only_ofOption _ _
  · exact only_pure _ _

theorem bootstrapController_inner : Only BindingEvent.Inner
    (bootstrapController w debugAssertEnabled xhciFirmwareBlob fuel c) := by
  refine (only_act _ _ ⟨rfl, rfl⟩).bind fun _ => ?_
  refine (only_act _ _ ⟨rfl, rfl⟩).bind fun _ => ?_
  refine (checkFirmware_inner w debugAssertEnabled c).bind fun loaded => ?_
  cases loaded with
  | true => exact only_pure _ _
  | false =>
    have hload : Only BindingEvent.Inner
        (loadFirmware w debugAssertEnabled xhciFirmwareBlob fuel c) :=
      (only_ask _ _ _ fun _ => ⟨rfl, rfl⟩).bind fun _ => only_ofOption _ _
    refine hload.bind fun ok => ?_
    exact (checkFirmware_inner w debugAssertEnabled c).bind fun _ => only_pure _ _

theorem inspectController_inner : Only BindingEvent.Inner
    (inspectController w debugAssertEnabled xhciFirmwareBlob fuel c) := by
  refine (only_ask _ _ _ fun _ => ⟨rfl, rfl⟩).bind fun id => ?_
  split
  · exact only_pure _ _
  · refine (only_ask _ _ _ fun _ => ⟨rfl, rfl⟩).bind fun status => ?_
    split
    · exact only_pure _ _
    · split
      · exact bootstrapController_inner w debugAssertEnabled xhciFirmwareBlob fuel c
      · exact only_pure _ _

/-- a question opens `PciIo` on its controller, and on no other -/
theorem supported_opens (past : List BindingEvent) :
    let log := (appleBootTimeEmbeddedFirmwareDriverBindingSupported w debugAssertEnabled
      xhciFirmwareBlob fuel c past).log
    log.filterMap BindingEvent.opened = [c] ∧ log.filterMap BindingEvent.answered = [] := by
  have hrest : ∀ status : StatusCode, Only BindingEvent.Inner
      (if status.isError then Traced.pure status
      else
        Traced.bind (inspectController w debugAssertEnabled xhciFirmwareBlob fuel c)
          fun successful =>
        Traced.bind (act (.closeProtocol c)) fun _ =>
        Traced.bind (if successful then uninstallDriverBinding w else Traced.pure ()) fun _ =>
        Traced.pure StatusCode.unsupported) := by
    intro status
    split
    · exact only_pure _ _
    · refine (inspectController_inner w debugAssertEnabled xhciFirmwareBlob fuel c).bind
        fun successful => ?_
      refine (only_act _ _ ⟨rfl, rfl⟩).bind fun _ => ?_
      refine Only.bind ?_ fun _ => only_pure _ _
      split
      · exact (only_ask _ _ _ fun _ => ⟨rfl, rfl⟩).bind fun _ => only_pure _ _
      · exact only_pure _ _
  intro log
  obtain ⟨hopened, hanswered⟩ := filterMap_inner _
    (hrest (w.openProtocol past) (past ++ [.openProtocol c (w.openProtocol past)]))
  exact ⟨congrArg (c :: ·) hopened, hanswered⟩

/-- **the questions** are asked and answered in order, up to one in which the machine stops -/
theorem supportedCalls_answers (cs : List ℕ) (past : List BindingEvent) :
    let run := supportedCalls w debugAssertEnabled xhciFirmwareBlob fuel cs past
    run.log.filterMap BindingEvent.opened <+: cs ∧
    (run.result = some () → run.log.filterMap BindingEvent.opened = cs ∧
      run.log.filterMap BindingEvent.answered = cs) := by
  induction cs generalizing past with
  | nil => exact ⟨List.prefix_rfl, fun _ => ⟨rfl, rfl⟩⟩
  | cons c cs ih =>
    have hquestion := supported_opens w debugAssertEnabled xhciFirmwareBlob fuel c past
    have hrun : supportedCalls w debugAssertEnabled xhciFirmwareBlob fuel (c :: cs) past =
        (appleBootTimeEmbeddedFirmwareDriverBindingSupported w debugAssertEnabled
          xhciFirmwareBlob fuel c past).bind _ := rfl
    cases hr : (appleBootTimeEmbeddedFirmwareDriverBindingSupported w debugAssertEnabled
        xhciFirmwareBlob fuel c past).result with
    | none =>
      rw [hrun, Logged.bind_none _ _ hr]
      refine ⟨?_, fun h => by cases h⟩
      rw [hquestion.1]
      exact List.prefix_append [c] cs
    | some status =>
      rw [hrun, Logged.bind_some _ _ status hr]
      obtain ⟨horder, hall⟩ := ih (past ++ (appleBootTimeEmbeddedFirmwareDriverBindingSupported w
        debugAssertEnabled xhciFirmwareBlob fuel c past).log ++ [.returned c status])
      simp only [List.filterMap_append, hquestion.1, hquestion.2]
      constructor
      · exact List.cons_prefix_cons.mpr ⟨rfl, horder⟩
      · intro h
        obtain ⟨hopened, hanswered⟩ := hall h
        exact ⟨congrArg (c :: ·) hopened, congrArg (c :: ·) hanswered⟩

end

section
variable (w : BindingWorld) (xhciFirmwareBlob : List UInt8) (fuel : ℕ)

/-- with `ASSERT` compiled out a check of the firmware has a result -/
theorem checkFirmware_total (c : ℕ) : Total (appleAsmediaCheckFirmwareIsLoaded w false c) :=
  (total_ask _ _).bind fun _ => (total_pure ()).bind fun _ => total_pure _

theorem loadFirmware_total (hfuel : firmwareChunks xhciFirmwareBlob < fuel) (c : ℕ) :
    Total (loadFirmware w false xhciFirmwareBlob fuel c) := by
  intro past
  obtain ⟨r, hr⟩ := load_returns xhciFirmwareBlob (w.xhci past) fuel hfuel
  refine ⟨r.2, ?_⟩
  unfold loadFirmware Traced.bind
  rw [Logged.bind_some _ _ (some r) (congrArg some hr)]
  rfl

theorem inspectController_total (hfuel : firmwareChunks xhciFirmwareBlob < fuel) (c : ℕ) :
    Total (inspectController w false xhciFirmwareBlob fuel c) := by
  have hbootstrap : Total (bootstrapController w false xhciFirmwareBlob fuel c) := by
    refine (total_act _).bind fun _ => (total_act _).bind fun _ =>
      (checkFirmware_total w c).bind fun loaded => ?_
    cases loaded with
    | true => exact total_pure _
    | false =>
      exact (loadFirmware_total w xhciFirmwareBlob fuel hfuel c).bind fun _ =>
        (checkFirmware_total w c).bind fun _ => total_pure _
  refine (total_ask _ _).bind fun id => ?_
  split
  · exact total_pure _
  · refine (total_ask _ _).bind fun status => ?_
    split
    · exact total_pure _
    · split
      · exact hbootstrap
      · exact total_pure _

/-- **with `ASSERT` compiled out** every question is answered -/
theorem supportedCalls_total (hfuel : firmwareChunks xhciFirmwareBlob < fuel) (cs : List ℕ) :
    Total (supportedCalls w false xhciFirmwareBlob fuel cs) := by
  induction cs with
  | nil => exact total_pure _
  | cons c cs ih =>
    have hsupported : Total (appleBootTimeEmbeddedFirmwareDriverBindingSupported w false
        xhciFirmwareBlob fuel c) := by
      refine (total_ask _ _).bind fun status => ?_
      split
      · exact total_pure _
      · refine (inspectController_total w xhciFirmwareBlob fuel hfuel c).bind fun successful => ?_
        refine (total_act _).bind fun _ => ?_
        refine Total.bind ?_ fun _ => total_pure _
        split
        · exact (total_ask _ _).bind fun _ => total_pure _
        · exact total_pure _
    exact hsupported.bind fun _ => (total_act _).bind fun _ => ih

end

section
variable (w : BindingWorld) (debugAssertEnabled : Bool) (xhciFirmwareBlob : List UInt8) (fuel : ℕ)

/-- **the questions**: what they do is allowed, and they leave no `PciIo` open -/
theorem supportedCalls_ends (cs : List ℕ) : Ends (bindingNext debugAssertEnabled) .idle
    (supportedCalls w debugAssertEnabled xhciFirmwareBlob fuel cs)
    (Settles fun _ q => q = .idle) := by
  induction cs with
  | nil => exact Ends.pure _ _ _ _ rfl
  | cons c cs ih =>
    refine (supported_ends w debugAssertEnabled xhciFirmwareBlob fuel c).bind
      (fun status q hq => ?_) fun _ _ => trivial
    obtain ⟨herr, rfl⟩ := (show status.isError = true ∧ q = .returning c from hq)
    have hreturned : Ends (bindingNext debugAssertEnabled) (.returning c)
        (act (.returned c status)) (Settles fun _ q => q = .idle) :=
      Ends.act _ _ _ _ _ (if_pos ⟨rfl, herr⟩) rfl
    refine hreturned.bind (fun _ q hq => ?_) fun _ _ => trivial
    rw [show q = .idle from hq]
    exact ih

/-- **The driver binding**, whatever is answered and whatever controllers it is asked about: the
questions are taken in order, and with `ASSERT` compiled out every one is answered, always with an
error; for each, `PciIo` is opened and, unless the machine stops, closed again, and where there is
firmware on the controller the driver binding is to be uninstalled; and the firmware is loaded at
most once for each question, only into a controller that the driver is for and only over the
firmware from the ROM -/
theorem firmwareBinding_run (cs : List ℕ) (past : List BindingEvent) :
    let run := supportedCalls w debugAssertEnabled xhciFirmwareBlob fuel cs past
    (∃ q, monitor (bindingNext debugAssertEnabled) .idle run.log = some q ∧
      (run.result = some () → q = .idle)) ∧
    run.log.filterMap BindingEvent.opened <+: cs ∧
    (run.result = some () → run.log.filterMap BindingEvent.opened = cs ∧
      run.log.filterMap BindingEvent.answered = cs) ∧
    (debugAssertEnabled = false → firmwareChunks xhciFirmwareBlob < fuel →
      run.result = some ()) ∧
    (∀ c status, .returned c status ∈ run.log → status.isError = true) ∧
    run.log.countP BindingEvent.uploads ≤ run.log.countP BindingEvent.opens ∧
    ∀ pre c outcome post, run.log = pre ++ .loadFirmware c outcome :: post →
      RunsRom debugAssertEnabled pre c := by
  intro run
  obtain ⟨q, hq, hsettles⟩ := supportedCalls_ends w debugAssertEnabled xhciFirmwareBlob fuel cs past
  obtain ⟨horder, hanswers⟩ :=
    supportedCalls_answers w debugAssertEnabled xhciFirmwareBlob fuel cs past
  refine ⟨⟨q, hq, ?_⟩, horder, hanswers, ?_, ?_, uploads_le debugAssertEnabled _ q hq, ?_⟩
  · intro h
    rw [show (supportedCalls w debugAssertEnabled xhciFirmwareBlob fuel cs past).result = some ()
      from h] at hsettles
    exact hsettles
  · rintro rfl hfuel
    obtain ⟨_, h⟩ := supportedCalls_total w xhciFirmwareBlob fuel hfuel cs past
    exact h
  · intro c status hmem
    obtain ⟨pre, post, hlog⟩ := List.append_of_mem hmem
    exact returned_error debugAssertEnabled pre post q c status (by rw [← hlog]; exact hq)
  · intro pre c outcome post hlog
    exact uploads_right debugAssertEnabled pre post q c outcome (by rw [← hlog]; exact hq)

end

end AppleSilicon

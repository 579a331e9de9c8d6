import AppleSilicon.Drivers.Mailbox

/-!
# The accesses to the ASMedia controller

The driver reaches the registers of the processor in the controller through an address and a data
register, its code memory through an address register in configuration space and a data register.
`Asmedia` is what the driver has made of them: the values it wrote, and the pairs of address and
data that went to the code memory.

A function is the list of its accesses; `none` is a failed `ASSERT` that is compiled in.  The
controller and `PciIo` may answer anything: there is an answer for each point of the program, which
a run passes once.

* `Does`                           what a piece of the program makes of the registers;
* `does_inOrder`                   one piece after the other;
* `writeRegister_does`, `waitReset_does`   the pieces.
-/

namespace AppleSilicon

inductive AttributeOperation where
  | get
  | supported
  | enable
deriving DecidableEq, Repr

/-- an access through `EFI_PCI_IO_PROTOCOL`; memory accesses are to BAR 0 -/
inductive PciAccess where
  | attributes (operation : AttributeOperation) (attributes : UInt64)
  /-- `PollMem` of `ASMEDIA_REGISTER_STATUS`, for `ASMEDIA_REGISTER_STATUS_BUSY` to be clear -/
  | pollStatus
  /-- `Mem.Write` of `ASMEDIA_REGISTER_ADDR` -/
  | writeAddr (address : UInt16)
  /-- `Mem.Write` of `ASMEDIA_REGISTER_WRITE_DATA` -/
  | writeData (data : UInt8)
  /-- `Mem.Read` of `ASMEDIA_REGISTER_READ_DATA` -/
  | readData
  /-- `Mem.Read` of `XHC_CAPLENGTH_OFFSET` -/
  | readCapLength
  /-- `PollMem` of `XHC_USBCMD_OFFSET`, for `XHC_USBCMD_RESET` to be clear -/
  | pollUsbCmd (operationRegOffset : UInt8)
  /-- `Pci.Write` of `ASMEDIA_CONFIGURATION_SRAM_ACCESS_REG` -/
  | writeSramAccess (value : UInt8)
  /-- `Pci.Write` of `ASMEDIA_CONFIGURATION_SRAM_ADDR_REG` -/
  | writeSramAddr (address : UInt16)
  /-- `Pci.Read` of `ASMEDIA_CONFIGURATION_SRAM_ADDR_REG` -/
  | readSramAddr
  /-- `Mem.Write` of `ASMEDIA_REGISTER_CODE_WRITE_DATA` -/
  | writeCode (data : UInt32)
deriving DecidableEq, Repr

/-- `ASMEDIA_CONFIGURATION_SRAM_ACCESS_ENABLE_BIT` -/
def sramAccessEnable : UInt8 := 0x80

def sramAccessDisable : UInt8 := 0

/-! ## what the driver made of the registers -/

/-- what the accesses left behind -/
structure Asmedia where
  /-- the registers of the processor -/
  register : UInt16 → UInt8
  sramAccess : UInt8
  /-- what went to the code memory, in order -/
  sramWrites : List (UInt16 × UInt32)

/-- the same, with the two address registers -/
structure AsmediaPorts where
  addr : UInt16
  sramAddr : UInt16
  asmedia : Asmedia

def AsmediaPorts.observe (p : AsmediaPorts) : PciAccess → AsmediaPorts
  | .writeAddr address => { p with addr := address }
  | .writeData data =>
    { p with asmedia.register := Function.update p.asmedia.register p.addr data }
  | .writeSramAccess value => { p with asmedia.sramAccess := value }
  | .writeSramAddr address => { p with sramAddr := address }
  | .writeCode data =>
    { p with asmedia.sramWrites := p.asmedia.sramWrites ++ [(p.sramAddr, data)] }
  | _ => p

def AsmediaPorts.replay (p : AsmediaPorts) (log : List PciAccess) : AsmediaPorts :=
  log.foldl AsmediaPorts.observe p

theorem replay_append (p : AsmediaPorts) (log log' : List PciAccess) :
    p.replay (log ++ log') = (p.replay log).replay log' := List.foldl_append

/-! ## the answers -/

/-- the answers to `AppleAsmediaReadRegister` -/
structure RegisterRead where
  waitError : Bool
  addrError : Bool
  pollError : Bool
  readError : Bool
  value : UInt8
deriving DecidableEq, Repr

/-- the answers to `AppleAsmediaWriteRegister`; `verify i` are those to the read number `i` -/
structure RegisterWrite where
  addrError : Bool
  waitError : Bool
  dataError : Bool
  pollError : Bool
  verify : ℕ → RegisterRead

/-- the answers to `AppleAsmediaWaitReset` -/
structure ResetAnswer where
  capLengthError : Bool
  capLength : UInt8
  resetError : Bool
  enableError : Bool
  disableError : Bool
  kickError : Bool
deriving DecidableEq, Repr

/-! ## the functions -/

def inOrder : List (Option (List PciAccess)) → Option (List PciAccess)
  | [] => some []
  | piece :: pieces => piece.bind fun log => (inOrder pieces).map fun log' => log ++ log'

section
variable (debugAssertEnabled : Bool)

/-- an access, and `ASSERT_EFI_ERROR (Status)` -/
def checked (error : Bool) (access : PciAccess) : Option (List PciAccess) :=
  if error ∧ debugAssertEnabled then none else some [access]

def appleAsmediaReadRegister (address : UInt16) (r : RegisterRead) : Option (List PciAccess) :=
  inOrder [
    checked debugAssertEnabled r.waitError .pollStatus,
    checked debugAssertEnabled r.addrError (.writeAddr address),
    checked debugAssertEnabled r.pollError .pollStatus,
    checked debugAssertEnabled r.readError .readData]

/-- the register is read until it has the value, with `n` reads left -/
def verifyLoop (address : UInt16) (data : UInt8) (verify : ℕ → RegisterRead) :
    ℕ → ℕ → Option (List PciAccess)
  | 0, _ => if debugAssertEnabled then none else some []
  | n + 1, i => (appleAsmediaReadRegister debugAssertEnabled address (verify i)).bind fun log =>
    if (verify i).value = data then some log
    else (verifyLoop address data verify n (i + 1)).map fun log' => log ++ log'

def appleAsmediaWriteRegister (address : UInt16) (data : UInt8) (wait : Bool) (r : RegisterWrite) :
    Option (List PciAccess) :=
  inOrder [
    checked debugAssertEnabled r.addrError (.writeAddr address),
    checked debugAssertEnabled r.waitError .pollStatus,
    checked debugAssertEnabled r.dataError (.writeData data),
    checked debugAssertEnabled r.pollError .pollStatus,
    if wait = false then some []
    else verifyLoop debugAssertEnabled address data r.verify timeoutUsec 0]

/-- the accesses, and whether an error is returned -/
def appleAsmediaWaitReset (r : ResetAnswer) : List PciAccess × Bool :=
  if r.capLengthError then ([.readCapLength], true)
  else if r.resetError then
    -- attempting to kick the reset
    if r.enableError then
      ([.readCapLength, .pollUsbCmd r.capLength, .writeSramAccess sramAccessEnable], true)
    else if r.disableError then
      ([.readCapLength, .pollUsbCmd r.capLength, .writeSramAccess sramAccessEnable,
        .writeSramAccess sramAccessDisable], true)
    else
      ([.readCapLength, .pollUsbCmd r.capLength, .writeSramAccess sramAccessEnable,
        .writeSramAccess sramAccessDisable, .pollUsbCmd r.capLength], r.kickError)
  else ([.readCapLength, .pollUsbCmd r.capLength], false)

/-- the reset, and `ASSERT_EFI_ERROR (Status)` -/
def checkedReset (r : ResetAnswer) : Option (List PciAccess) :=
  if (appleAsmediaWaitReset r).2 ∧ debugAssertEnabled then none
  else some (appleAsmediaWaitReset r).1

end

/-! ## what a piece does -/

/-- if the piece returns, it makes this of the registers -/
def Does (piece : Option (List PciAccess)) (f : Asmedia → Asmedia) : Prop :=
  ∀ log, piece = some log → ∀ p : AsmediaPorts, (p.replay log).asmedia = f p.asmedia

theorem inOrder_cons (piece : Option (List PciAccess)) (pieces : List (Option (List PciAccess)))
    (log : List PciAccess) : inOrder (piece :: pieces) = some log ↔
      ∃ log₁ log₂, piece = some log₁ ∧ inOrder pieces = some log₂ ∧ log = log₁ ++ log₂ := by
  rw [inOrder]
  constructor
  · intro h
    obtain ⟨log₁, h₁, h⟩ := Option.bind_eq_some_iff.mp h
    obtain ⟨log₂, h₂, rfl⟩ := Option.map_eq_some_iff.mp h
    exact ⟨log₁, log₂, h₁, h₂, rfl⟩
  · intro h
    obtain ⟨log₁, log₂, h₁, h₂, rfl⟩ := h
    rw [h₁, Option.bind_some, h₂, Option.map_some]

theorem does_nil : Does (inOrder []) id := by
  intro log h p
  obtain rfl := Option.some.inj h
  rfl

theorem does_inOrder {piece : Option (List PciAccess)} {pieces : List (Option (List PciAccess))}
    {f g : Asmedia → Asmedia} (hf : Does piece f) (hg : Does (inOrder pieces) g) :
    Does (inOrder (piece :: pieces)) (fun a => g (f a)) := by
  intro log h p
  obtain ⟨log₁, log₂, h₁, h₂, rfl⟩ := (inOrder_cons piece pieces log).mp h
  rw [replay_append, hg log₂ h₂, hf log₁ h₁]

theorem does_some {log : List PciAccess} {f : Asmedia → Asmedia}
    (h : ∀ p : AsmediaPorts, (p.replay log).asmedia = f p.asmedia) : Does (some log) f := by
  intro log' he p
  rw [← Option.some.inj he]
  exact h p

section
variable (debugAssertEnabled : Bool)

theorem checked_some {error : Bool} {access : PciAccess} {log : List PciAccess}
    (h : checked debugAssertEnabled error access = some log) : log = [access] := by
  rw [checked] at h
  by_cases he : error ∧ debugAssertEnabled
  · rw [if_pos he] at h
    cases h
  · rw [if_neg he] at h
    exact (Option.some.inj h).symm

theorem checked_does (error : Bool) (access : PciAccess) (f : Asmedia → Asmedia)
    (h : ∀ p : AsmediaPorts, (p.observe access).asmedia = f p.asmedia) :
    Does (checked debugAssertEnabled error access) f := by
  intro log hlog p
  rw [checked_some debugAssertEnabled hlog]
  exact h p

theorem readRegister_does (address : UInt16) (r : RegisterRead) :
    Does (appleAsmediaReadRegister debugAssertEnabled address r) id :=
  does_inOrder (checked_does _ _ _ id fun _ => rfl) <|
    does_inOrder (checked_does _ _ _ id fun _ => rfl) <|
    does_inOrder (checked_does _ _ _ id fun _ => rfl) <|
    does_inOrder (checked_does _ _ _ id fun _ => rfl) does_nil

theorem verifyLoop_does (address : UInt16) (data : UInt8) (verify : ℕ → RegisterRead) (n i : ℕ) :
    Does (verifyLoop debugAssertEnabled address data verify n i) id := by
  induction n generalizing i with
  | zero =>
    intro log h p
    rw [verifyLoop] at h
    cases hd : debugAssertEnabled with
    | true =>
      rw [hd, if_pos rfl] at h
      cases h
    | false =>
      rw [hd, if_neg Bool.false_ne_true] at h
      obtain rfl := Option.some.inj h
      rfl
  | succ n ih =>
    intro log h p
    obtain ⟨log₁, h₁, h⟩ := Option.bind_eq_some_iff.mp h
    by_cases hv : (verify i).value = data
    · rw [if_pos hv] at h
      obtain rfl := Option.some.inj h
      exact readRegister_does debugAssertEnabled address (verify i) log₁ h₁ p
    · rw [if_neg hv] at h
      obtain ⟨log₂, h₂, rfl⟩ := Option.map_eq_some_iff.mp h
      rw [replay_append, ih (i + 1) log₂ h₂, readRegister_does _ address (verify i) log₁ h₁]
      rfl

def Asmedia.set (a : Asmedia) (address : UInt16) (data : UInt8) : Asmedia :=
  { a with register := Function.update a.register address data }

theorem writeRegister_does (address : UInt16) (data : UInt8) (wait : Bool) (r : RegisterWrite) :
    Does (appleAsmediaWriteRegister debugAssertEnabled address data wait r)
      (fun a => a.set address data) := by
  intro log h p
  obtain ⟨log₁, rest₁, h₁, hrest₁, rfl⟩ := (inOrder_cons _ _ _).mp h
  obtain ⟨log₂, rest₂, h₂, hrest₂, rfl⟩ := (inOrder_cons _ _ _).mp hrest₁
  obtain ⟨log₃, rest₃, h₃, hrest₃, rfl⟩ := (inOrder_cons _ _ _).mp hrest₂
  obtain ⟨log₄, rest₄, h₄, hrest₄, rfl⟩ := (inOrder_cons _ _ _).mp hrest₃
  obtain ⟨log₅, rest₅, h₅, hrest₅, rfl⟩ := (inOrder_cons _ _ _).mp hrest₄
  obtain rfl := Option.some.inj hrest₅
  rw [checked_some _ h₁, checked_some _ h₂, checked_some _ h₃, checked_some _ h₄, List.append_nil]
  have hverify : Does (if wait = false then some []
      else verifyLoop debugAssertEnabled address data r.verify timeoutUsec 0) id := by
    by_cases hw : wait = false
    · rw [if_pos hw]
      exact does_nil
    · rw [if_neg hw]
      exact verifyLoop_does debugAssertEnabled address data r.verify timeoutUsec 0
  rw [replay_append, replay_append, replay_append, replay_append, hverify log₅ h₅]
  rfl

/-- what a reset leaves in the access register: it stops behind the enabling write when that reports
an error -/
def ResetAnswer.leaves (r : ResetAnswer) (value : UInt8) : UInt8 :=
  if r.capLengthError = false ∧ r.resetError = true then
    if r.enableError then sramAccessEnable else sramAccessDisable
  else value

theorem waitReset_replay (r : ResetAnswer) (p : AsmediaPorts) :
    (p.replay (appleAsmediaWaitReset r).1).asmedia
      = { p.asmedia with sramAccess := r.leaves p.asmedia.sramAccess } := by
  rw [appleAsmediaWaitReset, ResetAnswer.leaves]
  cases r.capLengthError with
  | true => rfl
  | false =>
    cases r.resetError with
    | false => rfl
    | true =>
      cases r.enableError with
      | true => rfl
      | false =>
        cases r.disableError with
        | true => rfl
        | false => rfl

theorem checkedReset_does (r : ResetAnswer) : Does (checkedReset debugAssertEnabled r)
    (fun a => { a with sramAccess := r.leaves a.sramAccess }) := by
  intro log h p
  rw [checkedReset] at h
  by_cases he : (appleAsmediaWaitReset r).2 ∧ debugAssertEnabled
  · rw [if_pos he] at h
    cases h
  · rw [if_neg he] at h
    rw [← Option.some.inj h]
    exact waitReset_replay r p

end

end AppleSilicon

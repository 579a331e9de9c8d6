import AppleSilicon.Lib.Bytes
import AppleSilicon.Lib.Status
import AppleSilicon.Lib.Loop

/-!
# The ACPI tables of the firmware volume

`AcpiPlatformEntryPoint` reads the sections of four files one after the other, and installs each as
a table.  The four loops share the counter, the status and the buffer.

`none` is a call that does not return: an `ASSERT` that is compiled in and fails, a read outside
a buffer, a call through a pointer that was not set.

* `acpiPlatformChecksum_right`   the table of a section;
* `installTurn_inv`              a turn of a loop;
* `installFile_total`            a loop installs every section of its file, in order;
* `acpiTables_installed`         the four loops install every section of the four files, in order.
-/

namespace AppleSilicon

/-- `PcdDeviceAcpiTableStorageFile` and the other three -/
inductive AcpiStorageFile where
  | device
  | soc
  | generic
  | deviceFamily
deriving DecidableEq, Repr

/-- what `ReadSection` returns, in `Buffer` and in `Size` -/
structure SectionRead where
  status : StatusCode
  buffer : Option (List UInt8)
  size : ℕ

/-- `EFI_FIRMWARE_VOLUME2_PROTOCOL` -/
structure FirmwareVolume where
  readFile : AcpiStorageFile → StatusCode
  /-- the RAW section of that number; `Buffer` and `Size` are read, too -/
  readSection : AcpiStorageFile → ℕ → Option (List UInt8) → ℕ → SectionRead

/-- what `InstallAcpiTable` is called with -/
structure InstallCall where
  buffer : List UInt8
  size : ℕ
deriving DecidableEq, Repr

/-- the table that is installed -/
def InstallCall.table (call : InstallCall) : List UInt8 := call.buffer.take call.size

/-- what the entry point calls -/
structure AcpiServices where
  /-- `LocateProtocol` for `gEfiAcpiTableProtocolGuid` -/
  locateProtocol : StatusCode
  /-- `LocateHandleBuffer` for the firmware volumes -/
  locateHandleBuffer : Except StatusCode (List FirmwareVolume)
  /-- after the calls made so far -/
  installAcpiTable : List InstallCall → InstallCall → StatusCode
  calculateCheckSum8 : List UInt8 → ℕ → UInt8
  debugAssertEnabled : Bool

/-- `EFI_REQUEST_UNLOAD_IMAGE` -/
def StatusCode.requestUnloadImage : StatusCode := 0xa000000000000001

/-- `OFFSET_OF (EFI_ACPI_DESCRIPTION_HEADER, Checksum)` -/
def checksumOffset : ℕ := 9

/-- `((EFI_ACPI_DESCRIPTION_HEADER *)table)->Length` -/
def tableLength (table : List UInt8) : Option ℕ := Mem.le32 (fun i => table[i]?) 4

namespace AcpiServices

variable (services : AcpiServices)

/-! ## `LocateFvInstanceWithDeviceTables` and the other three -/

/-- the loop over the handles; `*Instance` is written when the file is found -/
def locateLoop (file : AcpiStorageFile) (out : Option FirmwareVolume) :
    List FirmwareVolume → StatusCode → StatusCode × Option FirmwareVolume
  | [], status => (status, out)
  | fvInstance :: handles, _ =>
    if fvInstance.readFile file = .success then (.success, some fvInstance)
    else locateLoop file out handles (fvInstance.readFile file)

def locateFvInstance (file : AcpiStorageFile) (out : Option FirmwareVolume) :
    StatusCode × Option FirmwareVolume :=
  match services.locateHandleBuffer with
  | .error status => (status, out)
  | .ok handles => locateLoop file out handles .success

def locateFvInstanceWithDeviceTables := services.locateFvInstance .device
def locateFvInstanceWithSocTables := services.locateFvInstance .soc
def locateFvInstanceWithGenericTables := services.locateFvInstance .generic
def locateFvInstanceWithDeviceFamilyTables := services.locateFvInstance .deviceFamily

/-- the one that is called for a file -/
def locateFor : AcpiStorageFile → Option FirmwareVolume → StatusCode × Option FirmwareVolume
  | .device => services.locateFvInstanceWithDeviceTables
  | .soc => services.locateFvInstanceWithSocTables
  | .generic => services.locateFvInstanceWithGenericTables
  | .deviceFamily => services.locateFvInstanceWithDeviceFamilyTables

theorem locateFor_eq (file : AcpiStorageFile) :
    services.locateFor file = services.locateFvInstance file := by
  cases file <;> rfl

/-! ## `AcpiPlatformEntryPoint` -/

def acpiPlatformChecksum (buffer : List UInt8) (size : ℕ) : Option (List UInt8) :=
  if checksumOffset < buffer.length ∧ size ≤ buffer.length then
    let buffer := buffer.set checksumOffset 0
    some (buffer.set checksumOffset (services.calculateCheckSum8 buffer size))
  else none

end AcpiServices

/-- the variables of `AcpiPlatformEntryPoint`, and the calls of `InstallAcpiTable` so far -/
structure AcpiState where
  status : StatusCode
  instanceNumber : ℕ
  currentTable : Option (List UInt8)
  size : ℕ
  fwVol : Option FirmwareVolume
  installed : List InstallCall

namespace AcpiServices

variable (services : AcpiServices)

/-- the rest of a turn, once a section was read; a loop leaves with the status to return, if any -/
def installTable (s : AcpiState) (table : List UInt8) :
    Option (Turn AcpiState (Option StatusCode × AcpiState)) :=
  (tableLength table).bind fun tableSize =>
    if services.debugAssertEnabled = true ∧ s.size < tableSize then none
    else
      (services.acpiPlatformChecksum table tableSize).map fun table =>
        let call := ⟨table, tableSize⟩
        let s := { s with
          status := services.installAcpiTable s.installed call
          installed := s.installed ++ [call] }
        if s.status.isError then .leave (some .aborted, s)
        else .again { s with instanceNumber := s.instanceNumber + 1, currentTable := none }

/-- a turn of the loop -/
def installTurn (file : AcpiStorageFile) (s : AcpiState) :
    Option (Turn AcpiState (Option StatusCode × AcpiState)) :=
  if s.status = .success then
    s.fwVol.bind fun fwVol =>
      let read := fwVol.readSection file s.instanceNumber s.currentTable s.size
      let s := { s with status := read.status, currentTable := read.buffer, size := read.size }
      if read.status.isError then some (.again s)
      else read.buffer.bind fun table => services.installTable s table
  else some (.leave (none, s))

/-- the block of one file -/
def installFile (fuel : ℕ) (file : AcpiStorageFile) (s : AcpiState) :
    Option (Option StatusCode × AcpiState) :=
  let s := { s with instanceNumber := 0, currentTable := none }
  let located := services.locateFor file s.fwVol
  if located.1.isError then
    if services.debugAssertEnabled then none else some (some .aborted, s)
  else
    runLoop (services.installTurn file) fuel { s with status := located.1, fwVol := located.2 }

/-- the blocks, one after the other -/
def installFiles (fuel : ℕ) : List AcpiStorageFile → AcpiState →
    Option (StatusCode × List InstallCall)
  | [], s => some (.requestUnloadImage, s.installed)
  | file :: files, s =>
    (services.installFile fuel file s).bind fun r =>
      match r.1 with
      | some status => some (status, r.2.installed)
      | none => installFiles fuel files r.2

/-- `AcpiPlatformEntryPoint`: the status it returns and the calls of `InstallAcpiTable`.  The first
block has `FwVol` for its volume, the other three share `FwVol2`. -/
def acpiPlatformEntryPoint (fuel : ℕ) : Option (StatusCode × List InstallCall) :=
  if services.locateProtocol.isError then
    if services.debugAssertEnabled then none else some (.aborted, [])
  else
    (services.installFile fuel .device ⟨services.locateProtocol, 0, none, 0, none, []⟩).bind fun r =>
      match r.1 with
      | some status => some (status, r.2.installed)
      | none =>
        services.installFiles fuel [.soc, .generic, .deviceFamily] { r.2 with fwVol := none }

end AcpiServices

/-! ## what is installed -/

/-- the bytes, added up -/
def byteSum (bytes : List UInt8) : ℕ := (bytes.map UInt8.toNat).sum

/-- the table of a section: its `Length` bytes, with the checksum -/
structure InstalledFrom (sec : List UInt8) (call : InstallCall) : Prop where
  length : tableLength sec = some call.size
  bytes : call.table.length = call.size
  sum : byteSum call.table % 256 = 0
  same : ∀ i, i ≠ checksumOffset → call.table[i]? = (sec.take call.size)[i]?

/-- `CalculateCheckSum8` returns what is missing to 0 -/
def CheckSumRight (calculateCheckSum8 : List UInt8 → ℕ → UInt8) : Prop :=
  ∀ buffer size, size ≤ buffer.length →
    (byteSum (buffer.take size) + (calculateCheckSum8 buffer size).toNat) % 256 = 0

/-- `ReadSection` returns a fresh copy of each section, and an error behind the last -/
def FirmwareVolume.Holds (fwVol : FirmwareVolume) (file : AcpiStorageFile)
    (sections : List (List UInt8)) : Prop :=
  ∀ i size, match sections[i]? with
    | some sec => fwVol.readSection file i none size = ⟨.success, some sec, sec.length⟩
    | none => (fwVol.readSection file i none size).status.isError = true

/-- the first volume that has the file holds the sections -/
def AcpiServices.Stored (services : AcpiServices) (file : AcpiStorageFile)
    (sections : List (List UInt8)) : Prop :=
  ∃ before fwVol behind, services.locateHandleBuffer = .ok (before ++ fwVol :: behind) ∧
    (∀ other ∈ before, other.readFile file ≠ .success) ∧ fwVol.readFile file = .success ∧
    fwVol.Holds file sections

/-- a table, with its header -/
def IsTable (sec : List UInt8) : Prop :=
  ∃ length, tableLength sec = some length ∧ 36 ≤ length ∧ length ≤ sec.length

/-! ## the checksum -/

theorem byteSum_set (bytes : List UInt8) (i : ℕ) (b old : UInt8) (h : bytes[i]? = some old) :
    byteSum (bytes.set i b) + old.toNat = byteSum bytes + b.toNat := by
  induction bytes generalizing i with
  | nil => simp at h
  | cons x bytes ih =>
    cases i with
    | zero =>
      cases h
      rw [List.set_cons_zero, byteSum, byteSum, List.map_cons, List.map_cons, List.sum_cons,
        List.sum_cons]
      omega
    | succ i =>
      have hrest := ih i h
      rw [byteSum, byteSum] at hrest
      rw [List.set_cons_succ, byteSum, byteSum, List.map_cons, List.map_cons, List.sum_cons,
        List.sum_cons]
      omega

/-- **the table of a section is right** once its checksum was calculated -/
theorem acpiPlatformChecksum_right (services : AcpiServices)
    (hsum : CheckSumRight services.calculateCheckSum8) (sec : List UInt8) (size : ℕ)
    (hlength : tableLength sec = some size) (hheader : 36 ≤ size) (hsize : size ≤ sec.length) :
    ∃ buffer, services.acpiPlatformChecksum sec size = some buffer ∧
      InstalledFrom sec ⟨buffer, size⟩ := by
  have hoffset : checksumOffset < size := by
    rw [checksumOffset]
    omega
  refine ⟨_, if_pos ⟨by omega, hsize⟩, hlength, ?_, ?_, ?_⟩
  · rw [InstallCall.table, List.length_take, List.length_set, List.length_set, Nat.min_eq_left hsize]
  · -- the byte that is calculated replaces a 0
    have hzero : ((sec.set checksumOffset 0).take size)[checksumOffset]? = some 0 := by
      rw [List.getElem?_take_of_lt hoffset, List.getElem?_set_self (by omega)]
    have hcalculated := hsum (sec.set checksumOffset 0) size (by rw [List.length_set]; exact hsize)
    have hset := byteSum_set _ checksumOffset
      (services.calculateCheckSum8 (sec.set checksumOffset 0) size) 0 hzero
    rw [InstallCall.table, List.take_set, ← Nat.add_zero (byteSum _)]
    rw [← hset] at hcalculated
    exact hcalculated
  · intro i hi
    rw [InstallCall.table, List.getElem?_take, List.getElem?_take, List.getElem?_set_ne hi.symm,
      List.getElem?_set_ne hi.symm]

/-! ## a loop -/

theorem locateLoop_stored (file : AcpiStorageFile) (out : Option FirmwareVolume)
    (before behind : List FirmwareVolume) (fwVol : FirmwareVolume) (status : StatusCode)
    (hbefore : ∀ other ∈ before, other.readFile file ≠ .success)
    (hfile : fwVol.readFile file = .success) :
    AcpiServices.locateLoop file out (before ++ fwVol :: behind) status =
      (.success, some fwVol) := by
  induction before generalizing status with
  | nil => exact if_pos hfile
  | cons other before ih =>
    rw [List.cons_append, AcpiServices.locateLoop, if_neg (hbefore other List.mem_cons_self)]
    exact ih _ fun o ho => hbefore o (List.mem_cons_of_mem other ho)

/-- before a turn: the sections so far are installed, and the next one will be read to a fresh
buffer; or all are, and the last read failed -/
def LoopInv (fwVol : FirmwareVolume) (sections : List (List UInt8)) (past : List InstallCall)
    (s : AcpiState) : Prop :=
  (s.status = .success ∧ s.fwVol = some fwVol ∧ s.currentTable = none ∧
    s.instanceNumber ≤ sections.length ∧ ∃ calls, s.installed = past ++ calls ∧
      List.Forall₂ InstalledFrom (sections.take s.instanceNumber) calls) ∨
  (s.status ≠ .success ∧ ∃ calls, s.installed = past ++ calls ∧
    List.Forall₂ InstalledFrom sections calls)

/-- the turns that are left, but for the one that leaves -/
def turnsLeft (sections : List (List UInt8)) (s : AcpiState) : ℕ :=
  if s.status = .success then sections.length - s.instanceNumber + 1 else 0

section
variable (services : AcpiServices) (hsum : CheckSumRight services.calculateCheckSum8)
  (hinstall : ∀ past call, services.installAcpiTable past call = .success)
include hsum hinstall

/-- a table is installed, and the loop goes on -/
theorem installTable_again (s : AcpiState) (sec : List UInt8) (htable : IsTable sec)
    (hsize : s.size = sec.length) :
    ∃ call, InstalledFrom sec call ∧ services.installTable s sec = some (.again
      { s with status := .success, instanceNumber := s.instanceNumber + 1, currentTable := none,
               installed := s.installed ++ [call] }) := by
  obtain ⟨length, hlength, hheader, hle⟩ := htable
  obtain ⟨buffer, hbuffer, hright⟩ :=
    acpiPlatformChecksum_right services hsum sec length hlength hheader hle
  refine ⟨⟨buffer, length⟩, hright, ?_⟩
  rw [AcpiServices.installTable, hlength, Option.bind_some, if_neg (by omega), hbuffer,
    Option.map_some]
  dsimp only
  rw [hinstall]
  rfl

variable (file : AcpiStorageFile) (fwVol : FirmwareVolume) (sections : List (List UInt8))
  (hholds : fwVol.Holds file sections) (htables : ∀ sec ∈ sections, IsTable sec)
include hholds htables

/-- **a turn** -/
theorem installTurn_inv (past : List InstallCall) (s : AcpiState)
    (h : LoopInv fwVol sections past s) :
    (∃ s', services.installTurn file s = some (.again s') ∧ LoopInv fwVol sections past s' ∧
      turnsLeft sections s' < turnsLeft sections s) ∨
    ∃ r, services.installTurn file s = some (.leave r) ∧ r.1 = none ∧
      ∃ calls, r.2.installed = past ++ calls ∧ List.Forall₂ InstalledFrom sections calls := by
  obtain ⟨hstatus, hfwVol, hcurrent, hle, calls, hcalls, hdone⟩ | ⟨hstatus, hall⟩ := h
  · left
    have hleft : turnsLeft sections s = sections.length - s.instanceNumber + 1 := if_pos hstatus
    have hread := hholds s.instanceNumber s.size
    rw [AcpiServices.installTurn, if_pos hstatus, hfwVol, hcurrent, Option.bind_some, hleft]
    dsimp only
    cases hsec : sections[s.instanceNumber]? with
    | some sec =>
      rw [hsec] at hread
      dsimp only at hread
      obtain ⟨hlt, hget⟩ := List.getElem?_eq_some_iff.mp hsec
      obtain ⟨call, hright, hagain⟩ := installTable_again services hsum hinstall
        { s with status := .success, currentTable := some sec, size := sec.length,
                 fwVol := some fwVol } sec
        (htables sec (List.mem_of_getElem? hsec)) rfl
      rw [hread]
      dsimp only
      rw [if_neg (by decide), Option.bind_some, hagain]
      refine ⟨_, rfl, Or.inl ⟨rfl, rfl, rfl, hlt, calls ++ [call], ?_, ?_⟩, ?_⟩
      · rw [← List.append_assoc, ← hcalls]
      · rw [List.take_add_one, hsec]
        exact List.rel_append hdone (List.Forall₂.cons hright List.Forall₂.nil)
      · rw [turnsLeft, if_pos rfl]
        dsimp only
        omega
    | none =>
      -- behind the last section the read fails, and the next turn leaves
      rw [hsec] at hread
      dsimp only at hread
      have hfail : (fwVol.readSection file s.instanceNumber none s.size).status ≠ .success := by
        intro hsuccess
        rw [hsuccess] at hread
        exact absurd hread (by decide)
      rw [if_pos hread]
      refine ⟨_, rfl, Or.inr ⟨hfail, calls, hcalls, ?_⟩, ?_⟩
      · rw [List.take_of_length_le (List.getElem?_eq_none_iff.mp hsec)] at hdone
        exact hdone
      · rw [turnsLeft, if_neg hfail]
        omega
  · right
    exact ⟨(none, s), if_neg hstatus, rfl, hall⟩

end

section
variable (services : AcpiServices) (hsum : CheckSumRight services.calculateCheckSum8)
  (hinstall : ∀ past call, services.installAcpiTable past call = .success)
include hsum hinstall

/-- **a file**: all its sections are installed, in order, and nothing else -/
theorem installFile_total (file : AcpiStorageFile) (sections : List (List UInt8))
    (hstored : services.Stored file sections) (htables : ∀ sec ∈ sections, IsTable sec)
    (s : AcpiState) (fuel : ℕ) (hfuel : sections.length + 1 < fuel) :
    ∃ r, services.installFile fuel file s = some r ∧ r.1 = none ∧
      ∃ calls, r.2.installed = s.installed ++ calls ∧ List.Forall₂ InstalledFrom sections calls := by
  obtain ⟨before, fwVol, behind, hhandles, hbefore, hfile, hholds⟩ := hstored
  have hlocated : services.locateFor file s.fwVol = (.success, some fwVol) := by
    rw [AcpiServices.locateFor_eq, AcpiServices.locateFvInstance, hhandles]
    exact locateLoop_stored file s.fwVol before behind fwVol .success hbefore hfile
  rw [AcpiServices.installFile]
  dsimp only
  rw [hlocated]
  dsimp only
  rw [if_neg (by decide)]
  refine runLoop_total _ (LoopInv fwVol sections s.installed) (turnsLeft sections) _
    (installTurn_inv services hsum hinstall file fwVol sections hholds htables s.installed) fuel _
    ?_ hfuel
  exact Or.inl ⟨rfl, rfl, rfl, Nat.zero_le _, [], (List.append_nil _).symm, List.Forall₂.nil⟩

/-- **the files**, one after the other -/
theorem installFiles_total (sections : AcpiStorageFile → List (List UInt8))
    (hstored : ∀ file, services.Stored file (sections file))
    (htables : ∀ file, ∀ sec ∈ sections file, IsTable sec) (fuel : ℕ)
    (hfuel : ∀ file, (sections file).length + 1 < fuel) (files : List AcpiStorageFile)
    (s : AcpiState) :
    ∃ calls, services.installFiles fuel files s =
        some (.requestUnloadImage, s.installed ++ calls) ∧
      List.Forall₂ InstalledFrom (files.flatMap sections) calls := by
  induction files generalizing s with
  | nil =>
    refine ⟨[], ?_, List.Forall₂.nil⟩
    rw [AcpiServices.installFiles, List.append_nil]
  | cons file files ih =>
    obtain ⟨r, hr, hleaves, calls, hcalls, hright⟩ := installFile_total services hsum hinstall file
      (sections file) (hstored file) (htables file) s fuel (hfuel file)
    obtain ⟨rest, hrest, hrestRight⟩ := ih r.2
    refine ⟨calls ++ rest, ?_, ?_⟩
    · rw [AcpiServices.installFiles, hr, Option.bind_some, hleaves]
      dsimp only
      rw [hrest, hcalls, List.append_assoc]
    · rw [List.flatMap_cons]
      exact List.rel_append hright hrestRight

end

/-- **the ACPI tables are installed**: one for each section of the four files, in order, with its
`Length` bytes and a right checksum -/
theorem acpiTables_installed (services : AcpiServices)
    (sections : AcpiStorageFile → List (List UInt8))
    (hprotocol : services.locateProtocol = .success)
    (hstored : ∀ file, services.Stored file (sections file))
    (htables : ∀ file, ∀ sec ∈ sections file, IsTable sec)
    (hinstall : ∀ past call, services.installAcpiTable past call = .success)
    (hsum : CheckSumRight services.calculateCheckSum8) (fuel : ℕ)
    (hfuel : ∀ file, (sections file).length + 1 < fuel) :
    ∃ calls, services.acpiPlatformEntryPoint fuel = some (.requestUnloadImage, calls) ∧
      List.Forall₂ InstalledFrom
        (sections .device ++ sections .soc ++ sections .generic ++ sections .deviceFamily) calls := by
  obtain ⟨r, hr, hleaves, calls, hcalls, hright⟩ := installFile_total services hsum hinstall .device
    (sections .device) (hstored .device) (htables .device) ⟨.success, 0, none, 0, none, []⟩ fuel
    (hfuel .device)
  obtain ⟨rest, hrest, hrestRight⟩ := installFiles_total services hsum hinstall sections hstored
    htables fuel hfuel [.soc, .generic, .deviceFamily] { r.2 with fwVol := none }
  refine ⟨calls ++ rest, ?_, ?_⟩
  · rw [AcpiServices.acpiPlatformEntryPoint, hprotocol, if_neg (by decide), hr, Option.bind_some,
      hleaves]
    dsimp only
    rw [hrest, hcalls]
    rfl
  · rw [List.append_assoc, List.append_assoc]
    rw [List.flatMap_cons, List.flatMap_cons, List.flatMap_cons, List.flatMap_nil,
      List.append_nil] at hrestRight
    exact List.rel_append hright hrestRight

/-- a section of `size` bytes that holds a table of `length` bytes -/
def exampleAcpiTable (length : UInt8) (size : ℕ) : List UInt8 :=
  [0x54, 0x45, 0x53, 0x54, length, 0, 0, 0] ++ List.replicate (size - 8) 0x41

def exampleSections : AcpiStorageFile → List (List UInt8)
  | .device => [exampleAcpiTable 36 36]
  | .soc => []
  | .generic => [exampleAcpiTable 40 44, exampleAcpiTable 36 36]
  | .deviceFamily => [exampleAcpiTable 48 48]

def exampleVolume : FirmwareVolume where
  readFile _ := .success
  readSection file i buffer size :=
    match (exampleSections file)[i]? with
    | some sec => ⟨.success, some sec, sec.length⟩
    | none => ⟨.notFound, buffer, size⟩

/-- a volume without the files, and one with them -/
def exampleAcpi : AcpiServices where
  locateProtocol := .success
  locateHandleBuffer := .ok [⟨fun _ => .notFound, fun _ _ buffer size => ⟨.notFound, buffer, size⟩⟩,
    exampleVolume]
  installAcpiTable _ _ := .success
  calculateCheckSum8 buffer size := UInt8.ofNat (256 - byteSum (buffer.take size) % 256)
  debugAssertEnabled := true

theorem exampleAcpi_installed :
    ∃ calls, exampleAcpi.acpiPlatformEntryPoint 4 = some (.requestUnloadImage, calls) ∧
      List.Forall₂ InstalledFrom (exampleSections .device ++ exampleSections .soc ++
        exampleSections .generic ++ exampleSections .deviceFamily) calls := by
  refine acpiTables_installed exampleAcpi exampleSections rfl ?_ ?_ (fun _ _ => rfl) ?_ 4 ?_
  · intro file
    refine ⟨[_], exampleVolume, [], rfl, ?_, rfl, ?_⟩
    · intro other hother
      rw [List.mem_singleton.mp hother]
      exact (by decide : StatusCode.notFound ≠ StatusCode.success)
    · intro i size
      rw [exampleVolume]
      dsimp only
      cases (exampleSections file)[i]? with
      | some sec => rfl
      | none => exact (by decide : StatusCode.notFound.isError = true)
  · intro file sec hsec
    cases file with
    | device =>
      rw [exampleSections, List.mem_singleton] at hsec
      rw [hsec]
      exact ⟨36, by decide +kernel, by decide, by decide⟩
    | soc => cases hsec
    | generic =>
      simp only [exampleSections, List.mem_cons, List.not_mem_nil, or_false] at hsec
      obtain rfl | rfl := hsec
      · exact ⟨40, by decide +kernel, by decide, by decide⟩
      · exact ⟨36, by decide +kernel, by decide, by decide⟩
    | deviceFamily =>
      rw [exampleSections, List.mem_singleton] at hsec
      rw [hsec]
      exact ⟨48, by decide +kernel, by decide, by decide⟩
  · intro buffer size _
    show (byteSum (buffer.take size) +
      (UInt8.ofNat (256 - byteSum (buffer.take size) % 256)).toNat) % 256 = 0
    rw [UInt8.toNat_ofNat']
    omega
  · intro file
    cases file <;> decide

end AppleSilicon

import AppleSilicon.Drivers.AcpiPlatform
import AppleSilicon.Lib.Logged

/-!
# The calls of the ACPI installation

`AcpiPlatformEntryPoint` with a log of its calls of `ReadSection` and `InstallAcpiTable`.  Where
every read is to a fresh buffer, the four loops are a recursion over the sections of the files.

* `acpiPlatformEntryPointLog_result`  without the log this is the entry point;
* `runLoopLog_takeSections`           the loop of a file is the recursion over its sections;
* `entryPoint_takeFiles`              the entry point is the recursion over the four files.
-/

namespace AppleSilicon

open Logged

inductive AcpiEvent where
  /-- a call of `ReadSection`, and its status -/
  | read (file : AcpiStorageFile) (instanceNumber : ℕ) (status : StatusCode)
  /-- a call of `InstallAcpiTable` with the table of that section, and its status -/
  | install (file : AcpiStorageFile) (instanceNumber : ℕ) (call : InstallCall) (status : StatusCode)
deriving DecidableEq

def AcpiEvent.file : AcpiEvent → AcpiStorageFile
  | .read file _ _ => file
  | .install file _ _ _ => file

/-! ## the entry point with a log -/

namespace AcpiServices

variable (services : AcpiServices)

/-- `installTable`, with its log -/
def installTableLog (file : AcpiStorageFile) (s : AcpiState) (table : List UInt8) :
    Logged AcpiEvent (Turn AcpiState (Option StatusCode × AcpiState)) :=
  (ofOption (tableLength table)).bind fun tableSize =>
    if services.debugAssertEnabled = true ∧ s.size < tableSize then stop
    else
      (ofOption (services.acpiPlatformChecksum table tableSize)).bind fun table =>
        let call := ⟨table, tableSize⟩
        let s := { s with
          status := services.installAcpiTable s.installed call
          installed := s.installed ++ [call] }
        (note (.install file s.instanceNumber call s.status)).bind fun _ =>
          if s.status.isError then Logged.pure (.leave (some .aborted, s))
          else Logged.pure
            (.again { s with instanceNumber := s.instanceNumber + 1, currentTable := none })

/-- `installTurn`, with its log -/
def installTurnLog (file : AcpiStorageFile) (s : AcpiState) :
    Logged AcpiEvent (Turn AcpiState (Option StatusCode × AcpiState)) :=
  if s.status = .success then
    (ofOption s.fwVol).bind fun fwVol =>
      let read := fwVol.readSection file s.instanceNumber s.currentTable s.size
      (note (.read file s.instanceNumber read.status)).bind fun _ =>
        let s := { s with status := read.status, currentTable := read.buffer, size := read.size }
        if read.status.isError then Logged.pure (.again s)
        else (ofOption read.buffer).bind fun table => services.installTableLog file s table
  else Logged.pure (.leave (none, s))

/-- `installFile`, with its log -/
def installFileLog (fuel : ℕ) (file : AcpiStorageFile) (s : AcpiState) :
    Logged AcpiEvent (Option StatusCode × AcpiState) :=
  let s := { s with instanceNumber := 0, currentTable := none }
  let located := services.locateFor file s.fwVol
  if located.1.isError then
    if services.debugAssertEnabled then stop else Logged.pure (some .aborted, s)
  else
    runLoopLog (services.installTurnLog file) fuel
      { s with status := located.1, fwVol := located.2 }

/-- `installFiles`, with its log -/
def installFilesLog (fuel : ℕ) : List AcpiStorageFile → AcpiState →
    Logged AcpiEvent (StatusCode × List InstallCall)
  | [], s => Logged.pure (.requestUnloadImage, s.installed)
  | file :: files, s =>
    (services.installFileLog fuel file s).bind fun r =>
      match r.1 with
      | some status => Logged.pure (status, r.2.installed)
      | none => installFilesLog fuel files r.2

/-- `AcpiPlatformEntryPoint`, with its log -/
def acpiPlatformEntryPointLog (fuel : ℕ) : Logged AcpiEvent (StatusCode × List InstallCall) :=
  if services.locateProtocol.isError then
    if services.debugAssertEnabled then stop else Logged.pure (.aborted, [])
  else
    (services.installFileLog fuel .device ⟨services.locateProtocol, 0, none, 0, none, []⟩).bind
      fun r =>
        match r.1 with
        | some status => Logged.pure (status, r.2.installed)
        | none =>
          services.installFilesLog fuel [.soc, .generic, .deviceFamily] { r.2 with fwVol := none }

theorem installTableLog_result (file : AcpiStorageFile) (s : AcpiState) (table : List UInt8) :
    (services.installTableLog file s table).result = services.installTable s table := by
  rw [installTableLog, installTable, bind_result]
  show (tableLength table).bind _ = _
  congr 1
  funext tableSize
  by_cases hassert : services.debugAssertEnabled = true ∧ s.size < tableSize
  · rw [if_pos hassert, if_pos hassert]
    rfl
  · rw [if_neg hassert, if_neg hassert, bind_result]
    show (services.acpiPlatformChecksum table tableSize).bind _ = _
    cases services.acpiPlatformChecksum table tableSize with
    | none => rfl
    | some table =>
      rw [Option.bind_some, Option.map_some, bind_result]
      show (ite _ _ _ : Logged AcpiEvent _).result = _
      dsimp only
      by_cases herror : (services.installAcpiTable s.installed ⟨table, tableSize⟩).isError
      · rw [if_pos herror, if_pos herror]
        rfl
      · rw [if_neg herror, if_neg herror]
        rfl

theorem installTurnLog_result (file : AcpiStorageFile) (s : AcpiState) :
    (services.installTurnLog file s).result = services.installTurn file s := by
  rw [installTurnLog, installTurn]
  by_cases hstatus : s.status = .success
  · rw [if_pos hstatus, if_pos hstatus, bind_result]
    show s.fwVol.bind _ = _
    congr 1
    funext fwVol
    rw [bind_result]
    show (ite _ _ _ : Logged AcpiEvent _).result = _
    by_cases hread : (fwVol.readSection file s.instanceNumber s.currentTable s.size).status.isError
    · rw [if_pos hread, if_pos hread]
      rfl
    · rw [if_neg hread, if_neg hread, bind_result]
      show Option.bind _ _ = _
      congr 1
      funext table
      exact installTableLog_result services file _ table
  · rw [if_neg hstatus, if_neg hstatus]
    rfl

theorem installFileLog_result (fuel : ℕ) (file : AcpiStorageFile) (s : AcpiState) :
    (services.installFileLog fuel file s).result = services.installFile fuel file s := by
  rw [installFileLog, installFile]
  dsimp only
  by_cases hlocated : (services.locateFor file s.fwVol).1.isError
  · rw [if_pos hlocated, if_pos hlocated]
    by_cases hassert : services.debugAssertEnabled
    · rw [if_pos hassert, if_pos hassert]
      rfl
    · rw [if_neg hassert, if_neg hassert]
      rfl
  · rw [if_neg hlocated, if_neg hlocated, runLoopLog_result]
    congr 1
    funext s
    exact installTurnLog_result services file s

theorem installFilesLog_result (fuel : ℕ) (files : List AcpiStorageFile) (s : AcpiState) :
    (services.installFilesLog fuel files s).result = services.installFiles fuel files s := by
  induction files generalizing s with
  | nil => rfl
  | cons file files ih =>
    rw [installFilesLog, installFiles, bind_result, installFileLog_result]
    congr 1
    funext r
    cases r.1 with
    | none => exact ih r.2
    | some status => rfl

/-- **without its log this is the entry point** -/
theorem acpiPlatformEntryPointLog_result (fuel : ℕ) :
    (services.acpiPlatformEntryPointLog fuel).result = services.acpiPlatformEntryPoint fuel := by
  rw [acpiPlatformEntryPointLog, acpiPlatformEntryPoint]
  by_cases hprotocol : services.locateProtocol.isError
  · rw [if_pos hprotocol, if_pos hprotocol]
    by_cases hassert : services.debugAssertEnabled
    · rw [if_pos hassert, if_pos hassert]
      rfl
    · rw [if_neg hassert, if_neg hassert]
      rfl
  · rw [if_neg hprotocol, if_neg hprotocol, bind_result, installFileLog_result]
    congr 1
    funext r
    cases r.1 with
    | none => exact installFilesLog_result services fuel _ _
    | some status => rfl

/-! ## a recursion over the sections -/

/-- what `InstallAcpiTable` is called with for a section; `none` where the entry point does not get
to the call -/
def callOf (sec : List UInt8) : Option InstallCall :=
  (tableLength sec).bind fun tableSize =>
    if services.debugAssertEnabled = true ∧ sec.length < tableSize then none
    else (services.acpiPlatformChecksum sec tableSize).map fun table => ⟨table, tableSize⟩

/-- the sections of a file from number `i` on; `reads` are the statuses of `ReadSection` -/
def takeSections (file : AcpiStorageFile) (reads : ℕ → StatusCode) :
    List (List UInt8) → ℕ → List InstallCall →
      Logged AcpiEvent (Option StatusCode × List InstallCall)
  | [], i, past => (note (.read file i (reads i))).bind fun _ => Logged.pure (none, past)
  | sec :: secs, i, past =>
    (note (.read file i (reads i))).bind fun _ =>
      if (reads i).isError then Logged.pure (none, past)
      else (ofOption (services.callOf sec)).bind fun call =>
        let status := services.installAcpiTable past call
        (note (.install file i call status)).bind fun _ =>
          if status.isError then Logged.pure (some .aborted, past ++ [call])
          else if status = .success then takeSections file reads secs (i + 1) (past ++ [call])
          else Logged.pure (none, past ++ [call])

/-- the files, one after the other -/
def takeFiles (sections : AcpiStorageFile → List (List UInt8))
    (reads : AcpiStorageFile → ℕ → StatusCode) : List AcpiStorageFile → List InstallCall →
      Logged AcpiEvent (StatusCode × List InstallCall)
  | [], past => Logged.pure (.requestUnloadImage, past)
  | file :: files, past =>
    (services.takeSections file (reads file) (sections file) 0 past).bind fun r =>
      match r.1 with
      | some status => Logged.pure (status, r.2)
      | none => takeFiles sections reads files r.2

end AcpiServices

/-- `ReadSection` answers a read to a fresh buffer with these statuses, and where that is no error
with a copy of the section -/
def FirmwareVolume.Answers (fwVol : FirmwareVolume) (file : AcpiStorageFile)
    (sections : List (List UInt8)) (reads : ℕ → StatusCode) : Prop :=
  ∀ i size, (fwVol.readSection file i none size).status = reads i ∧
    ((reads i).isError = false → ∃ sec, sections[i]? = some sec ∧
      (fwVol.readSection file i none size).buffer = some sec ∧
      (fwVol.readSection file i none size).size = sec.length)

/-- the first volume that has the file answers so -/
def AcpiServices.Answered (services : AcpiServices) (file : AcpiStorageFile)
    (sections : List (List UInt8)) (reads : ℕ → StatusCode) : Prop :=
  ∃ before fwVol behind, services.locateHandleBuffer = .ok (before ++ fwVol :: behind) ∧
    (∀ other ∈ before, other.readFile file ≠ .success) ∧ fwVol.readFile file = .success ∧
    fwVol.Answers file sections reads

section
variable (services : AcpiServices)

/-- what is left of the variables of the entry point between two files -/
def installedBy (r : Option StatusCode × AcpiState) :
    Logged AcpiEvent (Option StatusCode × List InstallCall) := Logged.pure (r.1, r.2.installed)

/-- a turn behind a status that is not `EFI_SUCCESS` leaves -/
theorem runLoopLog_leave (file : AcpiStorageFile) (n : ℕ) (s : AcpiState) (hn : 0 < n)
    (hstatus : s.status ≠ .success) :
    (runLoopLog (services.installTurnLog file) n s).bind installedBy =
      Logged.pure (none, s.installed) := by
  obtain ⟨n, rfl⟩ := Nat.exists_eq_succ_of_ne_zero hn.ne'
  rw [runLoopLog, AcpiServices.installTurnLog, if_neg hstatus]
  rfl

theorem isError_ne_success (status : StatusCode) (h : status.isError = true) :
    status ≠ .success := by
  intro he
  rw [he] at h
  cases h

/-- a table is installed from the section alone -/
theorem installTableLog_callOf (file : AcpiStorageFile) (s : AcpiState) (sec : List UInt8)
    (hsize : s.size = sec.length) :
    services.installTableLog file s sec =
      (ofOption (services.callOf sec)).bind fun call =>
        let s := { s with
          status := services.installAcpiTable s.installed call
          installed := s.installed ++ [call] }
        (note (.install file s.instanceNumber call s.status)).bind fun _ =>
          if s.status.isError then Logged.pure (.leave (some .aborted, s))
          else Logged.pure
            (.again { s with instanceNumber := s.instanceNumber + 1, currentTable := none }) := by
  rw [AcpiServices.installTableLog, AcpiServices.callOf, hsize]
  cases tableLength sec with
  | none => rfl
  | some tableSize =>
    rw [ofOption_bind _ _ tableSize rfl, Option.bind_some]
    by_cases hassert : services.debugAssertEnabled = true ∧ sec.length < tableSize
    · rw [if_pos hassert, if_pos hassert]
      rfl
    · rw [if_neg hassert, if_neg hassert]
      cases services.acpiPlatformChecksum sec tableSize with
      | none => rfl
      | some table => rfl

variable (file : AcpiStorageFile) (fwVol : FirmwareVolume) (sections : List (List UInt8))
  (reads : ℕ → StatusCode) (hanswers : fwVol.Answers file sections reads)
include hanswers

/-- a read that fails is noted, and nothing else is done -/
theorem runLoopLog_failed (n : ℕ) (s : AcpiState) (hstatus : s.status = .success)
    (hfwVol : s.fwVol = some fwVol) (hcurrent : s.currentTable = none) (hn : 1 < n)
    (hread : (reads s.instanceNumber).isError = true) :
    (runLoopLog (services.installTurnLog file) n s).bind installedBy =
      (note (.read file s.instanceNumber (reads s.instanceNumber))).bind fun _ =>
        Logged.pure (none, s.installed) := by
  obtain ⟨n, rfl⟩ := Nat.exists_eq_succ_of_ne_zero (by omega : n ≠ 0)
  rw [runLoopLog, AcpiServices.installTurnLog, if_pos hstatus, ofOption_bind _ _ fwVol hfwVol,
    hcurrent]
  dsimp only
  rw [(hanswers s.instanceNumber s.size).1, if_pos hread, bind_assoc, bind_assoc]
  congr 1
  funext _
  rw [pure_bind]
  exact runLoopLog_leave services file n _ (by omega) (isError_ne_success _ hread)

/-- **the loop of a file** is the recursion over its sections -/
theorem runLoopLog_takeSections (secs : List (List UInt8)) (n : ℕ)
    (s : AcpiState) (hstatus : s.status = .success) (hfwVol : s.fwVol = some fwVol)
    (hcurrent : s.currentTable = none) (hsecs : sections.drop s.instanceNumber = secs)
    (hn : secs.length + 1 < n) :
    (runLoopLog (services.installTurnLog file) n s).bind installedBy =
      services.takeSections file reads secs s.instanceNumber s.installed := by
  induction secs generalizing n s with
  | nil =>
    have hread : (reads s.instanceNumber).isError = true := by
      by_contra hread
      obtain ⟨sec, hsec, _⟩ := (hanswers s.instanceNumber 0).2 (Bool.eq_false_iff.mpr hread)
      have hlt := (List.getElem?_eq_some_iff.mp hsec).1
      exact absurd (List.drop_eq_nil_iff.mp hsecs) (by omega)
    exact runLoopLog_failed services file fwVol sections reads hanswers n s hstatus hfwVol hcurrent
      (by omega) hread
  | cons sec secs ih =>
    rw [AcpiServices.takeSections]
    by_cases hread : (reads s.instanceNumber).isError = true
    · rw [if_pos hread]
      exact runLoopLog_failed services file fwVol sections reads hanswers n s hstatus hfwVol
        hcurrent (by omega) hread
    · rw [if_neg hread]
      obtain ⟨hanswer, hfound⟩ := hanswers s.instanceNumber s.size
      obtain ⟨found, hget, hbuffer, hsize⟩ := hfound (Bool.eq_false_iff.mpr hread)
      have hfound : sections[s.instanceNumber]? = some sec := by
        rw [← List.head?_drop, hsecs, List.head?_cons]
      obtain rfl := Option.some.inj (hget.symm.trans hfound)
      obtain ⟨n, rfl⟩ := Nat.exists_eq_succ_of_ne_zero (by omega : n ≠ 0)
      rw [runLoopLog, AcpiServices.installTurnLog, if_pos hstatus, ofOption_bind _ _ fwVol hfwVol,
        hcurrent]
      dsimp only
      rw [hanswer, if_neg hread, bind_assoc, bind_assoc]
      congr 1
      funext _
      rw [ofOption_bind _ _ found hbuffer, installTableLog_callOf services file _ found hsize,
        bind_assoc]
      congr 1
      funext call
      dsimp only
      rw [bind_assoc]
      congr 1
      funext _
      by_cases herror : (services.installAcpiTable s.installed call).isError = true
      · rw [if_pos herror, if_pos herror]
        rfl
      · rw [if_neg herror, if_neg herror, pure_bind]
        dsimp only
        by_cases hsuccess : services.installAcpiTable s.installed call = .success
        · rw [if_pos hsuccess]
          refine ih n _ hsuccess hfwVol rfl ?_ (by rw [List.length_cons] at hn; omega)
          dsimp only
          rw [← List.tail_drop, hsecs, List.tail_cons]
        · rw [if_neg hsuccess]
          exact runLoopLog_leave services file n _ (by omega) hsuccess

end

/-- what is left of the entry point when the first of the files were read -/
def filesLeft (rest : List InstallCall → Logged AcpiEvent (StatusCode × List InstallCall))
    (r : Option StatusCode × List InstallCall) : Logged AcpiEvent (StatusCode × List InstallCall) :=
  match r.1 with
  | some status => Logged.pure (status, r.2)
  | none => rest r.2

section
variable (services : AcpiServices) (sections : AcpiStorageFile → List (List UInt8))
  (reads : AcpiStorageFile → ℕ → StatusCode)
  (hanswered : ∀ file, services.Answered file (sections file) (reads file)) (fuel : ℕ)
  (hfuel : ∀ file, (sections file).length + 1 < fuel)
include hanswered hfuel

theorem installFileLog_takeSections (file : AcpiStorageFile) (s : AcpiState) :
    (services.installFileLog fuel file s).bind installedBy =
      services.takeSections file (reads file) (sections file) 0 s.installed := by
  obtain ⟨before, fwVol, behind, hhandles, hbefore, hfile, hanswers⟩ := hanswered file
  have hlocated : services.locateFor file s.fwVol = (.success, some fwVol) := by
    rw [AcpiServices.locateFor_eq, AcpiServices.locateFvInstance, hhandles]
    exact locateLoop_stored file s.fwVol before behind fwVol .success hbefore hfile
  rw [AcpiServices.installFileLog]
  dsimp only
  rw [hlocated]
  dsimp only
  rw [if_neg (by decide)]
  exact runLoopLog_takeSections services file fwVol (sections file) (reads file) hanswers _ fuel _
    rfl rfl rfl List.drop_zero (hfuel file)

/-- a file and what comes behind it, where that depends on the tables installed alone -/
theorem installFileLog_bind (file : AcpiStorageFile) (s : AcpiState)
    (next : Option StatusCode × AcpiState → Logged AcpiEvent (StatusCode × List InstallCall))
    (rest : List InstallCall → Logged AcpiEvent (StatusCode × List InstallCall))
    (hnext : ∀ r, next r = filesLeft rest (r.1, r.2.installed)) :
    (services.installFileLog fuel file s).bind next =
      (services.takeSections file (reads file) (sections file) 0 s.installed).bind
        (filesLeft rest) := by
  rw [← installFileLog_takeSections services sections reads hanswered fuel hfuel file s, bind_assoc]
  congr 1
  funext r
  exact hnext r

theorem installFilesLog_takeFiles (files : List AcpiStorageFile) (s : AcpiState) :
    services.installFilesLog fuel files s =
      services.takeFiles sections reads files s.installed := by
  induction files generalizing s with
  | nil => rfl
  | cons file files ih =>
    refine installFileLog_bind services sections reads hanswered fuel hfuel file s _
      (services.takeFiles sections reads files) ?_
    intro r
    rw [filesLeft]
    cases r.1 with
    | none => exact ih r.2
    | some status => rfl

/-- **the entry point** is the recursion over the sections of the four files -/
theorem entryPoint_takeFiles (hprotocol : services.locateProtocol.isError = false) :
    services.acpiPlatformEntryPointLog fuel =
      services.takeFiles sections reads [.device, .soc, .generic, .deviceFamily] [] := by
  rw [AcpiServices.acpiPlatformEntryPointLog, if_neg (Bool.eq_false_iff.mp hprotocol)]
  refine installFileLog_bind services sections reads hanswered fuel hfuel .device _ _
    (services.takeFiles sections reads [.soc, .generic, .deviceFamily]) ?_
  intro r
  rw [filesLeft]
  cases r.1 with
  | none => exact installFilesLog_takeFiles services sections reads hanswered fuel hfuel _ _
  | some status => rfl

end

end AppleSilicon

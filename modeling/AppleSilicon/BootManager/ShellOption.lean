import AppleSilicon.BootManager.LoadOption
import AppleSilicon.Lib.LogRun

/-!
# The boot option of the shell

On every boot `MsBootOptionsLibRegisterDefaultBootOptions` makes sure that there is a load option for
the shell in the firmware volume: one that is there already is used again, whether it is active or
not, and without a shell the options with its name are deleted.  Between the boots the user edits the
options.

The options are kept by the library of the boot manager (`BootManagerLib`); to add one and to delete
one may fail.

`none` is an `ASSERT` that stops the machine, or a read behind the end of the buffer of handles: with
no firmware volume the search takes the first handle all the same.

* `findShellFv_eq`            the volume whose shell is taken;
* `findEither_isSome_iff`     when an option is used again;
* `deleteShellOptions_spec`   what the deletion leaves;
* `registerShell_found`, `registerShell_missing`   one boot;
* `shellOption_run`           any number of boots and edits.
-/

namespace AppleSilicon

/-! ## the options of the boot manager -/

/-- `LoadOptionNumberUnassigned` -/
def loadOptionNumberUnassigned : ℕ := 0x10000

def loadOptionActive : UInt32 := 1

/-- the boot options in a state `S` of the variables -/
structure BootManagerLib (S : Type*) where
  efiBootManagerGetLoadOptions : S → List LoadOption
  /-- `none` is -1 -/
  efiBootManagerFindLoadOption : LoadOption → List LoadOption → Option ℕ
  efiBootManagerAddLoadOptionVariable : S → LoadOption → UInt64 → StatusCode × S
  efiBootManagerDeleteLoadOptionVariable : S → ℕ → StatusCode × S

/-- everything but the number is the same -/
def LoadOption.same (key o : LoadOption) : Bool :=
  key.attributes = o.attributes ∧ key.description = o.description ∧ key.filePath = o.filePath ∧
    key.optionalData = o.optionalData

/-- what the library promises: a number names one option, and a call that fails changes nothing -/
structure BootManagerLib.Documented {S : Type*} (lib : BootManagerLib S) : Prop where
  /-- the number of options is a `UINTN` -/
  counted : ∀ s, (lib.efiBootManagerGetLoadOptions s).length < 2^64
  numbered : ∀ s, ∀ o ∈ lib.efiBootManagerGetLoadOptions s,
    ∀ o' ∈ lib.efiBootManagerGetLoadOptions s, o.optionNumber = o'.optionNumber → o = o'
  find_some : ∀ key options i, lib.efiBootManagerFindLoadOption key options = some i →
    ∃ o ∈ options, key.same o = true
  find_none : ∀ key options, lib.efiBootManagerFindLoadOption key options = none →
    ∀ o ∈ options, key.same o = false
  /-- the option gets a number and its place in the order -/
  added : ∀ s o position, (lib.efiBootManagerAddLoadOptionVariable s o position).1.isError = false →
    ∃ number, lib.efiBootManagerGetLoadOptions
        (lib.efiBootManagerAddLoadOptionVariable s o position).2
      = (lib.efiBootManagerGetLoadOptions s).insertIdx
          (min position.toNat (lib.efiBootManagerGetLoadOptions s).length)
          { o with optionNumber := number }
  notAdded : ∀ s o position, (lib.efiBootManagerAddLoadOptionVariable s o position).1.isError = true →
    lib.efiBootManagerGetLoadOptions (lib.efiBootManagerAddLoadOptionVariable s o position).2
      = lib.efiBootManagerGetLoadOptions s
  deleted : ∀ s n, (lib.efiBootManagerDeleteLoadOptionVariable s n).1.isError = false →
    lib.efiBootManagerGetLoadOptions (lib.efiBootManagerDeleteLoadOptionVariable s n).2
      = (lib.efiBootManagerGetLoadOptions s).filter fun o => o.optionNumber ≠ n
  notDeleted : ∀ s n, (lib.efiBootManagerDeleteLoadOptionVariable s n).1.isError = true →
    lib.efiBootManagerGetLoadOptions (lib.efiBootManagerDeleteLoadOptionVariable s n).2
      = lib.efiBootManagerGetLoadOptions s

/-! ## `CreateFvBootOption` -/

/-- a GUID, as its bytes -/
abbrev Guid := { bytes : List UInt8 // bytes.length = 16 }

theorem Guid.fits (file : Guid) : file.val.length + 4 < 2^16 := by
  rw [file.property]
  decide

theorem fwFile_notEnd :
    ¬ (mediaDevicePath = endDevicePathType ∧ mediaPiwgFwFileDp = endEntireDevicePathSubtype) := by
  decide

/-- `EfiInitializeFwVolDevicepathNode` -/
def fwFileNode (file : Guid) : DevicePathNode where
  type := mediaDevicePath
  subType := mediaPiwgFwFileDp
  data := file.val
  fits := file.fits
  notEnd := fwFile_notEnd

/-- a handle with a firmware volume: its path, and the status of reading the shell from it -/
structure FvHandle where
  devicePath : List DevicePathNode
  readShell : StatusCode
  wellFormed : ∀ n ∈ devicePath, n.IsFwFile → 16 ≤ n.data.length

/-- the loop of `CreateShellDevicePath` with the status so far, and what follows it -/
def findShellFv : List FvHandle → StatusCode → Option (Option FvHandle)
  | [], status => if status.isError then some none else none
  | fv :: fvs, _ => if fv.readShell.isError then findShellFv fvs fv.readShell else some (some fv)

/-- `CreateShellDevicePath` -/
def createShellDevicePath (fvs : List FvHandle) : Option (Option (List DevicePathNode)) :=
  (findShellFv fvs .success).map fun fv => fv.map FvHandle.devicePath

/-- what `CreateFvBootOption` finds: the firmware volumes; for the volume that the boot manager was
loaded from its path, and the status of finding it and of reading a file from it; and the status of
`EfiBootManagerInitializeLoadOption` -/
structure BootEnv where
  fvs : List FvHandle
  ownPath : List DevicePathNode
  readOwn : Guid → StatusCode
  initLoadOption : StatusCode

/-- a call that changes the options, and its status -/
inductive OptionCall where
  | added (status : StatusCode)
  | deleted (number : ℕ) (status : StatusCode)
deriving DecidableEq, Repr

/-- it succeeded -/
def OptionCall.ok : OptionCall → Bool
  | added status => !status.isError
  | deleted _ status => !status.isError

section
variable {S : Type*} (lib : BootManagerLib S) (debugAssertEnabled : Bool) (shellFile : Guid)
variable (env : BootEnv)

/-- `CreateFvBootOption`; `none` inside is an error -/
def createFvBootOption (fileGuid : Guid) (description : List UInt16) (attributes : UInt32)
    (optionalData : List UInt8) : Option (Option LoadOption) :=
  let newOption (devicePath : List DevicePathNode) : Option LoadOption :=
    if env.initLoadOption.isError then none
    else some
      { optionNumber := loadOptionNumberUnassigned
        attributes := attributes
        description := description
        filePath := devicePath ++ [fwFileNode fileGuid]
        optionalData := optionalData }
  if fileGuid ≠ shellFile then
    if (env.readOwn fileGuid).isError then some none else some (newOption env.ownPath)
  else (createShellDevicePath env.fvs).map fun devicePath => devicePath.bind newOption

/-! ## `RegisterFvBootOption` -/

/-- `INTERNAL_UEFI_SHELL_NAME` -/
def internalUefiShellName : List UInt16 :=
  [0x49, 0x6e, 0x74, 0x65, 0x72, 0x6e, 0x61, 0x6c, 0x20, 0x55, 0x45, 0x46, 0x49, 0x20, 0x53, 0x68,
   0x65, 0x6c, 0x6c, 0x20, 0x32, 0x2e, 0x30]

/-- the option is searched for as it is, and then with `LOAD_OPTION_ACTIVE` the other way -/
def findEither (newOption : LoadOption) (options : List LoadOption) : Option ℕ :=
  match lib.efiBootManagerFindLoadOption newOption options with
  | some i => some i
  | none => lib.efiBootManagerFindLoadOption
      { newOption with attributes := newOption.attributes ^^^ loadOptionActive } options

/-- the options with the name of the shell are deleted, one number after the other -/
def deleteShellOptions : List LoadOption → S → S × List OptionCall
  | [], s => (s, [])
  | o :: rest, s =>
    if o.description = internalUefiShellName then
      let r := lib.efiBootManagerDeleteLoadOptionVariable s o.optionNumber
      let r' := deleteShellOptions rest r.2
      (r'.1, .deleted o.optionNumber r.1 :: r'.2)
    else deleteShellOptions rest s

/-- `RegisterFvBootOption`, without the number it returns -/
def registerFvBootOption (fileGuid : Guid) (description : List UInt16) (position : UInt64)
    (attributes : UInt32) (optionalData : List UInt8) (s : S) : Option (S × List OptionCall) :=
  (createFvBootOption shellFile env fileGuid description attributes optionalData).bind fun created =>
    match created with
    | some newOption =>
      match findEither lib newOption (lib.efiBootManagerGetLoadOptions s) with
      | none =>
        let r := lib.efiBootManagerAddLoadOptionVariable s newOption position
        if r.1.isError ∧ debugAssertEnabled then none else some (r.2, [.added r.1])
      | some _ => some (s, [])
    | none =>
      if description = internalUefiShellName then
        some (deleteShellOptions lib (lib.efiBootManagerGetLoadOptions s) s)
      else some (s, [])

/-- `MsBootOptionsLibRegisterDefaultBootOptions` -/
def registerDefaultBootOptions (s : S) : Option (S × List OptionCall) :=
  registerFvBootOption lib debugAssertEnabled shellFile env shellFile internalUefiShellName
    0xffffffffffffffff loadOptionActive [] s

end

/-! ## one boot -/

/-- an option for the shell at this path, active or not -/
def LoadOption.IsShellAt (shellFile : Guid) (path : List DevicePathNode) (o : LoadOption) : Prop :=
  (o.attributes = loadOptionActive ∨ o.attributes = 0) ∧ o.description = internalUefiShellName ∧
    o.filePath = path ++ [fwFileNode shellFile] ∧ o.optionalData = []

instance (shellFile : Guid) (path : List DevicePathNode) (o : LoadOption) :
    Decidable (o.IsShellAt shellFile path) := inferInstanceAs (Decidable (_ ∧ _))

/-- how many options there are for the shell at this path -/
def shellCount (shellFile : Guid) (path : List DevicePathNode) (options : List LoadOption) : ℕ :=
  options.countP fun o => o.IsShellAt shellFile path

/-- **the volume whose shell is taken** is the first that has one -/
theorem findShellFv_eq (fvs : List FvHandle) (status : StatusCode)
    (h : fvs ≠ [] ∨ status.isError = true) :
    findShellFv fvs status = some (fvs.find? fun fv => !fv.readShell.isError) := by
  induction fvs generalizing status with
  | nil =>
    rw [findShellFv, if_pos (h.resolve_left fun hne => hne rfl)]
    rfl
  | cons fv fvs ih =>
    rw [findShellFv]
    by_cases herr : fv.readShell.isError = true
    · rw [if_pos herr, ih _ (.inr herr), List.find?_cons_of_neg (by simp [herr])]
    · rw [if_neg herr, List.find?_cons_of_pos (by simp [herr])]

theorem same_iff (key o : LoadOption) : key.same o = true ↔
    key.attributes = o.attributes ∧ key.description = o.description ∧ key.filePath = o.filePath ∧
      key.optionalData = o.optionalData := by
  simp [LoadOption.same]

section
variable {S : Type*} (lib : BootManagerLib S) (hlib : lib.Documented)
include hlib

/-- an option is found exactly when there is one that is the same -/
theorem find_isSome_iff (key : LoadOption) (options : List LoadOption) :
    (lib.efiBootManagerFindLoadOption key options).isSome = true ↔
      ∃ o ∈ options, key.same o = true := by
  cases h : lib.efiBootManagerFindLoadOption key options with
  | some i => exact ⟨fun _ => hlib.find_some key options i h, fun _ => rfl⟩
  | none =>
    refine ⟨fun hn => (by cases hn), fun ⟨o, ho, hsame⟩ => ?_⟩
    rw [hlib.find_none key options h o ho] at hsame
    cases hsame

/-- either search finds an option exactly when there is one for the shell -/
theorem findEither_isSome_iff (shellFile : Guid) (path : List DevicePathNode) (n : ℕ)
    (options : List LoadOption) :
    (findEither lib ⟨n, loadOptionActive, internalUefiShellName, path ++ [fwFileNode shellFile], []⟩
      options).isSome = true ↔ ∃ o ∈ options, o.IsShellAt shellFile path := by
  have hzero : loadOptionActive ^^^ loadOptionActive = 0 := by decide
  unfold findEither
  have hfirst := find_isSome_iff lib hlib ⟨n, loadOptionActive, internalUefiShellName,
    path ++ [fwFileNode shellFile], []⟩ options
  cases h1 : lib.efiBootManagerFindLoadOption ⟨n, loadOptionActive, internalUefiShellName,
      path ++ [fwFileNode shellFile], []⟩ options with
  | some i =>
    rw [h1] at hfirst
    obtain ⟨o, ho, hsame⟩ := hfirst.mp rfl
    obtain ⟨ha, hd, hp, hdata⟩ := (same_iff _ _).mp hsame
    simp only [Option.isSome_some, true_iff]
    exact ⟨o, ho, .inl ha.symm, hd.symm, hp.symm, hdata.symm⟩
  | none =>
    rw [h1] at hfirst
    simp only [find_isSome_iff lib hlib, hzero, same_iff]
    constructor
    · intro ⟨o, ho, ha, hd, hp, hdata⟩
      exact ⟨o, ho, .inr ha.symm, hd.symm, hp.symm, hdata.symm⟩
    · intro ⟨o, ho, ha, hd, hp, hdata⟩
      cases ha with
      | inl ha =>
        have hsome := hfirst.mpr ⟨o, ho, (same_iff _ _).mpr ⟨ha.symm, hd.symm, hp.symm, hdata.symm⟩⟩
        cases hsome
      | inr ha => exact ⟨o, ho, ha.symm, hd.symm, hp.symm, hdata.symm⟩

/-- an option is added at the end -/
theorem added_last (s : S) (o : LoadOption)
    (hok : (lib.efiBootManagerAddLoadOptionVariable s o 0xffffffffffffffff).1.isError = false) :
    ∃ number, lib.efiBootManagerGetLoadOptions
        (lib.efiBootManagerAddLoadOptionVariable s o 0xffffffffffffffff).2
      = lib.efiBootManagerGetLoadOptions s ++ [{ o with optionNumber := number }] := by
  obtain ⟨number, h⟩ := hlib.added s o 0xffffffffffffffff hok
  have hcount := hlib.counted s
  have hpos : (0xffffffffffffffff : UInt64).toNat = 2^64 - 1 := by decide
  rw [hpos, Nat.min_eq_right (by omega)] at h
  exact ⟨number, h.trans (List.insertIdx_length_self ..)⟩

end

/-- a call deleted the option -/
def LoadOption.deletedBy (o : LoadOption) (calls : List OptionCall) : Bool :=
  calls.any fun call =>
    match call with
    | .added _ => false
    | .deleted number status => number = o.optionNumber && !status.isError

/-- **the deletion** takes out the options whose deletion succeeded, and asks for that of the options
with the name of the shell alone -/
theorem deleteShellOptions_spec {S : Type*} (lib : BootManagerLib S) (hlib : lib.Documented)
    (seen : List LoadOption) (s : S) :
    let r := deleteShellOptions lib seen s
    lib.efiBootManagerGetLoadOptions r.1
      = (lib.efiBootManagerGetLoadOptions s).filter (fun o => !o.deletedBy r.2) ∧
    ∀ n, (∃ status, .deleted n status ∈ r.2) ↔
      ∃ o ∈ seen, o.optionNumber = n ∧ o.description = internalUefiShellName := by
  induction seen generalizing s with
  | nil => simp [deleteShellOptions, LoadOption.deletedBy]
  | cons o rest ih =>
    intro r
    by_cases hname : o.description = internalUefiShellName
    · have hr : r = ((deleteShellOptions lib rest
          (lib.efiBootManagerDeleteLoadOptionVariable s o.optionNumber).2).1,
        .deleted o.optionNumber (lib.efiBootManagerDeleteLoadOptionVariable s o.optionNumber).1 ::
          (deleteShellOptions lib rest
            (lib.efiBootManagerDeleteLoadOptionVariable s o.optionNumber).2).2) := by
        show deleteShellOptions lib (o :: rest) s = _
        rw [deleteShellOptions, if_pos hname]
      obtain ⟨hrest, hasked⟩ := ih (lib.efiBootManagerDeleteLoadOptionVariable s o.optionNumber).2
      rw [hr]
      refine ⟨?_, ?_⟩
      · dsimp only
        rw [hrest]
        cases herr : (lib.efiBootManagerDeleteLoadOptionVariable s o.optionNumber).1.isError with
        | true =>
          rw [hlib.notDeleted s o.optionNumber herr]
          apply List.filter_congr
          intro o' _
          simp [LoadOption.deletedBy, herr]
        | false =>
          rw [hlib.deleted s o.optionNumber herr, List.filter_filter]
          apply List.filter_congr
          intro o' _
          simp [LoadOption.deletedBy, herr, Bool.and_comm, eq_comm]
      · intro n
        have hhead : (∃ status, OptionCall.deleted n status =
            .deleted o.optionNumber (lib.efiBootManagerDeleteLoadOptionVariable s o.optionNumber).1) ↔
              o.optionNumber = n := by
          constructor
          · intro ⟨_, h⟩
            exact (OptionCall.deleted.inj h).1.symm
          · intro h
            exact ⟨_, by rw [h]⟩
        simp only [List.mem_cons, exists_or, hasked n, hhead, exists_eq_or_imp, hname, and_true]
    · have hr : r = deleteShellOptions lib rest s := by
        show deleteShellOptions lib (o :: rest) s = _
        rw [deleteShellOptions, if_neg hname]
      obtain ⟨hrest, hasked⟩ := ih s
      rw [hr]
      refine ⟨hrest, ?_⟩
      intro n
      simp only [hasked n, List.mem_cons, exists_eq_or_imp, hname, and_false, false_or]

/-! ## any number of boots and edits -/

/-- the volume whose shell gets an option -/
def BootEnv.shellVolume (env : BootEnv) : Option FvHandle :=
  if env.initLoadOption.isError then none else env.fvs.find? fun fv => !fv.readShell.isError

/-- what happens to the options: a boot with these volumes, or an edit between two boots -/
inductive OptionAction (S : Type*) where
  | boot (env : BootEnv)
  | edit (f : S → S)

/-- a boot: its calls, and the options before and after it -/
structure BootRecord where
  env : BootEnv
  calls : List OptionCall
  before : List LoadOption
  after : List LoadOption

/-- one action -/
def bootStep {S : Type*} (lib : BootManagerLib S) (debugAssertEnabled : Bool) (shellFile : Guid)
    (s : S) : OptionAction S → Option (S × List BootRecord)
  | .boot env => (registerDefaultBootOptions lib debugAssertEnabled shellFile env s).map fun r =>
      (r.1, [⟨env, r.2, lib.efiBootManagerGetLoadOptions s, lib.efiBootManagerGetLoadOptions r.1⟩])
  | .edit f => some (f s, [])

/-- no path has two options for its shell -/
def AtMostOne (shellFile : Guid) (options : List LoadOption) : Prop :=
  ∀ path, shellCount shellFile path options ≤ 1

/-- an edit makes no second option for a shell -/
def OptionAction.Careful {S : Type*} (lib : BootManagerLib S) (shellFile : Guid) (s : S) :
    OptionAction S → Prop
  | .boot _ => True
  | .edit f => AtMostOne shellFile (lib.efiBootManagerGetLoadOptions (f s))

/-- the serialised option is taken for the internal shell when it is booted -/
def LoadOption.Recognised (shellFile : Guid) (o : LoadOption) : Prop :=
  ∀ (pathLib : DevicePathLib) mem bootOption uefiShellFileGuid, pathLib.Documented →
    mem.Holds bootOption o.bytes → Returns (fun fuel =>
      isInternalShell pathLib mem shellFile.val uefiShellFileGuid fuel bootOption) true

/-- with a shell in a volume there is one option for it, unless it could not be added, and the others
are as they were; with none every option of that name was to be deleted, and those are gone whose
deletion succeeded -/
def BootRecord.Right (shellFile : Guid) (r : BootRecord) : Prop :=
  match r.env.shellVolume with
  | some fv =>
    (shellCount shellFile fv.devicePath r.after = if r.calls.all OptionCall.ok then 1 else 0) ∧
    (r.after.filter fun o => !decide (o.IsShellAt shellFile fv.devicePath))
      = (r.before.filter fun o => !decide (o.IsShellAt shellFile fv.devicePath)) ∧
    ∀ o ∈ r.after, o.IsShellAt shellFile fv.devicePath → o.Recognised shellFile
  | none =>
    r.after = r.before.filter (fun o => !o.deletedBy r.calls) ∧
    ∀ o ∈ r.before, (∃ status, .deleted o.optionNumber status ∈ r.calls) ↔
      o.description = internalUefiShellName

/-- the option of a shell is taken for the internal shell -/
theorem isShellAt_recognised (shellFile : Guid) (fv : FvHandle) (o : LoadOption)
    (ho : o.IsShellAt shellFile fv.devicePath) : o.Recognised shellFile := by
  intro pathLib mem bootOption uefiShellFileGuid hpathLib h
  obtain ⟨_, hd, hp, _⟩ := ho
  refine ⟨o.description.length + o.filePath.length + 1, fun fuel hfuel => ?_⟩
  obtain ⟨b, hb, hiff⟩ := isInternalShell_of_bytes pathLib hpathLib mem shellFile.val
    uefiShellFileGuid bootOption fuel o (by rw [hd]; simp [internalUefiShellName]) (by
      intro n hn hfile
      rw [hp, List.mem_append, List.mem_singleton] at hn
      cases hn with
      | inl hn => exact fv.wellFormed n hn hfile
      | inr hn =>
        rw [hn]
        exact shellFile.property.ge) hfuel h
  have hends : EndsInShell shellFile.val uefiShellFileGuid o.filePath := by
    refine ⟨fwFileNode shellFile, by rw [hp]; simp, ⟨rfl, rfl⟩, .inl ?_⟩
    exact List.take_of_length_le shellFile.property.le
  simp only [hb, hiff.mpr hends]

/-- the option that is registered is for the shell of its own volume alone -/
theorem registered_isShellAt (shellFile : Guid) (n : ℕ) (path path' : List DevicePathNode) :
    LoadOption.IsShellAt shellFile path ⟨n, loadOptionActive, internalUefiShellName,
      path' ++ [fwFileNode shellFile], []⟩ ↔ path = path' := by
  constructor
  · intro hs
    exact (List.append_cancel_right hs.2.2.1).symm
  · rintro rfl
    exact ⟨.inl rfl, rfl, rfl, rfl⟩

theorem shellCount_registered (shellFile : Guid) (options : List LoadOption) (n : ℕ)
    (path path' : List DevicePathNode) :
    shellCount shellFile path (options ++ [⟨n, loadOptionActive, internalUefiShellName,
      path' ++ [fwFileNode shellFile], []⟩])
      = shellCount shellFile path options + if path = path' then 1 else 0 := by
  unfold shellCount
  rw [List.countP_append, List.countP_singleton]
  simp only [decide_eq_true_eq, registered_isShellAt]

theorem shellCount_none (shellFile : Guid) (options : List LoadOption) (path : List DevicePathNode)
    (hno : ¬ ∃ o ∈ options, o.IsShellAt shellFile path) : shellCount shellFile path options = 0 := by
  unfold shellCount
  rw [List.countP_eq_zero]
  intro o ho
  have hn : ¬ o.IsShellAt shellFile path := fun hs => hno ⟨o, ho, hs⟩
  simpa using hn

section
variable {S : Type*} (lib : BootManagerLib S) (hlib : lib.Documented) (debugAssertEnabled : Bool)
variable (shellFile : Guid) (env : BootEnv) (s s' : S) (calls : List OptionCall)
variable (h : registerDefaultBootOptions lib debugAssertEnabled shellFile env s = some (s', calls))

include h in
/-- where the registration returns there is a firmware volume, and this is the option it makes -/
theorem registered_created : createFvBootOption shellFile env shellFile internalUefiShellName
    loadOptionActive [] = some (env.shellVolume.map fun fv =>
      ⟨loadOptionNumberUnassigned, loadOptionActive, internalUefiShellName,
        fv.devicePath ++ [fwFileNode shellFile], []⟩) := by
  have hne : env.fvs ≠ [] := by
    intro hnil
    have hok : StatusCode.isError .success = false := by decide
    simp [registerDefaultBootOptions, registerFvBootOption, createFvBootOption,
      createShellDevicePath, hnil, findShellFv, hok] at h
  unfold BootEnv.shellVolume
  cases hinit : env.initLoadOption.isError with
  | true => simp [createFvBootOption, createShellDevicePath, findShellFv_eq _ _ (.inl hne), hinit]
  | false =>
    cases hfv : env.fvs.find? fun fv => !fv.readShell.isError with
    | none =>
      simp [createFvBootOption, createShellDevicePath, findShellFv_eq _ _ (.inl hne), hfv]
    | some fv =>
      simp [createFvBootOption, createShellDevicePath, findShellFv_eq _ _ (.inl hne), hfv, hinit]

include hlib h

/-- **a boot with a shell** -/
theorem registerShell_found (fv : FvHandle) (hfv : env.shellVolume = some fv) :
    (lib.efiBootManagerGetLoadOptions s' = lib.efiBootManagerGetLoadOptions s ∧
      ((calls = [] ∧ ∃ o ∈ lib.efiBootManagerGetLoadOptions s, o.IsShellAt shellFile fv.devicePath) ∨
        (calls.all OptionCall.ok = false ∧
          ¬ ∃ o ∈ lib.efiBootManagerGetLoadOptions s, o.IsShellAt shellFile fv.devicePath))) ∨
      (calls.all OptionCall.ok = true ∧
        (¬ ∃ o ∈ lib.efiBootManagerGetLoadOptions s, o.IsShellAt shellFile fv.devicePath) ∧
        ∃ n, lib.efiBootManagerGetLoadOptions s' = lib.efiBootManagerGetLoadOptions s ++
          [⟨n, loadOptionActive, internalUefiShellName, fv.devicePath ++ [fwFileNode shellFile], []⟩]) := by
  have hcreate := registered_created lib debugAssertEnabled shellFile env s s' calls h
  rw [hfv, Option.map_some] at hcreate
  have hiff := findEither_isSome_iff lib hlib shellFile fv.devicePath loadOptionNumberUnassigned
    (lib.efiBootManagerGetLoadOptions s)
  unfold registerDefaultBootOptions registerFvBootOption at h
  rw [hcreate, Option.bind_some] at h
  cases hfind : findEither lib ⟨loadOptionNumberUnassigned, loadOptionActive, internalUefiShellName,
      fv.devicePath ++ [fwFileNode shellFile], []⟩ (lib.efiBootManagerGetLoadOptions s) with
  | some i =>
    rw [hfind] at hiff
    simp only [hfind, Option.some.injEq, Prod.mk.injEq] at h
    obtain ⟨rfl, rfl⟩ := h
    exact .inl ⟨rfl, .inl ⟨rfl, hiff.mp rfl⟩⟩
  | none =>
    rw [hfind] at hiff
    have hno : ¬ ∃ o ∈ lib.efiBootManagerGetLoadOptions s, o.IsShellAt shellFile fv.devicePath :=
      fun hex => by cases hiff.mpr hex
    simp only [hfind] at h
    split_ifs at h with hstop
    simp only [Option.some.injEq, Prod.mk.injEq] at h
    obtain ⟨rfl, rfl⟩ := h
    cases herr : (lib.efiBootManagerAddLoadOptionVariable s ⟨loadOptionNumberUnassigned,
        loadOptionActive, internalUefiShellName, fv.devicePath ++ [fwFileNode shellFile], []⟩
        0xffffffffffffffff).1.isError with
    | true =>
      exact .inl ⟨hlib.notAdded _ _ _ herr, .inr ⟨by simp [OptionCall.ok, herr], hno⟩⟩
    | false =>
      exact .inr ⟨by simp [OptionCall.ok, herr], hno, added_last lib hlib s _ herr⟩

/-- **a boot without one** -/
theorem registerShell_missing (hfv : env.shellVolume = none) :
    lib.efiBootManagerGetLoadOptions s'
      = (lib.efiBootManagerGetLoadOptions s).filter (fun o => !o.deletedBy calls) ∧
    ∀ n, (∃ status, .deleted n status ∈ calls) ↔
      ∃ o ∈ lib.efiBootManagerGetLoadOptions s, o.optionNumber = n ∧
        o.description = internalUefiShellName := by
  have hcreate := registered_created lib debugAssertEnabled shellFile env s s' calls h
  rw [hfv, Option.map_none] at hcreate
  unfold registerDefaultBootOptions registerFvBootOption at h
  rw [hcreate, Option.bind_some] at h
  simp only [if_true, Option.some.injEq] at h
  have hspec := deleteShellOptions_spec lib hlib (lib.efiBootManagerGetLoadOptions s) s
  rw [h] at hspec
  exact hspec

/-- one boot from a state with at most one option for each shell -/
theorem bootStep_right (hinv : AtMostOne shellFile (lib.efiBootManagerGetLoadOptions s)) :
    AtMostOne shellFile (lib.efiBootManagerGetLoadOptions s') ∧
      (⟨env, calls, lib.efiBootManagerGetLoadOptions s, lib.efiBootManagerGetLoadOptions s'⟩ :
        BootRecord).Right shellFile := by
  unfold BootRecord.Right
  dsimp only
  cases hfv : env.shellVolume with
  | none =>
    obtain ⟨hafter, hasked⟩ := registerShell_missing lib hlib debugAssertEnabled shellFile env s s'
      calls h hfv
    refine ⟨?_, hafter, ?_⟩
    · intro path
      rw [hafter]
      exact List.filter_sublist.countP_le.trans (hinv path)
    · intro o ho
      rw [hasked]
      constructor
      · intro ⟨o', ho', hnumber, hname⟩
        rw [hlib.numbered s o ho o' ho' hnumber.symm]
        exact hname
      · intro hname
        exact ⟨o, ho, rfl, hname⟩
  | some fv =>
    have hrecognised := isShellAt_recognised shellFile fv
    have hfound := registerShell_found lib hlib debugAssertEnabled shellFile env s s' calls h fv hfv
    rcases hfound with ⟨hsame, hcases⟩ | ⟨hok, hno, n, hopts⟩
    · rw [hsame]
      refine ⟨hinv, ?_, rfl, fun o _ ho => hrecognised o ho⟩
      rcases hcases with ⟨rfl, o, ho, hshell⟩ | ⟨herr, hno⟩
      · -- the option is there already
        rw [List.all_nil, if_pos rfl]
        exact le_antisymm (hinv _) (List.countP_pos_iff.mpr ⟨o, ho, by simpa using hshell⟩)
      · rw [herr, if_neg Bool.false_ne_true]
        exact shellCount_none shellFile _ fv.devicePath hno
    · have hzero := shellCount_none shellFile _ fv.devicePath hno
      rw [hopts]
      refine ⟨?_, ?_, ?_, fun o _ ho => hrecognised o ho⟩
      · intro path
        rw [shellCount_registered]
        by_cases hpath : path = fv.devicePath
        · rw [hpath, hzero, if_pos rfl]
        · rw [if_neg hpath]
          exact hinv path
      · rw [shellCount_registered, hzero, hok, if_pos rfl, if_pos rfl]
      · have hnew := (registered_isShellAt shellFile n fv.devicePath fv.devicePath).mpr rfl
        rw [List.filter_append, List.filter_cons_of_neg (by simpa using hnew)]
        simp

end

/-- **the boot options over any number of boots and edits**: no volume ever has two options for its
shell, and after every boot the options are as they should be -/
theorem shellOption_run {S : Type*} (lib : BootManagerLib S) (hlib : lib.Documented)
    (debugAssertEnabled : Bool) (shellFile : Guid) (s s' : S) (actions : List (OptionAction S))
    (log : List BootRecord) (hstart : AtMostOne shellFile (lib.efiBootManagerGetLoadOptions s))
    (hcareful : Meets (bootStep lib debugAssertEnabled shellFile)
      (OptionAction.Careful lib shellFile) s actions)
    (hrun : runLog (bootStep lib debugAssertEnabled shellFile) s actions = some (s', log)) :
    AtMostOne shellFile (lib.efiBootManagerGetLoadOptions s') ∧ ∀ r ∈ log, r.Right shellFile := by
  have h := runLog_invariant (bootStep lib debugAssertEnabled shellFile)
    (OptionAction.Careful lib shellFile)
    (fun s past => AtMostOne shellFile (lib.efiBootManagerGetLoadOptions s) ∧
      ∀ r ∈ past, r.Right shellFile) ?_ s s' [] actions log ⟨hstart, by simp⟩ hcareful hrun
  · rw [List.nil_append] at h
    exact h
  · intro s past a s' new ⟨hone, hpast⟩ hok hstep
    cases a with
    | edit f =>
      obtain ⟨rfl, rfl⟩ := Prod.mk.inj (Option.some.inj hstep)
      rw [List.append_nil]
      exact ⟨hok, hpast⟩
    | boot env =>
      obtain ⟨⟨next, calls⟩, hnext, he⟩ := Option.map_eq_some_iff.mp hstep
      obtain ⟨rfl, rfl⟩ := Prod.mk.inj he
      obtain ⟨h1, h2⟩ := bootStep_right lib hlib debugAssertEnabled shellFile env s next calls hnext
        hone
      refine ⟨h1, ?_⟩
      intro r hr
      rw [List.mem_append, List.mem_singleton] at hr
      cases hr with
      | inl hr => exact hpast r hr
      | inr hr => exact hr ▸ h2

/-! ## an example -/

/-- the options in a list, no number twice, and room for `room` of them -/
structure ListedOptions where
  options : List LoadOption
  nodup : (options.map LoadOption.optionNumber).Nodup
  room : ℕ
  fits : options.length + room < 2^64

/-- a number above all that are in use -/
def nextNumber (options : List LoadOption) : ℕ :=
  (options.map LoadOption.optionNumber).foldr max 0 + 1

theorem nextNumber_free (options : List LoadOption) :
    nextNumber options ∉ options.map LoadOption.optionNumber := by
  intro h
  have hle : ∀ (used : List ℕ), ∀ n ∈ used, n ≤ used.foldr max 0 := by
    intro used
    induction used with
    | nil => simp
    | cons m used ih =>
      intro n hn
      rw [List.foldr_cons]
      cases List.mem_cons.mp hn with
      | inl hn => exact hn ▸ Nat.le_max_left _ _
      | inr hn => exact (ih n hn).trans (Nat.le_max_right _ _)
  have hlt := hle _ _ h
  unfold nextNumber at hlt
  omega

/-- an option more, with a free number -/
def ListedOptions.add (s : ListedOptions) (o : LoadOption) (position : UInt64) (room : ℕ)
    (hroom : s.room = room + 1) : ListedOptions where
  options := s.options.insertIdx (min position.toNat s.options.length)
    { o with optionNumber := nextNumber s.options }
  nodup := by
    have hperm := List.perm_insertIdx { o with optionNumber := nextNumber s.options } s.options
      (Nat.min_le_right position.toNat s.options.length)
    rw [(hperm.map LoadOption.optionNumber).nodup_iff, List.map_cons, List.nodup_cons]
    exact ⟨nextNumber_free s.options, s.nodup⟩
  room := room
  fits := by
    have hfits := s.fits
    rw [List.length_insertIdx_of_le_length (Nat.min_le_right ..)]
    omega

/-- the options without one -/
def ListedOptions.delete (s : ListedOptions) (number : ℕ) : ListedOptions where
  options := s.options.filter fun o => o.optionNumber ≠ number
  nodup := s.nodup.sublist (List.filter_sublist.map LoadOption.optionNumber)
  room := s.room
  fits := (Nat.add_le_add_right (List.length_filter_le ..) _).trans_lt s.fits

/-- a library that keeps them -/
def listedLib : BootManagerLib ListedOptions where
  efiBootManagerGetLoadOptions s := s.options
  efiBootManagerFindLoadOption key options := options.findIdx? key.same
  efiBootManagerAddLoadOptionVariable s o position :=
    match hroom : s.room with
    | 0 => (.outOfResources, s)
    | room + 1 => (.success, s.add o position room hroom)
  efiBootManagerDeleteLoadOptionVariable s number := (.success, s.delete number)

theorem listedLib_documented : listedLib.Documented where
  counted s := (Nat.le_add_right _ _).trans_lt s.fits
  numbered s o ho o' ho' h := List.inj_on_of_nodup_map s.nodup ho ho' h
  find_some key options i h := by
    have hsome : (options.findIdx? key.same).isSome = true := Option.isSome_iff_exists.mpr ⟨i, h⟩
    rw [List.findIdx?_isSome, List.any_eq_true] at hsome
    exact hsome
  find_none key options h := List.findIdx?_eq_none_iff.mp h
  added s o position h := by
    unfold listedLib at h ⊢
    dsimp only at h ⊢
    split at h
    · exact absurd h (show ¬ StatusCode.isError .outOfResources = false by decide)
    · exact ⟨_, rfl⟩
  notAdded s o position h := by
    unfold listedLib at h ⊢
    dsimp only at h ⊢
    split at h
    · rfl
    · exact absurd h (show ¬ StatusCode.isError .success = true by decide)
  deleted _ _ _ := rfl
  notDeleted _ _ h := absurd h (show ¬ StatusCode.isError .success = true by decide)

def exampleShellFile : Guid := ⟨gUefiShellFileGuid, by decide⟩

/-- two volumes, and the shell is in the second -/
def exampleBootEnv : BootEnv where
  fvs := [⟨[], .notFound, by simp⟩,
    ⟨[exampleVolumeNode], .success,
      by simp [DevicePathNode.IsFwFile, exampleVolumeNode, mediaPiwgFwFileDp]⟩]
  ownPath := []
  readOwn _ := .notFound
  initLoadOption := .success

/-- two boots register the shell once -/
theorem exampleBoots_once : ∃ s' log,
    runLog (bootStep listedLib true exampleShellFile) ⟨[], by simp, 5, by simp⟩
      [.boot exampleBootEnv, .boot exampleBootEnv] = some (s', log) ∧
    s'.options.length = 1 ∧ AtMostOne exampleShellFile s'.options := by
  have hok : (runLog (bootStep listedLib true exampleShellFile) ⟨[], by simp, 5, by simp⟩
      [.boot exampleBootEnv, .boot exampleBootEnv]).map (fun r => r.1.options.length)
      = some 1 := by decide +kernel
  obtain ⟨⟨s', log⟩, hrun, hlen⟩ := Option.map_eq_some_iff.mp hok
  refine ⟨s', log, hrun, hlen, ?_⟩
  have hstart : AtMostOne exampleShellFile [] := fun _ => Nat.zero_le 1
  exact (shellOption_run listedLib listedLib_documented true exampleShellFile
    ⟨[], by simp, 5, by simp⟩ s' [.boot exampleBootEnv, .boot exampleBootEnv] log hstart
    ⟨trivial, trivial, trivial⟩ hrun).1

end AppleSilicon

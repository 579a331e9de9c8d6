import AppleSilicon.Drivers.Smbios
import AppleSilicon.Lib.Ascii
import AppleSilicon.Lib.Blob
import AppleSilicon.Lib.PrefixCode

/-!
# The SMBIOS table of the driver

`SmBiosTableDxeInitialize` hands twelve records to the SMBIOS protocol.  On the way it stores the
handles that the protocol gave to the caches in the record of the processor, and the handle of the
memory array in the record of the memory device.  What the functions return is not looked at.

The layout of the structures is not part of the repository: a template is its type and the bytes
behind the header, of which only the fields the driver sets are told apart.  Each of the twelve calls
of `LogSmbiosData` has answers of its own.

* `smbios_code`         a table can be read in one way;
* `logStructure_adds`   one call of `LogSmbiosData`;
* `smbiosTable_run`     the whole driver, whatever the protocol and the pool answer.
-/

namespace AppleSilicon

open Logged

/-! ## the format -/

/-- a string of a record: it is not empty, and its size fits -/
@[ext]
structure SmbiosString where
  chars : List UInt8
  ne_nil : chars ≠ []
  noNul : NoNul chars
  fits : chars.length < 2^32

/-- the bytes behind the header; the length of both is one byte -/
structure SmbiosBody where
  bytes : List UInt8
  fits : bytes.length + 4 < 2^8

/-- a structure and its strings; the number of a string is one byte -/
structure SmbiosStructure where
  type : UInt8
  body : SmbiosBody
  strings : List SmbiosString
  few : strings.length < 2^8

namespace SmbiosStructure

/-- the header (`Type`, `Length`, and a `Handle` of 0) and the body -/
def template (x : SmbiosStructure) : List UInt8 :=
  [x.type, UInt8.ofNat (x.body.bytes.length + 4), 0, 0] ++ x.body.bytes

def pack (x : SmbiosStructure) : List (List UInt8) := x.strings.map SmbiosString.chars

/-- the record -/
def bytes (x : SmbiosStructure) : List UInt8 := smbiosRecord x.template x.pack

theorem template_length (x : SmbiosStructure) : x.template.length = x.body.bytes.length + 4 := by
  rw [template, List.length_append]
  exact Nat.add_comm 4 _

theorem templateLength_eq (x : SmbiosStructure) : templateLength x.template = x.template.length := by
  have hfits := x.body.fits
  rw [x.template_length]
  show (UInt8.ofNat (x.body.bytes.length + 4)).toNat = _
  rw [UInt8.toNat_ofNat']
  omega

/-- the strings of a record are a stream; without one it has a further NUL -/
theorem bytes_eq (x : SmbiosStructure) : x.bytes = x.template ++
    (stream (fun str : SmbiosString => str.chars ++ [0]) [0] x.strings ++
      if x.strings = [] then [0] else []) := by
  rw [bytes, smbiosRecord, x.templateLength_eq, List.take_length, pack, stream]
  by_cases hs : x.strings = []
  · rw [hs]
    rfl
  · rw [if_neg (fun h => hs (List.map_eq_nil_iff.mp h)), if_neg hs, List.append_nil,
      List.flatMap_map]

theorem strings_length (strs : List SmbiosString) :
    (strs.flatMap fun str => str.chars ++ [0]).length ≤ strs.length * 2^32 := by
  induction strs with
  | nil => exact Nat.zero_le _
  | cons str strs ih =>
    have hfits := str.fits
    rw [List.flatMap_cons, List.length_append, List.length_append, List.length_singleton,
      List.length_cons]
    omega

/-- a record fits the address space -/
theorem bytes_fits (x : SmbiosStructure) : x.bytes.length < 2^64 := by
  have hbody := x.body.fits
  have hfew := x.few
  have hstrs := strings_length x.strings
  have hlast : (if x.strings = [] then [(0 : UInt8)] else []).length ≤ 1 := by
    split
    · exact le_refl 1
    · exact Nat.zero_le 1
  rw [x.bytes_eq, List.length_append, List.length_append, stream, List.length_append,
    List.length_singleton, x.template_length]
  omega

end SmbiosStructure

/-- **the strings of a record** can be read in one way -/
theorem smbiosString_code : PrefixCode (fun str : SmbiosString => str.chars ++ [0]) [0] where
  split a b x y h := by
    rw [List.append_assoc, List.append_assoc] at h
    obtain ⟨hchars, hrest⟩ := split_at_first 0 a.chars b.chars x y (fun h0 => a.noNul 0 h0 rfl)
      (fun h0 => b.noNul 0 h0 rfl) h
    exact ⟨SmbiosString.ext hchars, hrest⟩
  stops a x y h := by
    obtain ⟨c, cs, hc⟩ := List.exists_cons_of_ne_nil a.ne_nil
    rw [hc] at h
    obtain ⟨h0, _⟩ := List.cons.inj h
    apply a.noNul c _ h0
    rw [hc]
    exact List.mem_cons_self ..

/-- **the records of a table** can be read in one way: no record begins with two NULs -/
theorem smbios_code : PrefixCode SmbiosStructure.bytes [0, 0] where
  split a b x y h := by
    simp only [a.bytes_eq, b.bytes_eq, List.append_assoc] at h
    have hlen : a.template.length = b.template.length := by
      have hbyte : UInt8.ofNat (a.body.bytes.length + 4) = UInt8.ofNat (b.body.bytes.length + 4) :=
        (List.cons.inj (List.cons.inj h).2).1
      rw [← a.templateLength_eq, ← b.templateLength_eq]
      exact congrArg UInt8.toNat hbyte
    obtain ⟨htemplate, hrest⟩ := List.append_inj h hlen
    have hstrings := smbiosString_code.stream_unique a.strings b.strings _ _ hrest
    rw [hstrings] at hrest
    have hbody : a.body.bytes = b.body.bytes := (List.append_inj htemplate rfl).2
    have htype : a.type = b.type := (List.cons.inj htemplate).1
    obtain ⟨atype, ⟨abody, _⟩, astrings, _⟩ := a
    obtain ⟨btype, ⟨bbody, _⟩, bstrings, _⟩ := b
    obtain rfl := hstrings
    obtain rfl := hbody
    obtain rfl := htype
    exact ⟨rfl, List.append_cancel_left (List.append_cancel_left hrest)⟩
  stops a x y h := by
    rw [a.bytes_eq, List.append_assoc] at h
    have hbyte : UInt8.ofNat (a.body.bytes.length + 4) = 0 := (List.cons.inj (List.cons.inj h).2).1
    have hlen := a.templateLength_eq
    rw [a.template_length] at hlen
    have hzero : templateLength a.template = 0 := congrArg UInt8.toNat hbyte
    omega

/-! ## the structures of the driver -/

/-- a literal of the source -/
def smbiosText (s : String) : List UInt8 := s.toList.map fun c => UInt8.ofNat c.toNat

def smbiosLiteral (s : String)
    (h : smbiosText s ≠ [] ∧ NoNul (smbiosText s) ∧ (smbiosText s).length < 2^32) : SmbiosString :=
  ⟨smbiosText s, h.1, h.2.1, h.2.2⟩

def appleInc : SmbiosString := smbiosLiteral "Apple Inc." (by decide +kernel)

def notSpecified : SmbiosString := smbiosLiteral "Not Specified" (by decide +kernel)

/-- what the headers of the SMBIOS structures make of the initialisers; the fields that the driver
sets stand where the initialisers have them -/
structure SmbiosTemplates where
  biosInfoType0 : SmbiosBody
  sysInfoType1 : SmbiosBody
  boardInfoType2 : SmbiosBody
  enclosureInfoType3 : SmbiosBody
  /-- in front of `L1CacheHandle`, and behind `L3CacheHandle` -/
  processorInfoType4 : List UInt8 × List UInt8
  cacheInfoType7L1ic : SmbiosBody
  cacheInfoType7L1dc : SmbiosBody
  cacheInfoType7L2c : SmbiosBody
  cacheInfoType7L3c : SmbiosBody
  phyMemArrayInfoType16 : SmbiosBody
  /-- behind `MemoryArrayHandle` -/
  memDevInfoType17 : List UInt8
  /-- behind `EndingAddress` -/
  memArrMapInfoType19 : List UInt8
  processorFits : processorInfoType4.1.length + 6 + processorInfoType4.2.length + 4 < 2^8
  memDevFits : 2 + memDevInfoType17.length + 4 < 2^8
  memArrMapFits : 8 + memArrMapInfoType19.length + 4 < 2^8

/-- `EFI_SMBIOS_HANDLE`, low byte first -/
def handleBytes (h : UInt16) : List UInt8 := [UInt8.ofNat h.toNat, UInt8.ofNat (h.toNat / 2^8)]

/-- what `MuUefiVersionLib` does to a buffer with a string in it, given the variable with its
length: the string and the variable afterwards -/
structure UefiVersionLib where
  getUefiVersionStringAscii : SmbiosString → ℕ → SmbiosString × ℕ
  getBuildDateStringAscii : SmbiosString → ℕ → SmbiosString × ℕ

/-- `mBIOSInfoType0Strings[1]`, and the variable with the length, after the first call -/
def UefiVersionLib.biosVersion (lib : UefiVersionLib) : SmbiosString × ℕ :=
  lib.getUefiVersionStringAscii (smbiosLiteral "Placeholder Version" (by decide +kernel)) 15

/-- `mBIOSInfoType0Strings[2]` after the second call, which gets the variable of the first one -/
def UefiVersionLib.biosReleaseDate (lib : UefiVersionLib) : SmbiosString × ℕ :=
  lib.getBuildDateStringAscii (smbiosLiteral "Placeholder Release Date" (by decide +kernel))
    lib.biosVersion.2

structure SystemMemoryPcds where
  systemMemoryBase : UInt64
  systemMemorySize : UInt64

section
variable (t : SmbiosTemplates)

def biosInfoType0 (version date : SmbiosString) : SmbiosStructure :=
  ⟨0, t.biosInfoType0,
    [smbiosLiteral "Apple Silicon Windows Project Dev" (by decide +kernel), version, date], by
      show 3 < 2^8
      decide⟩

def sysInfoType1 : SmbiosStructure :=
  ⟨1, t.sysInfoType1,
    [appleInc, notSpecified, notSpecified, notSpecified, notSpecified, notSpecified], by decide⟩

def boardInfoType2 : SmbiosStructure :=
  ⟨2, t.boardInfoType2,
    [appleInc, notSpecified, notSpecified, notSpecified, notSpecified, notSpecified], by decide⟩

def enclosureInfoType3 : SmbiosStructure :=
  ⟨3, t.enclosureInfoType3, [appleInc, notSpecified, notSpecified, notSpecified], by decide⟩

def processorInfoType4 (l1CacheHandle l2CacheHandle l3CacheHandle : UInt16) : SmbiosStructure :=
  ⟨4, ⟨t.processorInfoType4.1 ++ (handleBytes l1CacheHandle ++ handleBytes l2CacheHandle ++
      handleBytes l3CacheHandle) ++ t.processorInfoType4.2, by
        have hfits := t.processorFits
        simp only [handleBytes, List.length_append, List.length_cons, List.length_nil]
        omega⟩,
    [smbiosLiteral "Apple" (by decide +kernel), appleInc, notSpecified, notSpecified], by decide⟩

def cacheInfoType7L1ic : SmbiosStructure :=
  ⟨7, t.cacheInfoType7L1ic, [smbiosLiteral "Combined L1 Instruction Cache" (by decide +kernel)],
    by decide⟩

def cacheInfoType7L1dc : SmbiosStructure :=
  ⟨7, t.cacheInfoType7L1dc, [smbiosLiteral "Combined L1 Data Cache" (by decide +kernel)], by decide⟩

def cacheInfoType7L2c : SmbiosStructure :=
  ⟨7, t.cacheInfoType7L2c, [smbiosLiteral "Combined L2 Cache" (by decide +kernel)], by decide⟩

def cacheInfoType7L3c : SmbiosStructure :=
  ⟨7, t.cacheInfoType7L3c, [smbiosLiteral "L3/System Shared Cache" (by decide +kernel)], by decide⟩

def phyMemArrayInfoType16 : SmbiosStructure := ⟨16, t.phyMemArrayInfoType16, [], by decide⟩

def memDevInfoType17 (memoryArrayHandle : UInt16) : SmbiosStructure :=
  ⟨17, ⟨handleBytes memoryArrayHandle ++ t.memDevInfoType17, by
      have hfits := t.memDevFits
      rw [List.length_append]
      exact hfits⟩,
    [smbiosLiteral "On SoC" (by decide +kernel), smbiosLiteral "Bank 0" (by decide +kernel),
      smbiosLiteral "Micron" (by decide +kernel), notSpecified, notSpecified,
      smbiosLiteral "H9HKNNNEBMAVAR-NEH" (by decide +kernel)], by decide⟩

def memArrMapInfoType19 (startingAddress endingAddress : UInt32) : SmbiosStructure :=
  ⟨19, ⟨word32 startingAddress.toNat ++ word32 endingAddress.toNat ++ t.memArrMapInfoType19, by
      have hfits := t.memArrMapFits
      rw [List.length_append, List.length_append, word32_length, word32_length]
      exact hfits⟩, [], by decide⟩

end

/-! ## the driver -/

/-- a call of `LogSmbiosData`: its number in the run of the driver, and what it is for -/
structure SmbiosCall where
  number : ℕ
  logged : SmbiosStructure

section
variable (answers : ℕ → SmbiosAnswers) (t : SmbiosTemplates)

def logStructure (c : SmbiosCall) (dataSmbiosHande : Bool) : Logged SmbiosEvent StatusCode :=
  logSmbiosData (answers c.number) c.logged.template (some c.logged.pack) dataSmbiosHande

/-- a handle after it was stored to, or not -/
def handleAfter (h : UInt16) (log : List SmbiosEvent) : UInt16 :=
  log.foldl (fun
    | _, .storeHandle h => h
    | h, _ => h) h

/-- `LogSmbiosData` with a variable for the handle: the variable afterwards -/
def logHandle (c : SmbiosCall) (smbiosHandle : UInt16) : Logged SmbiosEvent UInt16 :=
  let run := logStructure answers c true
  run.bind fun _ => Logged.pure (handleAfter smbiosHandle run.log)

def biosInfoUpdateSmbiosType0 (lib : UefiVersionLib) : Logged SmbiosEvent Unit :=
  (logStructure answers ⟨0, biosInfoType0 t lib.biosVersion.1 lib.biosReleaseDate.1⟩ false).bind
    fun _ => Logged.pure ()

def sysInfoUpdateSmbiosType1 : Logged SmbiosEvent Unit :=
  (logStructure answers ⟨1, sysInfoType1 t⟩ false).bind fun _ => Logged.pure ()

def boardInfoUpdateSmbiosType2 : Logged SmbiosEvent Unit :=
  (logStructure answers ⟨2, boardInfoType2 t⟩ false).bind fun _ => Logged.pure ()

def enclosureInfoUpdateSmbiosType3 : Logged SmbiosEvent Unit :=
  (logStructure answers ⟨3, enclosureInfoType3 t⟩ false).bind fun _ => Logged.pure ()

/-- `smbiosHandle` is what the variable holds before anything is stored to it -/
def processorInfoUpdateSmbiosType4 (smbiosHandle : UInt16) : Logged SmbiosEvent Unit :=
  (logHandle answers ⟨4, cacheInfoType7L1dc t⟩ smbiosHandle).bind fun l1CacheHandle =>
  (logHandle answers ⟨5, cacheInfoType7L2c t⟩ l1CacheHandle).bind fun l2CacheHandle =>
  (logHandle answers ⟨6, cacheInfoType7L3c t⟩ l2CacheHandle).bind fun l3CacheHandle =>
  (logStructure answers ⟨7, processorInfoType4 t l1CacheHandle l2CacheHandle l3CacheHandle⟩
    false).bind fun _ => Logged.pure ()

def cacheInfoUpdateSmbiosType7 : Logged SmbiosEvent Unit :=
  (logStructure answers ⟨8, cacheInfoType7L1ic t⟩ false).bind fun _ => Logged.pure ()

/-- the result is `mMemDevInfoType17.MemoryArrayHandle` -/
def phyMemArrayInfoUpdateSmbiosType16 (memArraySmbiosHande : UInt16) : Logged SmbiosEvent UInt16 :=
  logHandle answers ⟨9, phyMemArrayInfoType16 t⟩ memArraySmbiosHande

def memDevInfoUpdateSmbiosType17 (memoryArrayHandle : UInt16) : Logged SmbiosEvent Unit :=
  (logStructure answers ⟨10, memDevInfoType17 t memoryArrayHandle⟩ false).bind
    fun _ => Logged.pure ()

/-- the addresses are in KiB -/
def memArrMapInfoUpdateSmbiosType19 (pcds : SystemMemoryPcds) : Logged SmbiosEvent Unit :=
  let startingAddress := (pcds.systemMemoryBase / 1024).toUInt32
  let endingAddress := ((pcds.systemMemorySize + pcds.systemMemoryBase - 1) / 1024).toUInt32
  (logStructure answers ⟨11, memArrMapInfoType19 t startingAddress endingAddress⟩ false).bind
    fun _ => Logged.pure ()

/-- the two handles are what the local variables hold before anything is stored to them -/
def smBiosTableDxeInitialize (lib : UefiVersionLib) (pcds : SystemMemoryPcds)
    (smbiosHandle memArraySmbiosHande : UInt16) : Logged SmbiosEvent StatusCode :=
  (biosInfoUpdateSmbiosType0 answers t lib).bind fun _ =>
  (sysInfoUpdateSmbiosType1 answers t).bind fun _ =>
  (boardInfoUpdateSmbiosType2 answers t).bind fun _ =>
  (enclosureInfoUpdateSmbiosType3 answers t).bind fun _ =>
  (processorInfoUpdateSmbiosType4 answers t smbiosHandle).bind fun _ =>
  (cacheInfoUpdateSmbiosType7 answers t).bind fun _ =>
  (phyMemArrayInfoUpdateSmbiosType16 answers t memArraySmbiosHande).bind fun memoryArrayHandle =>
  (memDevInfoUpdateSmbiosType17 answers t memoryArrayHandle).bind fun _ =>
  (memArrMapInfoUpdateSmbiosType19 answers t pcds).bind fun _ =>
  Logged.pure StatusCode.success

end

/-! ## one record -/

namespace SmbiosCall

section
variable (answers : ℕ → SmbiosAnswers) (c : SmbiosCall)

/-- the protocol and a pool are there, so that the record gets to `Smbios->Add` -/
def pooled : Bool := (answers c.number).pooled

/-- `Smbios->Add` gets the record and takes it -/
def accepted : Bool := c.pooled answers && (answers c.number).add.1 = StatusCode.success

/-- the handle it gets -/
def handle : UInt16 := (answers c.number).add.2

end

end SmbiosCall

/-- the records that get to `Smbios->Add` -/
def addRecords (answers : ℕ → SmbiosAnswers) (cs : List SmbiosCall) : List (List UInt8) :=
  (cs.filter fun c => c.pooled answers).map fun c => c.logged.bytes

theorem handleAfter_append (h : UInt16) (log log' : List SmbiosEvent) :
    handleAfter h (log ++ log') = handleAfter (handleAfter h log) log' := List.foldl_append

theorem handleAfter_writeAll (h : UInt16) (ws : List (ℕ × UInt8)) :
    handleAfter h (writeAll ws).log = h := by
  induction ws with
  | nil => rfl
  | cons w ws ih => exact ih

theorem handleAfter_add (s : SmbiosAnswers) (dataSmbiosHande : Bool) (record : List UInt8)
    (h : UInt16) : handleAfter h (addRecord s dataSmbiosHande record).log
      = if s.add.1 = StatusCode.success ∧ dataSmbiosHande = true then s.add.2 else h := by
  have hend : ∀ h, handleAfter h (if s.add.1.isError = true ∧ s.debugAssertEnabled = true then
      (stop : Logged SmbiosEvent StatusCode)
      else (note .freePool).bind fun _ => Logged.pure s.add.1).log = h := by
    intro h
    split
    · rfl
    · rfl
  unfold addRecord
  by_cases hstore : s.add.1 = StatusCode.success ∧ dataSmbiosHande = true
  · simp only [if_pos hstore]
    exact hend s.add.2
  · simp only [if_neg hstore]
    exact hend h

/-- what the run of a part of the driver adds to the table, and its result -/
structure Adds {α : Type*} (run : Logged SmbiosEvent α) (records : List (List UInt8)) (a : α) :
    Prop where
  result : run.result = some a
  added : addedRecords run.log = records

theorem Adds.bind {α β : Type*} {x : Logged SmbiosEvent α} {f : α → Logged SmbiosEvent β}
    {records records' : List (List UInt8)} {a : α} {b : β} (hx : Adds x records a)
    (hf : Adds (f a) records' b) : Adds (x.bind f) (records ++ records') b := by
  rw [bind_some x f a hx.result]
  refine ⟨hf.result, ?_⟩
  show addedRecords (x.log ++ (f a).log) = _
  rw [addedRecords, List.filterMap_append]
  show addedRecords x.log ++ addedRecords (f a).log = _
  rw [hx.added, hf.added]

theorem Adds.pure {α : Type*} (a : α) : Adds (Logged.pure a) [] a := ⟨rfl, rfl⟩

section
variable (answers : ℕ → SmbiosAnswers) (hreturns : ∀ n, (answers n).status ≠ none)

/-- the template of a structure is as long as its header says -/
theorem template_long (x : SmbiosStructure) : 4 ≤ templateLength x.template := by
  rw [x.templateLength_eq, x.template_length]
  exact Nat.le_add_left 4 _

/-- a call stores its handle if its record is taken -/
theorem logStructure_handle (c : SmbiosCall) (dataSmbiosHande : Bool) (h : UInt16) :
    handleAfter h (logStructure answers c dataSmbiosHande).log
      = if dataSmbiosHande && c.accepted answers then c.handle answers else h := by
  unfold logStructure SmbiosCall.accepted SmbiosCall.pooled SmbiosCall.handle SmbiosAnswers.pooled
  cases hlocate : (answers c.number).locateProtocol.isError with
  | true =>
    rw [logSmbiosData, if_pos hlocate]
    simp [Logged.pure, handleAfter]
  | false =>
    cases hpool : (answers c.number).allocateZeroPool with
    | false =>
      rw [logSmbiosData_noPool _ _ _ _ hlocate hpool]
      simp [handleAfter]
    | true =>
      rw [logSmbiosData_pack _ _ _ _ (template_long c.logged) (le_of_eq c.logged.templateLength_eq)
        hlocate c.logged.bytes_fits hpool, note_bind, bind_some _ _ () rfl]
      show handleAfter h ((writeAll _).log ++ (addRecord (answers c.number) dataSmbiosHande _).log)
        = _
      rw [handleAfter_append, handleAfter_writeAll, handleAfter_add]
      simp [and_comm]

include hreturns

/-- **one call** hands the record over once, if the protocol and a pool are there -/
theorem logStructure_adds (c : SmbiosCall) (dataSmbiosHande : Bool) :
    ∃ status, Adds (logStructure answers c dataSmbiosHande) (addRecords answers [c]) status := by
  have hright := packed_record_right (answers c.number) c.logged.template dataSmbiosHande
    c.logged.pack (template_long c.logged) (le_of_eq c.logged.templateLength_eq)
    c.logged.bytes_fits
  obtain ⟨status, hstatus⟩ := Option.ne_none_iff_exists'.mp (hreturns c.number)
  refine ⟨status, hright.status.trans hstatus, hright.added.trans ?_⟩
  rw [addRecords, List.filter_singleton, SmbiosCall.pooled]
  cases (answers c.number).pooled with
  | true => rfl
  | false => rfl

/-- a call with a variable for the handle -/
theorem logHandle_adds (c : SmbiosCall) (smbiosHandle : UInt16) :
    Adds (logHandle answers c smbiosHandle) (addRecords answers [c])
      (if c.accepted answers then c.handle answers else smbiosHandle) := by
  obtain ⟨status, hadds⟩ := logStructure_adds answers hreturns c true
  have h := logStructure_handle answers c true smbiosHandle
  rw [Bool.true_and] at h
  unfold logHandle
  dsimp only
  rw [h, ← List.append_nil (addRecords answers [c])]
  exact hadds.bind (Adds.pure _)

/-- a call without one -/
theorem logOnly_adds (c : SmbiosCall) :
    Adds ((logStructure answers c false).bind fun _ => Logged.pure ()) (addRecords answers [c])
      () := by
  obtain ⟨status, hadds⟩ := logStructure_adds answers hreturns c false
  rw [← List.append_nil (addRecords answers [c])]
  exact hadds.bind (Adds.pure _)

end

/-! ## the table -/

/-- the calls of the driver in their order, with the handles that it fills in -/
def smbiosTable (t : SmbiosTemplates) (lib : UefiVersionLib) (pcds : SystemMemoryPcds)
    (l1CacheHandle l2CacheHandle l3CacheHandle memoryArrayHandle : UInt16) : List SmbiosCall :=
  [⟨0, biosInfoType0 t lib.biosVersion.1 lib.biosReleaseDate.1⟩, ⟨1, sysInfoType1 t⟩,
    ⟨2, boardInfoType2 t⟩, ⟨3, enclosureInfoType3 t⟩, ⟨4, cacheInfoType7L1dc t⟩,
    ⟨5, cacheInfoType7L2c t⟩, ⟨6, cacheInfoType7L3c t⟩,
    ⟨7, processorInfoType4 t l1CacheHandle l2CacheHandle l3CacheHandle⟩, ⟨8, cacheInfoType7L1ic t⟩,
    ⟨9, phyMemArrayInfoType16 t⟩, ⟨10, memDevInfoType17 t memoryArrayHandle⟩,
    ⟨11, memArrMapInfoType19 t (pcds.systemMemoryBase / 1024).toUInt32
      ((pcds.systemMemorySize + pcds.systemMemoryBase - 1) / 1024).toUInt32⟩]

section
variable (answers : ℕ → SmbiosAnswers)

/-- the variable for the handle after these calls -/
def lastHandle (cs : List SmbiosCall) (h : UInt16) : UInt16 :=
  cs.foldl (fun h c => if c.accepted answers then c.handle answers else h) h

/-- no two calls of the table whose records were taken got one handle -/
def OwnHandles (table : List SmbiosCall) : Prop :=
  ∀ x ∈ table, ∀ y ∈ table, x.accepted answers = true → y.accepted answers = true →
    x.handle answers = y.handle answers → x = y

/-- the handle leads to the last of these calls whose record was taken, and to no other one -/
def LeadsToLast (table cs : List SmbiosCall) (h : UInt16) : Prop :=
  ∀ x, (cs.filter fun c => c.accepted answers).getLast? = some x →
    ∀ y ∈ table, y.accepted answers = true → (y.handle answers = h ↔ y = x)

theorem addRecords_append (xs ys : List SmbiosCall) :
    addRecords answers (xs ++ ys) = addRecords answers xs ++ addRecords answers ys := by
  unfold addRecords
  rw [List.filter_append, List.map_append]

theorem lastHandle_last (cs : List SmbiosCall) (x : SmbiosCall) (h : UInt16)
    (hlast : (cs.filter fun c => c.accepted answers).getLast? = some x) :
    lastHandle answers cs h = x.handle answers := by
  induction cs using List.reverseRecOn with
  | nil => cases hlast
  | append_singleton cs y ih =>
    unfold lastHandle at ih ⊢
    rw [List.filter_append, List.filter_singleton] at hlast
    rw [List.foldl_append, List.foldl_cons, List.foldl_nil]
    cases hy : y.accepted answers with
    | true =>
      rw [hy, cond_true, List.getLast?_concat] at hlast
      rw [if_pos rfl, Option.some.inj hlast]
    | false =>
      rw [hy, cond_false, List.append_nil] at hlast
      rw [if_neg Bool.false_ne_true]
      exact ih hlast

theorem lastHandle_leads (table cs : List SmbiosCall) (h : UInt16)
    (hown : OwnHandles answers table) (hsub : ∀ x ∈ cs, x ∈ table) :
    LeadsToLast answers table cs (lastHandle answers cs h) := by
  intro x hlast y hy htaken
  obtain ⟨hx, hxtaken⟩ := List.mem_filter.mp (List.mem_of_getLast? hlast)
  rw [lastHandle_last answers cs x h hlast]
  constructor
  · exact hown y hy x (hsub x hx) htaken hxtaken
  · intro heq
    rw [heq]

end

section
variable (answers : ℕ → SmbiosAnswers) (t : SmbiosTemplates)
variable (hreturns : ∀ n, (answers n).status ≠ none)
include hreturns

/-- the caches, and the processor with their handles -/
theorem processorInfo_adds (smbiosHandle : UInt16) :
    Adds (processorInfoUpdateSmbiosType4 answers t smbiosHandle)
      (addRecords answers [⟨4, cacheInfoType7L1dc t⟩, ⟨5, cacheInfoType7L2c t⟩,
        ⟨6, cacheInfoType7L3c t⟩,
        ⟨7, processorInfoType4 t (lastHandle answers [⟨4, cacheInfoType7L1dc t⟩] smbiosHandle)
          (lastHandle answers [⟨4, cacheInfoType7L1dc t⟩, ⟨5, cacheInfoType7L2c t⟩] smbiosHandle)
          (lastHandle answers [⟨4, cacheInfoType7L1dc t⟩, ⟨5, cacheInfoType7L2c t⟩,
            ⟨6, cacheInfoType7L3c t⟩] smbiosHandle)⟩]) () := by
  have hhandle := logHandle_adds answers hreturns
  unfold processorInfoUpdateSmbiosType4
  rw [List.singleton_append.symm, addRecords_append]
  apply (hhandle _ _).bind
  rw [List.singleton_append.symm, addRecords_append]
  apply (hhandle _ _).bind
  rw [List.singleton_append.symm, addRecords_append]
  apply (hhandle _ _).bind
  exact logOnly_adds answers hreturns _

/-- **the records of the driver**: each part adds its structures, and the handles in those of the
processor and the memory device are the ones stored before -/
theorem smBiosTableDxeInitialize_adds (lib : UefiVersionLib) (pcds : SystemMemoryPcds)
    (smbiosHandle memArraySmbiosHande : UInt16) :
    Adds (smBiosTableDxeInitialize answers t lib pcds smbiosHandle memArraySmbiosHande)
      (addRecords answers (smbiosTable t lib pcds
        (lastHandle answers [⟨4, cacheInfoType7L1dc t⟩] smbiosHandle)
        (lastHandle answers [⟨4, cacheInfoType7L1dc t⟩, ⟨5, cacheInfoType7L2c t⟩] smbiosHandle)
        (lastHandle answers [⟨4, cacheInfoType7L1dc t⟩, ⟨5, cacheInfoType7L2c t⟩,
          ⟨6, cacheInfoType7L3c t⟩] smbiosHandle)
        (lastHandle answers [⟨9, phyMemArrayInfoType16 t⟩] memArraySmbiosHande)))
      StatusCode.success := by
  have hone := logOnly_adds answers hreturns
  have hcpu := processorInfo_adds answers t hreturns smbiosHandle
  have harray := logHandle_adds answers hreturns ⟨9, phyMemArrayInfoType16 t⟩ memArraySmbiosHande
  unfold smBiosTableDxeInitialize
  show Adds _ (addRecords answers ([_] ++ ([_] ++ ([_] ++ ([_] ++ ([_, _, _, _] ++ ([_] ++ ([_] ++
    ([_] ++ ([_] ++ [])))))))))) _
  simp only [addRecords_append]
  exact (hone _).bind ((hone _).bind ((hone _).bind ((hone _).bind (hcpu.bind ((hone _).bind
    (harray.bind ((hone _).bind ((hone _).bind (Adds.pure _)))))))))

end

/-- **The SMBIOS table**, whatever each call is answered by the pool and the protocol, where no
assertion fails: the driver hands over the records of the calls that find the protocol and a pool, in
their order, and they can be read back in one way.  Where the protocol gives every record a handle of
its own, the handle of a cache in the record of the processor leads to the last cache that was taken
up to that one, and the one in the record of the memory device to the memory array. -/
theorem smbiosTable_run (answers : ℕ → SmbiosAnswers) (t : SmbiosTemplates) (lib : UefiVersionLib)
    (pcds : SystemMemoryPcds) (smbiosHandle memArraySmbiosHande : UInt16)
    (hreturns : ∀ n, (answers n).status ≠ none) :
    ∃ (l1 l2 l3 array : UInt16) (table : List SmbiosCall),
      table = smbiosTable t lib pcds l1 l2 l3 array ∧
      (smBiosTableDxeInitialize answers t lib pcds smbiosHandle memArraySmbiosHande).result
        = some StatusCode.success ∧
      (∀ xs : List SmbiosStructure, xs.flatMap SmbiosStructure.bytes
          = (addedRecords (smBiosTableDxeInitialize answers t lib pcds smbiosHandle
              memArraySmbiosHande).log).flatten ↔
        xs = (table.filter fun c => c.pooled answers).map SmbiosCall.logged) ∧
      (OwnHandles answers table →
        LeadsToLast answers table [⟨4, cacheInfoType7L1dc t⟩] l1 ∧
        LeadsToLast answers table [⟨4, cacheInfoType7L1dc t⟩, ⟨5, cacheInfoType7L2c t⟩] l2 ∧
        LeadsToLast answers table [⟨4, cacheInfoType7L1dc t⟩, ⟨5, cacheInfoType7L2c t⟩,
          ⟨6, cacheInfoType7L3c t⟩] l3 ∧
        LeadsToLast answers table [⟨9, phyMemArrayInfoType16 t⟩] array) := by
  obtain ⟨hresult, hadded⟩ := smBiosTableDxeInitialize_adds answers t hreturns lib pcds
    smbiosHandle memArraySmbiosHande
  refine ⟨lastHandle answers [⟨4, cacheInfoType7L1dc t⟩] smbiosHandle,
    lastHandle answers [⟨4, cacheInfoType7L1dc t⟩, ⟨5, cacheInfoType7L2c t⟩] smbiosHandle,
    lastHandle answers [⟨4, cacheInfoType7L1dc t⟩, ⟨5, cacheInfoType7L2c t⟩,
      ⟨6, cacheInfoType7L3c t⟩] smbiosHandle,
    lastHandle answers [⟨9, phyMemArrayInfoType16 t⟩] memArraySmbiosHande, _, rfl, hresult, ?_,
    fun hown => ⟨?_, ?_, ?_, ?_⟩⟩
  · intro xs
    rw [hadded, addRecords, ← List.flatMap_def,
      ← List.flatMap_map SmbiosCall.logged SmbiosStructure.bytes]
    exact ⟨smbios_code.records_unique _ _, fun h => h ▸ rfl⟩
  all_goals
    apply lastHandle_leads answers _ _ _ hown
    simp [smbiosTable]

/-- structures without further fields -/
def bareTemplates : SmbiosTemplates where
  biosInfoType0 := ⟨[1, 2], by decide⟩
  sysInfoType1 := ⟨[1, 2, 3, 4], by decide⟩
  boardInfoType2 := ⟨[1, 2, 3, 4, 5], by decide⟩
  enclosureInfoType3 := ⟨[1, 0x0a, 2, 3, 4], by decide⟩
  processorInfoType4 := ([1, 3, 0xfe, 2], [0, 0, 4])
  cacheInfoType7L1ic := ⟨[1, 0x80, 0x02, 0x40, 0x01], by decide⟩
  cacheInfoType7L1dc := ⟨[1, 0x80, 0x02, 0xc0, 0x00], by decide⟩
  cacheInfoType7L2c := ⟨[1, 0x81, 0x02, 0x00, 0x81], by decide⟩
  cacheInfoType7L3c := ⟨[1, 0x82, 0x02, 0x80, 0x80], by decide⟩
  phyMemArrayInfoType16 := ⟨[3, 3, 3], by decide⟩
  memDevInfoType17 := [0xfe, 0xff]
  memArrMapInfoType19 := [0, 0, 0]
  processorFits := by decide
  memDevFits := by decide
  memArrMapFits := by decide

/-- the second cache is not taken, there is no pool in the last call, and every other record gets
the number of its call for a handle -/
def fussyAnswers (n : ℕ) : SmbiosAnswers where
  locateProtocol := StatusCode.success
  allocateZeroPool := n ≠ 11
  add := if n = 5 then (StatusCode.outOfResources, 0) else (StatusCode.success, UInt16.ofNat n)
  debugAssertEnabled := false

theorem fussyAnswers_return (n : ℕ) : (fussyAnswers n).status ≠ none := by
  have hlocate : StatusCode.success.isError = false := rfl
  simp only [SmbiosAnswers.status, fussyAnswers, hlocate, Bool.false_eq_true, and_false, if_false]
  split
  · exact Option.some_ne_none _
  · exact Option.some_ne_none _

/-- eleven of the twelve structures are read back, and the record of the processor gets the handle
of the first cache for the second one -/
theorem fussyTable_read : ∃ (l1 l2 l3 array : UInt16) (table : List SmbiosCall),
    table = smbiosTable bareTemplates ⟨Prod.mk, Prod.mk⟩ ⟨0x800000000, 0x200000000⟩ l1 l2 l3 array ∧
      (table.filter fun c => c.pooled fussyAnswers).length = 11 ∧
      (∀ xs : List SmbiosStructure, xs.flatMap SmbiosStructure.bytes
          = (addedRecords (smBiosTableDxeInitialize fussyAnswers bareTemplates ⟨Prod.mk, Prod.mk⟩
              ⟨0x800000000, 0x200000000⟩ 0 0).log).flatten ↔
        xs = (table.filter fun c => c.pooled fussyAnswers).map SmbiosCall.logged) := by
  obtain ⟨l1, l2, l3, array, table, rfl, _, hread, _⟩ :=
    smbiosTable_run fussyAnswers bareTemplates ⟨Prod.mk, Prod.mk⟩ ⟨0x800000000, 0x200000000⟩ 0 0
      fussyAnswers_return
  exact ⟨l1, l2, l3, array, _, rfl, rfl, hread⟩

end AppleSilicon

import AppleSilicon.Dt.Lookup
import AppleSilicon.Hob.Reserve

/-!
# `MemoryPeim` of the T810X and the T602X families

Both declare the system memory, split the firmware device off its descriptor and then punch holes:
T810X for the framebuffer, the carveout of each CPU, the preloaded RAMDisk and the backing store
of the low-memory window (which is declared last), T602X for the carveouts only.

`none` is a call that does not return: an `ASSERT` that is compiled in and fails, a read outside
the memory, a `NULL` dereference.  The page tables (`BuildVirtualMemoryMap`, `InitMmu`) and
`BuildMemoryTypeInformationHob` create no resource descriptor and are left out; the HOB list at
the start is the one `BuildVirtualMemoryMap` leaves.

* `carveoutLoop_eq`      the loop over the CPUs makes the requests its carveouts ask for;
* `memoryPeim_success`   a run that returns `EFI_SUCCESS` is the requests of `Family.plan`.
-/

namespace AppleSilicon

/-- the PCDs that `MemoryPeim` reads -/
structure Pcds where
  systemMemoryBase : UInt64
  systemMemorySize : UInt64
  fdBaseAddress : UInt64
  fdSize : UInt32
  frameBufferAddress : UInt64
  frameBufferSize : UInt64
  coreCount : UInt32
  preloadedRamdiskBase : UInt64
  preloadedRamdiskMaxSize : UInt32
  lowMemoryWindowBase : UInt64
  lowMemoryWindowSize : UInt32
  lowMemoryWindowBackingBase : UInt64
  adtPointer : UInt64
  /-- `ASSERT` is compiled in (a bit of `PcdDebugPropertyMask`) -/
  debugAssertEnabled : Bool
deriving DecidableEq, Repr

namespace Pcds

def systemMemoryTop (pcd : Pcds) : UInt64 := pcd.systemMemoryBase + pcd.systemMemorySize

def fdTop (pcd : Pcds) : UInt64 := pcd.fdBaseAddress + pcd.fdSize.toUInt64

end Pcds

inductive EfiStatus where
  | success
  | invalidParameter
deriving DecidableEq, Repr

/-- `ASSERT (c)` -/
def debugAssert (pcd : Pcds) (c : Bool) : Option Unit :=
  if c = false ∧ pcd.debugAssertEnabled = true then none else some ()

/-! ## `VirtualDisplayValidateFramebufferRange` -/

def virtualDisplayPageMask : UInt64 := 0xfff

def maxUint32 : UInt64 := 0xffffffff

def maxUint64 : UInt64 := 0xffffffffffffffff

def virtualDisplayValidateFramebufferRange (base size systemMemoryBase systemMemorySize : UInt64) :
    Bool :=
  if base = 0 ∨ size = 0 ∨ size > maxUint32 ∨ (base ||| size) &&& virtualDisplayPageMask ≠ 0 then
    false
  else if base > maxUint64 - size ∨ systemMemoryBase > maxUint64 - systemMemorySize then
    false
  else
    base ≥ systemMemoryBase ∧ base + size ≤ systemMemoryBase + systemMemorySize

/-! ## the carveouts of the CPUs -/

/-- `%d` -/
def decimal (i : Int) : List Char :=
  if i < 0 then '-' :: Nat.toDigits 10 i.natAbs else Nat.toDigits 10 i.natAbs

/-- `AsciiSPrint (CpuNodeName, 14, "/cpus/cpu%d", i)`: 13 characters and the terminator fit -/
def cpuNodeName (i : ℕ) : List UInt8 :=
  (ascii (['/', 'c', 'p', 'u', 's', '/', 'c', 'p', 'u'] ++ decimal (i32 i))).take 13

def cpmImplReg : List UInt8 := ascii ['c', 'p', 'm', '-', 'i', 'm', 'p', 'l', '-', 'r', 'e', 'g']

section
variable (lib : AsciiLib) (mem : Mem) (fuel : ℕ)

/-- `dt_get(name)` -/
def dtGet (pcd : Pcds) (name : List UInt8) : Option (Option ℕ) :=
  dtFind lib mem fuel pcd.adtPointer.toNat name

/-- the base `Carveout[1] << 32 | Carveout[0]` and the size `Carveout[3] << 32 | Carveout[2]` -/
def carveoutWords (carveout : ℕ) : Option (UInt64 × UInt64) :=
  (mem.le32 carveout).bind fun c0 => (mem.le32 (carveout + 4)).bind fun c1 =>
  (mem.le32 (carveout + 8)).bind fun c2 => (mem.le32 (carveout + 12)).map fun c3 =>
    (UInt64.ofNat c1 <<< 32 ||| UInt64.ofNat c0, UInt64.ofNat c3 <<< 32 ||| UInt64.ofNat c2)

/-- a turn of the T810X loop: the carveout of CPU `i`, if it has one -/
def T810x.carveout (pcd : Pcds) (i : ℕ) : Option (Option (UInt64 × UInt64)) :=
  (dtGet lib mem fuel pcd (cpuNodeName i)).bind fun cpuNode =>
    match cpuNode with
    | none => some none
    | some cpuNode =>
      (dtProp lib mem cpuNode cpmImplReg).bind fun carveout =>
        match carveout with
        | none => some none
        | some (carveout, carveoutLength) =>
          if carveoutLength < 4 * 4 then some none else (carveoutWords mem carveout).map some

/-- a turn of the T602X loop: it asks neither for the node nor for the property -/
def T602x.carveout (pcd : Pcds) (i : ℕ) : Option (Option (UInt64 × UInt64)) :=
  (dtGet lib mem fuel pcd (cpuNodeName i)).bind fun cpuNode => cpuNode.bind fun cpuNode =>
    (dtProp lib mem cpuNode cpmImplReg).bind fun carveout => carveout.bind fun p =>
      (carveoutWords mem p.1).map some

end

/-- what the loop finds, with `n` turns left -/
def carveouts (carveout : ℕ → Option (Option (UInt64 × UInt64))) :
    ℕ → ℕ → Option (List (UInt64 × UInt64))
  | 0, _ => some []
  | n + 1, i => (carveout i).bind fun c => (carveouts carveout n (i + 1)).map fun cs =>
      c.toList ++ cs

section
variable (bump : Handoff → Hob → Handoff)

/-- the loop over the CPUs; the size goes through a `UINT32` parameter -/
def carveoutLoop (carveout : ℕ → Option (Option (UInt64 × UInt64))) :
    ℕ → ℕ → HobList → Option HobList
  | 0, _, hl => some hl
  | n + 1, i, hl => (carveout i).bind fun c =>
    match c with
    | none => carveoutLoop carveout n (i + 1) hl
    | some (base, size) =>
      carveoutLoop carveout n (i + 1) (reserveMemoryRegion bump base size.toUInt32 hl)

/-! ## the system memory and the firmware device -/

/-- the attributes `MemoryPeim` starts with: present, initialized, write-combineable,
write-through and write-back cacheable, tested -/
def resourceAttributes : UInt32 := 0x1 ||| 0x2 ||| 0x800 ||| 0x1000 ||| 0x2000 ||| 0x4

def declareSystemMemory (pcd : Pcds) (hl : HobList) : HobList :=
  let found := hl.resources.any fun d =>
    d.resourceType = resourceSystemMemory ∧ pcd.systemMemoryBase ≥ d.physicalStart ∧
      d.physicalStart + d.resourceLength ≤ pcd.systemMemoryBase + pcd.systemMemorySize
  if found then hl
  else HobList.build bump hl (.resource ⟨resourceSystemMemory, resourceAttributes,
    pcd.systemMemoryBase, pcd.systemMemorySize⟩)

/-- the body of the search: the firmware device is split off the descriptor `d` -/
def splitFd (pcd : Pcds) (memoryType : MemoryType) (d : ResourceDescriptor) :
    ResourceDescriptor × List Hob :=
  let size := pcd.fdSize.toUInt64
  let resourceTop := d.physicalStart + d.resourceLength
  let fd : Hob := .resource ⟨resourceSystemMemory, d.resourceAttribute, pcd.fdBaseAddress, size⟩
  let allocation : Hob := .memoryAllocation pcd.fdBaseAddress size memoryType
  if pcd.fdBaseAddress = d.physicalStart then
    if pcd.systemMemoryTop ≠ pcd.fdTop then
      ({ d with physicalStart := d.physicalStart + size,
                resourceLength := d.resourceLength - size }, [fd, allocation])
    else (d, [allocation])
  else
    ({ d with resourceLength := pcd.fdBaseAddress - d.physicalStart },
      if pcd.fdTop < d.physicalStart + d.resourceLength then
        [fd, .resource ⟨resourceSystemMemory, d.resourceAttribute, pcd.fdTop,
          resourceTop - pcd.fdTop⟩, allocation]
      else [fd, allocation])

/-- the firmware device gets a descriptor and a memory-allocation HOB of its own, if it is system
memory; `ResourceAttributes` is the variable of that name afterwards -/
def splitFirmwareDevice (pcd : Pcds) (memoryType : MemoryType) (hl : HobList) :
    Option (UInt32 × HobList) :=
  if pcd.fdBaseAddress ≥ pcd.systemMemoryBase ∧ pcd.fdTop ≤ pcd.systemMemoryTop then
    match HobList.rewriteFirst bump (covers pcd.fdBaseAddress pcd.fdTop) (splitFd pcd memoryType)
        hl with
    | some (d, hl') => some (d.resourceAttribute, hl')
    | none => (debugAssert pcd false).map fun _ => (resourceAttributes, hl)
  else some (resourceAttributes, hl)

/-! ## `MemoryPeim` -/

/-- the window of a preloaded RAMDisk -/
def reservePreloadedRamdisk (pcd : Pcds) (hl : HobList) : HobList :=
  if pcd.preloadedRamdiskBase ≠ 0 ∧ pcd.preloadedRamdiskMaxSize ≠ 0 then
    reserveMemoryRegion bump pcd.preloadedRamdiskBase pcd.preloadedRamdiskMaxSize hl
  else hl

/-- the low-memory window and its backing store -/
def declareLowMemoryWindow (pcd : Pcds) (attributes : UInt32) (hl : HobList) : HobList :=
  if pcd.lowMemoryWindowSize ≠ 0 then
    HobList.build bump
      (reserveMemoryRegion bump pcd.lowMemoryWindowBackingBase pcd.lowMemoryWindowSize hl)
      (.resource ⟨resourceSystemMemory, attributes, pcd.lowMemoryWindowBase,
        pcd.lowMemoryWindowSize.toUInt64⟩)
  else hl

section
variable (lib : AsciiLib) (mem : Mem) (fuel : ℕ)

/-- `MemoryPeim` of T810XFamilyPkg -/
def T810x.memoryPeim (pcd : Pcds) (hl : HobList) : Option (EfiStatus × HobList) :=
  (debugAssert pcd (pcd.systemMemorySize ≠ 0)).bind fun _ =>
  (splitFirmwareDevice bump pcd .bootServicesData (declareSystemMemory bump pcd hl)).bind fun s =>
    if virtualDisplayValidateFramebufferRange pcd.frameBufferAddress pcd.frameBufferSize
        pcd.systemMemoryBase pcd.systemMemorySize then
      let hl := reserveMemoryRegion bump pcd.frameBufferAddress pcd.frameBufferSize.toUInt32 s.2
      let hl := HobList.build bump hl
        (.memoryAllocation pcd.frameBufferAddress pcd.frameBufferSize .reservedMemoryType)
      (carveoutLoop bump (T810x.carveout lib mem fuel pcd) pcd.coreCount.toNat 0 hl).map fun hl =>
        (.success, declareLowMemoryWindow bump pcd s.1 (reservePreloadedRamdisk bump pcd hl))
    else (debugAssert pcd false).map fun _ => (.invalidParameter, s.2)

/-- `MemoryPeim` of T602XFamilyPkg -/
def T602x.memoryPeim (pcd : Pcds) (hl : HobList) : Option (EfiStatus × HobList) :=
  (debugAssert pcd (pcd.systemMemorySize ≠ 0)).bind fun _ =>
  (splitFirmwareDevice bump pcd .runtimeServicesData (declareSystemMemory bump pcd hl)).bind
    fun s =>
      (carveoutLoop bump (T602x.carveout lib mem fuel pcd) pcd.coreCount.toNat 0 s.2).map fun hl =>
        (.success, hl)

end

/-! ## the requests of a run -/

/-- a step of a run after the firmware device is split off -/
inductive Op where
  | reserve (r : Request)
  | build (h : Hob)

def Op.run : Op → HobList → HobList
  | .reserve r, hl => reserveMemoryRegion bump r.base r.size hl
  | .build h, hl => HobList.build bump hl h

def runOps (ops : List Op) (hl : HobList) : HobList := ops.foldl (fun hl op => op.run bump hl) hl

/-- no search of these steps takes the hand-off HOB for a descriptor -/
def handoffUnmatched : List Op → HobList → Prop
  | [], _ => True
  | .reserve r :: ops, hl =>
    hl.handoffMatched r = false ∧ handoffUnmatched ops ((Op.reserve r).run bump hl)
  | .build h :: ops, hl => handoffUnmatched ops ((Op.build h).run bump hl)

end

/-- the request for a carveout -/
def carveoutRequest (c : UInt64 × UInt64) : Request := ⟨c.1, c.2.toUInt32⟩

inductive Family where
  | t810x
  | t602x
deriving DecidableEq, Repr

namespace Family

def memoryPeim (family : Family) (bump : Handoff → Hob → Handoff) (lib : AsciiLib) (mem : Mem)
    (fuel : ℕ) : Pcds → HobList → Option (EfiStatus × HobList) :=
  match family with
  | .t810x => T810x.memoryPeim bump lib mem fuel
  | .t602x => T602x.memoryPeim bump lib mem fuel

/-- the memory type of the firmware device -/
def fdMemoryType : Family → MemoryType
  | .t810x => .bootServicesData
  | .t602x => .runtimeServicesData

def carveout (family : Family) (lib : AsciiLib) (mem : Mem) (fuel : ℕ) :
    Pcds → ℕ → Option (Option (UInt64 × UInt64)) :=
  match family with
  | .t810x => T810x.carveout lib mem fuel
  | .t602x => T602x.carveout lib mem fuel

/-- the carveouts of all CPUs -/
def carveouts (family : Family) (lib : AsciiLib) (mem : Mem) (fuel : ℕ) (pcd : Pcds) :
    Option (List (UInt64 × UInt64)) :=
  AppleSilicon.carveouts (family.carveout lib mem fuel pcd) pcd.coreCount.toNat 0

end Family

def Pcds.framebufferRequest (pcd : Pcds) : Request :=
  ⟨pcd.frameBufferAddress, pcd.frameBufferSize.toUInt32⟩

def Pcds.ramdiskRequests (pcd : Pcds) : List Request :=
  if pcd.preloadedRamdiskBase ≠ 0 ∧ pcd.preloadedRamdiskMaxSize ≠ 0 then
    [⟨pcd.preloadedRamdiskBase, pcd.preloadedRamdiskMaxSize⟩]
  else []

def Pcds.backingRequests (pcd : Pcds) : List Request :=
  if pcd.lowMemoryWindowSize ≠ 0 then
    [⟨pcd.lowMemoryWindowBackingBase, pcd.lowMemoryWindowSize⟩]
  else []

namespace Family

/-- the requests of a run, in order -/
def requests (family : Family) (pcd : Pcds) (cs : List (UInt64 × UInt64)) : List Request :=
  match family with
  | .t810x => pcd.framebufferRequest :: (cs.map carveoutRequest ++ pcd.ramdiskRequests ++
      pcd.backingRequests)
  | .t602x => cs.map carveoutRequest

/-- the steps of a run up to the low-memory window -/
def plan (family : Family) (pcd : Pcds) (cs : List (UInt64 × UInt64)) : List Op :=
  match family with
  | .t810x => .reserve pcd.framebufferRequest ::
      .build (.memoryAllocation pcd.frameBufferAddress pcd.frameBufferSize .reservedMemoryType) ::
      (cs.map carveoutRequest ++ pcd.ramdiskRequests ++ pcd.backingRequests).map Op.reserve
  | .t602x => (cs.map carveoutRequest).map Op.reserve

/-- the descriptor of the low-memory window -/
def lowMemoryWindow (family : Family) (pcd : Pcds) (attributes : UInt32) :
    List ResourceDescriptor :=
  match family with
  | .t810x =>
    if pcd.lowMemoryWindowSize ≠ 0 then
      [⟨resourceSystemMemory, attributes, pcd.lowMemoryWindowBase,
        pcd.lowMemoryWindowSize.toUInt64⟩]
    else []
  | .t602x => []

end Family

/-! ## a run is its requests -/

theorem runOps_append (bump : Handoff → Hob → Handoff) (xs ys : List Op) (hl : HobList) :
    runOps bump (xs ++ ys) hl = runOps bump ys (runOps bump xs hl) := by
  simp [runOps]

theorem runOps_cons (bump : Handoff → Hob → Handoff) (op : Op) (ops : List Op) (hl : HobList) :
    runOps bump (op :: ops) hl = runOps bump ops (op.run bump hl) := rfl

/-- the loop over the CPUs makes the requests of the carveouts it finds -/
theorem carveoutLoop_eq (bump : Handoff → Hob → Handoff)
    (carveout : ℕ → Option (Option (UInt64 × UInt64))) (n i : ℕ) (hl : HobList) :
    carveoutLoop bump carveout n i hl = (carveouts carveout n i).map fun cs =>
      runOps bump ((cs.map carveoutRequest).map Op.reserve) hl := by
  induction n generalizing i hl with
  | zero => rfl
  | succ n ih =>
    rw [carveoutLoop, carveouts]
    cases hc : carveout i with
    | none => rfl
    | some c =>
      rw [Option.bind_some, Option.bind_some, Option.map_map]
      cases c with
      | none => exact ih (i + 1) hl
      | some p => exact ih (i + 1) (reserveMemoryRegion bump p.1 p.2.toUInt32 hl)

/-- **a run that returns `EFI_SUCCESS`** is the steps of its plan, and then the low-memory window
is declared -/
theorem memoryPeim_success (family : Family) (bump : Handoff → Hob → Handoff) (lib : AsciiLib)
    (mem : Mem) (fuel : ℕ) (pcd : Pcds) (hl hl' : HobList)
    (hrun : family.memoryPeim bump lib mem fuel pcd hl = some (.success, hl')) :
    ∃ attributes start cs,
      splitFirmwareDevice bump pcd family.fdMemoryType (declareSystemMemory bump pcd hl)
        = some (attributes, start) ∧
      family.carveouts lib mem fuel pcd = some cs ∧
      (family = .t810x → virtualDisplayValidateFramebufferRange pcd.frameBufferAddress
        pcd.frameBufferSize pcd.systemMemoryBase pcd.systemMemorySize = true) ∧
      hl' = HobList.buildAll bump (runOps bump (family.plan pcd cs) start)
        ((family.lowMemoryWindow pcd attributes).map Hob.resource) := by
  cases family with
  | t810x =>
    obtain ⟨_, _, h⟩ := Option.bind_eq_some_iff.mp hrun
    obtain ⟨s, hs, h⟩ := Option.bind_eq_some_iff.mp h
    by_cases hfb : virtualDisplayValidateFramebufferRange pcd.frameBufferAddress
        pcd.frameBufferSize pcd.systemMemoryBase pcd.systemMemorySize = true
    · rw [if_pos hfb] at h
      simp only [carveoutLoop_eq, Option.map_map] at h
      obtain ⟨cs, hcs, h⟩ := Option.map_eq_some_iff.mp h
      obtain rfl := (Prod.mk.inj h).2
      refine ⟨s.1, s.2, cs, hs, hcs, fun _ => hfb, ?_⟩
      simp only [Family.plan, Family.lowMemoryWindow, List.map_append, runOps_cons, runOps_append,
        declareLowMemoryWindow, reservePreloadedRamdisk, Pcds.ramdiskRequests,
        Pcds.backingRequests]
      by_cases h1 : pcd.preloadedRamdiskBase ≠ 0 ∧ pcd.preloadedRamdiskMaxSize ≠ 0
      · by_cases h2 : pcd.lowMemoryWindowSize ≠ 0
        · simp only [if_pos h1, if_pos h2]
          rfl
        · simp only [if_pos h1, if_neg h2]
          rfl
      · by_cases h2 : pcd.lowMemoryWindowSize ≠ 0
        · simp only [if_neg h1, if_pos h2]
          rfl
        · simp only [if_neg h1, if_neg h2]
          rfl
    · rw [if_neg hfb] at h
      obtain ⟨_, _, he⟩ := Option.map_eq_some_iff.mp h
      cases (Prod.mk.inj he).1
  | t602x =>
    obtain ⟨_, _, h⟩ := Option.bind_eq_some_iff.mp hrun
    obtain ⟨s, hs, h⟩ := Option.bind_eq_some_iff.mp h
    simp only [carveoutLoop_eq, Option.map_map] at h
    obtain ⟨cs, hcs, h⟩ := Option.map_eq_some_iff.mp h
    obtain rfl := (Prod.mk.inj h).2
    exact ⟨s.1, s.2, cs, hs, hcs, (fun h => nomatch h), rfl⟩

end AppleSilicon

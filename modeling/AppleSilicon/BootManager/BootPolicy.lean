import AppleSilicon.BootManager.DevicePath
import AppleSilicon.Lib.Fuel
import AppleSilicon.Lib.Status

/-!
# Which images may be loaded

The boot manager takes over `gBS->LoadImage`.  `LocalLoadImage` asks
`MsBootPolicyLibIsDevicePathBootable` and passes on what it allows: a path that is not valid is
denied, and so is one that starts with the path of the SD card, and one with a USB node where the
setting turns USB off.  The front of a path is compared byte by byte; since a node carries its
length, that compares whole nodes.

`none` is a read outside the memory, or a loop that the fuel does not suffice for.

* `sdCardExcluded_eq`        the bytes that are compared, as nodes;
* `usbLoop_eq`               the loop that looks for a USB node;
* `devicePathBootable_iff`   the policy, on the nodes of a path;
* `localLoadImage_iff`       which calls reach the loader of the system.
-/

namespace AppleSilicon

/-- `EFI_ACCESS_DENIED` -/
def StatusCode.accessDenied : StatusCode := 0x800000000000000f

/-! ## the protocol it calls -/

/-- `gDfciSettingAccessProtocolGuid`: whether it is there, and what `Get` makes of the buffer for a
setting that may be enabled -/
structure DfciSettingAccess where
  located : StatusCode
  get : Bool → StatusCode × Bool

/-- `EnableUsbBoot` after the setting was asked for; the status of `Get` is only printed -/
def DfciSettingAccess.enableUsbBoot (settings : DfciSettingAccess) : Bool :=
  if settings.located.isError then true else (settings.get true).2

/-! ## `MsBootPolicyLibIsDevicePathBootable` -/

def messagingDevicePath : UInt8 := 3

def msgUsbDp : UInt8 := 0x5

def msgUsbClassDp : UInt8 := 0xf

def msgUsbWwidDp : UInt8 := 0x10

/-- any type of USB device -/
def isUsbSubType (subType : UInt8) : Bool :=
  subType = msgUsbDp ∨ subType = msgUsbWwidDp ∨ subType = msgUsbClassDp

section
variable (lib : DevicePathLib) (mem : Mem)

/-- the front of the path is the path of the SD card without its end node -/
def sdCardExcluded (sdCard : Option ℕ) (path : ℕ) : Option Bool :=
  match sdCard with
  | none => some false
  | some sdCard =>
    let sdSize := lib.getDevicePathSize mem sdCard
    if lib.getDevicePathSize mem path > sdSize then
      compareMem mem (sdSize - UInt64.ofNat endDevicePathLength).toNat path sdCard
    else some false

/-- the body of the loop over the nodes: it breaks at a USB node -/
def usbBody (node : ℕ) (_ : Unit) : Option (Turn Unit Unit) :=
  (mem node).bind fun type =>
    if type = messagingDevicePath then
      (mem (node + 1)).map fun subType => if isUsbSubType subType then .leave () else .again ()
    else some (.again ())

def msBootPolicyLibIsDevicePathBootable (maxSize : ℕ) (sdCard : Option ℕ)
    (settings : DfciSettingAccess) (fuel : ℕ) (devicePath : Option ℕ) : Option Bool :=
  match devicePath with
  | none => some true
  | some path =>
    if lib.isDevicePathValid mem maxSize path then
      (sdCardExcluded lib mem sdCard path).bind fun excluded =>
        if excluded then some false
        else if settings.enableUsbBoot then some true
        else (pathLoop lib mem (usbBody mem) fuel path ()).map Sum.isLeft
    else some false

/-! ## `LocalLoadImage` -/

/-- the arguments of `LoadImage` -/
structure LoadImageCall where
  bootPolicy : Bool
  parentImageHandle : ℕ
  devicePath : Option ℕ
  sourceBuffer : Option ℕ
  sourceSize : ℕ

/-- `LocalLoadImage` in front of `gSystemLoadImage` -/
def localLoadImage {S : Type*} (gSystemLoadImage : LoadImageCall → S → StatusCode × S)
    (maxSize : ℕ) (sdCard : Option ℕ) (settings : DfciSettingAccess) (call : LoadImageCall) (s : S)
    (fuel : ℕ) : Option (StatusCode × S) :=
  if call.devicePath ≠ none then
    (msBootPolicyLibIsDevicePathBootable lib mem maxSize sdCard settings fuel call.devicePath).map
      fun bootable => if bootable then gSystemLoadImage call s else (.accessDenied, s)
  else some (gSystemLoadImage call s)

end

/-! ## the policy, on nodes -/

def DevicePathNode.IsUsb (n : DevicePathNode) : Prop :=
  n.type = messagingDevicePath ∧ isUsbSubType n.subType = true

instance (n : DevicePathNode) : Decidable n.IsUsb := inferInstanceAs (Decidable (_ ∧ _))

/-- something behind the SD card -/
def BehindSdCard (sdCard : Option (List DevicePathNode)) (nodes : List DevicePathNode) : Prop :=
  ∃ sd, sdCard = some sd ∧ sd <+: nodes ∧ sd ≠ nodes

/-- the path may be booted from -/
def BootAllowed (sdCard : Option (List DevicePathNode)) (enableUsbBoot : Bool)
    (nodes : List DevicePathNode) : Prop :=
  ¬ BehindSdCard sdCard nodes ∧ (enableUsbBoot = true ∨ ∀ n ∈ nodes, ¬ n.IsUsb)

section
variable (lib : DevicePathLib) (hlib : lib.Documented) (mem : Mem) (maxSize : ℕ)
include hlib

/-- **the comparison** with the SD card compares nodes -/
theorem sdCardExcluded_eq (path sd : ℕ) (nodes sdNodes : List DevicePathNode)
    (hvalid : lib.isDevicePathValid mem maxSize path = true)
    (hnodes : mem.Holds path (pathBytes nodes))
    (hsd : lib.isDevicePathValid mem maxSize sd = true) (hsdNodes : mem.Holds sd (pathBytes sdNodes)) :
    ∃ b, sdCardExcluded lib mem (some sd) path = some b ∧
      (b = true ↔ sdNodes <+: nodes ∧ sdNodes ≠ nodes) := by
  have hsize := hlib.size mem maxSize path nodes hvalid hnodes
  have hsdSize := hlib.size mem maxSize sd sdNodes hsd hsdNodes
  have hend := pathBytes_length sdNodes
  have hcmp : lib.getDevicePathSize mem path > lib.getDevicePathSize mem sd ↔
      (pathBytes sdNodes).length < (pathBytes nodes).length := by
    rw [gt_iff_lt, UInt64.lt_iff_toNat_lt, hsize, hsdSize]
  have hlen : (lib.getDevicePathSize mem sd - UInt64.ofNat endDevicePathLength).toNat
      = (sdNodes.flatMap DevicePathNode.bytes).length := by
    have h4 : (UInt64.ofNat endDevicePathLength).toNat = endDevicePathLength := by decide
    rw [UInt64.toNat_sub_of_le, h4, hsdSize, hend, Nat.add_sub_cancel]
    rw [UInt64.le_iff_toNat_le, h4, hsdSize, hend]
    exact Nat.le_add_left _ _
  have hcode := devicePath_code
  unfold sdCardExcluded
  by_cases hlt : (pathBytes sdNodes).length < (pathBytes nodes).length
  · simp only [if_pos (hcmp.mpr hlt), hlen]
    rw [compareMem_holds mem _ _ path sd _ hnodes hsdNodes (by omega) (by omega)]
    refine ⟨_, rfl, ?_⟩
    rw [decide_eq_true_iff]
    have htake : (pathBytes sdNodes).take (sdNodes.flatMap DevicePathNode.bytes).length
        = sdNodes.flatMap DevicePathNode.bytes := List.take_left ..
    have hne : sdNodes ≠ nodes := fun heq => absurd hlt (by rw [heq]; exact lt_irrefl _)
    rw [htake, and_iff_left hne, ← hcode.records_prefix_iff sdNodes nodes [], List.append_nil]
    constructor
    · intro heq
      rw [← heq]
      exact List.take_prefix _ _
    · intro hp
      exact (List.prefix_iff_eq_take.mp hp).symm
  · simp only [if_neg (fun h => hlt (hcmp.mp h))]
    refine ⟨false, rfl, ?_⟩
    simp only [Bool.false_eq_true, false_iff, not_and, not_not]
    intro hp
    by_contra hne
    exact hlt (hcode.stream_length_lt sdNodes nodes hp hne)

end

/-- what the loop does at a node -/
def usbStep (n : DevicePathNode) (_ : ℕ) (_ : Unit) : Turn Unit Unit :=
  if n.IsUsb then .leave () else .again ()

/-- **the loop** comes to the end exactly when no node is a USB device -/
theorem usbLoop_eq (lib : DevicePathLib) (hlib : lib.Documented) (mem : Mem) (path fuel : ℕ)
    (nodes : List DevicePathNode) (hfuel : nodes.length < fuel)
    (h : mem.Holds path (pathBytes nodes)) :
    (pathLoop lib mem (usbBody mem) fuel path ()).map Sum.isLeft
      = some (decide (∀ n ∈ nodes, ¬ n.IsUsb)) := by
  have hbody : ∀ (n : DevicePathNode) node (s : Unit), mem.Holds node n.bytes →
      usbBody mem node s = some (usbStep n node s) := by
    intro n node s hn
    obtain ⟨h0, h1⟩ := node_fields mem node n hn
    unfold usbBody usbStep
    rw [h0, Option.bind_some]
    by_cases ht : n.type = messagingDevicePath
    · rw [if_pos ht, h1]
      simp [DevicePathNode.IsUsb, ht]
    · rw [if_neg ht, if_neg fun hu => ht hu.1]
  rw [pathLoop_visits lib hlib mem _ usbStep hbody nodes path fuel () hfuel h, Option.map_some]
  congr 1
  clear hfuel h
  induction nodes generalizing path with
  | nil => simp [visitNodes]
  | cons n ns ih =>
    rw [visitNodes, usbStep]
    by_cases hu : n.IsUsb
    · simp [hu]
    · simp [hu, ih]

section
variable (lib : DevicePathLib) (hlib : lib.Documented) (mem : Mem) (maxSize : ℕ)
variable (sdCard : Option (ℕ × List DevicePathNode))
variable (hsd : ∀ sd ∈ sdCard, lib.isDevicePathValid mem maxSize sd.1 = true ∧
  mem.Holds sd.1 (pathBytes sd.2))
variable (path : ℕ) (nodes : List DevicePathNode)
variable (hvalid : lib.isDevicePathValid mem maxSize path = true)
variable (hnodes : mem.Holds path (pathBytes nodes))
include hlib hsd hvalid hnodes

/-- with or without an SD card -/
theorem sdCardExcluded_behind : ∃ b, sdCardExcluded lib mem (sdCard.map Prod.fst) path = some b ∧
    (b = true ↔ BehindSdCard (sdCard.map Prod.snd) nodes) := by
  cases sdCard with
  | none => exact ⟨false, rfl, by simp [BehindSdCard]⟩
  | some sd =>
    obtain ⟨hsdValid, hsdNodes⟩ := hsd sd rfl
    obtain ⟨b, hb, hiff⟩ := sdCardExcluded_eq lib hlib mem maxSize path sd.1 nodes sd.2 hvalid
      hnodes hsdValid hsdNodes
    exact ⟨b, hb, by simpa [BehindSdCard] using hiff⟩

/-- **the policy**: the function says of a valid path whether its nodes are allowed -/
theorem devicePathBootable_iff (settings : DfciSettingAccess) :
    ∃ b, (∀ fuel, nodes.length < fuel → msBootPolicyLibIsDevicePathBootable lib mem maxSize
        (sdCard.map Prod.fst) settings fuel (some path) = some b) ∧
      (b = true ↔ BootAllowed (sdCard.map Prod.snd) settings.enableUsbBoot nodes) := by
  -- the SD card comes first
  obtain ⟨excluded, hex, hbehind⟩ := sdCardExcluded_behind lib hlib mem maxSize sdCard hsd path nodes
    hvalid hnodes
  refine ⟨!excluded && (settings.enableUsbBoot || decide (∀ n ∈ nodes, ¬ n.IsUsb)), ?_, ?_⟩
  · intro fuel hfuel
    rw [msBootPolicyLibIsDevicePathBootable, if_pos hvalid, hex, Option.bind_some,
      usbLoop_eq lib hlib mem path fuel nodes hfuel hnodes]
    cases excluded with
    | true => simp
    | false =>
      cases settings.enableUsbBoot with
      | true => simp
      | false => simp
  · unfold BootAllowed
    rw [← hbehind]
    simp

end

/-- **which images are loaded**: a call with a valid device path reaches the loader of the system
exactly when the path does not lie behind the SD card and, with USB boot turned off, has no USB
node; a path that is not valid is denied, and a call without one passes.  A denied call changes
nothing -/
theorem localLoadImage_iff {S : Type*} (lib : DevicePathLib) (hlib : lib.Documented) (mem : Mem)
    (maxSize : ℕ) (sdCard : Option (ℕ × List DevicePathNode))
    (hsd : ∀ sd ∈ sdCard, lib.isDevicePathValid mem maxSize sd.1 = true ∧
      mem.Holds sd.1 (pathBytes sd.2))
    (settings : DfciSettingAccess) (gSystemLoadImage : LoadImageCall → S → StatusCode × S)
    (call : LoadImageCall) (s : S) :
    let outcome := Returns (localLoadImage lib mem gSystemLoadImage maxSize (sdCard.map Prod.fst)
      settings call s)
    (call.devicePath = none → outcome (gSystemLoadImage call s)) ∧
    ∀ path, call.devicePath = some path →
      (lib.isDevicePathValid mem maxSize path = false → outcome (.accessDenied, s)) ∧
      (lib.isDevicePathValid mem maxSize path = true →
        (∃ nodes, mem.Holds path (pathBytes nodes)) ∧
        ∀ nodes, mem.Holds path (pathBytes nodes) →
          (BootAllowed (sdCard.map Prod.snd) settings.enableUsbBoot nodes →
            outcome (gSystemLoadImage call s)) ∧
          (¬ BootAllowed (sdCard.map Prod.snd) settings.enableUsbBoot nodes →
            outcome (.accessDenied, s))) := by
  intro outcome
  refine ⟨?_, ?_⟩
  · intro hnone
    exact ⟨0, fun fuel _ => by simp [localLoadImage, hnone]⟩
  · intro path hpath
    have hsome : call.devicePath ≠ none := by simp [hpath]
    refine ⟨?_, ?_⟩
    · intro hinvalid
      refine ⟨0, fun fuel _ => ?_⟩
      rw [localLoadImage, if_pos hsome, hpath, msBootPolicyLibIsDevicePathBootable]
      simp [hinvalid]
    · intro hvalid
      refine ⟨hlib.valid mem maxSize path hvalid, ?_⟩
      intro nodes hnodes
      obtain ⟨bootable, hbootable, hallowed⟩ := devicePathBootable_iff lib hlib mem maxSize sdCard
        hsd path nodes hvalid hnodes settings
      rw [← hallowed]
      refine ⟨?_, ?_⟩
      · intro ha
        refine ⟨nodes.length + 1, fun fuel hfuel => ?_⟩
        rw [localLoadImage, if_pos hsome, hpath, hbootable fuel hfuel, ha]
        rfl
      · intro hn
        refine ⟨nodes.length + 1, fun fuel hfuel => ?_⟩
        rw [localLoadImage, if_pos hsome, hpath, hbootable fuel hfuel,
          Bool.eq_false_iff.mpr hn]
        rfl

/-! ## an example -/

/-- a controller with a USB device behind it -/
def usbStick : List DevicePathNode :=
  [⟨1, 1, [0, 2], by decide, by decide⟩, ⟨messagingDevicePath, msgUsbDp, [3, 0], by decide, by decide⟩]

def usbStickMem : Mem := fun a => (pathBytes usbStick)[a]?

/-- with USB boot turned off it is denied -/
theorem usbStick_denied : Returns (localLoadImage walkLib usbStickMem
    (fun _ (n : ℕ) => (StatusCode.success, n + 1)) 0 none ⟨.success, fun _ => (.success, false)⟩
    ⟨true, 0, some 0, none, 0⟩ 0) (.accessDenied, 0) := by
  have hholds : usbStickMem.Holds 0 (pathBytes usbStick) := by
    intro i _
    rw [Nat.zero_add]
    rfl
  obtain ⟨_, h⟩ := localLoadImage_iff walkLib walkLib_documented usbStickMem 0 none (by simp)
    ⟨.success, fun _ => (.success, false)⟩ (fun _ (n : ℕ) => (StatusCode.success, n + 1))
    ⟨true, 0, some 0, none, 0⟩ 0
  obtain ⟨_, hnodes⟩ := (h 0 rfl).2 (by decide +kernel)
  apply (hnodes usbStick hholds).2
  intro hallowed
  cases hallowed.2 with
  | inl hon => exact absurd hon (by decide)
  | inr hnone => exact hnone _ (List.mem_cons_of_mem _ (List.mem_singleton.mpr rfl)) (by decide)

end AppleSilicon

import AppleSilicon.Boot.EarlySetup
import AppleSilicon.Hob.Protected

/-!
# The framebuffer in three phases

`EarlySetup` publishes the framebuffer with its size rounded up, `MemoryPeim` validates that range
and reserves it with a size of 32 bits, and `SimpleFbDxe` takes the geometry from the copy of
`boot_args`.  Where all three accept, no conversion loses a bit and every pixel lies in the range
that was reserved.

* `simpleFb_mode`        what the geometry checks of `SimpleFbDxe` promise;
* `pixel_lt`             a pixel lies inside the lines;
* `framebuffer_agrees`   the three phases.
-/

namespace AppleSilicon

/-- `VirtualDisplayValidateGeometry` -/
def virtualDisplayValidateGeometry (width height stride depth : UInt32) : Bool :=
  if width = 0 ∨ height = 0 ∨ depth ≠ 32 then false
  else if stride &&& (4 - 1) ≠ 0 then false
  else stride.toUInt64 ≥ width.toUInt64 * 4

/-- what `SimpleFbDxe` reports as its mode -/
structure GopMode where
  horizontalResolution : UInt32
  verticalResolution : UInt32
  pixelsPerScanLine : UInt32
  frameBufferBase : UInt64
  frameBufferSize : UInt64
deriving DecidableEq, Repr

/-- `SimpleFbDxeInitialize`, up to its mode; `bootArgs` is what lies at the pointer, and `none` is
`EFI_INVALID_PARAMETER` -/
def simpleFbDxeInitialize (pcdBootArgsPointer : UInt64) (bootArgs : BootArgs) : Option GopMode :=
  let video := bootArgs.video
  if pcdBootArgsPointer = 0 then none
  else if video.base = 0 ∨ video.width > maxUint32 ∨ video.height > maxUint32 ∨
      video.stride > maxUint32 ∨ video.depth > maxUint32 ∨
      virtualDisplayValidateGeometry video.width.toUInt32 video.height.toUInt32
        video.stride.toUInt32 video.depth.toUInt32 = false then none
  else
    let framebufferWidth := video.width.toUInt32
    let framebufferHeight := video.height.toUInt32
    let framebufferStride := video.stride.toUInt32
    some { horizontalResolution := framebufferWidth
           verticalResolution := framebufferHeight
           pixelsPerScanLine := framebufferStride / 4
           frameBufferBase := video.base
           frameBufferSize := framebufferStride.toUInt64 * framebufferHeight.toUInt64 }

/-- the bytes that the mode covers -/
def GopMode.piece (mode : GopMode) : Piece ℕ :=
  ⟨mode.frameBufferBase.toNat, mode.frameBufferBase.toNat + mode.frameBufferSize.toNat⟩

/-! ## the geometry -/

theorem toUInt32_toNat_of_le (v : UInt64) (h : ¬ v > maxUint32) : v.toUInt32.toNat = v.toNat := by
  have hmax : maxUint32.toNat = 2^32 - 1 := by decide
  rw [gt_iff_lt, UInt64.lt_iff_toNat_lt, hmax] at h
  rw [UInt64.toNat_toUInt32]
  exact Nat.mod_eq_of_lt (by omega)

/-- the geometry as numbers: lines of whole pixels that hold the width -/
structure Geometry (width height stride : ℕ) : Prop where
  width_pos : 0 < width
  height_pos : 0 < height
  aligned : stride % 4 = 0
  holds : width * 4 ≤ stride

theorem validGeometry (width height stride depth : UInt32)
    (h : virtualDisplayValidateGeometry width height stride depth = true) :
    Geometry width.toNat height.toNat stride.toNat := by
  unfold virtualDisplayValidateGeometry at h
  by_cases h1 : width = 0 ∨ height = 0 ∨ depth ≠ 32
  · rw [if_pos h1] at h
    cases h
  · rw [if_neg h1] at h
    rw [not_or, not_or] at h1
    have hpos : ∀ v : UInt32, v ≠ 0 → 0 < v.toNat := by
      intro v hv
      have hne : v.toNat ≠ 0 := fun h0 => hv (UInt32.toNat_inj.mp h0)
      omega
    by_cases h2 : stride &&& (4 - 1) ≠ 0
    · rw [if_pos h2] at h
      cases h
    · rw [if_neg h2, decide_eq_true_eq, ge_iff_le, UInt64.le_iff_toNat_le, UInt64.toNat_mul,
        UInt32.toNat_toUInt64, UInt32.toNat_toUInt64] at h
      rw [not_not] at h2
      have hand := congrArg UInt32.toNat h2
      have hmask : ((4 : UInt32) - 1).toNat = 2^2 - 1 := by decide
      rw [UInt32.toNat_and, hmask, Nat.and_two_pow_sub_one_eq_mod] at hand
      have hw := width.toNat_lt
      have hfour : (4 : UInt64).toNat = 4 := rfl
      rw [hfour] at h
      exact ⟨hpos width h1.1, hpos height h1.2.1, hand, by omega⟩

/-- a pixel lies inside the lines -/
theorem pixel_lt (width height stride x y k : ℕ) (h : Geometry width height stride)
    (hx : x < width) (hy : y < height) (hk : k < 4) :
    y * stride + 4 * x + k < stride * height := by
  have hle : (y + 1) * stride ≤ height * stride := Nat.mul_le_mul_right _ hy
  have hholds := h.holds
  rw [Nat.succ_mul] at hle
  rw [Nat.mul_comm stride height]
  omega

/-- two factors of 32 bits leave room for the rounding -/
theorem stride_mul_height (s h : ℕ) (hs : s < 2^32) (hh : h < 2^32) : s * h + 0x3fff < 2^64 := by
  have hle : s * h ≤ (2^32 - 1) * (2^32 - 1) := Nat.mul_le_mul (by omega) (by omega)
  omega

/-- **what the checks of `SimpleFbDxe` promise**: the mode is the geometry of `boot_args`, with no
bit lost -/
theorem simpleFb_mode (pcdBootArgsPointer : UInt64) (bootArgs : BootArgs) (mode : GopMode)
    (h : simpleFbDxeInitialize pcdBootArgsPointer bootArgs = some mode) :
    Geometry bootArgs.video.width.toNat bootArgs.video.height.toNat bootArgs.video.stride.toNat ∧
    bootArgs.video.height.toNat < 2^32 ∧ bootArgs.video.stride.toNat < 2^32 ∧
    mode.horizontalResolution.toNat = bootArgs.video.width.toNat ∧
    mode.verticalResolution.toNat = bootArgs.video.height.toNat ∧
    mode.pixelsPerScanLine.toNat * 4 = bootArgs.video.stride.toNat ∧
    mode.frameBufferBase = bootArgs.video.base ∧
    mode.frameBufferSize.toNat = bootArgs.video.stride.toNat * bootArgs.video.height.toNat := by
  obtain ⟨_, _, _, ⟨base, _, stride, width, height, depth⟩, _, _⟩ := bootArgs
  simp only [simpleFbDxeInitialize] at h
  by_cases hp : pcdBootArgsPointer = 0
  · rw [if_pos hp] at h
    cases h
  · rw [if_neg hp] at h
    by_cases hc : base = 0 ∨ width > maxUint32 ∨ height > maxUint32 ∨ stride > maxUint32 ∨
        depth > maxUint32 ∨ virtualDisplayValidateGeometry width.toUInt32 height.toUInt32
          stride.toUInt32 depth.toUInt32 = false
    · rw [if_pos hc] at h
      cases h
    · rw [if_neg hc] at h
      obtain rfl := Option.some.inj h
      simp only [not_or, Bool.not_eq_false] at hc
      obtain ⟨_, hw, hh, hs, _, hgeo⟩ := hc
      have hgeo := validGeometry _ _ _ _ hgeo
      have ew := toUInt32_toNat_of_le width hw
      have eh := toUInt32_toNat_of_le height hh
      have es := toUInt32_toNat_of_le stride hs
      have hlt := height.toUInt32.toNat_lt
      have slt := stride.toUInt32.toNat_lt
      rw [ew, eh, es] at hgeo
      have halign := hgeo.aligned
      rw [eh] at hlt
      rw [es] at slt
      have hprod : stride.toNat * height.toNat < 2^64 :=
        (Nat.le_add_right _ _).trans_lt (stride_mul_height _ _ slt hlt)
      refine ⟨hgeo, hlt, slt, ew, eh, ?_, rfl, ?_⟩
      · have hdiv : (stride.toUInt32 / 4).toNat = stride.toUInt32.toNat / 4 := UInt32.toNat_div _ _
        show (stride.toUInt32 / 4).toNat * 4 = stride.toNat
        rw [hdiv, es]
        omega
      · show (stride.toUInt32.toUInt64 * height.toUInt32.toUInt64).toNat = _
        rw [UInt64.toNat_mul, UInt32.toNat_toUInt64, UInt32.toNat_toUInt64, es, eh,
          Nat.mod_eq_of_lt hprod]

/-! ## the three phases -/

/-- **the three phases agree on the framebuffer**: where `EarlySetup` publishes, `MemoryPeim`
validates and `SimpleFbDxe` accepts the same `boot_args`, no conversion loses a bit, and every pixel
lies in the published range, which lies in the system memory -/
theorem framebuffer_agrees (mem mem' : Mem) (bootArgsAddr : ℕ)
    (pcdBootArgsPointer pcdAdtPointer : UInt64) (p : Published) (pcd0 pcd : Pcds)
    (bootArgs : BootArgs) (mode : GopMode)
    (hearly : earlySetup mem bootArgsAddr pcdBootArgsPointer pcdAdtPointer = some (mem', some p))
    (hpcd : pcd = pcd0.publish p) (hargs : mem'.bootArgs bootArgsAddr = some bootArgs)
    (hpeim : virtualDisplayValidateFramebufferRange pcd.frameBufferAddress pcd.frameBufferSize
      pcd.systemMemoryBase pcd.systemMemorySize = true)
    (hgop : simpleFbDxeInitialize pcdBootArgsPointer bootArgs = some mode) :
    (bootArgs.video.stride * bootArgs.video.height).toNat
      = bootArgs.video.stride.toNat * bootArgs.video.height.toNat ∧
    pcd.frameBufferSize.toNat
      = (bootArgs.video.stride.toNat * bootArgs.video.height.toNat + 0x3fff) / 0x4000 * 0x4000 ∧
    pcd.framebufferRequest.piece = pcd.framebuffer ∧
    pcd.systemMemoryBase = bootArgs.physBase ∧ pcd.systemMemorySize = bootArgs.memSize ∧
    mode.pixelsPerScanLine.toNat * 4 = bootArgs.video.stride.toNat ∧
    mode.horizontalResolution.toNat = bootArgs.video.width.toNat ∧
    mode.verticalResolution.toNat = bootArgs.video.height.toNat ∧
    mode.frameBufferSize.toNat
      = bootArgs.video.stride.toNat * bootArgs.video.height.toNat ∧
    mode.piece.Inside pcd.framebuffer ∧
    (∀ x y k, x < bootArgs.video.width.toNat → y < bootArgs.video.height.toNat → k < 4 →
      pcd.framebuffer.Has
        (bootArgs.video.base.toNat + y * bootArgs.video.stride.toNat + 4 * x + k)) ∧
    pcd.framebuffer.Inside pcd.systemMemory ∧ pcd.systemMemory.hi < 2^64 := by
  obtain ⟨bootArgs', hargs', rfl, _⟩ := earlySetup_published _ _ _ _ _ _ hearly
  obtain rfl := Option.some.inj (hargs'.symm.trans hargs)
  obtain ⟨hgeo, hh, hs, hw, hv, hpix, hbase, hsize⟩ := simpleFb_mode _ _ _ hgop
  obtain ⟨hin, hsum, h32⟩ := validFramebuffer_inside pcd hpeim
  have hfit := stride_mul_height _ _ hs hh
  have hprod : (bootArgs'.video.stride * bootArgs'.video.height).toNat
      = bootArgs'.video.stride.toNat * bootArgs'.video.height.toNat := by
    rw [UInt64.toNat_mul, Nat.mod_eq_of_lt (by omega)]
  have haddr : pcd.frameBufferAddress = bootArgs'.video.base := by rw [hpcd]; rfl
  have hround : pcd.frameBufferSize.toNat = (bootArgs'.video.stride.toNat
      * bootArgs'.video.height.toNat + 0x3fff) / 0x4000 * 0x4000 := by
    rw [hpcd, ← hprod]
    exact alignUp_toNat _ (by rw [hprod]; exact hfit)
  -- the published size is at least the size of the mode
  have hge : bootArgs'.video.stride.toNat * bootArgs'.video.height.toNat
      ≤ pcd.frameBufferSize.toNat := by
    rw [hround]
    omega
  have hcut : pcd.framebufferRequest.piece = pcd.framebuffer := by
    rw [Pcds.framebuffer, Request.piece, Pcds.framebufferRequest, UInt64.toNat_toUInt32,
      Nat.mod_eq_of_lt h32]
  refine ⟨hprod, hround, hcut, by rw [hpcd]; rfl, ?_, hpix, hw, hv, hsize, ⟨?_, ?_⟩, ?_, hin, hsum⟩
  · rw [hpcd]
    show bootArgs'.physBase + bootArgs'.memSize - bootArgs'.physBase = bootArgs'.memSize
    rw [add_sub_cancel_left]
  · show pcd.frameBufferAddress.toNat ≤ mode.frameBufferBase.toNat
    rw [haddr, hbase]
  · show mode.frameBufferBase.toNat + mode.frameBufferSize.toNat
      ≤ pcd.frameBufferAddress.toNat + pcd.frameBufferSize.toNat
    rw [haddr, hbase, hsize]
    omega
  · intro x y k hx hy hk
    have hlt := pixel_lt _ _ _ x y k hgeo hx hy hk
    refine ⟨?_, ?_⟩
    · show pcd.frameBufferAddress.toNat ≤ _
      rw [haddr]
      omega
    · show _ < pcd.frameBufferAddress.toNat + pcd.frameBufferSize.toNat
      rw [haddr]
      omega

/-- `boot_args` for a display of 2388 x 1668 pixels in front of 8 GiB of memory -/
def exampleBootArgs : BootArgs where
  virtBase := 0xfffffe0000000000
  physBase := 0x800000000
  memSize := 0x200000000
  video := ⟨0x9e0000000, 0, 0x2560, 2388, 1668, 32⟩
  devtree := 0xfffffe0010000000
  devtreeSize := UInt32.ofNat cpuBytes.length

def bootArgsBytes (a : BootArgs) : List UInt8 :=
  longBytes 0 ++ longBytes a.virtBase.toNat ++ longBytes a.physBase.toNat ++
    longBytes a.memSize.toNat ++ longBytes 0 ++ longBytes a.video.base.toNat ++
    longBytes a.video.display.toNat ++ longBytes a.video.stride.toNat ++
    longBytes a.video.width.toNat ++ longBytes a.video.height.toNat ++
    longBytes a.video.depth.toNat ++ longBytes 0 ++ longBytes a.devtree.toNat ++
    wordBytes a.devtreeSize.toNat

/-- the loader leaves `boot_args` at `0x820000000` and the tree at `0x810000000` -/
def loaderMem : Mem := fun x =>
  if 0x820000000 ≤ x then (bootArgsBytes exampleBootArgs)[x - 0x820000000]?
  else if 0x810000000 ≤ x then cpuBytes[x - 0x810000000]? else none

/-- its framebuffer, through the three phases -/
theorem exampleBootArgs_framebuffer : ∃ mem' p mode,
    earlySetup loaderMem 0x820000000 0x850000000 0x800000000 = some (mem', some p) ∧
    simpleFbDxeInitialize 0x850000000 exampleBootArgs = some mode ∧
    mode.piece.Inside (examplePcds.publish p).framebuffer ∧
    ∀ x y k, x < 2388 → y < 1668 → k < 4 →
      (examplePcds.publish p).framebuffer.Has (0x9e0000000 + y * 0x2560 + 4 * x + k) := by
  have hok : (earlySetup loaderMem 0x820000000 0x850000000 0x800000000).map
      (fun out => (out.2, out.1.bootArgs 0x820000000))
      = some (some (publish exampleBootArgs), some exampleBootArgs) := by decide +kernel
  obtain ⟨⟨mem', _⟩, hearly, he⟩ := Option.map_eq_some_iff.mp hok
  obtain ⟨rfl, hargs⟩ := Prod.mk.inj he
  have hgop : (simpleFbDxeInitialize 0x850000000 exampleBootArgs).isSome := by decide
  obtain ⟨mode, hmode⟩ := Option.isSome_iff_exists.mp hgop
  obtain ⟨_, _, _, _, _, _, _, _, _, hin, hpixel, _⟩ := framebuffer_agrees loaderMem mem'
    0x820000000 0x850000000 0x800000000 (publish exampleBootArgs) examplePcds _ exampleBootArgs mode
    hearly rfl hargs (by decide) hmode
  exact ⟨mem', _, mode, hearly, hmode, hin, hpixel⟩

end AppleSilicon

import AppleSilicon.Hob.Unserved

/-!
# What `MemoryPeim` keeps out of the allocator

The framebuffer, the carveouts of the CPUs, the window of the preloaded RAMDisk and the backing
store of the low-memory window must not be system memory for DXE.  A request to
`ReserveMemoryRegion` is served only where a single descriptor covers it, and the caller is not
told: the requests are granted first come, first served, against the edges of the firmware device
and with the sizes cut down to 32 bits; one that the hand-off HOB is taken for reserves nothing.

* `validFramebuffer_inside`      a framebuffer that passes the check lies in the system memory;
* `reserveMemoryRegion_fits`     one request is served exactly when it can be granted;
* `runOps_fits`                  so what a run leaves is what `grant` leaves;
* `plan_bytes`, `memoryPeim_bytes`   the memory at the end, byte by byte;
* `memoryPeim_protects_iff`      when the protected regions stay out of the allocator.
-/

namespace AppleSilicon

/-! ## the protected regions -/

/-- `PcdFrameBufferAddress` and `PcdFrameBufferSize` -/
def Pcds.framebuffer (pcd : Pcds) : Piece ℕ :=
  ⟨pcd.frameBufferAddress.toNat, pcd.frameBufferAddress.toNat + pcd.frameBufferSize.toNat⟩

/-- the carveout of a CPU, with all 64 bits of its size -/
def carveoutPiece (c : UInt64 × UInt64) : Piece ℕ := ⟨c.1.toNat, c.1.toNat + c.2.toNat⟩

/-- the low-memory window -/
def Pcds.lowWindow (pcd : Pcds) : Piece ℕ :=
  ⟨pcd.lowMemoryWindowBase.toNat, pcd.lowMemoryWindowBase.toNat + pcd.lowMemoryWindowSize.toNat⟩

/-- the framebuffer, the carveouts, the RAMDisk window and the backing store -/
def Pcds.protectedRegions (pcd : Pcds) (cs : List (UInt64 × UInt64)) : List (Piece ℕ) :=
  pcd.framebuffer :: (cs.map carveoutPiece ++ pcd.ramdiskRequests.map Request.piece ++
    pcd.backingRequests.map Request.piece)

/-- what the requests of a run are granted -/
def Pcds.granted (pcd : Pcds) (cs : List (UInt64 × UInt64)) : List (Piece ℕ) :=
  grant pcd.systemMemory pcd.fdEdges ((Family.t810x.requests pcd cs).map Request.piece)

/-- what the requests of a run are granted, wherever the firmware device lies -/
def Pcds.taken (pcd : Pcds) (cs : List (UInt64 × UInt64)) : List (Piece ℕ) :=
  grant pcd.systemMemory pcd.cuts ((Family.t810x.requests pcd cs).map Request.piece)

theorem taken_eq_granted (pcd : Pcds) (cs : List (UInt64 × UInt64))
    (hfd : pcd.fd.Inside pcd.systemMemory) : pcd.taken cs = pcd.granted cs := by
  rw [Pcds.taken, Pcds.cuts, if_pos hfd, Pcds.granted]

theorem validFramebuffer_inside (pcd : Pcds)
    (h : virtualDisplayValidateFramebufferRange pcd.frameBufferAddress pcd.frameBufferSize
      pcd.systemMemoryBase pcd.systemMemorySize = true) :
    pcd.framebuffer.Inside pcd.systemMemory ∧ pcd.systemMemory.hi < 2^64 ∧
      pcd.frameBufferSize.toNat < 2^32 := by
  obtain ⟨base, size, _, _, fbBase, fbSize, _, _, _, _, _, _, _, _⟩ := pcd
  have hmax : maxUint64.toNat = 2^64 - 1 := by decide
  have hmax32 : maxUint32.toNat = 2^32 - 1 := by decide
  have hsub : ∀ v : UInt64, (maxUint64 - v).toNat = 2^64 - 1 - v.toNat := by
    intro v
    have hv := v.toNat_lt
    rw [toNat_sub_of_le maxUint64 v (by omega), hmax]
  unfold virtualDisplayValidateFramebufferRange at h
  by_cases h1 : fbBase = 0 ∨ fbSize = 0 ∨ fbSize > maxUint32 ∨
      (fbBase ||| fbSize) &&& virtualDisplayPageMask ≠ 0
  · rw [if_pos h1] at h
    cases h
  · rw [if_neg h1] at h
    by_cases h2 : fbBase > maxUint64 - fbSize ∨ base > maxUint64 - size
    · rw [if_pos h2] at h
      cases h
    · rw [if_neg h2, decide_eq_true_eq] at h
      have hsz : ¬ fbSize > maxUint32 := fun hgt => h1 (.inr (.inr (.inl hgt)))
      simp only [gt_iff_lt, ge_iff_le, UInt64.lt_iff_toNat_lt, UInt64.le_iff_toNat_le, hsub,
        hmax32, not_or] at h h2 hsz
      have hb := base.toNat_lt
      have hf := fbBase.toNat_lt
      have hs := size.toNat_lt
      have e1 := toNat_add_of_lt fbBase fbSize (by omega)
      have e2 := toNat_add_of_lt base size (by omega)
      rw [e1, e2] at h
      exact ⟨h, by show base.toNat + size.toNat < 2^64; omega,
        by show fbSize.toNat < 2^32; omega⟩

/-! ## requests are granted first come, first served -/

/-- the system memory among the descriptors -/
def freePieces (ds : List ResourceDescriptor) : List (Piece ℕ) :=
  (ds.filter fun d => d.resourceType = resourceSystemMemory).map ResourceDescriptor.piece

theorem mem_freePieces (ds : List ResourceDescriptor) (p : Piece ℕ) :
    p ∈ freePieces ds ↔ ∃ d ∈ ds, d.resourceType = resourceSystemMemory ∧ d.piece = p := by
  simp [freePieces, and_assoc]

theorem isOf_system_iff (ds : List ResourceDescriptor) (x : ℕ) :
    IsOf resourceSystemMemory ds x ↔ ∃ p ∈ freePieces ds, p.Has x := by
  constructor
  · intro ⟨d, hd, ht, hx⟩
    exact ⟨d.piece, (mem_freePieces ds _).mpr ⟨d, hd, ht, rfl⟩, hx⟩
  · intro ⟨p, hp, hx⟩
    obtain ⟨d, hd, ht, rfl⟩ := (mem_freePieces ds p).mp hp
    exact ⟨d, hd, ht, hx⟩

theorem freePieces_append (ds es : List ResourceDescriptor) :
    freePieces (ds ++ es) = freePieces ds ++ freePieces es := by
  simp [freePieces]

theorem freePieces_system (ds : List ResourceDescriptor)
    (h : ∀ d ∈ ds, d.resourceType = resourceSystemMemory) :
    freePieces ds = ds.map ResourceDescriptor.piece := by
  rw [freePieces, List.filter_eq_self.mpr]
  simpa using h

/-- **one request** is served exactly when it can be granted -/
theorem reserveMemoryRegion_fits (bump : Handoff → Hob → Handoff) (r : Request) (hl : HobList)
    (whole : Piece ℕ) (held : List (Piece ℕ)) (hm : hl.handoffMatched r = false)
    (hr : r.piece.hi < 2^64) (hw : whole.hi < 2^64) (h : Describes hl.resources whole)
    (hf : Fits (freePieces hl.resources) whole held) :
    Fits (freePieces (reserveMemoryRegion bump r.base r.size hl).resources) whole
      (grantOne whole held r.piece) := by
  have hd : ∀ d ∈ hl.resources, d.piece.hi < 2^64 := fun d hd => (h.hi_le d hd).trans_lt hw
  have hle : r.piece.lo ≤ r.piece.hi := Nat.le_add_right _ _
  cases reserveMemoryRegion_cases bump r hl hm hr hd with
  | inl hsame =>
    rw [hsame.1]
    apply hf.refused hle
    intro p hp
    obtain ⟨d, hmem, ht, rfl⟩ := (mem_freePieces _ p).mp hp
    exact hsame.2 d hmem ht
  | inr hpunch =>
    obtain ⟨pre, d, post, left, new, hres, ht, hin, hres', hnew, hl'⟩ := hpunch
    rw [hres] at h hf
    rw [hres']
    have hpart := h.partition.perm (split_perm pre post d)
    have hd1 : freePieces [d] = [d.piece] := freePieces_system [d] (by simpa using ht)
    have hperm : (freePieces (pre ++ d :: post)).Perm (d.piece :: freePieces (pre ++ post)) := by
      rw [show pre ++ d :: post = pre ++ ([d] ++ post) from rfl, freePieces_append,
        freePieces_append, freePieces_append, hd1]
      exact List.perm_middle
    have hapart : ∀ q ∈ freePieces (pre ++ post), Piece.Apart d.piece q := by
      intro q hq
      obtain ⟨e, he, _, rfl⟩ := (mem_freePieces _ q).mp hq
      exact (List.pairwise_cons.mp hpart.apart).1 _ (List.mem_map_of_mem he)
    have hserved := (hf.perm hperm).served hapart hin hle
      (hpart.inside d.piece (List.mem_cons_self ..)).2 hl'
    have hnewp : freePieces (left :: new) = (left :: new).map ResourceDescriptor.piece :=
      freePieces_system _ hnew
    have hres0 : freePieces [r.reserved] = [] := by
      simp [freePieces, Request.reserved, resourceMemoryReserved, resourceSystemMemory]
    apply hserved.perm
    rw [← hnewp, show pre ++ left :: (post ++ (new ++ [r.reserved]))
        = pre ++ ([left] ++ (post ++ (new ++ [r.reserved]))) from rfl,
      show left :: new = [left] ++ new from rfl]
    simp only [freePieces_append, hres0, List.append_nil]
    rw [List.perm_iff_count]
    intro p
    simp only [List.count_append]
    omega

/-- **a run** leaves what is left when its requests are granted -/
theorem runOps_fits (bump : Handoff → Hob → Handoff) (ops : List Op) (hl : HobList)
    (whole : Piece ℕ) (held : List (Piece ℕ)) (hw : whole.hi < 2^64)
    (hun : handoffUnmatched bump ops hl) (hk : ∀ op ∈ ops, op.keepsResources)
    (hr : ∀ r ∈ ops.filterMap Op.request?, r.piece.hi < 2^64) (h : Describes hl.resources whole)
    (hf : Fits (freePieces hl.resources) whole held) :
    Fits (freePieces (runOps bump ops hl).resources) whole
      (grant whole held ((ops.filterMap Op.request?).map Request.piece)) := by
  induction ops generalizing hl held with
  | nil => exact hf
  | cons op ops ih =>
    rw [List.forall_mem_cons] at hk
    rw [runOps_cons]
    cases op with
    | reserve r =>
      rw [List.filterMap_cons_some (rfl : Op.request? (.reserve r) = some r)] at hr ⊢
      rw [List.forall_mem_cons] at hr
      rw [List.map_cons, grant_cons]
      obtain ⟨h1, _⟩ := reserveMemoryRegion_keeps bump r hl whole hun.1 hr.1 hw h
      exact ih _ _ hun.2 hk.2 hr.2 h1
        (reserveMemoryRegion_fits bump r hl whole held hun.1 hr.1 hw h hf)
    | build b =>
      have hsame := build_resources bump b hl hk.1
      refine ih ((Op.build b).run bump hl) held hun hk.2 hr ?_ ?_
      · rw [hsame]
        exact h
      · rw [hsame]
        exact hf

/-! ## the requests -/

/-- a request asks for a part of a protected region, from its start -/
theorem request_protected (pcd : Pcds) (cs : List (UInt64 × UInt64)) :
    ∀ r ∈ Family.t810x.requests pcd cs, ∃ p ∈ pcd.protectedRegions cs, r.piece.Inside p := by
  have hcut : ∀ size : UInt64, size.toUInt32.toNat ≤ size.toNat := by
    intro size
    rw [UInt64.toNat_toUInt32]
    exact Nat.mod_le _ _
  have hself : ∀ p : Piece ℕ, p.Inside p := fun p => ⟨le_refl _, le_refl _⟩
  intro r hr
  rw [Family.requests, List.mem_cons, List.mem_append, List.mem_append] at hr
  rcases hr with rfl | (hr | hr) | hr
  · exact ⟨pcd.framebuffer, by simp [Pcds.protectedRegions], le_refl _,
      Nat.add_le_add_left (hcut _) _⟩
  · obtain ⟨c, hc, rfl⟩ := List.mem_map.mp hr
    exact ⟨carveoutPiece c, by simp [Pcds.protectedRegions, List.mem_map_of_mem hc], le_refl _,
      Nat.add_le_add_left (hcut _) _⟩
  · exact ⟨r.piece, by simp [Pcds.protectedRegions, List.mem_map_of_mem hr], hself _⟩
  · exact ⟨r.piece, by simp [Pcds.protectedRegions, List.mem_map_of_mem hr], hself _⟩

theorem requests_inside (pcd : Pcds) (cs : List (UInt64 × UInt64)) (whole : Piece ℕ)
    (hin : ∀ p ∈ pcd.protectedRegions cs, p.Inside whole) :
    ∀ r ∈ Family.t810x.requests pcd cs, r.piece.Inside whole := by
  intro r hr
  obtain ⟨p, hp, hrp⟩ := request_protected pcd cs r hr
  exact hrp.trans (hin p hp)

theorem lowWindow_empty (pcd : Pcds) (h : pcd.lowMemoryWindowSize = 0) (x : ℕ) :
    ¬ pcd.lowWindow.Has x := by
  rw [Pcds.lowWindow, h]
  exact fun hx => absurd hx.2 (not_lt_of_ge hx.1)

theorem lowMemoryWindow_system (pcd : Pcds) (attributes : UInt32) (x : ℕ) :
    (∃ p ∈ freePieces (Family.t810x.lowMemoryWindow pcd attributes), p.Has x) ↔
      pcd.lowWindow.Has x := by
  rw [Family.lowMemoryWindow]
  by_cases h : pcd.lowMemoryWindowSize ≠ 0
  · rw [if_pos h, freePieces_system _ (by simp)]
    simp only [List.map_cons, List.map_nil, List.mem_singleton, exists_eq_left]
    rw [ResourceDescriptor.piece, Pcds.lowWindow, UInt32.toNat_toUInt64]
  · rw [if_neg h]
    rw [ne_eq, not_not] at h
    simp [freePieces, lowWindow_empty pcd h x]

/-! ## `MemoryPeim` -/

/-- in a partition into system memory and reserved memory, what is not the one is the other -/
theorem Describes.reserved_iff {ds : List ResourceDescriptor} {whole : Piece ℕ}
    (h : Describes ds whole) (x : ℕ) :
    IsOf resourceMemoryReserved ds x ↔ whole.Has x ∧ ¬ IsOf resourceSystemMemory ds x := by
  constructor
  · intro hres
    obtain ⟨d, hd, ht, hdx⟩ := hres
    refine ⟨hdx.inside (h.partition.inside d.piece (List.mem_map_of_mem hd)).2, ?_⟩
    intro hsys
    obtain ⟨e, he, hte, hex⟩ := hsys
    have hcount := countP_apart (ds.map ResourceDescriptor.piece) x h.partition.apart
    rw [List.countP_map] at hcount
    obtain ⟨pre, post, hsplit⟩ := List.append_of_mem hd
    rw [hsplit, List.countP_append, List.countP_cons_of_pos (by simpa using hdx)] at hcount
    have hother : e ∈ pre ∨ e ∈ post := by
      rw [hsplit] at he
      rcases List.mem_append.mp he with he | he
      · exact .inl he
      · rcases List.mem_cons.mp he with rfl | he
        · exact absurd (hte.symm.trans ht) systemMemory_ne_reserved
        · exact .inr he
    have hpos : ∀ l : List ResourceDescriptor, e ∈ l → 0 < l.countP
        ((fun p => decide (p.Has x)) ∘ ResourceDescriptor.piece) := by
      intro l hl
      exact List.countP_pos_iff.mpr ⟨e, hl, by simpa using hex⟩
    cases hother with
    | inl hpre =>
      have hlt := hpos pre hpre
      omega
    | inr hpost =>
      have hlt := hpos post hpost
      omega
  · intro hx
    obtain ⟨p, hp, hpx⟩ := h.partition.covers x hx.1
    obtain ⟨d, hd, rfl⟩ := List.mem_map.mp hp
    cases h.types d hd with
    | inl ht => exact absurd ⟨d, hd, ht, hpx⟩ hx.2
    | inr ht => exact ⟨d, hd, ht, hpx⟩

theorem lowMemoryWindow_not_reserved (pcd : Pcds) (attributes : UInt32) (x : ℕ) :
    ¬ IsOf resourceMemoryReserved (Family.t810x.lowMemoryWindow pcd attributes) x := by
  intro h
  obtain ⟨d, hd, ht, _⟩ := h
  rw [Family.lowMemoryWindow] at hd
  split at hd
  · rw [List.mem_singleton.mp hd] at ht
    exact systemMemory_ne_reserved ht
  · cases hd

theorem isOf_append (t : UInt32) (ds es : List ResourceDescriptor) (x : ℕ) :
    IsOf t (ds ++ es) x ↔ IsOf t ds x ∨ IsOf t es x := by
  unfold IsOf
  simp only [List.mem_append, or_and_right, exists_or]

/-- no search of the run takes the hand-off HOB for a descriptor -/
def Pcds.Unmatched (bump : Handoff → Hob → Handoff) (pcd : Pcds) (hl : HobList)
    (cs : List (UInt64 × UInt64)) : Prop :=
  ∀ attributes start, splitFirmwareDevice bump pcd .bootServicesData
    (declareSystemMemory bump pcd hl) = some (attributes, start) →
    handoffUnmatched bump (Family.t810x.plan pcd cs) start

/-- no search of the run takes the hand-off HOB for a descriptor, and neither a request nor a
firmware device that is taken for system memory passes the end of the address space -/
structure Pcds.Orderly (bump : Handoff → Hob → Handoff) (pcd : Pcds) (hl : HobList)
    (cs : List (UInt64 × UInt64)) : Prop where
  unmatched : pcd.Unmatched bump hl cs
  requests : ∀ r ∈ Family.t810x.requests pcd cs, r.piece.hi < 2^64
  fd : ¬ pcd.fdWraps

/-- **what the requests of a family leave**, byte by byte: what is granted is reserved, and the rest
stays system memory -/
theorem plan_bytes (family : Family) (bump : Handoff → Hob → Handoff) (pcd : Pcds)
    (hl start : HobList) (attributes : UInt32) (cs : List (UInt64 × UInt64))
    (hnone : hl.resources = []) (hsum : pcd.systemMemory.hi < 2^64) (hfd : ¬ pcd.fdWraps)
    (hstart : splitFirmwareDevice bump pcd family.fdMemoryType (declareSystemMemory bump pcd hl)
      = some (attributes, start))
    (hun : handoffUnmatched bump (family.plan pcd cs) start)
    (hreq : ∀ r ∈ family.requests pcd cs, r.piece.hi < 2^64) (x : ℕ) :
    let ds := (runOps bump (family.plan pcd cs) start).resources
    let granted := grant pcd.systemMemory pcd.cuts ((family.requests pcd cs).map Request.piece)
    (IsOf resourceSystemMemory ds x ↔
      pcd.systemMemory.Has x ∧ ∀ g ∈ granted, ¬ g.Has x) ∧
    (IsOf resourceMemoryReserved ds x ↔ pcd.systemMemory.Has x ∧ ∃ g ∈ granted, g.Has x) := by
  intro ds granted
  obtain ⟨htype, hpart, hfits⟩ := start_spec bump pcd _ hl start attributes hnone hsum hfd hstart
  have hdesc : Describes start.resources pcd.systemMemory :=
    ⟨fun d hd => .inl (htype d hd), hpart⟩
  rw [← freePieces_system _ htype] at hfits
  rw [← plan_requests] at hreq
  have hend := runOps_fits bump (family.plan pcd cs) start pcd.systemMemory pcd.cuts hsum hun
    (plan_keepsResources _ pcd cs) hreq hdesc hfits
  obtain ⟨hdesc', _⟩ := runOps_keeps bump (family.plan pcd cs) start pcd.systemMemory hsum hun
    (plan_keepsResources _ pcd cs) hreq hdesc
  rw [plan_requests] at hend
  have hsys : IsOf resourceSystemMemory ds x ↔
      pcd.systemMemory.Has x ∧ ∀ g ∈ granted, ¬ g.Has x := by
    rw [isOf_system_iff, hend.byte x]
  refine ⟨hsys, ?_⟩
  rw [hdesc'.reserved_iff x, hsys, not_and]
  constructor
  · rintro ⟨hx, hn⟩
    have hex := hn hx
    push Not at hex
    exact ⟨hx, hex⟩
  · rintro ⟨hx, g, hg, hgx⟩
    exact ⟨hx, fun _ hall => hall g hg hgx⟩

/-- **the memory at the end**, byte by byte, after the T810X `MemoryPeim` returned `EFI_SUCCESS`:
system memory is what was not taken, and the low-memory window; what was taken is reserved -/
theorem memoryPeim_bytes (bump : Handoff → Hob → Handoff) (lib : AsciiLib) (mem : Mem)
    (fuel : ℕ) (pcd : Pcds) (hl hl' : HobList) (cs : List (UInt64 × UInt64))
    (hnone : hl.resources = []) (hor : pcd.Orderly bump hl cs)
    (hcs : Family.t810x.carveouts lib mem fuel pcd = some cs)
    (hrun : T810x.memoryPeim bump lib mem fuel pcd hl = some (.success, hl')) (x : ℕ) :
    (IsOf resourceSystemMemory hl'.resources x ↔
      (pcd.systemMemory.Has x ∧ ∀ g ∈ pcd.taken cs, ¬ g.Has x) ∨ pcd.lowWindow.Has x) ∧
    (IsOf resourceMemoryReserved hl'.resources x ↔
      pcd.systemMemory.Has x ∧ ∃ g ∈ pcd.taken cs, g.Has x) := by
  obtain ⟨attributes, start, cs', hstart, hcs', hfb, rfl⟩ :=
    memoryPeim_success .t810x bump lib mem fuel pcd hl hl' hrun
  obtain rfl := Option.some.inj (hcs.symm.trans hcs')
  obtain ⟨_, hsum, _⟩ := validFramebuffer_inside pcd (hfb rfl)
  obtain ⟨hsys, hres⟩ := plan_bytes .t810x bump pcd hl start attributes cs hnone hsum hor.fd hstart
    (hor.unmatched attributes start hstart) hor.requests x
  rw [buildAll_resources, isOf_append, isOf_append, hsys, hres,
    isOf_system_iff (Family.t810x.lowMemoryWindow pcd attributes),
    lowMemoryWindow_system pcd attributes x,
    or_iff_left (lowMemoryWindow_not_reserved pcd attributes x)]
  exact ⟨Iff.rfl, Iff.rfl⟩

/-! ## the protected regions stay out of the allocator -/

section
variable (bump : Handoff → Hob → Handoff) (pcd : Pcds) (hl : HobList)
  (cs : List (UInt64 × UInt64))

/-- every request that the hand-off HOB is taken for asks for a byte that no other one asks for -/
def Pcds.MatchedOwnBytes : Prop :=
  ∀ attributes start, splitFirmwareDevice bump pcd .bootServicesData
    (declareSystemMemory bump pcd hl) = some (attributes, start) →
    ∀ pre r post, Family.t810x.plan pcd cs = pre ++ .reserve r :: post →
      (runOps bump pre start).handoffMatched r = true →
      ∃ x, r.piece.Has x ∧ ∀ r' ∈ (pre ++ post).filterMap Op.request?, ¬ r'.piece.Has x

/-- every byte of the protected regions lies outside the low-memory window and in a request that is
granted: first come, first served, inside the system memory and across no edge of the firmware
device -/
def Pcds.AllGranted : Prop :=
  ∀ p ∈ pcd.protectedRegions cs, ∀ x, p.Has x →
    ¬ pcd.lowWindow.Has x ∧ ∃ g ∈ pcd.granted cs, g.Has x

/-- no byte of the protected regions is system memory -/
def Pcds.Protects (hl' : HobList) : Prop :=
  ∀ p ∈ pcd.protectedRegions cs, ∀ x, p.Has x → ¬ IsOf resourceSystemMemory hl'.resources x

section
variable (lib : AsciiLib) (mem : Mem) (fuel : ℕ) (hl' : HobList) (hnone : hl.resources = [])
  (hfd : pcd.fd.Inside pcd.systemMemory)
  (hcs : Family.t810x.carveouts lib mem fuel pcd = some cs)
  (hin : ∀ p ∈ pcd.protectedRegions cs, p.Inside pcd.systemMemory)
  (hrun : T810x.memoryPeim bump lib mem fuel pcd hl = some (.success, hl'))
include hnone hfd hcs hin hrun

theorem memoryPeim_protects_of_unmatched (hun : pcd.Unmatched bump hl cs) :
    pcd.Protects cs hl' ↔ pcd.AllGranted cs := by
  obtain ⟨_, _, _, _, _, hfb, _⟩ := memoryPeim_success .t810x bump lib mem fuel pcd hl hl' hrun
  obtain ⟨_, hsum, _⟩ := validFramebuffer_inside pcd (hfb rfl)
  have hwraps : ¬ pcd.fdWraps := fun hw => absurd (hfd.2.trans_lt hsum) (not_lt_of_ge hw.1)
  have hreq : ∀ r ∈ Family.t810x.requests pcd cs, r.piece.hi < 2^64 :=
    fun r hr => (requests_inside pcd cs _ hin r hr).2.trans_lt hsum
  have hbyte := fun x => (memoryPeim_bytes bump lib mem fuel pcd hl hl' cs hnone ⟨hun, hreq, hwraps⟩
    hcs hrun x).1
  rw [taken_eq_granted pcd cs hfd] at hbyte
  constructor
  · intro h p hp x hx
    have hn := h p hp x hx
    rw [hbyte, not_or, not_and] at hn
    refine ⟨hn.2, ?_⟩
    have hex := hn.1 (hx.inside (hin p hp))
    push Not at hex
    exact hex
  · intro h p hp x hx hsys
    obtain ⟨hw, g, hg, hgx⟩ := h p hp x hx
    cases (hbyte x).mp hsys with
    | inl hs => exact hs.2 g hg hgx
    | inr hs => exact hw hs

/-- a request that the hand-off HOB is taken for leaves the byte that only it asks for -/
theorem memoryPeim_unmatched_of_protects (hown : pcd.MatchedOwnBytes bump hl cs)
    (hp : pcd.Protects cs hl') : pcd.Unmatched bump hl cs := by
  intro attributes start hstart
  obtain ⟨attributes', start', cs', hstart', hcs', hfb, rfl⟩ :=
    memoryPeim_success .t810x bump lib mem fuel pcd hl hl' hrun
  obtain rfl := Option.some.inj (hcs.symm.trans hcs')
  obtain rfl := (Prod.mk.inj (Option.some.inj (hstart.symm.trans hstart'))).2
  obtain ⟨_, hsum, _⟩ := validFramebuffer_inside pcd (hfb rfl)
  have hwraps : ¬ pcd.fdWraps := fun hw => absurd (hfd.2.trans_lt hsum) (not_lt_of_ge hw.1)
  obtain ⟨htype, hpart, _⟩ := start_spec bump pcd _ hl start attributes hnone hsum hwraps hstart
  by_contra hm
  obtain ⟨pre, r, post, hplan, hmatched⟩ := matched_of_not_unmatched bump _ start hm
  obtain ⟨x, hrx, hout⟩ := hown attributes start hstart pre r post hplan hmatched
  have hreqs := plan_requests .t810x pcd cs
  rw [hplan] at hreqs
  have hr : r ∈ Family.t810x.requests pcd cs := by
    rw [← hreqs]
    simp [Op.request?]
  obtain ⟨p, hpm, hrp⟩ := request_protected pcd cs r hr
  have hsys : IsOf resourceSystemMemory start.resources x := by
    obtain ⟨q, hq, hqx⟩ := hpart.covers x ((hrx.inside hrp).inside (hin p hpm))
    obtain ⟨d, hd, rfl⟩ := List.mem_map.mp hq
    exact ⟨d, hd, htype d hd, hqx⟩
  have hfree := runOps_matched_free bump pre post r start x
    (hplan ▸ plan_keepsResources .t810x pcd cs)
    (fun r' hr' => (requests_inside pcd cs _ hin r' (hreqs ▸ hr')).2.trans_lt hsum)
    (fun d hd => (hpart.inside d.piece (List.mem_map_of_mem hd)).2.2.trans_lt hsum)
    hmatched hsys hout
  apply hp p hpm x (hrx.inside hrp)
  rw [buildAll_resources, isOf_append, hplan]
  exact .inl hfree

/-- **the protected regions stay out of the allocator** after the T810X `MemoryPeim` returned
`EFI_SUCCESS` when no search takes the hand-off HOB for a descriptor and every byte of them is
granted; and only then, unless the hand-off HOB is taken for a request whose bytes the other
requests ask for as well -/
theorem memoryPeim_protects_iff :
    (pcd.Unmatched bump hl cs ∧ pcd.AllGranted cs → pcd.Protects cs hl') ∧
    (pcd.MatchedOwnBytes bump hl cs →
      (pcd.Protects cs hl' ↔ pcd.Unmatched bump hl cs ∧ pcd.AllGranted cs)) := by
  have hiff := memoryPeim_protects_of_unmatched bump pcd hl cs lib mem fuel hl' hnone hfd hcs hin hrun
  have henough : pcd.Unmatched bump hl cs ∧ pcd.AllGranted cs → pcd.Protects cs hl' :=
    fun h => (hiff h.1).mpr h.2
  refine ⟨henough, ?_⟩
  intro hown
  refine ⟨?_, henough⟩
  intro hp
  have hun := memoryPeim_unmatched_of_protects bump pcd hl cs lib mem fuel hl' hnone hfd hcs hin hrun
    hown hp
  exact ⟨hun, (hiff hun).mp hp⟩

end

end

/-- with the regions of the example clear of each other and of the firmware device, every one of
them is granted -/
theorem examplePcds_protected : ∃ hl',
    T810x.memoryPeim createHob asciiLib cpuMem 4 examplePcds uefiRegion = some (.success, hl') ∧
    examplePcds.Protects [(0x900000000, 0x4000)] hl' := by
  have hok : (T810x.memoryPeim createHob asciiLib cpuMem 4 examplePcds uefiRegion).map
      Prod.fst = some .success := by decide +kernel
  obtain ⟨⟨_, hl'⟩, hrun, rfl⟩ := Option.map_eq_some_iff.mp hok
  refine ⟨hl', hrun, ?_⟩
  have hiff := memoryPeim_protects_iff createHob examplePcds uefiRegion [(0x900000000, 0x4000)]
    asciiLib cpuMem 4 hl' rfl (by decide) examplePcds_carveouts (by decide) hrun
  have hgranted : ∀ p ∈ examplePcds.protectedRegions [(0x900000000, 0x4000)],
      p ∈ examplePcds.granted [(0x900000000, 0x4000)] ∧ p.Apart examplePcds.lowWindow := by
    decide +kernel
  apply hiff.1
  refine ⟨fun attributes start h => examplePcds_unmatched .t810x examplePcds attributes start _ h, ?_⟩
  intro p hp x hx
  obtain ⟨h1, h2⟩ := hgranted p hp
  exact ⟨h2.not_has hx, p, h1, hx⟩

/-- the RAMDisk window lies across the end of the firmware device -/
def straddlingPcds : Pcds :=
  { examplePcds with
    preloadedRamdiskBase := 0x831000000
    preloadedRamdiskMaxSize := 0x2000000 }

/-- `MemoryPeim` returns `EFI_SUCCESS`, and no byte of that window was reserved -/
theorem straddlingRamdisk_allocatable :
    uefiRegion.resources = [] ∧ straddlingPcds.fd.Inside straddlingPcds.systemMemory ∧
    Family.t810x.carveouts asciiLib cpuMem 4 straddlingPcds = some [(0x900000000, 0x4000)] ∧
    (∀ p ∈ straddlingPcds.protectedRegions [(0x900000000, 0x4000)],
      p.Inside straddlingPcds.systemMemory) ∧
    ⟨0x831000000, 0x833000000⟩ ∈ straddlingPcds.protectedRegions [(0x900000000, 0x4000)] ∧
    (T810x.memoryPeim createHob asciiLib cpuMem 4 straddlingPcds uefiRegion).map
      (fun out => (out.1, decide (IsOf resourceSystemMemory out.2.resources 0x831000000),
        decide (IsOf resourceSystemMemory out.2.resources 0x832ffffff)))
      = some (.success, true, true) := by
  refine ⟨rfl, ?_, ?_, ?_, ?_, ?_⟩ <;> decide +kernel

end AppleSilicon

import AppleSilicon.Lib.Blob
import AppleSilicon.Lib.Loop
import AppleSilicon.Lib.PrefixCode

/-!
# Device paths

A device path is a run of nodes, each with a type, a subtype and its own length, and an end node.
The boot manager walks over one with `IsDevicePathEnd` and `NextDevicePathNode` of a library, and
compares the front of one with another byte by byte.

* `devicePath_code`       the nodes are a prefix code;
* `DevicePathLib`         what the library promises;
* `pathLoop_visits`       a walk over a path that lies in the memory visits its nodes in order;
* `compareMem_holds`      `CompareMem` on two strings of bytes;
* `walkLib_documented`    a library that keeps the promises.
-/

namespace AppleSilicon

/-! ## the format -/

def endDevicePathType : UInt8 := 0x7f

def endEntireDevicePathSubtype : UInt8 := 0xff

/-- `END_DEVICE_PATH_LENGTH` -/
def endDevicePathLength : ℕ := 4

/-- a node in front of the end: its length fits into two bytes, the header included -/
@[ext]
structure DevicePathNode where
  type : UInt8
  subType : UInt8
  data : List UInt8
  fits : data.length + 4 < 2^16
  notEnd : ¬ (type = endDevicePathType ∧ subType = endEntireDevicePathSubtype)
deriving DecidableEq

/-- `EFI_DEVICE_PATH_PROTOCOL`: the type, the subtype, the length -/
def pathHeader (type subType : UInt8) (length : ℕ) : List UInt8 :=
  [type, subType, UInt8.ofNat length, UInt8.ofNat (length / 2^8)]

namespace DevicePathNode

def length (n : DevicePathNode) : ℕ := n.data.length + 4

def bytes (n : DevicePathNode) : List UInt8 := pathHeader n.type n.subType n.length ++ n.data

theorem bytes_length (n : DevicePathNode) : n.bytes.length = n.length := by
  simp only [bytes, pathHeader, length, List.length_append, List.length_cons, List.length_nil]
  omega

end DevicePathNode

def endNodeBytes : List UInt8 :=
  pathHeader endDevicePathType endEntireDevicePathSubtype endDevicePathLength

/-- the bytes of a device path -/
def pathBytes (nodes : List DevicePathNode) : List UInt8 :=
  stream DevicePathNode.bytes endNodeBytes nodes

theorem pathHeader_inj (t t' s s' : UInt8) (n n' : ℕ) (x y : List UInt8) (hn : n < 2^16)
    (hn' : n' < 2^16) (h : pathHeader t s n ++ x = pathHeader t' s' n' ++ y) :
    t = t' ∧ s = s' ∧ n = n' ∧ x = y := by
  simp only [pathHeader, List.cons_append, List.nil_append, List.cons.injEq, ← UInt8.toNat_inj,
    UInt8.toNat_ofNat'] at h
  obtain ⟨h0, h1, h2, h3, h4⟩ := h
  exact ⟨UInt8.toNat_inj.mp h0, UInt8.toNat_inj.mp h1, by omega, h4⟩

/-- **the nodes of a device path** can be read in one way -/
theorem devicePath_code : PrefixCode DevicePathNode.bytes endNodeBytes where
  split a b x y h := by
    unfold DevicePathNode.bytes at h
    rw [List.append_assoc, List.append_assoc] at h
    obtain ⟨ht, hs, hlen, hrest⟩ := pathHeader_inj _ _ _ _ _ _ _ _ a.fits b.fits h
    have hl : a.data.length = b.data.length := Nat.add_right_cancel hlen
    obtain ⟨hd, hxy⟩ := List.append_inj hrest hl
    exact ⟨DevicePathNode.ext ht hs hd, hxy⟩
  stops a x y h := by
    unfold DevicePathNode.bytes endNodeBytes at h
    rw [List.append_assoc] at h
    obtain ⟨ht, hs, _, _⟩ := pathHeader_inj _ _ _ _ _ _ _ _ a.fits (by decide) h
    exact a.notEnd ⟨ht, hs⟩

theorem pathBytes_length (nodes : List DevicePathNode) :
    (pathBytes nodes).length = (nodes.flatMap DevicePathNode.bytes).length + endDevicePathLength := by
  rw [pathBytes, stream, List.length_append]
  rfl

def mediaDevicePath : UInt8 := 4

def mediaPiwgFwFileDp : UInt8 := 6

/-- a node that names a file of a firmware volume -/
def DevicePathNode.IsFwFile (n : DevicePathNode) : Prop :=
  n.type = mediaDevicePath ∧ n.subType = mediaPiwgFwFileDp

instance (n : DevicePathNode) : Decidable n.IsFwFile := inferInstanceAs (Decidable (_ ∧ _))

/-! ## the library -/

/-- what the boot manager calls; `none` is a read outside the memory -/
structure DevicePathLib where
  /-- with the largest size it takes, 0 for none -/
  isDevicePathValid : Mem → ℕ → ℕ → Bool
  getDevicePathSize : Mem → ℕ → UInt64
  isDevicePathEnd : Mem → ℕ → Option Bool
  nextDevicePathNode : Mem → ℕ → Option ℕ
  /-- the address of the name, or `NULL` -/
  efiGetNameGuidFromFwVolDevicePathNode : Mem → ℕ → Option (Option ℕ)

/-- a valid path is a run of nodes up to an end node, and its size is that of their bytes; the others
look at one node -/
structure DevicePathLib.Documented (lib : DevicePathLib) : Prop where
  valid : ∀ mem maxSize path, lib.isDevicePathValid mem maxSize path = true →
    ∃ nodes, mem.Holds path (pathBytes nodes)
  size : ∀ mem maxSize path nodes, lib.isDevicePathValid mem maxSize path = true →
    mem.Holds path (pathBytes nodes) →
    (lib.getDevicePathSize mem path).toNat = (pathBytes nodes).length
  atEnd : ∀ mem node, mem.Holds node endNodeBytes → lib.isDevicePathEnd mem node = some true
  notAtEnd : ∀ mem node (n : DevicePathNode), mem.Holds node n.bytes →
    lib.isDevicePathEnd mem node = some false
  next : ∀ mem node (n : DevicePathNode), mem.Holds node n.bytes →
    lib.nextDevicePathNode mem node = some (node + n.length)
  noName : ∀ mem node, mem.Holds node endNodeBytes →
    lib.efiGetNameGuidFromFwVolDevicePathNode mem node = some none
  name : ∀ mem node (n : DevicePathNode), mem.Holds node n.bytes →
    lib.efiGetNameGuidFromFwVolDevicePathNode mem node
      = some (if n.IsFwFile then some (node + 4) else none)

/-! ## walking over a path -/

section
variable (lib : DevicePathLib) (mem : Mem)
variable {S R : Type*} (body : ℕ → S → Option (Turn S R))

/-- a turn of `while (!IsDevicePathEnd (Node)) { body; Node = NextDevicePathNode (Node); }`; the
loop ends with the state where it comes to the end node, or leaves with what its body leaves with -/
def pathTurn (s : ℕ × S) : Option (Turn (ℕ × S) (S ⊕ R)) :=
  (lib.isDevicePathEnd mem s.1).bind fun atEnd =>
    if atEnd then some (.leave (.inl s.2))
    else (body s.1 s.2).bind fun t =>
      match t with
      | .again next => (lib.nextDevicePathNode mem s.1).map fun node => .again (node, next)
      | .leave r => some (.leave (.inr r))

def pathLoop (fuel node : ℕ) (s : S) : Option (S ⊕ R) :=
  runLoop (pathTurn lib mem body) fuel (node, s)

end

/-- the nodes one after the other, from the address of the first on -/
def visitNodes {S R : Type*} (step : DevicePathNode → ℕ → S → Turn S R) :
    List DevicePathNode → ℕ → S → S ⊕ R
  | [], _, s => .inl s
  | n :: ns, node, s =>
    match step n node s with
    | .again next => visitNodes step ns (node + n.length) next
    | .leave r => .inr r

theorem node_fields (mem : Mem) (node : ℕ) (n : DevicePathNode) (h : mem.Holds node n.bytes) :
    mem node = some n.type ∧ mem (node + 1) = some n.subType := by
  have hlen : 4 ≤ n.bytes.length := by
    rw [n.bytes_length, DevicePathNode.length]
    omega
  exact ⟨h 0 (by omega), h 1 (by omega)⟩

/-- **a walk** visits the nodes of the path in order -/
theorem pathLoop_visits {S R : Type*} (lib : DevicePathLib) (hlib : lib.Documented) (mem : Mem)
    (body : ℕ → S → Option (Turn S R)) (step : DevicePathNode → ℕ → S → Turn S R)
    (hbody : ∀ n node s, mem.Holds node n.bytes → body node s = some (step n node s))
    (nodes : List DevicePathNode) (node fuel : ℕ) (s : S) (hfuel : nodes.length < fuel)
    (h : mem.Holds node (pathBytes nodes)) :
    pathLoop lib mem body fuel node s = some (visitNodes step nodes node s) := by
  induction nodes generalizing node fuel s with
  | nil =>
    obtain ⟨fuel, rfl⟩ := Nat.exists_eq_add_of_lt hfuel
    have hend := hlib.atEnd mem node h
    simp [pathLoop, runLoop, pathTurn, hend, visitNodes]
  | cons n ns ih =>
    obtain ⟨fuel, rfl⟩ : ∃ f, fuel = f + 1 := ⟨fuel - 1, by omega⟩
    rw [pathBytes, stream_cons, Mem.holds_append, n.bytes_length] at h
    have hend := hlib.notAtEnd mem node n h.1
    have hnext := hlib.next mem node n h.1
    have hb := hbody n node s h.1
    unfold pathLoop
    rw [runLoop, visitNodes]
    cases hstep : step n node s with
    | again next =>
      simp only [pathTurn, hend, Option.bind_some, Bool.false_eq_true, if_false, hb, hstep, hnext,
        Option.map_some]
      exact ih (node + n.length) fuel next (by simpa using hfuel) h.2
    | leave r => simp [pathTurn, hend, hb, hstep]

/-! ## `CompareMem` -/

/-- `CompareMem (a, b, n) == 0` -/
def compareMem (mem : Mem) : ℕ → ℕ → ℕ → Option Bool
  | 0, _, _ => some true
  | n + 1, a, b => (mem a).bind fun x => (mem b).bind fun y =>
    if x = y then compareMem mem n (a + 1) (b + 1) else some false

theorem compareMem_holds (mem : Mem) (xs ys : List UInt8) (a b n : ℕ) (hx : mem.Holds a xs)
    (hy : mem.Holds b ys) (hn : n ≤ xs.length) (hn' : n ≤ ys.length) :
    compareMem mem n a b = some (decide (xs.take n = ys.take n)) := by
  induction n generalizing xs ys a b with
  | zero => simp [compareMem]
  | succ n ih =>
    cases xs with
    | nil => simp at hn
    | cons x xs =>
      cases ys with
      | nil => simp at hn'
      | cons y ys =>
        have hxs := (mem.holds_append a [x] xs).mp hx
        have hys := (mem.holds_append b [y] ys).mp hy
        have h0 : mem a = some x := hx 0 (Nat.zero_lt_succ _)
        have h1 : mem b = some y := hy 0 (Nat.zero_lt_succ _)
        rw [compareMem, h0, h1, Option.bind_some, Option.bind_some]
        by_cases hxy : x = y
        · rw [if_pos hxy, ih xs ys (a + 1) (b + 1) hxs.2 hys.2 (by simpa using hn)
            (by simpa using hn')]
          simp [hxy]
        · simp [hxy]

/-! ## a library that reads the nodes -/

/-- the first two bytes say whether it is the end -/
def walkAtEnd (mem : Mem) (node : ℕ) : Option Bool :=
  (mem node).bind fun type =>
    if type = endDevicePathType then
      (mem (node + 1)).map fun subType => decide (subType = endEntireDevicePathSubtype)
    else some false

/-- the next two are the length -/
def walkLength (mem : Mem) (node : ℕ) : Option ℕ :=
  (mem (node + 2)).bind fun low => (mem (node + 3)).map fun high => low.toNat + 2^8 * high.toNat

/-- the type and the subtype say whether there is a name -/
def walkName (mem : Mem) (node : ℕ) : Option (Option ℕ) :=
  (mem node).bind fun type => (mem (node + 1)).map fun subType =>
    if type = mediaDevicePath ∧ subType = mediaPiwgFwFileDp then some (node + 4) else none

theorem walkAtEnd_end (mem : Mem) (node : ℕ) (h : mem.Holds node endNodeBytes) :
    walkAtEnd mem node = some true := by
  have h0 : mem node = some endDevicePathType := h 0 (by decide)
  have h1 : mem (node + 1) = some endEntireDevicePathSubtype := h 1 (by decide)
  simp [walkAtEnd, h0, h1]

theorem walkAtEnd_node (mem : Mem) (node : ℕ) (n : DevicePathNode) (h : mem.Holds node n.bytes) :
    walkAtEnd mem node = some false := by
  obtain ⟨h0, h1⟩ := node_fields mem node n h
  unfold walkAtEnd
  rw [h0, Option.bind_some]
  by_cases ht : n.type = endDevicePathType
  · have hs : n.subType ≠ endEntireDevicePathSubtype := fun hs => n.notEnd ⟨ht, hs⟩
    rw [if_pos ht, h1, Option.map_some, decide_eq_false hs]
  · rw [if_neg ht]

theorem walkLength_node (mem : Mem) (node : ℕ) (n : DevicePathNode) (h : mem.Holds node n.bytes) :
    walkLength mem node = some n.length := by
  have hlen : 4 ≤ n.bytes.length := by
    rw [n.bytes_length, DevicePathNode.length]
    omega
  have h2 : mem (node + 2) = some (UInt8.ofNat n.length) := h 2 (by omega)
  have h3 : mem (node + 3) = some (UInt8.ofNat (n.length / 2^8)) := h 3 (by omega)
  have hfits : n.length < 2^16 := n.fits
  unfold walkLength
  simp only [h2, h3, Option.bind_some, Option.map_some, UInt8.toNat_ofNat', Option.some.injEq]
  omega

theorem walkName_node (mem : Mem) (node : ℕ) (n : DevicePathNode) (h : mem.Holds node n.bytes) :
    walkName mem node = some (if n.IsFwFile then some (node + 4) else none) := by
  obtain ⟨h0, h1⟩ := node_fields mem node n h
  unfold walkName
  rw [h0, h1]
  rfl

theorem walkName_end (mem : Mem) (node : ℕ) (h : mem.Holds node endNodeBytes) :
    walkName mem node = some none := by
  have h0 : mem node = some endDevicePathType := h 0 (by decide)
  have h1 : mem (node + 1) = some endEntireDevicePathSubtype := h 1 (by decide)
  simp [walkName, h0, h1, endDevicePathType, mediaDevicePath]

/-- the node at an address -/
def readNode (mem : Mem) (node : ℕ) : Option DevicePathNode :=
  (mem node).bind fun type => (mem (node + 1)).bind fun subType =>
  (walkLength mem node).bind fun length =>
    if h : ¬ (type = endDevicePathType ∧ subType = endEntireDevicePathSubtype) ∧
        (length - 4) + 4 < 2^16 ∧ 4 ≤ length ∧
        (List.range length).all fun i => (mem (node + i)).isSome then
      some ⟨type, subType, mem.bytesAt (node + 4) (length - 4),
        by rw [Mem.bytesAt_length]; exact h.2.1, h.1⟩
    else none

/-- the nodes of a path, at most as many as there is fuel -/
def readPath (mem : Mem) : ℕ → ℕ → Option (List DevicePathNode)
  | 0, _ => none
  | fuel + 1, node => (walkAtEnd mem node).bind fun atEnd =>
    if atEnd then
      if walkLength mem node = some endDevicePathLength then some [] else none
    else (readNode mem node).bind fun n => (readPath mem fuel (node + n.length)).map (n :: ·)

theorem bytes_of_length (mem : Mem) (node : ℕ) (t s : UInt8) (n : ℕ) (h0 : mem node = some t)
    (h1 : mem (node + 1) = some s) (hlen : walkLength mem node = some n) :
    mem.Holds node (pathHeader t s n) := by
  obtain ⟨low, h2, h⟩ := Option.bind_eq_some_iff.mp hlen
  obtain ⟨high, h3, h⟩ := Option.map_eq_some_iff.mp h
  have l2 := low.toNat_lt
  have l3 := high.toNat_lt
  have hlow : UInt8.ofNat n = low := by
    rw [← UInt8.toNat_inj, UInt8.toNat_ofNat']
    omega
  have hhigh : UInt8.ofNat (n / 2^8) = high := by
    rw [← UInt8.toNat_inj, UInt8.toNat_ofNat']
    omega
  unfold pathHeader
  rw [hlow, hhigh]
  intro i hi
  match i with
  | 0 => exact h0
  | 1 => exact h1
  | 2 => exact h2
  | 3 => exact h3
  | i + 4 => exact absurd hi (by show ¬ i + 4 < 4; omega)

theorem readNode_holds (mem : Mem) (node : ℕ) (n : DevicePathNode) (h : readNode mem node = some n) :
    mem.Holds node n.bytes := by
  obtain ⟨t, h0, h⟩ := Option.bind_eq_some_iff.mp h
  obtain ⟨s, h1, h⟩ := Option.bind_eq_some_iff.mp h
  obtain ⟨len, hlen, h⟩ := Option.bind_eq_some_iff.mp h
  split at h
  · next hc =>
    obtain rfl := (Option.some.inj h).symm
    have hl : (DevicePathNode.length ⟨t, s, mem.bytesAt (node + 4) (len - 4),
        by rw [Mem.bytesAt_length]; exact hc.2.1, hc.1⟩) = len := by
      rw [DevicePathNode.length, Mem.bytesAt_length]
      exact Nat.sub_add_cancel hc.2.2.1
    rw [DevicePathNode.bytes, hl, Mem.holds_append]
    refine ⟨bytes_of_length mem node t s len h0 h1 hlen, ?_⟩
    apply Mem.holds_bytesAt
    intro i hi
    have hi' : 4 + i < len := by omega
    have hsome := List.all_eq_true.mp hc.2.2.2 (4 + i) (List.mem_range.mpr hi')
    rw [← Nat.add_assoc] at hsome
    exact Option.isSome_iff_exists.mp hsome
  · cases h

theorem readPath_holds (mem : Mem) (fuel node : ℕ) (nodes : List DevicePathNode)
    (h : readPath mem fuel node = some nodes) : mem.Holds node (pathBytes nodes) := by
  induction fuel generalizing node nodes with
  | zero => cases h
  | succ fuel ih =>
    obtain ⟨atEnd, hend, h⟩ := Option.bind_eq_some_iff.mp h
    cases atEnd with
    | true =>
      rw [if_pos rfl] at h
      by_cases hlen : walkLength mem node = some endDevicePathLength
      · rw [if_pos hlen] at h
        obtain rfl := (Option.some.inj h).symm
        obtain ⟨t, h0, hs⟩ := Option.bind_eq_some_iff.mp hend
        by_cases ht : t = endDevicePathType
        · rw [if_pos ht] at hs
          obtain ⟨s, h1, hs⟩ := Option.map_eq_some_iff.mp hs
          rw [ht] at h0
          rw [of_decide_eq_true hs] at h1
          exact bytes_of_length mem node _ _ _ h0 h1 hlen
        · rw [if_neg ht] at hs
          cases hs
      · rw [if_neg hlen] at h
        cases h
    | false =>
      rw [if_neg (by decide)] at h
      obtain ⟨n, hn, h⟩ := Option.bind_eq_some_iff.mp h
      obtain ⟨ns, hns, rfl⟩ := Option.map_eq_some_iff.mp h
      rw [pathBytes, stream_cons, Mem.holds_append, n.bytes_length]
      exact ⟨readNode_holds mem node n hn, ih _ _ hns⟩

/-- a library that reads paths of up to 64 nodes -/
def walkLib : DevicePathLib where
  isDevicePathValid mem _ path :=
    match readPath mem 64 path with
    | none => false
    | some nodes => decide ((pathBytes nodes).length < 2^64)
  getDevicePathSize mem path :=
    match readPath mem 64 path with
    | none => 0
    | some nodes => UInt64.ofNat (pathBytes nodes).length
  isDevicePathEnd := walkAtEnd
  nextDevicePathNode mem node := (walkLength mem node).map (node + ·)
  efiGetNameGuidFromFwVolDevicePathNode := walkName

theorem walkLib_documented : walkLib.Documented where
  valid mem maxSize path h := by
    unfold walkLib at h
    cases hr : readPath mem 64 path with
    | none =>
      simp only [hr] at h
      cases h
    | some nodes => exact ⟨nodes, readPath_holds mem 64 path nodes hr⟩
  size mem maxSize path nodes h hnodes := by
    unfold walkLib at h ⊢
    cases hr : readPath mem 64 path with
    | none =>
      simp only [hr] at h
      cases h
    | some nodes' =>
      simp only [hr, decide_eq_true_eq] at h ⊢
      obtain ⟨x, y, hxy⟩ := (readPath_holds mem 64 path nodes' hr).joined hnodes
      have heq := devicePath_code.stream_unique nodes' nodes x y hxy
      rw [UInt64.toNat_ofNat', heq, Nat.mod_eq_of_lt]
      rw [← heq]
      exact h
  atEnd := walkAtEnd_end
  notAtEnd := walkAtEnd_node
  next mem node n h := by
    show (walkLength mem node).map (node + ·) = _
    rw [walkLength_node mem node n h, Option.map_some]
  noName := walkName_end
  name := walkName_node

end AppleSilicon

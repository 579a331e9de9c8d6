import AppleSilicon.BootManager.DevicePath
import AppleSilicon.Lib.Fuel
import AppleSilicon.Lib.Status

/-!
# Load options

The variable `Boot####` holds a load option: attributes, the length of the path, a description, the
device path and optional data.  `BootCurrentIsInternalShell` looks into the option that is booted:
it steps over the description, walks to the last node of the path and compares the name of the
firmware file there.

`none` is a read outside the memory, or a loop that the fuel does not suffice for.

* `strSize_description`       the description is stepped over;
* `lastNode_visits`           the walk ends on the last node;
* `isInternalShell_of_bytes`  what the function says of an option that lies in the memory;
* `bootCurrentIsInternalShell_iff`   and so of the one that is booted.
-/

namespace AppleSilicon

/-! ## names and options -/

/-- `%04x`: upper-case digits, as the print library writes them -/
def hex4 (n : UInt16) : List Char :=
  [n.toNat / 2^12, n.toNat / 2^8 % 2^4, n.toNat / 2^4 % 2^4, n.toNat % 2^4].map fun d =>
    (Nat.digitChar d).toUpper

/-- `Boot%04x` -/
def bootOptionName (n : UInt16) : List Char := ['B', 'o', 'o', 't'] ++ hex4 n

theorem digit_inj : ∀ d < 16, ∀ e < 16, (Nat.digitChar d).toUpper = (Nat.digitChar e).toUpper →
    d = e := by decide

theorem bootOptionName_inj (n m : UInt16) (h : bootOptionName n = bootOptionName m) : n = m := by
  unfold bootOptionName hex4 at h
  simp only [List.append_cancel_left_eq, List.map_cons, List.map_nil, List.cons.injEq,
    and_true] at h
  obtain ⟨h3, h2, h1, h0⟩ := h
  have hn := n.toNat_lt
  have hm := m.toNat_lt
  have e3 := digit_inj _ (by omega) _ (by omega) h3
  have e2 := digit_inj _ (by omega) _ (by omega) h2
  have e1 := digit_inj _ (by omega) _ (by omega) h1
  have e0 := digit_inj _ (by omega) _ (by omega) h0
  rw [← UInt16.toNat_inj]
  omega

/-- `EFI_BOOT_MANAGER_LOAD_OPTION` of type boot -/
structure LoadOption where
  optionNumber : ℕ
  attributes : UInt32
  description : List UInt16
  filePath : List DevicePathNode
  optionalData : List UInt8

/-- a string without its terminator -/
def utf16Bytes (s : List UInt16) : List UInt8 :=
  s.flatMap fun c => [UInt8.ofNat c.toNat, UInt8.ofNat (c.toNat / 2^8)]

/-- `EFI_LOAD_OPTION`, as the variable holds it -/
def LoadOption.bytes (o : LoadOption) : List UInt8 :=
  word32 o.attributes.toNat ++
    [UInt8.ofNat (pathBytes o.filePath).length, UInt8.ofNat ((pathBytes o.filePath).length / 2^8)] ++
    (utf16Bytes o.description ++ [0, 0]) ++ pathBytes o.filePath ++ o.optionalData

/-! ## `BootCurrentIsInternalShell` -/

section
variable (lib : DevicePathLib) (mem : Mem)

/-- `StrSize`, the terminator included -/
def strSize : ℕ → ℕ → Option ℕ
  | 0, _ => none
  | fuel + 1, ptr => (mem ptr).bind fun low => (mem (ptr + 1)).bind fun high =>
    if low = 0 ∧ high = 0 then some 2 else (strSize fuel (ptr + 2)).map (2 + ·)

/-- `LastDeviceNode = TempDevicePath` -/
def lastBody (node _last : ℕ) : Option (Turn ℕ Empty) := some (.again node)

/-- the 16 bytes of a GUID -/
def readGuid (a : ℕ) : Option (List UInt8) :=
  if (List.range 16).all fun i => (mem (a + i)).isSome then some (mem.bytesAt a 16) else none

/-- the name of the last node is that of the shell -/
def isInternalShellNode (shellFile uefiShellFileGuid : List UInt8) (node : ℕ) : Option Bool :=
  (lib.efiGetNameGuidFromFwVolDevicePathNode mem node).bind fun guidPoint =>
    match guidPoint with
    | none => some false
    | some guidPoint => (readGuid mem guidPoint).map fun guid =>
      decide (guid = shellFile ∨ guid = uefiShellFileGuid)

/-- the option at `bootOption` is the internal shell -/
def isInternalShell (shellFile uefiShellFileGuid : List UInt8) (fuel bootOption : ℕ) :
    Option Bool :=
  let ptr := bootOption + 4 + 2
  (strSize mem fuel ptr).bind fun n =>
  (pathLoop lib mem lastBody fuel (ptr + n) (ptr + n)).bind fun last =>
    match last with
    | .inl node => isInternalShellNode lib mem shellFile uefiShellFileGuid node
    | .inr e => nomatch e

/-- `BootCurrent` with the status of reading it, and the address and the size of a variable that is
read into the memory -/
def bootCurrentIsInternalShell (shellFile uefiShellFileGuid : List UInt8)
    (bootCurrent : StatusCode × UInt16) (getEfiGlobalVariable2 : List Char → Option (ℕ × ℕ))
    (fuel : ℕ) : Option Bool :=
  if bootCurrent.1.isError then some false
  else
    match getEfiGlobalVariable2 (bootOptionName bootCurrent.2) with
    | none => some false
    | some (bootOption, varSize) =>
      if varSize = 0 then some false
      else isInternalShell lib mem shellFile uefiShellFileGuid fuel bootOption

end

/-! ## what it says -/

/-- the path ends in the file of the shell -/
def EndsInShell (shellFile uefiShellFileGuid : List UInt8) (nodes : List DevicePathNode) : Prop :=
  ∃ n, nodes.getLast? = some n ∧ n.IsFwFile ∧
    (n.data.take 16 = shellFile ∨ n.data.take 16 = uefiShellFileGuid)

theorem char_zero_iff (c : UInt16) :
    UInt8.ofNat c.toNat = 0 ∧ UInt8.ofNat (c.toNat / 2^8) = 0 ↔ c = 0 := by
  have hc := c.toNat_lt
  rw [← UInt8.toNat_inj, ← UInt8.toNat_inj, ← UInt16.toNat_inj, UInt8.toNat_ofNat',
    UInt8.toNat_ofNat']
  simp only [UInt8.toNat_zero, UInt16.toNat_zero]
  omega

/-- **the description** is stepped over -/
theorem strSize_description (mem : Mem) (s : List UInt16) (ptr fuel : ℕ) (hs : ∀ c ∈ s, c ≠ 0)
    (hfuel : s.length < fuel) (h : mem.Holds ptr (utf16Bytes s ++ [0, 0])) :
    strSize mem fuel ptr = some (utf16Bytes s ++ [0, 0]).length := by
  induction s generalizing ptr fuel with
  | nil =>
    obtain ⟨fuel, rfl⟩ : ∃ f, fuel = f + 1 := ⟨fuel - 1, by omega⟩
    have h0 : mem ptr = some 0 := h 0 (by decide)
    have h1 : mem (ptr + 1) = some 0 := h 1 (by decide)
    simp [strSize, h0, h1, utf16Bytes]
  | cons c s ih =>
    obtain ⟨fuel, rfl⟩ : ∃ f, fuel = f + 1 := ⟨fuel - 1, by omega⟩
    rw [List.forall_mem_cons] at hs
    have hsplit : utf16Bytes (c :: s) ++ [0, 0]
        = [UInt8.ofNat c.toNat, UInt8.ofNat (c.toNat / 2^8)] ++ (utf16Bytes s ++ [0, 0]) := by
      rw [utf16Bytes, List.flatMap_cons, List.append_assoc]
      rfl
    rw [hsplit, Mem.holds_append] at h
    have h0 : mem ptr = some (UInt8.ofNat c.toNat) := h.1 0 (by simp)
    have h1 : mem (ptr + 1) = some (UInt8.ofNat (c.toNat / 2^8)) := h.1 1 (by simp)
    have hne : ¬ (UInt8.ofNat c.toNat = 0 ∧ UInt8.ofNat (c.toNat / 2^8) = 0) := by
      rw [char_zero_iff]
      exact hs.1
    rw [strSize, h0, h1, Option.bind_some, Option.bind_some, if_neg hne,
      ih (ptr + 2) fuel hs.2 (by simpa using hfuel) h.2, Option.map_some, hsplit,
      @List.length_append _ [_, _]]
    rfl

/-- **the walk** ends on the last node, or on the end node of an empty path -/
theorem lastNode_visits (nodes : List DevicePathNode) (mem : Mem) (path last : ℕ)
    (h : mem.Holds path (pathBytes nodes)) :
    ∃ node, visitNodes (fun _ node (_ : ℕ) => (.again node : Turn ℕ Empty)) nodes path last
        = .inl node ∧
      match nodes.getLast? with
      | none => node = last
      | some n => mem.Holds node n.bytes := by
  induction nodes generalizing path last with
  | nil => exact ⟨last, rfl, rfl⟩
  | cons n ns ih =>
    rw [pathBytes, stream_cons, Mem.holds_append, n.bytes_length] at h
    obtain ⟨node, hnode, hlast⟩ := ih (path + n.length) path h.2
    refine ⟨node, hnode, ?_⟩
    cases ns with
    | nil =>
      rw [show node = path from hlast]
      exact h.1
    | cons m ms =>
      rw [List.getLast?_cons_cons]
      exact hlast

theorem readGuid_holds (mem : Mem) (a : ℕ) (bs : List UInt8) (hlen : 16 ≤ bs.length)
    (h : mem.Holds a bs) : readGuid mem a = some (bs.take 16) := by
  rw [← List.take_append_drop 16 bs, Mem.holds_append] at h
  have h16 : (bs.take 16).length = 16 := by
    rw [List.length_take]
    omega
  have hread := h.1.readable
  have hbytes := mem.bytesAt_of_holds a _ h.1
  rw [h16] at hread hbytes
  rw [readGuid, if_pos, hbytes]
  rw [List.all_eq_true]
  intro i hi
  obtain ⟨b, hb⟩ := hread i (List.mem_range.mp hi)
  rw [hb]
  rfl

/-- **an option that lies in the memory** is the internal shell exactly when its path ends in the
file of the shell -/
theorem isInternalShell_of_bytes (lib : DevicePathLib) (hlib : lib.Documented) (mem : Mem)
    (shellFile uefiShellFileGuid : List UInt8) (bootOption fuel : ℕ) (o : LoadOption)
    (hdesc : ∀ c ∈ o.description, c ≠ 0)
    (hfile : ∀ n ∈ o.filePath, n.IsFwFile → 16 ≤ n.data.length)
    (hfuel : o.description.length + o.filePath.length < fuel) (h : mem.Holds bootOption o.bytes) :
    ∃ b, isInternalShell lib mem shellFile uefiShellFileGuid fuel bootOption = some b ∧
      (b = true ↔ EndsInShell shellFile uefiShellFileGuid o.filePath) := by
  rw [LoadOption.bytes, Mem.holds_append, Mem.holds_append, Mem.holds_append, Mem.holds_append] at h
  obtain ⟨⟨⟨_, hdescr⟩, hpath⟩, _⟩ := h
  have hsix : bootOption + (word32 o.attributes.toNat ++
      [UInt8.ofNat (pathBytes o.filePath).length,
        UInt8.ofNat ((pathBytes o.filePath).length / 2^8)]).length = bootOption + 4 + 2 := rfl
  rw [hsix] at hdescr
  rw [List.length_append, ← Nat.add_assoc, hsix] at hpath
  have hsize := strSize_description mem o.description _ fuel hdesc (by omega) hdescr
  have hvisit := pathLoop_visits lib hlib mem lastBody (fun _ node _ => .again node) (fun _ _ _ _ => rfl)
    o.filePath _ fuel (bootOption + 4 + 2 + (utf16Bytes o.description ++ [0, 0]).length) (by omega)
    hpath
  obtain ⟨node, hnode, hlast⟩ := lastNode_visits o.filePath mem _
    (bootOption + 4 + 2 + (utf16Bytes o.description ++ [0, 0]).length) hpath
  unfold isInternalShell
  simp only [hsize, hvisit, hnode, Option.bind_some]
  unfold isInternalShellNode EndsInShell
  cases hl : o.filePath.getLast? with
  | none =>
    -- the end node itself is taken for the last one
    rw [hl] at hlast
    have hnil : o.filePath = [] := List.getLast?_eq_none_iff.mp hl
    rw [hnil, pathBytes, stream_nil, ← show node = _ from hlast] at hpath
    refine ⟨false, ?_, by simp⟩
    rw [hlib.noName mem node hpath]
    rfl
  | some n =>
    rw [hl] at hlast
    have hmem : n ∈ o.filePath := List.mem_of_getLast? hl
    have hholds : mem.Holds node n.bytes := hlast
    rw [hlib.name mem node n hholds]
    by_cases hfw : n.IsFwFile
    · rw [DevicePathNode.bytes, Mem.holds_append] at hholds
      have hguid := readGuid_holds mem (node + 4) n.data (hfile n hmem hfw) hholds.2
      rw [if_pos hfw, Option.bind_some]
      simp only [hguid, Option.map_some]
      refine ⟨_, rfl, ?_⟩
      rw [decide_eq_true_iff]
      constructor
      · intro hg
        exact ⟨n, rfl, hfw, hg⟩
      · rintro ⟨m, hm, _, hg⟩
        rw [← Option.some.inj hm] at hg
        exact hg
    · rw [if_neg hfw]
      refine ⟨false, rfl, ?_⟩
      simp only [Bool.false_eq_true, Option.some.injEq, exists_eq_left', false_iff, not_and]
      exact fun h => absurd h hfw

/-- **the option that is booted** is the internal shell exactly when `BootCurrent` can be read, its
variable is there, and the path of the option ends in the file of the shell -/
theorem bootCurrentIsInternalShell_iff (lib : DevicePathLib) (hlib : lib.Documented) (mem : Mem)
    (shellFile uefiShellFileGuid : List UInt8)
    (bootCurrent : StatusCode × UInt16) (getEfiGlobalVariable2 : List Char → Option (ℕ × ℕ))
    (options : UInt16 → Option (ℕ × LoadOption))
    (hvariable : ∀ n, (options n = none → getEfiGlobalVariable2 (bootOptionName n) = none) ∧
      ∀ a o, options n = some (a, o) → getEfiGlobalVariable2 (bootOptionName n)
        = some (a, o.bytes.length) ∧ mem.Holds a o.bytes ∧ (∀ c ∈ o.description, c ≠ 0) ∧
          ∀ m ∈ o.filePath, m.IsFwFile → 16 ≤ m.data.length) :
    ∃ b, Returns (bootCurrentIsInternalShell lib mem shellFile uefiShellFileGuid bootCurrent
        getEfiGlobalVariable2) b ∧
      (b = true ↔ bootCurrent.1.isError = false ∧ ∃ a o, options bootCurrent.2 = some (a, o) ∧
        EndsInShell shellFile uefiShellFileGuid o.filePath) := by
  unfold bootCurrentIsInternalShell
  cases herr : bootCurrent.1.isError with
  | true => exact ⟨false, ⟨0, fun _ _ => rfl⟩, by simp⟩
  | false =>
    obtain ⟨hnone, hsome⟩ := hvariable bootCurrent.2
    cases ho : options bootCurrent.2 with
    | none =>
      rw [hnone ho]
      exact ⟨false, ⟨0, fun _ _ => rfl⟩, by simp⟩
    | some p =>
      obtain ⟨a, o⟩ := p
      obtain ⟨hget, hholds, hdesc, hfile⟩ := hsome a o ho
      have hpos : o.bytes.length ≠ 0 := by
        rw [LoadOption.bytes, List.length_append, List.length_append, List.length_append,
          List.length_append, word32_length]
        omega
      have hres := fun fuel hfuel => isInternalShell_of_bytes lib hlib mem shellFile uefiShellFileGuid a
        fuel o hdesc hfile hfuel hholds
      obtain ⟨b, hb, hiff⟩ := hres _ (Nat.lt_succ_self _)
      refine ⟨b, ⟨o.description.length + o.filePath.length + 1, fun fuel hfuel => ?_⟩, ?_⟩
      · obtain ⟨b', hb', hiff'⟩ := hres fuel hfuel
        simp only [hget, Bool.false_eq_true, if_false, if_neg hpos, hb']
        rw [Bool.eq_iff_iff.mpr (hiff'.trans hiff.symm)]
      · rw [hiff]
        constructor
        · intro he
          exact ⟨rfl, a, o, rfl, he⟩
        · intro ⟨_, _, _, heq, he⟩
          obtain ⟨rfl, rfl⟩ := Prod.mk.inj (Option.some.inj heq)
          exact he

/-- `gUefiShellFileGuid` -/
def gUefiShellFileGuid : List UInt8 :=
  [0x83, 0xa5, 0x04, 0x7c, 0x3e, 0x9e, 0x1c, 0x4f, 0xad, 0x65, 0xe0, 0x52, 0x68, 0xd0, 0xb4, 0xd1]

/-- a firmware volume -/
def exampleVolumeNode : DevicePathNode := ⟨4, 7, List.replicate 16 7, by decide, by decide⟩

/-- the shell in it -/
def exampleShellOption : LoadOption where
  optionNumber := 1
  attributes := 1
  description := [0x53, 0x68]
  filePath := [exampleVolumeNode,
    ⟨mediaDevicePath, mediaPiwgFwFileDp, gUefiShellFileGuid, by decide, by decide⟩]
  optionalData := []

def exampleOptionMem : Mem := fun a => exampleShellOption.bytes[a]?

/-- `Boot0001` is the shell, and is booted -/
theorem exampleShellOption_booted : Returns (bootCurrentIsInternalShell walkLib exampleOptionMem
    (List.replicate 16 0) gUefiShellFileGuid (.success, 1) fun name =>
      if name = bootOptionName 1 then some (0, exampleShellOption.bytes.length) else none) true := by
  obtain ⟨b, hb, hiff⟩ := bootCurrentIsInternalShell_iff walkLib walkLib_documented exampleOptionMem
    (List.replicate 16 0) gUefiShellFileGuid (.success, 1)
    (fun name =>
      if name = bootOptionName 1 then some (0, exampleShellOption.bytes.length) else none)
    (fun n => if n = 1 then some (0, exampleShellOption) else none) (by
      intro n
      constructor
      · intro hnone
        have hn : n ≠ 1 := fun h => by simp [h] at hnone
        rw [if_neg fun h => hn (bootOptionName_inj n 1 h)]
      · intro a o hsome
        by_cases hn : n = 1
        · rw [if_pos hn] at hsome
          obtain ⟨rfl, rfl⟩ := Prod.mk.inj (Option.some.inj hsome)
          rw [hn, if_pos rfl]
          refine ⟨rfl, ?_, by simp [exampleShellOption],
            by simp [exampleShellOption, exampleVolumeNode, gUefiShellFileGuid]⟩
          intro i _
          rw [Nat.zero_add]
          rfl
        · rw [if_neg hn] at hsome
          cases hsome)
  have hshell : EndsInShell (List.replicate 16 0) gUefiShellFileGuid exampleShellOption.filePath :=
    ⟨_, rfl, ⟨rfl, rfl⟩, .inr (by decide)⟩
  rw [hiff.mpr ⟨by decide, 0, exampleShellOption, rfl, hshell⟩] at hb
  exact hb

end AppleSilicon

import AppleSilicon.Aic.Lines
import AppleSilicon.Dt.Reg
import AppleSilicon.Hob.MemoryPeim

/-!
# Drivers that take their MMIO base from the tree

A driver looks up a node by name, asks `dt_node_reg` for an address and drives the device there.
None of them looks at what `dt_node_reg` returns: the address is written to a variable, and where
the call fails the variable keeps what it held.

A run gives the calls of `dt_node_reg` and what is done at which base; `none` is a run that does not
return (a `NULL` dereference, an `ASSERT`).

* `dtNodeReg_out`    what a call of `dt_node_reg` stores;
* `DrivenRight`      every base comes from a call that succeeded, for the device's own node and index;
* `bringup_right_iff`, `gpio_right_iff`, `aic_right_iff`   when that holds of the USB, GPIO and AIC
  drivers.
-/

namespace AppleSilicon

/-- what a lookup in the tree depends on -/
structure Adt where
  lib : AsciiLib
  /-- what `dt_node_parent` reads outside its path -/
  stray : Int → Option ℕ
  mem : Mem
  fuel : ℕ
  pcd : Pcds

namespace Adt

/-- `dt_get(name)` -/
def get (t : Adt) (name : List UInt8) : Option (Option ℕ) := dtGet t.lib t.mem t.fuel t.pcd name

/-- `dt_node_reg(node, idx, &addr, NULL)` -/
def reg (t : Adt) (node idx : ℕ) : Option RegOut :=
  dtNodeReg t.lib t.stray t.mem t.fuel t.pcd.adtPointer.toNat node idx

/-- `dt_node_u32(node, name, 0)` -/
def u32 (t : Adt) (node : ℕ) (name : List UInt8) : Option ℕ := dtNodeU32 t.lib t.mem (some node) name 0

/-- `AsciiStrCmp (dt_node_prop (node, name, &length), s)`; the pointer may be `NULL` -/
def strCmpProp (t : Adt) (node : ℕ) (name s : List UInt8) : Option Int :=
  (dtProp t.lib t.mem node name).bind fun v => v.bind fun p => t.lib.asciiStrCmp (t.mem.at p.1) s

end Adt

/-- what the variable behind `paddr` holds after the call -/
def RegOut.stored (out : RegOut) (old : UInt64) : UInt64 :=
  match out.paddr with
  | none => old
  | some addr => UInt64.ofNat addr

/-! ## devices and runs -/

/-- `(Midr >> 24) & 0x61` -/
def isAppleSoc (midr : UInt32) : Bool := (midr >>> 24) &&& 0x61 ≠ 0

def compatibleKey : List UInt8 :=
  ascii ['c', 'o', 'm', 'p', 'a', 't', 'i', 'b', 'l', 'e']

/-- `AsciiSPrint (DartNodeName, 33, "dart-usb%d", DartNodeIndex)` -/
def dartNodeName (i : ℕ) : List UInt8 :=
  (ascii (['d', 'a', 'r', 't', '-', 'u', 's', 'b'] ++ decimal (i32 i))).take 32

/-- `AsciiSPrint (Dwc3RegNodeName, 31, "usb-drd%d", Dwc3Index)` -/
def dwc3RegNodeName (i : ℕ) : List UInt8 :=
  (ascii (['u', 's', 'b', '-', 'd', 'r', 'd'] ++ decimal (i32 i))).take 30

/-- `dt_get("gpio")`, or else `dt_get("gpio0")` -/
def Adt.pinCtrlApNode (t : Adt) : Option (Option ℕ) :=
  (t.get (ascii ['g', 'p', 'i', 'o'])).bind fun node =>
    match node with
    | some node => some (some node)
    | none => t.get (ascii ['g', 'p', 'i', 'o', '0'])

/-- `dt_get("aic")` -/
def Adt.interruptControllerNode (t : Adt) : Option (Option ℕ) := t.get (ascii ['a', 'i', 'c'])

inductive Device where
  /-- each Type-C port has two DARTs -/
  | dart (dartIndex : ℕ)
  | dwc3 (dwc3Index : ℕ)
  | gpio
  | aic
deriving DecidableEq, Repr

namespace Device

/-- the node of the device -/
def node (t : Adt) : Device → Option (Option ℕ)
  | dart k => t.get (dartNodeName (k / 2))
  | dwc3 i => t.get (dwc3RegNodeName i)
  | gpio => t.pinCtrlApNode
  | aic => t.interruptControllerNode

/-- the entry of `reg` that describes it -/
def index : Device → ℕ
  | dart k => k % 2
  | _ => 0

/-- the devices of the DFU ports -/
def dfuPort : Device → Bool
  | dart k => k = 0 ∨ k = 1 ∨ k = 4 ∨ k = 5
  | dwc3 i => i = 0 ∨ i = 2
  | _ => false

end Device

/-- what a driver does at an MMIO base -/
inductive BaseUse where
  | mmioRead32 (offset : UInt64)
  | mmioWrite32 (offset : UInt64) (value : UInt32)
  | initializeUsbController
  | registerMmioDevice (size : UInt32)
  | store
deriving DecidableEq, Repr

inductive DriverEvent where
  /-- a call of `dt_node_reg` that returned -/
  | nodeReg (node idx : ℕ) (out : RegOut)
  | use (device : Device) (base : UInt64) (how : BaseUse)
deriving DecidableEq

/-- the base is what a call of `dt_node_reg` in the log wrote and returned 0 for, with the device's
own node and index; and the device belongs to no DFU port -/
def BaseGiven (t : Adt) (log : List DriverEvent) (device : Device) (base : UInt64) : Prop :=
  device.dfuPort = false ∧ ∃ node out, device.node t = some (some node) ∧
    t.reg node device.index = some out ∧ out.ret = 0 ∧ out.paddr.map UInt64.ofNat = some base ∧
    .nodeReg node device.index out ∈ log

/-- the driver returns, and every base it uses was given by the tree -/
def DrivenRight (t : Adt) (run : Option (List DriverEvent)) : Prop :=
  ∃ log, run = some log ∧ ∀ device base how, .use device base how ∈ log → BaseGiven t log device base

/-- the lookup of the device succeeds -/
def LookupOk (t : Adt) (device : Device) : Prop :=
  ∃ node out, device.node t = some (some node) ∧ t.reg node device.index = some out ∧ out.ret = 0

/-- the device has no node -/
def Absent (t : Adt) (device : Device) : Prop := device.node t = some none

/-! ## `dt_node_reg` -/

theorem dtRegLoop_out (lib : AsciiLib) (stray : Int → Option ℕ) (mem : Mem) (fuel adt k : ℕ)
    (cur : Option ℕ) (a s addr size : ℕ) (out : RegOut)
    (h : dtRegLoop lib stray mem fuel adt k cur a s addr size = some out) :
    out = .refused ∨ ∃ addr size, out = ⟨0, some addr, some size⟩ := by
  induction k generalizing cur a s addr size with
  | zero => cases h
  | succ k ih =>
    cases cur with
    | none => exact .inr ⟨addr, size, (Option.some.inj h).symm⟩
    | some cur =>
      obtain ⟨arg, _, h⟩ := Option.bind_eq_some_iff.mp h
      obtain ⟨r, _, h⟩ := Option.bind_eq_some_iff.mp h
      cases r with
      | none => exact .inr ⟨addr, size, (Option.some.inj h).symm⟩
      | some r =>
        obtain ⟨pa, _, h⟩ := Option.bind_eq_some_iff.mp h
        by_cases hc : pa < 1 ∨ pa > 2 ∨ s > 2
        · rw [if_pos hc] at h
          exact .inl (Option.some.inj h).symm
        · rw [if_neg hc] at h
          obtain ⟨addr', _, h⟩ := Option.bind_eq_some_iff.mp h
          obtain ⟨s', _, h⟩ := Option.bind_eq_some_iff.mp h
          exact ih _ _ _ _ _ h

/-- **what a call stores**: an address when it returns 0, and nothing otherwise -/
theorem dtNodeReg_out (lib : AsciiLib) (stray : Int → Option ℕ) (mem : Mem) (fuel adt node idx : ℕ)
    (out : RegOut) (h : dtNodeReg lib stray mem fuel adt node idx = some out) :
    out = .refused ∨ ∃ addr size, out = ⟨0, some addr, some size⟩ := by
  obtain ⟨arg, _, h⟩ := Option.bind_eq_some_iff.mp h
  obtain ⟨a, _, h⟩ := Option.bind_eq_some_iff.mp h
  obtain ⟨s, _, h⟩ := Option.bind_eq_some_iff.mp h
  by_cases hc : a < 1 ∨ a > 2 ∨ s > 2
  · rw [if_pos hc] at h
    exact .inl (Option.some.inj h).symm
  · rw [if_neg hc] at h
    obtain ⟨r, _, h⟩ := Option.bind_eq_some_iff.mp h
    cases r with
    | none => exact .inl (Option.some.inj h).symm
    | some r =>
      dsimp only at h
      by_cases h0 : r.2 = 0
      · rw [if_pos h0] at h
        exact .inl (Option.some.inj h).symm
      · rw [if_neg h0] at h
        by_cases hlen : r.2 < (idx + 1) * (a + s) * 4 % 2^32
        · rw [if_pos hlen] at h
          exact .inl (Option.some.inj h).symm
        · rw [if_neg hlen] at h
          obtain ⟨v, _, h⟩ := Option.bind_eq_some_iff.mp h
          obtain ⟨w, _, h⟩ := Option.bind_eq_some_iff.mp h
          exact dtRegLoop_out lib stray mem fuel adt _ _ _ _ _ _ out h

/-- what a successful call leaves in the variable is what it wrote -/
theorem reg_stored (t : Adt) (node idx : ℕ) (out : RegOut) (old : UInt64)
    (h : t.reg node idx = some out) (h0 : out.ret = 0) :
    out.paddr.map UInt64.ofNat = some (out.stored old) := by
  rcases dtNodeReg_out t.lib t.stray t.mem t.fuel _ node idx out h with rfl | ⟨addr, size, rfl⟩
  · cases h0
  · rfl

/-- a base that was given comes from a lookup that succeeds -/
theorem BaseGiven.lookupOk {t : Adt} {log : List DriverEvent} {device : Device} {base : UInt64}
    (h : BaseGiven t log device base) : LookupOk t device := by
  obtain ⟨_, node, out, hnode, hreg, h0, _⟩ := h
  exact ⟨node, out, hnode, hreg, h0⟩

end AppleSilicon

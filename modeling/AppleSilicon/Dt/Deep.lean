import AppleSilicon.Dt.Tree

/-!
# Two trees in memory

`deepMem N` holds, from `deepAt 0` on, a chain of `N` nodes of 48 bytes, each the only child of the
one before, each with one property `name`: `"a"`, but `"b"` for the last node.  It is the tree of
any depth the limits of the walk are tried on.

`familyMem` holds a root with one property and two children, of which the first has a child.
-/

namespace AppleSilicon

/-- the root with its property, its first child, the child of that, its second child -/
def familyBytes : List UInt8 :=
  [1, 0, 0, 0, 2, 0, 0, 0] ++ List.replicate 32 0x6e ++ [2, 0, 0, 0, 0x61, 0, 0, 0] ++
  [0, 0, 0, 0, 1, 0, 0, 0] ++ [0, 0, 0, 0, 0, 0, 0, 0] ++ [0, 0, 0, 0, 0, 0, 0, 0]

def familyMem : Mem := fun x => familyBytes[x]?

theorem familyMem_readable : familyMem.Readable 0 72 := by
  intro x hx
  have hlen : x < familyBytes.length := by
    show x < 72
    omega
  refine ⟨familyBytes[x], ?_⟩
  unfold familyMem
  rw [Nat.zero_add]
  exact List.getElem?_eq_getElem hlen

/-- the address of the `i`-th node -/
def deepAt (i : ℕ) : ℕ := 0x800000000 + 48 * i

/-- byte `r` of a node of the chain -/
def deepByte (last : Bool) (r : ℕ) : UInt8 :=
  if r = 0 then 1
  else if r = 4 then (if last then 0 else 1)
  else if r = 8 then 0x6e else if r = 9 then 0x61 else if r = 10 then 0x6d else if r = 11 then 0x65
  else if r = 40 then 2
  else if r = 44 then (if last then 0x62 else 0x61)
  else 0

def deepMem (N : ℕ) : Mem := fun x =>
  if deepAt 0 ≤ x ∧ x < deepAt N then
    some (deepByte (decide ((x - deepAt 0) / 48 + 1 = N)) ((x - deepAt 0) % 48))
  else none

def deepNode (i : ℕ) : NodeRec := ⟨deepAt i, [⟨deepAt i + 8, 2⟩]⟩

/-- the chain of `k` nodes from the `i`-th node on -/
def deepForest : ℕ → ℕ → Forest NodeRec
  | 0, _ => .nil
  | k + 1, i => .node (deepNode i) (deepForest k (i + 1)) .nil

theorem deepAt_succ (i : ℕ) : deepAt (i + 1) = deepAt i + 48 := rfl

theorem deepMem_at (N i r : ℕ) (hi : i < N) (hr : r < 48) :
    deepMem N (deepAt i + r) = some (deepByte (decide (i + 1 = N)) r) := by
  unfold deepMem deepAt
  rw [if_pos (by omega), show (0x800000000 + 48 * i + r - (0x800000000 + 48 * 0)) / 48 = i by omega,
    show (0x800000000 + 48 * i + r - (0x800000000 + 48 * 0)) % 48 = r by omega]

theorem deepMem_readable (N : ℕ) : (deepMem N).Readable (deepAt 0) (48 * N) := by
  intro x hx
  unfold deepMem
  rw [if_pos (by unfold deepAt; omega)]
  exact ⟨_, rfl⟩

theorem deepMem_le32 (N i r : ℕ) (hi : i < N) (hr : r + 4 ≤ 48) :
    (deepMem N).le32 (deepAt i + r) = some ((deepByte (decide (i + 1 = N)) r).toNat
      + 2^8 * (deepByte (decide (i + 1 = N)) (r + 1)).toNat
      + 2^16 * (deepByte (decide (i + 1 = N)) (r + 2)).toNat
      + 2^24 * (deepByte (decide (i + 1 = N)) (r + 3)).toNat) :=
  Mem.le32_of_bytes _ _ _ _ _ _ (deepMem_at N i r hi (by omega))
    (deepMem_at N i (r + 1) hi (by omega)) (deepMem_at N i (r + 2) hi (by omega))
    (deepMem_at N i (r + 3) hi (by omega))

theorem deepMem_nprop (N i : ℕ) (hi : i < N) : (deepMem N).le32 (deepAt i) = some 1 := by
  have h := deepMem_le32 N i 0 hi (by omega)
  rw [Nat.add_zero] at h
  rw [h]
  cases decide (i + 1 = N) <;> rfl

theorem deepMem_nchld (N i : ℕ) (hi : i + 1 < N) : (deepMem N).le32 (deepAt i + 4) = some 1 := by
  rw [deepMem_le32 N i 4 (by omega) (by omega), decide_eq_false (by omega)]
  rfl

theorem deepMem_nchld_last (N i : ℕ) (hi : i + 1 = N) :
    (deepMem N).le32 (deepAt i + 4) = some 0 := by
  rw [deepMem_le32 N i 4 (by omega) (by omega), decide_eq_true hi]
  rfl

theorem deepMem_len (N i : ℕ) (hi : i < N) : (deepMem N).le32 (deepAt i + 40) = some 2 := by
  rw [deepMem_le32 N i 40 hi (by omega)]
  cases decide (i + 1 = N) <;> rfl

theorem deepMem_isProps (N i : ℕ) (hi : i < N) :
    (deepMem N).IsProps (deepNode i).props (deepAt i + sizeofNode) (deepAt (i + 1)) := by
  refine ⟨rfl, ⟨2, deepMem_len N i hi, rfl⟩, ?_⟩
  show deepAt i + 48 = deepAt i + 8 + (36 + padded 2)
  rfl

theorem deepForest_count (N k i : ℕ) (h : i + k = N) :
    (deepForest k i).count = if i < N then 1 else 0 := by
  cases k with
  | zero => rw [if_neg (by omega)]; rfl
  | succ k => rw [if_pos (by omega)]; rfl

/-- the chain is a forest of the grammar -/
theorem deepMem_isForest (N k i : ℕ) (h : i + k = N) :
    (deepMem N).IsForest (deepForest k i) (deepAt i) (deepAt N) := by
  induction k generalizing i with
  | zero =>
    obtain rfl : i = N := h
    rfl
  | succ k ih =>
    refine ⟨rfl, deepMem_nprop N i (by omega), ?_, deepAt (i + 1), deepAt N,
      deepMem_isProps N i (by omega), ih (i + 1) (by omega), rfl⟩
    rw [deepForest_count N k (i + 1) (by omega)]
    by_cases hl : i + 1 < N
    · rw [if_pos hl]
      exact deepMem_nchld N i hl
    · rw [if_neg hl]
      exact deepMem_nchld_last N i (by omega)

theorem deepMem_isNode (k : ℕ) :
    (deepMem (k + 1)).IsNode (deepNode 0) (deepForest k 1) (deepAt 0) (deepAt (k + 1)) :=
  deepMem_isForest (k + 1) (k + 1) 0 (by omega)

end AppleSilicon

import AppleSilicon.Dt.Deep
import AppleSilicon.Dt.Parse

/-!
# A tree deeper than an `int`

On the chain of `2^31 + 2` nodes the walk counts its levels past `2^31 - 1`.  There the depth turns
negative, and `dt_parse` skips the children of a node of negative depth and stores no length for it
(`deep_bottom`, `deep_walk`).
-/

namespace AppleSilicon

section
variable {σ : Type*} (cbs : Callbacks σ) (s : σ)

/-- callbacks that pass over the nodes named `"a"` -/
def PassesChain : Prop :=
  ∀ i d, cbs.onNode s (deepAt i) d = (s, 0) ∧
    (i < 2^31 + 1 → cbs.onProp s (deepAt i) d (deepAt i + 8) (deepAt i + 44) 2 = (s, 0))

theorem deep_props (i : ℕ) (d : Int) (hi : i < 2^31 + 1) (hcb : PassesChain cbs s) :
    ∃ log, dtParseProps (deepMem (2^31 + 2)) cbs (deepAt i) d 1 sizeofNode s
      = some ⟨0, 48, s, log⟩ := by
  refine ⟨[.prop (deepAt i) d (deepAt i + 8) (deepAt i + 44) 2], ?_⟩
  rw [dtParseProps, show deepAt i + sizeofNode + dtKeyLen = deepAt i + 40 from rfl,
    deepMem_len (2^31 + 2) i (by omega), Option.bind_some]
  have h := (hcb i d).2 hi
  show (if (cbs.onProp s (deepAt i) d (deepAt i + 8) (deepAt i + 44) 2).2 ≠ 0 then _
    else (dtParseProps _ cbs (deepAt i) d 0 48
      (cbs.onProp s (deepAt i) d (deepAt i + 8) (deepAt i + 44) 2).1).map _) = _
  rw [h, if_neg (fun h => h rfl)]
  rfl

/-- the node on level `2^31`: its depth is negative, so its child is skipped -/
theorem deep_bottom (fuel : ℕ) (hcb : PassesChain cbs s) :
    ∃ log, dtParse (deepMem (2^31 + 2)) cbs (fuel + 1) (deepAt (2^31)) (i32 (2^31)) s
      = some ⟨0, none, s, log⟩ := by
  have hneg : ¬ (i32 (2^31) ≥ 0) := by decide
  obtain ⟨log, hp⟩ := deep_props cbs s (2^31) (i32 (2^31)) (by omega) hcb
  rw [dtParse, (hcb (2^31) (i32 (2^31))).1, if_neg (fun h => h rfl)]
  by_cases hc : i32 (2^31) ≥ 0 ∨ cbs.prop.isSome = true
  · rw [if_pos hc, deepMem_nprop (2^31 + 2) (2^31) (by omega), Option.bind_some, hp,
      Option.bind_some, if_neg (fun h => h rfl), if_neg hneg]
    exact ⟨_, rfl⟩
  · rw [if_neg hc]
    exact ⟨_, rfl⟩

/-- **The walk stops short**: from the node `k` levels above level `2^31 - 1` on it counts `k + 1`
nodes. -/
theorem deep_walk (k i fuel : ℕ) (hi : i + k + 1 = 2^31) (hf : k + 2 ≤ fuel)
    (hcb : PassesChain cbs s) :
    ∃ log, dtParse (deepMem (2^31 + 2)) cbs fuel (deepAt i) i s
      = some ⟨0, some (48 * (k + 1)), s, log⟩ := by
  induction k generalizing i fuel with
  | zero =>
    obtain ⟨fuel, rfl⟩ : ∃ j, fuel = j + 2 := ⟨fuel - 2, by omega⟩
    obtain ⟨log, hp⟩ := deep_props cbs s i i (by omega) hcb
    obtain ⟨log', hb⟩ := deep_bottom cbs s fuel hcb
    have hge : (i : Int) ≥ 0 := Int.natCast_nonneg i
    rw [dtParse, (hcb i i).1, if_neg (fun h => h rfl), if_pos (Or.inl hge),
      deepMem_nprop (2^31 + 2) i (by omega), Option.bind_some, hp, Option.bind_some,
      if_neg (fun h => h rfl), if_pos hge, deepMem_nchld (2^31 + 2) i (by omega), Option.bind_some,
      dtParseChildren, show deepAt i + 48 = deepAt (2^31) by rw [← deepAt_succ]; congr 1,
      show (i : Int) + 1 = 2^31 by omega, hb]
    exact ⟨_, rfl⟩
  | succ k ih =>
    obtain ⟨fuel, rfl⟩ : ∃ j, fuel = j + 1 := ⟨fuel - 1, by omega⟩
    obtain ⟨log, hp⟩ := deep_props cbs s i i (by omega) hcb
    obtain ⟨log', hb⟩ := ih (i + 1) fuel (by omega) (by omega)
    have hge : (i : Int) ≥ 0 := Int.natCast_nonneg i
    rw [dtParse, (hcb i i).1, if_neg (fun h => h rfl), if_pos (Or.inl hge),
      deepMem_nprop (2^31 + 2) i (by omega), Option.bind_some, hp, Option.bind_some,
      if_neg (fun h => h rfl), if_pos hge, deepMem_nchld (2^31 + 2) i (by omega), Option.bind_some,
      dtParseChildren, show deepAt i + 48 = deepAt (i + 1) from rfl,
      show (i : Int) + 1 = ((i + 1 : ℕ) : Int) from (Nat.cast_succ i).symm,
      i32_small (i + 1) (by omega), hb, Option.bind_some, if_neg (fun h => h rfl),
      Option.getD_some, show 48 + 48 * (k + 1) = 48 * (k + 1 + 1) by omega]
    exact ⟨_, rfl⟩

end

end AppleSilicon

import AppleSilicon.Drivers.Gpio
import AppleSilicon.Lib.Pieces

/-!
# `AppleEmbeddedGpioControllerDxe`: the search for a pin

The search goes on after it has found the controller of the pin, and fails at the first one that
does not have it; where none fails it succeeds.  The offset is a remainder, and the number of pins
of the table that the driver builds is cut down to eight bits.

* `found_iff`, `offset_eq_iff`   the test and the offset;
* `locate_exact_cases`           when the search is exact, for any table;
* `gpioPins_found_iff`           when it finds every pin that the tree counts;
* `gpio_locate_exact_iff`        both.
-/

namespace AppleSilicon

def GpioController.range (c : GpioController) : Piece ℕ :=
  ⟨c.gpioIndex.toNat, c.gpioIndex.toNat + c.internalGpioCount.toNat⟩

def PlatformGpioController.Disjoint (table : PlatformGpioController) : Prop :=
  table.gpioController.Pairwise fun c c' => ∀ pin, ¬ (c.range.Has pin ∧ c'.range.Has pin)

/-- **the search is exact** for a pin: it gives the place of the pin in the controller that has it,
and fails where none has it -/
def LocateExact (table : PlatformGpioController) (gpio : UInt64) : Prop :=
  (∀ index c, table.gpioController[index]? = some c → c.range.Has gpio.toNat →
    appleEmbeddedGpioControllerLocate table gpio
      = (.success, some ⟨UInt64.ofNat index, gpio - c.gpioIndex, c.registerBase⟩)) ∧
  ((∀ c ∈ table.gpioController, ¬ c.range.Has gpio.toNat) →
    (appleEmbeddedGpioControllerLocate table gpio).1 = .notFound)

/-- the test adds in 64 bits -/
theorem found_iff (c : GpioController) (gpio : UInt64) :
    c.found gpio = true ↔ c.range.Has gpio.toNat ∧ c.range.hi < 2^64 := by
  have hi := c.gpioIndex.toNat_lt
  have hc := c.internalGpioCount.toNat_lt
  rw [GpioController.found, decide_eq_true_eq, ge_iff_le, UInt64.le_iff_toNat_le,
    UInt64.lt_iff_toNat_lt, UInt64.toNat_add]
  show _ ↔ (c.gpioIndex.toNat ≤ gpio.toNat ∧
    gpio.toNat < c.gpioIndex.toNat + c.internalGpioCount.toNat) ∧
    c.gpioIndex.toNat + c.internalGpioCount.toNat < 2^64
  by_cases hlt : c.gpioIndex.toNat + c.internalGpioCount.toNat < 2^64
  · rw [Nat.mod_eq_of_lt hlt]
    exact ⟨fun h => ⟨h, hlt⟩, fun h => h.1⟩
  · have hmod : (c.gpioIndex.toNat + c.internalGpioCount.toNat) % 2^64
        = c.gpioIndex.toNat + c.internalGpioCount.toNat - 2^64 := by
      rw [Nat.mod_eq_sub_mod (by omega), Nat.mod_eq_of_lt (by omega)]
    rw [hmod]
    constructor
    · intro h
      omega
    · intro h
      omega

/-- the remainder is the offset where the count divides the index -/
theorem offset_eq_iff (c : GpioController) (gpio : UInt64) (h : c.range.Has gpio.toNat) :
    gpio % c.internalGpioCount = gpio - c.gpioIndex ↔
      c.internalGpioCount.toNat ∣ c.gpioIndex.toNat := by
  have hlo : c.gpioIndex.toNat ≤ gpio.toNat := h.1
  have hhi : gpio.toNat < c.gpioIndex.toNat + c.internalGpioCount.toNat := h.2
  rw [← UInt64.toNat_inj, UInt64.toNat_mod, toNat_sub_of_le gpio c.gpioIndex hlo]
  have hlt : gpio.toNat - c.gpioIndex.toNat < c.internalGpioCount.toNat := by omega
  have hsplit : gpio.toNat = c.gpioIndex.toNat + (gpio.toNat - c.gpioIndex.toNat) := by omega
  constructor
  · intro he
    have hmod : gpio.toNat ≡ gpio.toNat - c.gpioIndex.toNat [MOD c.internalGpioCount.toNat] := by
      rw [Nat.ModEq, he, Nat.mod_eq_of_lt hlt]
    have hdvd := (Nat.modEq_iff_dvd' (Nat.sub_le _ _)).mp hmod.symm
    rwa [Nat.sub_sub_self hlo] at hdvd
  · intro hdvd
    obtain ⟨k, hk⟩ := hdvd
    rw [hsplit, hk, Nat.mul_add_mod, Nat.add_sub_cancel_left]
    rw [hk] at hlt
    exact Nat.mod_eq_of_lt hlt

/-- with two controllers or more the search fails -/
theorem locate_two (c c' : GpioController) (rest : List GpioController) (count gpio : UInt64)
    (hdis : ∀ pin, ¬ (c.range.Has pin ∧ c'.range.Has pin)) :
    (appleEmbeddedGpioControllerLocate ⟨count, c :: c' :: rest⟩ gpio).1 = .notFound := by
  rw [appleEmbeddedGpioControllerLocate, gpioLocateLoop]
  by_cases h : c.found gpio = true
  · have h' : ¬ c'.found gpio = true := fun h' =>
      hdis gpio.toNat ⟨((found_iff c gpio).mp h).1, ((found_iff c' gpio).mp h').1⟩
    rw [if_pos h, gpioLocateLoop, if_neg h']
  · rw [if_neg h]

/-- **when the search is exact**, for one controller -/
theorem locate_one_exact_iff (c : GpioController) (count gpio : UInt64) :
    LocateExact ⟨count, [c]⟩ gpio ↔ (c.range.Has gpio.toNat → c.range.hi < 2^64 ∧
      c.internalGpioCount.toNat ∣ c.gpioIndex.toNat) := by
  have hrun : appleEmbeddedGpioControllerLocate ⟨count, [c]⟩ gpio =
      if c.found gpio then (.success, some ⟨0, gpio % c.internalGpioCount, c.registerBase⟩)
      else (.notFound, none) := rfl
  constructor
  · intro h hhas
    have hloc := h.1 0 c rfl hhas
    rw [hrun] at hloc
    by_cases hf : c.found gpio = true
    · rw [if_pos hf] at hloc
      have hl := Option.some.inj (Prod.mk.inj hloc).2
      exact ⟨((found_iff c gpio).mp hf).2,
        (offset_eq_iff c gpio hhas).mp (congrArg GpioLocation.controllerOffset hl)⟩
    · rw [if_neg hf] at hloc
      cases hloc
  · intro h
    constructor
    · intro index c' hc' hhas
      have hmem : c' ∈ [c] := List.mem_of_getElem? hc'
      obtain rfl := List.mem_singleton.mp hmem
      have hindex : index = 0 := by
        have hlt := (List.getElem?_eq_some_iff.mp hc').1
        simpa using hlt
      obtain ⟨hlt, hdvd⟩ := h hhas
      rw [hrun, if_pos ((found_iff c' gpio).mpr ⟨hhas, hlt⟩), hindex,
        (offset_eq_iff c' gpio hhas).mpr hdvd]
      rfl
    · intro hnone
      have hf : ¬ c.found gpio = true := fun hf =>
        hnone c (List.mem_singleton_self c) ((found_iff c gpio).mp hf).1
      rw [hrun, if_neg hf]

theorem locate_exact_cases (table : PlatformGpioController) (gpio : UInt64)
    (hdis : table.Disjoint) :
    LocateExact table gpio ↔
      (table.gpioController ≠ [] ∧ ∀ c ∈ table.gpioController, ¬ c.range.Has gpio.toNat) ∨
      ∃ c, table.gpioController = [c] ∧ c.range.Has gpio.toNat ∧ c.range.hi < 2^64 ∧
        c.internalGpioCount.toNat ∣ c.gpioIndex.toNat := by
  obtain ⟨count, cs⟩ := table
  cases cs with
  | nil =>
    constructor
    · intro h
      have hnot := h.2 fun c hc => nomatch hc
      cases hnot
    · intro h
      rcases h with ⟨hne, _⟩ | ⟨c, hc, _⟩
      · exact absurd rfl hne
      · cases hc
  | cons c rest =>
    cases rest with
    | nil =>
      rw [locate_one_exact_iff]
      constructor
      · intro h
        by_cases hhas : c.range.Has gpio.toNat
        · exact .inr ⟨c, rfl, hhas, h hhas⟩
        · refine .inl ⟨List.cons_ne_nil _ _, ?_⟩
          intro c' hc'
          rwa [List.mem_singleton.mp hc']
      · intro h hhas
        rcases h with ⟨_, hnone⟩ | ⟨c', hc', _, hrest⟩
        · exact absurd hhas (hnone c (List.mem_singleton_self c))
        · obtain rfl := (List.cons.inj hc').1
          exact hrest
    | cons c' rest =>
      have hfail :
          (appleEmbeddedGpioControllerLocate ⟨count, c :: c' :: rest⟩ gpio).1 = .notFound :=
        locate_two c c' rest count gpio
          ((List.pairwise_cons.mp hdis).1 c' (List.mem_cons_self ..))
      constructor
      · intro h
        refine .inl ⟨List.cons_ne_nil _ _, ?_⟩
        intro d hd hhas
        obtain ⟨index, hindex⟩ := List.mem_iff_getElem?.mp hd
        rw [h.1 index d hindex hhas] at hfail
        cases hfail
      · intro h
        rcases h with ⟨_, hnone⟩ | ⟨d, hd, _⟩
        · exact ⟨fun index d hd hhas => absurd hhas (hnone d (List.mem_of_getElem? hd)),
            fun _ => hfail⟩
        · cases hd

/-- every pin that the tree counts is found in its place -/
def PinsFound (table : PlatformGpioController) (pins : ℕ) : Prop :=
  ∀ gpio : UInt64, gpio.toNat < pins → ∃ c, table.gpioController = [c] ∧
    appleEmbeddedGpioControllerLocate table gpio = (.success, some ⟨0, gpio, c.registerBase⟩)

/-- **the table that the driver builds** has every pin exactly when there are at most 255 -/
theorem gpioPins_found_iff (base : UInt64) (pins : ℕ) :
    PinsFound ⟨(UInt8.ofNat pins).toUInt64, [⟨base, 0, (UInt8.ofNat pins).toUInt64⟩]⟩ pins ↔
      pins ≤ 255 := by
  have hcount : (UInt8.ofNat pins).toUInt64.toNat = pins % 256 := by
    rw [UInt8.toNat_toUInt64, UInt8.toNat_ofNat']
  constructor
  · intro h
    by_contra hlt
    -- the first pin behind the truncated range
    have hgpio : (UInt64.ofNat (pins % 256)).toNat = pins % 256 :=
      UInt64.toNat_ofNat_of_lt' (show pins % 256 < 2^64 by omega)
    obtain ⟨_, _, hloc⟩ := h (UInt64.ofNat (pins % 256)) (by omega)
    have hf : ¬ (GpioController.mk base 0 (UInt8.ofNat pins).toUInt64).found
        (UInt64.ofNat (pins % 256)) = true := by
      intro hf
      have hhi := ((found_iff _ _).mp hf).1.2
      rw [hgpio] at hhi
      have hhi' : pins % 256 < 0 + (UInt8.ofNat pins).toUInt64.toNat := hhi
      omega
    rw [appleEmbeddedGpioControllerLocate, gpioLocateLoop, if_neg hf] at hloc
    cases hloc
  · intro hle gpio hgpio
    have hlt : gpio < (UInt8.ofNat pins).toUInt64 := by
      rw [UInt64.lt_iff_toNat_lt, hcount, Nat.mod_eq_of_lt (by omega)]
      exact hgpio
    exact ⟨_, rfl, locate_first _ base _ gpio hlt⟩

/-- **the search is exact** for a pin exactly when no controller has the pin and there is one, or
there is one alone, which has the pin, ends inside the address space and starts at a multiple of its
size; and it finds every pin that the tree counts exactly when these are at most 255 -/
theorem gpio_locate_exact_iff (table : PlatformGpioController) (hdis : table.Disjoint)
    (gpio : UInt64) (t : Adt) (services : GpioServices) (installed : StatusCode)
    (uninitialized : UInt64) :
    (LocateExact table gpio ↔
      (table.gpioController ≠ [] ∧ ∀ c ∈ table.gpioController, ¬ c.range.Has gpio.toNat) ∨
      ∃ c, table.gpioController = [c] ∧ c.range.Has gpio.toNat ∧ c.range.hi < 2^64 ∧
        c.internalGpioCount.toNat ∣ c.gpioIndex.toNat) ∧
    ∀ status events built,
      gpioInitialize t services installed uninitialized = some (status, events, some built) →
      ∃ node pins, t.pinCtrlApNode = some (some node) ∧ t.u32 node gpioPinsKey = some pins ∧
        (PinsFound built pins ↔ pins ≤ 255) := by
  refine ⟨locate_exact_cases table gpio hdis, ?_⟩
  intro status events built h
  obtain ⟨node, pins, base, hnode, hpins, rfl⟩ :=
    gpioInitialize_table t services installed uninitialized status events built h
  exact ⟨node, pins, hnode, hpins, gpioPins_found_iff base pins⟩

theorem oneController_exact :
    LocateExact ⟨212, [⟨0x23c100000, 0, 212⟩]⟩ 5 ∧
    ∃ node pins, (gpioAdt 212).pinCtrlApNode = some (some node) ∧
      (gpioAdt 212).u32 node gpioPinsKey = some pins ∧
      (PinsFound ⟨212, [⟨0x23c100000, 0, 212⟩]⟩ pins ↔ pins ≤ 255) := by
  have hrun : gpioInitialize (gpioAdt 212) exampleGpioServices .success 0 = some (.success,
      [.nodeReg 0x800000058 0 ⟨0, some 0x23c100000, some 0x100000⟩, .use .gpio 0x23c100000 .store],
      some ⟨212, [⟨0x23c100000, 0, 212⟩]⟩) := by decide +kernel
  have hexact := gpio_locate_exact_iff ⟨212, [⟨0x23c100000, 0, 212⟩]⟩
    (List.pairwise_singleton _ _) 5 (gpioAdt 212) exampleGpioServices .success 0
  exact ⟨hexact.1.mpr (.inr ⟨_, rfl, by decide, by decide, by decide⟩),
    hexact.2 .success _ _ hrun⟩

/-- with two controllers no pin of either is found; and of 256 pins the table has none -/
theorem twoControllers_not_found :
    PlatformGpioController.Disjoint ⟨16, [⟨0x23c100000, 0, 8⟩, ⟨0x23d100000, 8, 8⟩]⟩ ∧
    appleEmbeddedGpioControllerLocate ⟨16, [⟨0x23c100000, 0, 8⟩, ⟨0x23d100000, 8, 8⟩]⟩ 3
      = (.notFound, some ⟨0, 3, 0x23c100000⟩) ∧
    ¬ LocateExact ⟨16, [⟨0x23c100000, 0, 8⟩, ⟨0x23d100000, 8, 8⟩]⟩ 3 ∧
    ∃ events, gpioInitialize (gpioAdt 256) exampleGpioServices .success 0
        = some (.success, events, some ⟨0, [⟨0x23c100000, 0, 0⟩]⟩) ∧
      (appleEmbeddedGpioControllerLocate ⟨0, [⟨0x23c100000, 0, 0⟩]⟩ 0).1 = .notFound := by
  refine ⟨?_, by decide, ?_, [.nodeReg 0x800000058 0 ⟨0, some 0x23c100000, some 0x100000⟩,
    .use .gpio 0x23c100000 .store], by decide +kernel, by decide⟩
  · refine List.pairwise_pair.mpr ?_
    intro pin h
    have h1 : pin < 0 + 8 := h.1.2
    have h2 : 8 ≤ pin := h.2.1
    omega
  · intro h
    have hloc := h.1 0 _ rfl (by decide)
    exact absurd hloc (by decide)

end AppleSilicon

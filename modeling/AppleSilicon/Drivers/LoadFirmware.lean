import AppleSilicon.Drivers.FirmwareUpload

/-!
# `AppleAsmediaLoadFirmware`

The processor of the controller is reset and halted, writes to its code memory and the access to
the SRAM are enabled, the image is sent, and all of it is taken back.  A word that times out makes
the function return from inside the loop, with nothing taken back.

* `load_cases`             the two ways to return, and what they leave in the registers;
* `load_returns`           with `ASSERT` compiled out it does return;
* `load_cleans_up_iff`     when the function cleans up.
-/

namespace AppleSilicon

def asmediaMmioCpuMisc : UInt16 := 0x500e

def asmediaMmioCpuMiscCodeRamWr : UInt8 := 0x1

def asmediaMmioCpuModeNext : UInt16 := 0x5040

def asmediaMmioCpuModeRam : UInt8 := 0x1

def asmediaMmioCpuModeHalfspeed : UInt8 := 0x2

def asmediaMmioCpuExecControl : UInt16 := 0x5042

def asmediaMmioCpuExecControlReset : UInt8 := 0x1

def asmediaMmioCpuExecControlHalt : UInt8 := 0x2

/-- `EFI_PCI_DEVICE_ENABLE`: input and output, memory, bus master -/
def efiPciDeviceEnable : UInt64 := 0x100 ||| 0x200 ||| 0x400

/-- the answers to a call, in the order of the program -/
structure XhciController where
  supportedError : Bool
  supports : UInt64
  modeHalfspeed : RegisterWrite
  execReset : RegisterWrite
  preReset : ResetAnswer
  execHalt : RegisterWrite
  codeRamOn : RegisterWrite
  sramEnableError : Bool
  word : ℕ → WordAnswer
  sramDisableError : Bool
  codeRamOff : RegisterWrite
  modeRam : RegisterWrite
  execRun : RegisterWrite
  postReset : ResetAnswer

/-- the attributes are asked for, and the device is enabled if that is supported -/
def enableDevice (c : XhciController) : List PciAccess :=
  [.attributes .get 0, .attributes .supported 0] ++
    if c.supportedError then [] else [.attributes .enable (c.supports &&& efiPciDeviceEnable)]

section
variable (debugAssertEnabled : Bool)

def beforeUpload (c : XhciController) : Option (List PciAccess) :=
  inOrder [
    some (enableDevice c),
    appleAsmediaWriteRegister debugAssertEnabled asmediaMmioCpuModeNext
      asmediaMmioCpuModeHalfspeed false c.modeHalfspeed,
    appleAsmediaWriteRegister debugAssertEnabled asmediaMmioCpuExecControl
      asmediaMmioCpuExecControlReset false c.execReset,
    checkedReset debugAssertEnabled c.preReset,
    appleAsmediaWriteRegister debugAssertEnabled asmediaMmioCpuExecControl
      asmediaMmioCpuExecControlHalt false c.execHalt,
    appleAsmediaWriteRegister debugAssertEnabled asmediaMmioCpuMisc
      asmediaMmioCpuMiscCodeRamWr true c.codeRamOn,
    checked debugAssertEnabled c.sramEnableError (.writeSramAccess sramAccessEnable)]

def afterUpload (c : XhciController) : Option (List PciAccess) :=
  inOrder [
    checked debugAssertEnabled c.sramDisableError (.writeSramAccess sramAccessDisable),
    appleAsmediaWriteRegister debugAssertEnabled asmediaMmioCpuMisc 0 true c.codeRamOff,
    appleAsmediaWriteRegister debugAssertEnabled asmediaMmioCpuModeNext
      (asmediaMmioCpuModeRam ||| asmediaMmioCpuModeHalfspeed) false c.modeRam,
    appleAsmediaWriteRegister debugAssertEnabled asmediaMmioCpuExecControl 0 false c.execRun,
    checkedReset debugAssertEnabled c.postReset]

/-- `AppleAsmediaLoadFirmware`: the accesses, and `*FirmwareUploadSuccessful`, which the caller has
set to `FALSE` -/
def appleAsmediaLoadFirmware (fw : List UInt8) (c : XhciController) (fuel : ℕ) :
    Option (List PciAccess × Bool) :=
  (beforeUpload debugAssertEnabled c).bind fun before =>
  (uploadLoop debugAssertEnabled fw c.word fuel).bind fun upload =>
    -- the write of a word timed out
    if upload.2 = false then some (before ++ upload.1, false)
    else (afterUpload debugAssertEnabled c).map fun after => (before ++ upload.1 ++ after, true)

/-! ## what it makes of the registers -/

theorem enableDevice_does (c : XhciController) : Does (some (enableDevice c)) id := by
  apply does_some
  intro p
  rw [enableDevice]
  cases c.supportedError with
  | true => rfl
  | false => rfl

theorem beforeUpload_does (c : XhciController) : Does (beforeUpload debugAssertEnabled c) (fun a =>
    { (((a.set asmediaMmioCpuModeNext asmediaMmioCpuModeHalfspeed).set
        asmediaMmioCpuExecControl asmediaMmioCpuExecControlReset).set
        asmediaMmioCpuExecControl asmediaMmioCpuExecControlHalt).set
        asmediaMmioCpuMisc asmediaMmioCpuMiscCodeRamWr with sramAccess := sramAccessEnable }) :=
  does_inOrder (enableDevice_does c) <|
    does_inOrder (writeRegister_does _ _ _ _ _) <|
    does_inOrder (writeRegister_does _ _ _ _ _) <|
    does_inOrder (checkedReset_does _ _) <|
    does_inOrder (writeRegister_does _ _ _ _ _) <|
    does_inOrder (writeRegister_does _ _ _ _ _) <|
    does_inOrder (checked_does _ _ _ (fun a => { a with sramAccess := sramAccessEnable })
      fun _ => rfl) does_nil

theorem afterUpload_does (c : XhciController) : Does (afterUpload debugAssertEnabled c) (fun a =>
    { ((a.set asmediaMmioCpuMisc 0).set asmediaMmioCpuModeNext
        (asmediaMmioCpuModeRam ||| asmediaMmioCpuModeHalfspeed)).set
        asmediaMmioCpuExecControl 0 with sramAccess := c.postReset.leaves sramAccessDisable }) :=
  does_inOrder (checked_does _ _ _ (fun a => { a with sramAccess := sramAccessDisable })
      fun _ => rfl) <|
    does_inOrder (writeRegister_does _ _ _ _ _) <|
    does_inOrder (writeRegister_does _ _ _ _ _) <|
    does_inOrder (writeRegister_does _ _ _ _ _) <|
    does_inOrder (checkedReset_does _ _) does_nil

/-- **the two ways to return**: with the access enabled and the processor halted when a word timed
out, and otherwise with both taken back -/
theorem load_cases (fw : List UInt8) (c : XhciController) (fuel : ℕ) (log : List PciAccess)
    (ok : Bool) (h : appleAsmediaLoadFirmware debugAssertEnabled fw c fuel = some (log, ok))
    (p : AsmediaPorts) :
    (ok = false ∧ (∃ k < uploadCount (firmwareChunks fw), ¬ (c.word k).Passes k) ∧
      (p.replay log).asmedia.sramAccess = sramAccessEnable ∧
      (p.replay log).asmedia.register asmediaMmioCpuMisc = asmediaMmioCpuMiscCodeRamWr ∧
      (p.replay log).asmedia.register asmediaMmioCpuExecControl
        = asmediaMmioCpuExecControlHalt) ∨
    (ok = true ∧ (∀ k < uploadCount (firmwareChunks fw), (c.word k).Passes k) ∧
      (p.replay log).asmedia.sramAccess = c.postReset.leaves sramAccessDisable ∧
      (p.replay log).asmedia.register asmediaMmioCpuMisc = 0 ∧
      (p.replay log).asmedia.register asmediaMmioCpuExecControl = 0) := by
  obtain ⟨before, hbefore, h⟩ := Option.bind_eq_some_iff.mp h
  obtain ⟨⟨uploaded, done⟩, hupload, h⟩ := Option.bind_eq_some_iff.mp h
  obtain ⟨sent, n, hsent, hsends, _, hdone⟩ :=
    upload_run debugAssertEnabled fw c.word fuel 0 [] (uploaded, done) hupload
  have hlog : uploaded = sent := hsent
  have hstart := beforeUpload_does debugAssertEnabled c before hbefore p
  cases done with
  | false =>
    obtain ⟨rfl, rfl⟩ := Prod.mk.inj (Option.some.inj h)
    have hstate : (p.replay (before ++ uploaded)).asmedia =
        { (p.replay before).asmedia with
          sramWrites := (p.replay before).asmedia.sramWrites ++
            (List.range' 0 n).map (uploadWrite fw) } := by
      rw [replay_append, hlog]
      exact hsends (p.replay before)
    refine .inl ⟨rfl, ?_, ?_, ?_, ?_⟩
    · by_contra hall
      push Not at hall
      exact Bool.false_ne_true (hdone.mpr fun k _ hk => hall k hk)
    · rw [hstate, hstart]
    · rw [hstate, hstart]
      rfl
    · rw [hstate, hstart]
      rfl
  | true =>
    obtain ⟨after, hafter, h⟩ := Option.map_eq_some_iff.mp h
    obtain ⟨rfl, rfl⟩ := Prod.mk.inj h
    have hstate := afterUpload_does debugAssertEnabled c after hafter
      (p.replay (before ++ uploaded))
    rw [← replay_append] at hstate
    refine .inr ⟨rfl, fun k hk => hdone.mp rfl k (Nat.zero_le k) hk, ?_, ?_, ?_⟩
    · rw [hstate]
    · rw [hstate]
      rfl
    · rw [hstate]
      rfl

end

/-! ## with `ASSERT` compiled out -/

theorem inOrder_returns {piece : Option (List PciAccess)}
    {pieces : List (Option (List PciAccess))} (h : ∃ log, piece = some log)
    (hrest : ∃ log, inOrder pieces = some log) : ∃ log, inOrder (piece :: pieces) = some log := by
  obtain ⟨log₁, h₁⟩ := h
  obtain ⟨log₂, h₂⟩ := hrest
  exact ⟨_, (inOrder_cons _ _ _).mpr ⟨log₁, log₂, h₁, h₂, rfl⟩⟩

theorem inOrder_nil_returns : ∃ log, inOrder [] = some log := ⟨[], rfl⟩

theorem checked_returns (error : Bool) (access : PciAccess) :
    ∃ log, checked false error access = some log :=
  ⟨_, checked_ok false error access fun h => absurd h Bool.false_ne_true⟩

theorem readRegister_returns (address : UInt16) (r : RegisterRead) :
    ∃ log, appleAsmediaReadRegister false address r = some log :=
  inOrder_returns (checked_returns _ _) <| inOrder_returns (checked_returns _ _) <|
    inOrder_returns (checked_returns _ _) <| inOrder_returns (checked_returns _ _)
    inOrder_nil_returns

theorem verifyLoop_returns (address : UInt16) (data : UInt8) (verify : ℕ → RegisterRead)
    (n i : ℕ) : ∃ log, verifyLoop false address data verify n i = some log := by
  induction n generalizing i with
  | zero => exact ⟨[], rfl⟩
  | succ n ih =>
    obtain ⟨log, hlog⟩ := readRegister_returns address (verify i)
    rw [verifyLoop, hlog, Option.bind_some]
    by_cases hv : (verify i).value = data
    · rw [if_pos hv]
      exact ⟨log, rfl⟩
    · obtain ⟨log', hlog'⟩ := ih (i + 1)
      rw [if_neg hv, hlog']
      exact ⟨log ++ log', rfl⟩

theorem writeRegister_returns (address : UInt16) (data : UInt8) (wait : Bool) (r : RegisterWrite) :
    ∃ log, appleAsmediaWriteRegister false address data wait r = some log := by
  refine inOrder_returns (checked_returns _ _) <| inOrder_returns (checked_returns _ _) <|
    inOrder_returns (checked_returns _ _) <| inOrder_returns (checked_returns _ _) <|
    inOrder_returns ?_ inOrder_nil_returns
  cases wait with
  | false => exact ⟨[], rfl⟩
  | true => exact verifyLoop_returns address data r.verify timeoutUsec 0

theorem checkedReset_returns (r : ResetAnswer) : ∃ log, checkedReset false r = some log :=
  ⟨_, if_neg fun h => absurd h.2 Bool.false_ne_true⟩

theorem pollLoop_returns (addr : ℕ) (w : WordAnswer) (n i : ℕ) :
    ∃ r, pollLoop false addr w n i = some r := by
  induction n generalizing i with
  | zero => exact ⟨_, rfl⟩
  | succ n ih =>
    obtain ⟨log, hlog⟩ := checked_returns (w.readError i) .readSramAddr
    rw [pollLoop, hlog, Option.bind_some]
    by_cases hi : (w.rAddr i).toNat ≠ addr
    · rw [if_pos hi]
      exact ⟨_, rfl⟩
    · obtain ⟨r, hr⟩ := ih (i + 1)
      rw [if_neg hi, hr]
      exact ⟨_, rfl⟩

/-- the loop sends the image or leaves behind a word that times out -/
theorem upload_ends (fw : List UInt8) (word : ℕ → WordAnswer) (fuel : ℕ)
    (hfuel : firmwareChunks fw < fuel) : ∃ r, uploadLoop false fw word fuel = some r := by
  have hcount := uploadCount_le (firmwareChunks fw)
  obtain ⟨r, hr, _⟩ := runLoop_total (uploadTurn false fw word)
    (fun s => ∃ k log, k ≤ uploadCount (firmwareChunks fw) ∧ s = uploadAt k log)
    (fun s => uploadCount (firmwareChunks fw) - s.k) (fun _ => True)
    (by
      intro s hs
      obtain ⟨k, log, hk, rfl⟩ := hs
      by_cases hlt : k < uploadCount (firmwareChunks fw)
      · obtain ⟨polled, hpolled⟩ := pollLoop_returns (2 * k) (word k) timeoutUsec 0
        obtain ⟨t, ht⟩ := uploadTurn_returns false fw word k log hlt
          (fun h => absurd h Bool.false_ne_true) (fun h => absurd h Bool.false_ne_true)
          polled hpolled
        obtain ⟨sent, _, ⟨_, rfl⟩ | ⟨_, rfl⟩⟩ := uploadTurn_some false fw word k log hlt t ht
        · refine .inl ⟨_, ht, ⟨k + 1, log ++ sent, hlt, rfl⟩, ?_⟩
          show uploadCount (firmwareChunks fw) - (k + 1) < uploadCount (firmwareChunks fw) - k
          omega
        · exact .inr ⟨_, ht, trivial⟩
      · exact .inr ⟨_, uploadTurn_end false fw word k log hlt, trivial⟩)
    fuel (uploadAt 0 []) ⟨0, [], Nat.zero_le _, rfl⟩
    (show uploadCount (firmwareChunks fw) - 0 < fuel by omega)
  exact ⟨r, hr⟩

/-- **the function returns** whatever the controller answers -/
theorem load_returns (fw : List UInt8) (c : XhciController) (fuel : ℕ)
    (hfuel : firmwareChunks fw < fuel) : ∃ r, appleAsmediaLoadFirmware false fw c fuel = some r := by
  have hbefore : ∃ log, beforeUpload false c = some log :=
    inOrder_returns ⟨_, rfl⟩ <| inOrder_returns (writeRegister_returns _ _ _ _) <|
      inOrder_returns (writeRegister_returns _ _ _ _) <|
      inOrder_returns (checkedReset_returns _) <|
      inOrder_returns (writeRegister_returns _ _ _ _) <|
      inOrder_returns (writeRegister_returns _ _ _ _) <|
      inOrder_returns (checked_returns _ _) inOrder_nil_returns
  have hafter : ∃ log, afterUpload false c = some log :=
    inOrder_returns (checked_returns _ _) <| inOrder_returns (writeRegister_returns _ _ _ _) <|
      inOrder_returns (writeRegister_returns _ _ _ _) <|
      inOrder_returns (writeRegister_returns _ _ _ _) <|
      inOrder_returns (checkedReset_returns _) inOrder_nil_returns
  obtain ⟨before, hbefore⟩ := hbefore
  obtain ⟨after, hafter⟩ := hafter
  obtain ⟨upload, hupload⟩ := upload_ends fw c.word fuel hfuel
  rw [appleAsmediaLoadFirmware, hbefore, Option.bind_some, hupload, Option.bind_some]
  by_cases hok : upload.2 = false
  · rw [if_pos hok]
    exact ⟨_, rfl⟩
  · rw [if_neg hok, hafter]
    exact ⟨_, rfl⟩

/-! ## cleaning up -/

/-- **everything is taken back**: the last value written to the access register is "disabled", the
processor may not write to its code memory and is not halted; and success was reported only if
every word was acknowledged -/
structure CleanedUp (a : Asmedia) (fw : List UInt8) (word : ℕ → WordAnswer)
    (firmwareUploadSuccessful : Bool) : Prop where
  sram : a.sramAccess = sramAccessDisable
  codeRam : a.register asmediaMmioCpuMisc &&& asmediaMmioCpuMiscCodeRamWr = 0
  running : a.register asmediaMmioCpuExecControl &&& asmediaMmioCpuExecControlHalt = 0
  acknowledged : firmwareUploadSuccessful = true →
    ∀ k < uploadCount (firmwareChunks fw), ∃ i, (word k).SeenAt k i

/-- the reset returns behind its enabling write -/
def ResetAnswer.StopsEnabled (r : ResetAnswer) : Prop :=
  r.capLengthError = false ∧ r.resetError = true ∧ r.enableError = true

instance (r : ResetAnswer) : Decidable r.StopsEnabled := inferInstanceAs (Decidable (_ ∧ _))

theorem leaves_disabled_iff (r : ResetAnswer) :
    r.leaves sramAccessDisable = sramAccessDisable ↔ ¬ r.StopsEnabled := by
  rw [ResetAnswer.leaves, ResetAnswer.StopsEnabled]
  by_cases hreset : r.capLengthError = false ∧ r.resetError = true
  · rw [if_pos hreset]
    cases r.enableError with
    | true =>
      rw [if_pos rfl]
      exact ⟨fun h => absurd h (by decide), fun h => absurd ⟨hreset.1, hreset.2, rfl⟩ h⟩
    | false =>
      rw [if_neg Bool.false_ne_true]
      exact ⟨fun _ h => absurd h.2.2 Bool.false_ne_true, fun _ => rfl⟩
  · rw [if_neg hreset]
    exact ⟨fun _ h => hreset ⟨h.1, h.2.1⟩, fun _ => rfl⟩

/-- **the function cleans up exactly when** every word is acknowledged and the reset behind the
upload does not return behind its enabling write -/
theorem load_cleans_up_iff (debugAssertEnabled : Bool) (fw : List UInt8) (c : XhciController)
    (fuel : ℕ) (log : List PciAccess) (ok : Bool)
    (h : appleAsmediaLoadFirmware debugAssertEnabled fw c fuel = some (log, ok))
    (p : AsmediaPorts) :
    CleanedUp (p.replay log).asmedia fw c.word ok ↔
      (∀ k < uploadCount (firmwareChunks fw), ∃ i, (c.word k).SeenAt k i) ∧
        ¬ c.postReset.StopsEnabled := by
  obtain ⟨_, ⟨k, hk, hp⟩, hsram, _⟩ | ⟨hok, _, hsram, hmisc, hexec⟩ :=
    load_cases debugAssertEnabled fw c fuel log ok h p
  · constructor
    · intro hclean
      exact absurd (hsram.symm.trans hclean.sram) (by decide)
    · intro hall
      obtain ⟨i, hseen⟩ := hall.1 k hk
      exact absurd ⟨i, hseen.1, hseen.ne⟩ hp
  · rw [← leaves_disabled_iff, ← hsram]
    constructor
    · intro hclean
      exact ⟨hclean.acknowledged hok, hclean.sram⟩
    · intro hall
      refine ⟨hall.2, ?_, ?_, fun _ => hall.1⟩
      · rw [hmisc]
        rfl
      · rw [hexec]
        rfl

/-! ## a controller with one word -/

/-- a write that is read back at once -/
def quietWrite (data : UInt8) : RegisterWrite :=
  ⟨false, false, false, false, fun _ => ⟨false, false, false, false, data⟩⟩

def quietReset : ResetAnswer := ⟨false, 0x20, false, false, false, false⟩

/-- no access fails, and the address register always reads as `rAddr` -/
def exampleController (rAddr : UInt16) : XhciController where
  supportedError := false
  supports := 0x700
  modeHalfspeed := quietWrite 0x2
  execReset := quietWrite 0x1
  preReset := quietReset
  execHalt := quietWrite 0x2
  codeRamOn := quietWrite 0x1
  sramEnableError := false
  word := fun _ => ⟨false, false, fun _ => false, fun _ => rAddr⟩
  sramDisableError := false
  codeRamOff := quietWrite 0x0
  modeRam := quietWrite 0x3
  execRun := quietWrite 0x0
  postReset := quietReset

/-- the registers before the call -/
def resetPorts : AsmediaPorts := ⟨0, 0, ⟨fun _ => 0, 0, []⟩⟩

theorem acknowledgedWord_cleaned_up : ∃ log,
    appleAsmediaLoadFirmware true [0x12, 0x34] (exampleController 0xffff) 2 = some (log, true) ∧
    CleanedUp (resetPorts.replay log).asmedia [0x12, 0x34] (exampleController 0xffff).word
      true := by
  have hok : (appleAsmediaLoadFirmware true [0x12, 0x34] (exampleController 0xffff) 2).map Prod.snd
      = some true := by decide +kernel
  obtain ⟨⟨log, ok⟩, hrun, rfl⟩ := Option.map_eq_some_iff.mp hok
  refine ⟨log, hrun, (load_cleans_up_iff true _ _ 2 log _ hrun resetPorts).mpr ⟨?_, by decide⟩⟩
  intro k hk
  have hk1 : k < 1 := hk
  obtain rfl : k = 0 := by omega
  exact ⟨0, by decide, fun j hj => absurd hj (Nat.not_lt_zero j), by decide⟩

/-- the wait for a word that is never acknowledged -/
theorem pollLoop_never (debugAssertEnabled : Bool) (addr : ℕ) (w : WordAnswer)
    (hread : ∀ j, w.readError j = false) (hsame : ∀ j, (w.rAddr j).toNat = addr) (n i : ℕ) :
    ∃ log, pollLoop debugAssertEnabled addr w n i = some (log, false) := by
  induction n generalizing i with
  | zero => exact ⟨[], rfl⟩
  | succ n ih =>
    obtain ⟨log, hlog⟩ := ih (i + 1)
    rw [pollLoop, checked_ok debugAssertEnabled _ _ fun _ => hread i, Option.bind_some,
      if_neg fun hne => hne (hsame i), hlog]
    exact ⟨_, rfl⟩

/-- the word is never acknowledged: the access stays enabled, the processor halted and its code
memory writable -/
theorem stuckWord_not_cleaned_up : ∃ log,
    appleAsmediaLoadFirmware true [0x12, 0x34] (exampleController 0) 2 = some (log, false) ∧
    (resetPorts.replay log).asmedia.sramAccess = sramAccessEnable ∧
    (resetPorts.replay log).asmedia.register asmediaMmioCpuMisc = asmediaMmioCpuMiscCodeRamWr ∧
    (resetPorts.replay log).asmedia.register asmediaMmioCpuExecControl
      = asmediaMmioCpuExecControlHalt ∧
    ¬ CleanedUp (resetPorts.replay log).asmedia [0x12, 0x34] (exampleController 0).word false := by
  have hbefore : (beforeUpload true (exampleController 0)).isSome = true := by decide +kernel
  obtain ⟨before, hbefore⟩ := Option.isSome_iff_exists.mp hbefore
  obtain ⟨polled, hpolled⟩ := pollLoop_never true (2 * 0) ((exampleController 0).word 0)
    (fun _ => rfl) (fun _ => rfl) timeoutUsec 0
  have hk : 0 < uploadCount (firmwareChunks [0x12, 0x34]) := by decide
  obtain ⟨t, ht⟩ := uploadTurn_returns true [0x12, 0x34] (exampleController 0).word 0 [] hk
    (fun _ => rfl) (fun _ => rfl) (polled, false) hpolled
  obtain ⟨sent, _, ⟨hp, _⟩ | ⟨_, rfl⟩⟩ := uploadTurn_some true _ _ 0 [] hk t ht
  · obtain ⟨i, _, hne⟩ := hp
    exact absurd rfl hne
  · have hupload : uploadLoop true [0x12, 0x34] (exampleController 0).word 2
        = some ([] ++ sent, false) := by
      show runLoop _ (1 + 1) (uploadAt 0 []) = _
      rw [runLoop, ht]
    have hrun : appleAsmediaLoadFirmware true [0x12, 0x34] (exampleController 0) 2
        = some (before ++ ([] ++ sent), false) := by
      rw [appleAsmediaLoadFirmware, hbefore, Option.bind_some, hupload, Option.bind_some]
      exact if_pos rfl
    obtain ⟨_, _, hsram, hmisc, hexec⟩ | ⟨hok, _⟩ := load_cases true _ _ 2 _ _ hrun resetPorts
    · exact ⟨_, hrun, hsram, hmisc, hexec, fun hclean =>
        absurd (hsram.symm.trans hclean.sram) (by decide)⟩
    · cases hok

end AppleSilicon

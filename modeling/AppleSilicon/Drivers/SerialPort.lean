import AppleSilicon.Lib.Logged
import AppleSilicon.Lib.Monitor

/-!
# `SerialPortWrite`: bytes to the UART

The run is the log of what the function does to the machine: the interrupt mask, the polls of the
transfer status and the writes to the transmit register.  The `i`-th poll before byte `k` reads
`answer k i`.

* `pollTx_ready`           a poll loop ends with the first ready answer;
* `writeLoop_run`          what one round adds to the log, for all rounds;
* `serialPort_contract_iff`   the bytes go out as they should, but the function always returns 0 and
                           always leaves with interrupts enabled.
-/

namespace AppleSilicon

open Logged

inductive UartEvent where
  | armDisableInterrupts
  | armEnableInterrupts
  | readStatus (v : UInt32)
  | writeTx (v : UInt32)
deriving DecidableEq

/-- `UART_TRANSFER_STATUS_TXBE` -/
def uartTransferStatusTxbe : UInt32 := (1 : UInt32) <<< (1 : UInt32)

def TxReady (v : UInt32) : Prop := v &&& uartTransferStatusTxbe ≠ 0

instance (v : UInt32) : Decidable (TxReady v) := inferInstanceAs (Decidable (_ ≠ _))

section
variable (answer : ℕ → ℕ → UInt32) (buffer : ℕ → UInt8)

/-- the `while` loop before byte `k`, from its `i`-th poll on -/
def pollTx (k : ℕ) : ℕ → ℕ → Logged UartEvent Unit
  | 0, _ => stop
  | fuel + 1, i =>
    (note (.readStatus (answer k i))).bind fun _ =>
      if TxReady (answer k i) then Logged.pure () else pollTx k fuel (i + 1)

/-- the `for` loop with `n` rounds left, at byte `i` -/
def writeLoop (fuel : ℕ) : ℕ → ℕ → ℕ → Logged UartEvent ℕ
  | 0, _, numberOfBytes => Logged.pure numberOfBytes
  | n + 1, i, numberOfBytes =>
    (pollTx answer i fuel 0).bind fun _ =>
      (note (.writeTx (buffer i).toUInt32)).bind fun _ =>
        writeLoop fuel n (i + 1) ((numberOfBytes + 2^64 - 1) % 2^64)

/-- `SerialPortWrite(Buffer, NumberOfBytes)` -/
def serialPortWrite (fuel numberOfBytes : ℕ) : Logged UartEvent ℕ :=
  let numberOfBytesToTransmit := numberOfBytes
  (note .armDisableInterrupts).bind fun _ =>
    (writeLoop answer buffer fuel numberOfBytesToTransmit 0 numberOfBytes).bind fun numberOfBytes =>
      (note .armEnableInterrupts).bind fun _ => Logged.pure numberOfBytes

end

/-! ## its contract -/

/-- the values written to the transmit register -/
def txValues (log : List UartEvent) : List UInt32 :=
  log.filterMap fun
    | .writeTx v => some v
    | _ => none

theorem txValues_append (log log' : List UartEvent) :
    txValues (log ++ log') = txValues log ++ txValues log' := List.filterMap_append

/-- a ready status was read since the last write; a write without one is not allowed -/
def txNext : Bool → UartEvent → Option Bool
  | ready, .readStatus v => some (ready || decide (TxReady v))
  | true, .writeTx _ => some false
  | false, .writeTx _ => none
  | ready, _ => some ready

/-- are interrupts enabled behind the log -/
def interruptsAfter (enabled : Bool) (log : List UartEvent) : Bool :=
  log.foldl (fun
    | _, .armDisableInterrupts => false
    | _, .armEnableInterrupts => true
    | enabled, _ => enabled) enabled

/-- the bytes are sent, in order, each when the transmitter is ready for it -/
def SendsBytes (buffer : ℕ → UInt8) (numberOfBytes : ℕ) (run : Logged UartEvent ℕ) : Prop :=
  txValues run.log = (List.range numberOfBytes).map (fun i => (buffer i).toUInt32) ∧
    (monitor txNext false run.log).isSome

/-- the whole contract, for a call made with interrupts `enabled` or not -/
structure WriteContract (buffer : ℕ → UInt8) (numberOfBytes : ℕ) (enabled : Bool)
    (run : Logged UartEvent ℕ) : Prop where
  sends : SendsBytes buffer numberOfBytes run
  returns : run.result = some numberOfBytes
  interrupts : interruptsAfter enabled run.log = enabled

section
variable (answer : ℕ → ℕ → UInt32) (buffer : ℕ → UInt8)

/-! ## one byte -/

/-- a loop that gets to a ready answer ends with it: it sends nothing and leaves the transmitter
ready -/
theorem pollTx_ready (k i j fuel : ℕ) (hready : TxReady (answer k j)) (hij : i ≤ j)
    (hfuel : j - i < fuel) :
    (pollTx answer k fuel i).result = some () ∧ txValues (pollTx answer k fuel i).log = [] ∧
      (∀ ready, monitor txNext ready (pollTx answer k fuel i).log = some true) ∧
      ∀ enabled, interruptsAfter enabled (pollTx answer k fuel i).log = enabled := by
  induction fuel generalizing i with
  | zero => omega
  | succ fuel ih =>
    rw [pollTx, note_bind]
    by_cases hi : TxReady (answer k i)
    · rw [if_pos hi]
      refine ⟨rfl, rfl, fun ready => ?_, fun _ => rfl⟩
      show some (ready || decide (TxReady (answer k i))) = some true
      rw [decide_eq_true hi, Bool.or_true]
    · rw [if_neg hi]
      have hne : i ≠ j := fun h => hi (by rw [h]; exact hready)
      obtain ⟨h1, h2, h3, h4⟩ := ih (i + 1) (by omega) (by omega)
      exact ⟨h1, h2, fun ready => h3 _, h4⟩

/-- **the rounds**: the bytes from `i` on are sent, and the counter comes down by one for each -/
theorem writeLoop_run (fuel n i left : ℕ)
    (hready : ∀ k, i ≤ k → k < i + n → ∃ j, j < fuel ∧ TxReady (answer k j)) (hleft : n ≤ left)
    (hlt : left < 2^64) :
    (writeLoop answer buffer fuel n i left).result = some (left - n) ∧
      txValues (writeLoop answer buffer fuel n i left).log
        = (List.range' i n).map (fun i => (buffer i).toUInt32) ∧
      (∀ ready, (monitor txNext ready (writeLoop answer buffer fuel n i left).log).isSome) ∧
      ∀ enabled, interruptsAfter enabled (writeLoop answer buffer fuel n i left).log = enabled := by
  induction n generalizing i left with
  | zero => exact ⟨rfl, rfl, fun _ => rfl, fun _ => rfl⟩
  | succ n ih =>
    obtain ⟨j, hj, hjr⟩ := hready i (le_refl i) (by omega)
    obtain ⟨p1, p2, p3, p4⟩ := pollTx_ready answer i 0 j fuel hjr (Nat.zero_le j) (by omega)
    obtain ⟨h1, h2, h3, h4⟩ := ih (i + 1) (left - 1)
      (fun k hk hk' => hready k (by omega) (by omega)) (by omega) (by omega)
    have hcount : (left + 2^64 - 1) % 2^64 = left - 1 := by omega
    rw [writeLoop, bind_some _ _ () p1, note_bind, hcount]
    refine ⟨?_, ?_, fun ready => ?_, fun enabled => ?_⟩
    · rw [h1, show left - 1 - n = left - (n + 1) by omega]
    · rw [txValues_append, p2, List.nil_append, List.range'_succ, List.map_cons, ← h2]
      rfl
    · rw [monitor_append, p3 ready]
      exact h3 false
    · show interruptsAfter enabled (_ ++ _) = enabled
      rw [interruptsAfter, List.foldl_append]
      show interruptsAfter (interruptsAfter enabled _) _ = enabled
      rw [p4]
      exact h4 enabled

/-- finitely many bytes: there is fuel for the polls of all of them -/
theorem polls_bounded (n : ℕ) (hready : ∀ k, k < n → ∃ j, TxReady (answer k j)) :
    ∃ fuel₀, ∀ k, k < n → ∃ j, j < fuel₀ ∧ TxReady (answer k j) := by
  induction n with
  | zero => exact ⟨0, fun k hk => by omega⟩
  | succ n ih =>
    obtain ⟨fuel₀, h⟩ := ih fun k hk => hready k (by omega)
    obtain ⟨j, hj⟩ := hready n (by omega)
    refine ⟨max fuel₀ (j + 1), fun k hk => ?_⟩
    by_cases hkn : k = n
    · exact ⟨j, by omega, by rw [hkn]; exact hj⟩
    · obtain ⟨j', hj', hr⟩ := h k (by omega)
      exact ⟨j', by omega, hr⟩

/-- **the whole function**, with fuel for the polls: the bytes are sent, it returns 0, and interrupts
are enabled -/
theorem serialPortWrite_run (fuel numberOfBytes : ℕ) (enabled : Bool) (hn : numberOfBytes < 2^64)
    (hpolls : ∀ k, k < numberOfBytes → ∃ j, j < fuel ∧ TxReady (answer k j)) :
    SendsBytes buffer numberOfBytes (serialPortWrite answer buffer fuel numberOfBytes) ∧
      (serialPortWrite answer buffer fuel numberOfBytes).result = some 0 ∧
      interruptsAfter enabled (serialPortWrite answer buffer fuel numberOfBytes).log = true := by
  obtain ⟨h1, h2, h3, _⟩ := writeLoop_run answer buffer fuel numberOfBytes 0 numberOfBytes
    (fun k _ hk => hpolls k (by omega)) (le_refl _) hn
  rw [Nat.sub_self] at h1
  obtain ⟨run, hrun⟩ : ∃ run, run = writeLoop answer buffer fuel numberOfBytes 0 numberOfBytes :=
    ⟨_, rfl⟩
  rw [← hrun] at h1 h2 h3
  have hwrite : serialPortWrite answer buffer fuel numberOfBytes
      = ⟨.armDisableInterrupts :: (run.log ++ [.armEnableInterrupts]), some 0⟩ := by
    rw [serialPortWrite, note_bind, ← hrun, bind_some _ _ 0 h1]
    rfl
  rw [hwrite]
  refine ⟨⟨?_, ?_⟩, rfl, ?_⟩
  · show txValues (run.log ++ [.armEnableInterrupts]) = _
    rw [txValues_append, h2, List.range_eq_range']
    exact List.append_nil _
  · show (monitor txNext false (run.log ++ [.armEnableInterrupts])).isSome
    obtain ⟨ready, hr⟩ := Option.isSome_iff_exists.mp (h3 false)
    rw [monitor_append, hr, Option.bind_some]
    cases ready <;> rfl
  · rw [interruptsAfter, List.foldl_cons, List.foldl_append]
    rfl

/-- **`SerialPortWrite`**, when the transmitter becomes ready for each byte: it ends, with the bytes
sent as they should be; but it returns 0 and interrupts are enabled, so that the contract is kept
exactly by the calls for no byte made with interrupts enabled. -/
theorem serialPort_contract_iff (numberOfBytes : ℕ) (enabled : Bool) (hn : numberOfBytes < 2^64)
    (hready : ∀ k, k < numberOfBytes → ∃ i, TxReady (answer k i)) :
    ∃ fuel₀, ∀ fuel, fuel₀ ≤ fuel →
      SendsBytes buffer numberOfBytes (serialPortWrite answer buffer fuel numberOfBytes) ∧
      (serialPortWrite answer buffer fuel numberOfBytes).result = some 0 ∧
      interruptsAfter enabled (serialPortWrite answer buffer fuel numberOfBytes).log = true ∧
      (WriteContract buffer numberOfBytes enabled
          (serialPortWrite answer buffer fuel numberOfBytes) ↔
        numberOfBytes = 0 ∧ enabled = true) := by
  obtain ⟨fuel₀, hpolls⟩ := polls_bounded answer numberOfBytes hready
  refine ⟨fuel₀, fun fuel hfuel => ?_⟩
  obtain ⟨hsends, hres, hirq⟩ := serialPortWrite_run answer buffer fuel numberOfBytes enabled hn
    (fun k hk => by
      obtain ⟨j, hj, hr⟩ := hpolls k hk
      exact ⟨j, by omega, hr⟩)
  refine ⟨hsends, hres, hirq, ?_⟩
  constructor
  · intro ⟨_, hreturns, hinterrupts⟩
    exact ⟨(Option.some.inj (hres.symm.trans hreturns)).symm, hinterrupts.symm.trans hirq⟩
  · intro ⟨hzero, henabled⟩
    exact ⟨hsends, by rw [hres, hzero], by rw [hirq, henabled]⟩

end

/-- a transmitter that is ready at the second poll -/
def slowAnswer (_ i : ℕ) : UInt32 := if i = 1 then 6 else 0

theorem slowAnswer_ready (k : ℕ) : TxReady (slowAnswer k 1) := by
  show TxReady 6
  decide

/-- a call for no byte with interrupts enabled -/
theorem noByte_contract : ∃ fuel,
    WriteContract (fun _ => 0x41) 0 true (serialPortWrite slowAnswer (fun _ => 0x41) fuel 0) := by
  obtain ⟨fuel₀, h⟩ := serialPort_contract_iff slowAnswer (fun _ => 0x41) 0 true (by decide)
    (fun k _ => ⟨1, slowAnswer_ready k⟩)
  exact ⟨fuel₀, (h fuel₀ (le_refl _)).2.2.2.mpr ⟨rfl, rfl⟩⟩

/-- one byte with interrupts masked: it is sent, the function returns 0, and they are enabled -/
theorem oneByte_contract_broken :
    (∀ k, k < 1 → ∃ i, TxReady (slowAnswer k i)) ∧
      serialPortWrite slowAnswer (fun _ => 0x41) 2 1
        = ⟨[.armDisableInterrupts, .readStatus 0, .readStatus 6, .writeTx 0x41,
            .armEnableInterrupts], some 0⟩ ∧
      ¬ WriteContract (fun _ => 0x41) 1 false (serialPortWrite slowAnswer (fun _ => 0x41) 2 1) := by
  refine ⟨fun k _ => ⟨1, slowAnswer_ready k⟩, by decide +kernel, ?_⟩
  intro h
  exact absurd h.interrupts (by decide +kernel)

end AppleSilicon

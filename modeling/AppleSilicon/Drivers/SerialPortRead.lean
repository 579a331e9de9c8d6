import AppleSilicon.Drivers.SerialPort
import AppleSilicon.Lib.LogRun

/-!
# `SerialPortRead`: bytes from the UART

The receiver is a queue.  Bytes come in before any access to its registers; the status says whether
there is one, and a read of `UART_RX_BYTE` takes the first one.  A read of the empty queue is `none`.

* `readLoop_spec`        one call, whatever comes in while it runs;
* `serialPortRead_run`   any number of calls: no byte is lost, doubled or made up.
-/

namespace AppleSilicon

/-- `UART_TRANSFER_STATUS_RXD` -/
def uartTransferStatusRxd : UInt32 := (1 : UInt32) <<< (0 : UInt32)

/-- the registers of the receiver: the status with and without a byte, and the byte in
`UART_RX_BYTE` -/
structure UartRx where
  status : Bool → UInt32
  rxByte : UInt8 → UInt32
  status_rxd : ∀ b, status b &&& uartTransferStatusRxd ≠ 0 ↔ b = true
  rxByte_low : ∀ b, (rxByte b).toUInt8 = b

section
variable (rx : UartRx) (arrive : ℕ → List UInt8)

/-- `SerialPortPoll`, the `i`-th access: the answer and the queue -/
def serialPortPoll (i : ℕ) (queue : List UInt8) : Bool × List UInt8 :=
  let queue := queue ++ arrive i
  (decide (rx.status (!queue.isEmpty) &&& uartTransferStatusRxd ≠ 0), queue)

/-- `MmioRead32 (UART_BASE + UART_RX_BYTE)`, the `i`-th access -/
def readRxByte (i : ℕ) (queue : List UInt8) : Option (UInt32 × List UInt8) :=
  match queue ++ arrive i with
  | [] => none
  | b :: queue => some (rx.rxByte b, queue)

/-- what a call leaves: `Count`, the buffer, the queue and the number of accesses -/
structure ReadResult where
  count : ℕ
  buffer : ℕ → UInt8
  queue : List UInt8
  accesses : ℕ

/-- the `for` loop, with `n` bytes left to read -/
def readLoop : ℕ → ℕ → (ℕ → UInt8) → ℕ → List UInt8 → Option ReadResult
  | 0, count, buffer, i, queue => some ⟨count, buffer, queue, i⟩
  | n + 1, count, buffer, i, queue =>
    let poll := serialPortPoll rx arrive i queue
    if poll.1 then
      (readRxByte rx arrive (i + 1) poll.2).bind fun r =>
        readLoop n (count + 1) (Function.update buffer count r.1.toUInt8) (i + 2) r.2
    else some ⟨count, buffer, poll.2, i + 1⟩

/-- `SerialPortRead(Buffer, NumberOfBytes)`, from the `i`-th access on -/
def serialPortRead (buffer : ℕ → UInt8) (numberOfBytes i : ℕ) (queue : List UInt8) :
    Option ReadResult :=
  readLoop rx arrive numberOfBytes 0 buffer i queue

end

/-! ## one call -/

/-- what comes in before the accesses from the `i`-th to the `j`-th -/
def arrivals (arrive : ℕ → List UInt8) (i j : ℕ) : List UInt8 := (List.range' i (j - i)).flatMap arrive

theorem arrivals_self (arrive : ℕ → List UInt8) (i : ℕ) : arrivals arrive i i = [] := by
  rw [arrivals, Nat.sub_self]
  rfl

theorem arrivals_first (arrive : ℕ → List UInt8) (i j : ℕ) (h : i < j) :
    arrivals arrive i j = arrive i ++ arrivals arrive (i + 1) j := by
  have hlen : j - i = (j - (i + 1)) + 1 := by omega
  rw [arrivals, arrivals, hlen, List.range'_succ, List.flatMap_cons]

section
variable (rx : UartRx) (arrive : ℕ → List UInt8)

/-- the answer of a poll is whether the queue has a byte -/
theorem serialPortPoll_eq (i : ℕ) (queue : List UInt8) :
    serialPortPoll rx arrive i queue = (!(queue ++ arrive i).isEmpty, queue ++ arrive i) := by
  unfold serialPortPoll
  dsimp only
  cases h : !(queue ++ arrive i).isEmpty with
  | true => rw [decide_eq_true ((rx.status_rxd true).mpr rfl)]
  | false =>
    rw [decide_eq_false]
    intro hne
    cases (rx.status_rxd false).mp hne

/-- what a call is to do with the rest of the buffer -/
structure ReadsQueue (n count : ℕ) (buffer : ℕ → UInt8) (i : ℕ) (queue got : List UInt8)
    (r : ReadResult) : Prop where
  count_eq : r.count = count + got.length
  length_le : got.length ≤ n
  later : i ≤ r.accesses
  /-- the bytes are the first of those that were there and came in -/
  conserves : got ++ r.queue = queue ++ arrivals arrive i r.accesses
  bytes : ∀ k, k < got.length → got[k]? = some (r.buffer (count + k))
  /-- nothing else of the buffer is written -/
  rest : ∀ k, k < count ∨ r.count ≤ k → r.buffer k = buffer k
  /-- fewer bytes than were asked for: the queue ran empty -/
  short : got.length < n → r.queue = []

/-- **the loop** ends with the bytes that the queue gave -/
theorem readLoop_spec (n count : ℕ) (buffer : ℕ → UInt8) (i : ℕ) (queue : List UInt8) :
    ∃ r got, readLoop rx arrive n count buffer i queue = some r ∧
      ReadsQueue arrive n count buffer i queue got r := by
  induction n generalizing count buffer i queue with
  | zero =>
    refine ⟨_, [], rfl, rfl, le_refl 0, le_refl i, ?_, ?_, fun _ _ => rfl, ?_⟩
    · rw [arrivals_self, List.append_nil]
      rfl
    · intro k hk
      cases hk
    · intro hlt
      cases hlt
  | succ n ih =>
    rw [readLoop, serialPortPoll_eq]
    dsimp only
    cases hq : queue ++ arrive i with
    | nil =>
      refine ⟨_, [], rfl, rfl, Nat.zero_le _, Nat.le_succ i, ?_, ?_, fun _ _ => rfl, fun _ => rfl⟩
      · show [] = queue ++ arrivals arrive i (i + 1)
        rw [arrivals_first arrive i (i + 1) (Nat.lt_succ_self i), arrivals_self, List.append_nil, hq]
      · intro k hk
        cases hk
    | cons b q =>
      obtain ⟨r, got, hrun, h⟩ := ih (count + 1) (Function.update buffer count b) (i + 2)
        (q ++ arrive (i + 1))
      refine ⟨r, b :: got, ?_, ?_, Nat.succ_le_succ h.length_le, (by have := h.later; omega), ?_, ?_,
        ?_, fun hlt => h.short (Nat.lt_of_succ_lt_succ hlt)⟩
      · rw [← hrun]
        show readLoop rx arrive n (count + 1) (Function.update buffer count (rx.rxByte b).toUInt8)
          (i + 2) (q ++ arrive (i + 1)) = _
        rw [rx.rxByte_low b]
      · rw [h.count_eq, List.length_cons]
        omega
      · have hlater := h.later
        rw [List.cons_append, h.conserves, arrivals_first arrive i _ (by omega),
          arrivals_first arrive (i + 1) _ (by omega), ← List.append_assoc queue, hq, List.cons_append,
          List.append_assoc]
      · intro k hk
        cases k with
        | zero =>
          rw [List.getElem?_cons_zero, Nat.add_zero, h.rest count (.inl (Nat.lt_succ_self count)),
            Function.update_self]
        | succ k =>
          rw [List.getElem?_cons_succ, h.bytes k (Nat.lt_of_succ_lt_succ hk)]
          congr 2
          omega
      · intro k hk
        have hcount := h.count_eq
        rw [h.rest k (by omega), Function.update_of_ne (by omega)]

end

/-! ## any number of calls -/

/-- the receiver between two calls -/
structure RxState where
  queue : List UInt8
  accesses : ℕ
deriving DecidableEq

/-- a call with a buffer and its size, and what it left -/
structure ReadDone where
  buffer : ℕ → UInt8
  numberOfBytes : ℕ
  result : ReadResult

/-- the bytes that the caller finds in the buffer -/
def ReadDone.got (d : ReadDone) : List UInt8 := (List.range d.result.count).map d.result.buffer

/-- no more bytes than asked for, the rest of the buffer is untouched, and fewer only where the
queue ran empty -/
def ReadDone.Right (d : ReadDone) : Prop :=
  d.result.count ≤ d.numberOfBytes ∧ (∀ k, d.result.count ≤ k → d.result.buffer k = d.buffer k) ∧
    (d.result.count < d.numberOfBytes → d.result.queue = [])

def readCall (rx : UartRx) (arrive : ℕ → List UInt8) (s : RxState) (call : (ℕ → UInt8) × ℕ) :
    Option (RxState × List ReadDone) :=
  (serialPortRead rx arrive call.1 call.2 s.accesses s.queue).map fun r =>
    (⟨r.queue, r.accesses⟩, [⟨call.1, call.2, r⟩])

theorem arrivals_append (arrive : ℕ → List UInt8) (i j k : ℕ) (hij : i ≤ j) (hjk : j ≤ k) :
    arrivals arrive i j ++ arrivals arrive j k = arrivals arrive i k := by
  have hmid : i + (j - i) = j := by omega
  have hlen : (j - i) + (k - j) = k - i := by omega
  unfold arrivals
  rw [← List.flatMap_append, ← hlen, ← List.range'_append_1, hmid]

/-- **one call** of a run -/
theorem readCall_spec (rx : UartRx) (arrive : ℕ → List UInt8) (s : RxState)
    (call : (ℕ → UInt8) × ℕ) :
    ∃ s' d, readCall rx arrive s call = some (s', [d]) ∧ (d.buffer, d.numberOfBytes) = call ∧
      d.Right ∧ s.accesses ≤ s'.accesses ∧
      d.got ++ s'.queue = s.queue ++ arrivals arrive s.accesses s'.accesses := by
  obtain ⟨r, got, hrun, h⟩ := readLoop_spec rx arrive call.2 0 call.1 s.accesses s.queue
  have hcount : r.count = got.length := h.count_eq.trans (Nat.zero_add _)
  have hgot : (List.range r.count).map r.buffer = got := by
    apply List.ext_getElem?
    intro k
    by_cases hk : k < got.length
    · have hb := h.bytes k hk
      rw [Nat.zero_add] at hb
      rw [hb, List.getElem?_map, List.getElem?_range (by omega)]
      rfl
    · rw [List.getElem?_eq_none (by simp; omega), List.getElem?_eq_none (by omega)]
  refine ⟨⟨r.queue, r.accesses⟩, ⟨call.1, call.2, r⟩, ?_, rfl, ⟨?_, ?_, ?_⟩, h.later, ?_⟩
  · unfold readCall serialPortRead
    rw [hrun]
    rfl
  · show r.count ≤ call.2
    rw [hcount]
    exact h.length_le
  · intro k hk
    exact h.rest k (.inr hk)
  · intro hlt
    apply h.short
    rw [← hcount]
    exact hlt
  · rw [← h.conserves, ← hgot]
    rfl

/-- **The receiver over any number of reads**, whatever comes in before which access: every call
ends, and no read of `UART_RX_BYTE` finds the queue empty; a call that returns fewer bytes than it
was asked for left the queue empty; and the bytes of the calls in their order, then those still in
the queue, are the bytes that were there, then those that came in -/
theorem serialPortRead_run (rx : UartRx) (arrive : ℕ → List UInt8) (s : RxState)
    (calls : List ((ℕ → UInt8) × ℕ)) :
    ∃ s' log, runLog (readCall rx arrive) s calls = some (s', log) ∧
      log.map (fun d => (d.buffer, d.numberOfBytes)) = calls ∧ (∀ d ∈ log, d.Right) ∧
      s.accesses ≤ s'.accesses ∧
      log.flatMap ReadDone.got ++ s'.queue
        = s.queue ++ arrivals arrive s.accesses s'.accesses := by
  induction calls generalizing s with
  | nil =>
    refine ⟨s, [], rfl, rfl, List.forall_mem_nil _, le_refl _, ?_⟩
    rw [arrivals_self, List.append_nil]
    rfl
  | cons call calls ih =>
    obtain ⟨s₁, d, hstep, hcall, hright, hlater, hone⟩ := readCall_spec rx arrive s call
    obtain ⟨s', log, hrun, hcalls, hrights, hlater', hrest⟩ := ih s₁
    refine ⟨s', [d] ++ log, ?_, ?_, ?_, hlater.trans hlater', ?_⟩
    · exact (runLog_cons _ s s' call calls _).mpr ⟨s₁, [d], log, hstep, hrun, rfl⟩
    · rw [List.map_append, hcalls, ← hcall]
      rfl
    · intro e he
      cases List.mem_append.mp he with
      | inl he => exact List.mem_singleton.mp he ▸ hright
      | inr he => exact hrights e he
    · rw [List.flatMap_append, List.append_assoc, hrest, ← List.append_assoc, List.flatMap_singleton,
        hone, List.append_assoc, arrivals_append arrive _ _ _ hlater hlater']

/-- the receiver with the other bits of its status clear -/
def plainRx : UartRx where
  status b := if b then 1 else 0
  rxByte b := b.toUInt32
  status_rxd b := by cases b <;> decide
  rxByte_low b := UInt8.toUInt8_toUInt32 b

/-- two bytes that come in while two calls run -/
def exampleArrive (i : ℕ) : List UInt8 := if i = 1 then [0x42] else if i = 5 then [0x43] else []

/-- the first call takes the byte that is there and the first of the two, and the other one is left
to the next call -/
theorem plainRx_reads : ∃ s' log, runLog (readCall plainRx exampleArrive) ⟨[0x41], 0⟩
      [(fun _ => 0, 4), (fun _ => 0, 1)] = some (s', log) ∧
    log.map ReadDone.got = [[0x41, 0x42], [0x43]] ∧ (∀ d ∈ log, d.Right) ∧
    log.flatMap ReadDone.got ++ s'.queue = [0x41] ++ arrivals exampleArrive 0 s'.accesses := by
  obtain ⟨s', log, hrun, _, hright, _, hbytes⟩ := serialPortRead_run plainRx exampleArrive
    ⟨[0x41], 0⟩ [(fun _ => 0, 4), (fun _ => 0, 1)]
  have hgot : (runLog (readCall plainRx exampleArrive) ⟨[0x41], 0⟩
      [(fun _ => 0, 4), (fun _ => 0, 1)]).map (fun r => r.2.map ReadDone.got)
        = some [[0x41, 0x42], [0x43]] := by decide
  rw [hrun] at hgot
  exact ⟨s', log, hrun, Option.some.inj hgot, hright, hbytes⟩

end AppleSilicon

import AppleSilicon.Drivers.Asmedia
import AppleSilicon.Lib.Loop
import AppleSilicon.Lib.Store

/-!
# The loop that uploads the firmware

The words of the image go to the code memory two at a time: word `Index` and the one a chunk of
`0x4000` words behind it, which `Index` then passes over.  Word `Index` of turn `k` is
`uploadIndex k`, and there are `uploadCount` turns.

An answer of the controller is `RAddr` after each read of the address register; the word is
acknowledged when that is not the address of the word any more.

* `nextIndex_uploadIndex`    the index is that of the next turn;
* `uploadWords_perm`         every word of the image is sent once;
* `uploadTurn_some`          one turn;
* `upload_run`               a run of the loop;
* `firmwareOf_uploaded`      the image is back from the code memory;
* `upload_covers_image`      the loop, when every word is acknowledged.
-/

namespace AppleSilicon

/-- `ASMEDIA_FIRMWARE_UPLOAD_CHUNK_SIZE`, in words -/
def asmediaFirmwareUploadChunkSize : ℕ := 0x4000

/-! ## the loop -/

def firmwareChunks (fw : List UInt8) : ℕ := fw.length / 2

/-- `FirmwareData[i]`; `none` is a read behind the end of the image -/
def firmwareWord (fw : List UInt8) (i : ℕ) : Option UInt16 :=
  (fw[2 * i]?).bind fun low => (fw[2 * i + 1]?).map fun high =>
    high.toUInt16 <<< (8 : UInt16) ||| low.toUInt16

def wordData (fw : List UInt8) (index : ℕ) : Option UInt32 :=
  (firmwareWord fw index).bind fun low =>
    if index ||| asmediaFirmwareUploadChunkSize < firmwareChunks fw then
      (firmwareWord fw (index ||| asmediaFirmwareUploadChunkSize)).map fun high =>
        low.toUInt32 ||| high.toUInt32 <<< (16 : UInt32)
    else some low.toUInt32

/-- `++Index`, and past the chunk that went with this one -/
def nextIndex (index : ℕ) : ℕ :=
  if (index + 1) &&& asmediaFirmwareUploadChunkSize ≠ 0 then
    index + 1 + asmediaFirmwareUploadChunkSize
  else index + 1

/-- the answers for one word; `rAddr i` is `RAddr` after the read number `i` -/
structure WordAnswer where
  addrError : Bool
  dataError : Bool
  readError : ℕ → Bool
  rAddr : ℕ → UInt16

/-- where the loop is; `k` counts the words that were sent -/
structure UploadAt where
  k : ℕ
  index : ℕ
  addr : ℕ
  log : List PciAccess

section
variable (debugAssertEnabled : Bool)

/-- the wait for a word to be taken, with `n` reads left: the accesses, and whether it was -/
def pollLoop (addr : ℕ) (w : WordAnswer) : ℕ → ℕ → Option (List PciAccess × Bool)
  | 0, _ => some ([], false)
  | n + 1, i => (checked debugAssertEnabled (w.readError i) .readSramAddr).bind fun log =>
    if (w.rAddr i).toNat ≠ addr then some (log, true)
    else (pollLoop addr w n (i + 1)).map fun r => (log ++ r.1, r.2)

/-- a turn; the loop leaves with its accesses, and with `false` when a word timed out -/
def uploadTurn (fw : List UInt8) (word : ℕ → WordAnswer) (s : UploadAt) :
    Option (Turn UploadAt (List PciAccess × Bool)) :=
  if s.index < firmwareChunks fw then
    (wordData fw s.index).bind fun data =>
    (inOrder [
      checked debugAssertEnabled (word s.k).addrError (.writeSramAddr (UInt16.ofNat s.addr)),
      checked debugAssertEnabled (word s.k).dataError (.writeCode data)]).bind fun log =>
    (pollLoop debugAssertEnabled s.addr (word s.k) timeoutUsec 0).map fun r =>
      if r.2 then .again ⟨s.k + 1, nextIndex s.index, s.addr + 2, s.log ++ (log ++ r.1)⟩
      else .leave (s.log ++ (log ++ r.1), false)
  else some (.leave (s.log, true))

def uploadLoop (fw : List UInt8) (word : ℕ → WordAnswer) (fuel : ℕ) :
    Option (List PciAccess × Bool) :=
  runLoop (uploadTurn debugAssertEnabled fw word) fuel ⟨0, 0, 0, []⟩

end

/-! ## the turns -/

/-- `Index` in turn `k` -/
def uploadIndex (k : ℕ) : ℕ := k / 0x4000 * 0x8000 + k % 0x4000

/-- the number of turns for so many words -/
def uploadCount (words : ℕ) : ℕ := words / 0x8000 * 0x4000 + min (words % 0x8000) 0x4000

theorem uploadIndex_lt_iff (k words : ℕ) : uploadIndex k < words ↔ k < uploadCount words := by
  rw [uploadIndex, uploadCount]
  omega

theorem uploadCount_le (words : ℕ) : uploadCount words ≤ words := by
  rw [uploadCount]
  omega

/-- the bit of the chunk is clear in the index of a turn -/
theorem uploadIndex_or (k : ℕ) :
    uploadIndex k ||| asmediaFirmwareUploadChunkSize = uploadIndex k + 0x4000 := by
  have hlt : k % 0x4000 < 2^14 := by omega
  have hlt' : k % 0x4000 + 2^14 < 2^15 := by omega
  have hidx : uploadIndex k = 2^15 * (k / 0x4000) ||| k % 0x4000 := by
    rw [← Nat.two_pow_add_eq_or_of_lt (show k % 0x4000 < 2^15 by omega), uploadIndex]
    omega
  rw [hidx, Nat.or_assoc, show asmediaFirmwareUploadChunkSize = 2^14 from rfl,
    Nat.or_two_pow_eq_add_of_lt hlt, ← Nat.two_pow_add_eq_or_of_lt hlt',
    ← Nat.two_pow_add_eq_or_of_lt (show k % 0x4000 < 2^15 by omega)]
  omega

theorem nextIndex_uploadIndex (k : ℕ) : nextIndex (uploadIndex k) = uploadIndex (k + 1) := by
  have hbit : (uploadIndex k + 1) &&& asmediaFirmwareUploadChunkSize ≠ 0 ↔
      (uploadIndex k + 1) / 0x4000 % 2 = 1 := by
    rw [show asmediaFirmwareUploadChunkSize = 2^14 from rfl, Nat.and_two_pow,
      Nat.testBit_eq_decide_div_mod_eq]
    by_cases h : (uploadIndex k + 1) / 0x4000 % 2 = 1
    · rw [decide_eq_true h]
      exact ⟨fun _ => h, fun _ => by decide⟩
    · rw [decide_eq_false h]
      exact ⟨fun hn => absurd (Nat.zero_mul _) hn, fun h' => absurd h' h⟩
  rw [nextIndex]
  by_cases h : (uploadIndex k + 1) / 0x4000 % 2 = 1
  · rw [if_pos (hbit.mpr h), show asmediaFirmwareUploadChunkSize = 0x4000 from rfl]
    rw [uploadIndex] at h ⊢
    rw [uploadIndex]
    omega
  · rw [if_neg fun hn => h (hbit.mp hn)]
    rw [uploadIndex] at h ⊢
    rw [uploadIndex]
    omega

/-- the words that are sent in turn `k` -/
def uploadWords (words k : ℕ) : List ℕ :=
  uploadIndex k :: if uploadIndex k + 0x4000 < words then [uploadIndex k + 0x4000] else []

theorem mem_uploadWords (words k j : ℕ) (hk : k < uploadCount words) : j ∈ uploadWords words k ↔
    j < words ∧ (j = uploadIndex k ∨ j = uploadIndex k + 0x4000) := by
  have hlt := (uploadIndex_lt_iff k words).mpr hk
  rw [uploadWords]
  by_cases h : uploadIndex k + 0x4000 < words
  · rw [if_pos h, List.mem_cons, List.mem_singleton]
    omega
  · rw [if_neg h, List.mem_cons]
    simp only [List.not_mem_nil, or_false]
    omega

theorem uploadWords_perm (words : ℕ) :
    ((List.range (uploadCount words)).flatMap (uploadWords words)).Perm (List.range words) := by
  apply (List.perm_ext_iff_of_nodup ?_ List.nodup_range).mpr
  · intro j
    rw [List.mem_flatMap, List.mem_range]
    constructor
    · intro h
      obtain ⟨k, hk, hj⟩ := h
      exact ((mem_uploadWords words k j (List.mem_range.mp hk)).mp hj).1
    · intro hj
      have hidx : j = uploadIndex (j / 0x8000 * 0x4000 + j % 0x4000) ∨
          j = uploadIndex (j / 0x8000 * 0x4000 + j % 0x4000) + 0x4000 := by
        rw [uploadIndex]
        omega
      have hk : j / 0x8000 * 0x4000 + j % 0x4000 < uploadCount words := by
        rw [← uploadIndex_lt_iff]
        omega
      exact ⟨_, List.mem_range.mpr hk, (mem_uploadWords words _ j hk).mpr ⟨hj, hidx⟩⟩
  · apply List.nodup_flatMap.mpr
    constructor
    · intro k hk
      rw [uploadWords]
      by_cases h : uploadIndex k + 0x4000 < words
      · rw [if_pos h, List.nodup_cons, List.mem_singleton]
        exact ⟨by omega, List.nodup_singleton _⟩
      · rw [if_neg h]
        exact List.nodup_singleton _
    · apply List.Pairwise.imp_of_mem _ List.pairwise_lt_range
      intro k k' hk hk' hlt j hj hj'
      have h := ((mem_uploadWords words k j (List.mem_range.mp hk)).mp hj).2
      have h' := ((mem_uploadWords words k' j (List.mem_range.mp hk')).mp hj').2
      rw [uploadIndex] at h h'
      omega

/-! ## the data -/

theorem firmwareWord_some (fw : List UInt8) (i : ℕ) (h : i < firmwareChunks fw) :
    ∃ w, firmwareWord fw i = some w := by
  have hlt : 2 * i + 1 < fw.length := by
    rw [firmwareChunks] at h
    omega
  rw [firmwareWord, List.getElem?_eq_getElem (by omega), List.getElem?_eq_getElem hlt]
  exact ⟨_, rfl⟩

theorem firmwareWord_none (fw : List UInt8) (i : ℕ) (h : ¬ i < firmwareChunks fw) :
    firmwareWord fw i = none := by
  have hlt : fw.length ≤ 2 * i + 1 := by
    rw [firmwareChunks] at h
    omega
  rw [firmwareWord, List.getElem?_eq_none hlt]
  cases fw[2 * i]? with
  | none => rfl
  | some b => rfl

/-- the data of turn `k`: `FW[i] | FW[i + 0x4000] << 16`, where a word behind the end is 0 -/
def uploadData (fw : List UInt8) (k : ℕ) : UInt32 :=
  ((firmwareWord fw (uploadIndex k)).getD 0).toUInt32 |||
    ((firmwareWord fw (uploadIndex k + 0x4000)).getD 0).toUInt32 <<< (16 : UInt32)

theorem wordData_uploadIndex (fw : List UInt8) (k : ℕ)
    (hk : k < uploadCount (firmwareChunks fw)) :
    wordData fw (uploadIndex k) = some (uploadData fw k) := by
  obtain ⟨low, hlow⟩ := firmwareWord_some fw (uploadIndex k) ((uploadIndex_lt_iff k _).mpr hk)
  rw [wordData, uploadData, hlow, Option.bind_some, uploadIndex_or]
  by_cases h : uploadIndex k + 0x4000 < firmwareChunks fw
  · obtain ⟨high, hhigh⟩ := firmwareWord_some fw _ h
    rw [if_pos h, hhigh]
    rfl
  · rw [if_neg h, firmwareWord_none fw _ h]
    show some low.toUInt32 = some (low.toUInt32 ||| (0 : UInt32) <<< (16 : UInt32))
    rw [show (0 : UInt32) <<< (16 : UInt32) = 0 from rfl, UInt32.or_zero]

/-- what turn `k` writes: the address and the data -/
def uploadWrite (fw : List UInt8) (k : ℕ) : UInt16 × UInt32 :=
  (UInt16.ofNat (2 * k), uploadData fw k)

/-! ## a turn -/

/-- the loop of the driver takes word `k` for acknowledged -/
def WordAnswer.Passes (w : WordAnswer) (k : ℕ) : Prop :=
  ∃ i < timeoutUsec, (w.rAddr i).toNat ≠ 2 * k

/-- the writes go to the code memory, and nothing else is changed -/
def Sends (log : List PciAccess) (writes : List (UInt16 × UInt32)) : Prop :=
  ∀ p : AsmediaPorts, (p.replay log).asmedia =
    { p.asmedia with sramWrites := p.asmedia.sramWrites ++ writes }

theorem sends_nil : Sends [] [] := by
  intro p
  show p.asmedia = { p.asmedia with sramWrites := p.asmedia.sramWrites ++ [] }
  rw [List.append_nil]

theorem Sends.append {log log' : List PciAccess} {ws ws' : List (UInt16 × UInt32)}
    (h : Sends log ws) (h' : Sends log' ws') : Sends (log ++ log') (ws ++ ws') := by
  intro p
  rw [replay_append, h' (p.replay log), h p, List.append_assoc]

section
variable (debugAssertEnabled : Bool)

theorem pollLoop_some (addr : ℕ) (w : WordAnswer) (n i : ℕ) (r : List PciAccess × Bool)
    (h : pollLoop debugAssertEnabled addr w n i = some r) :
    Sends r.1 [] ∧ (r.2 = true ↔ ∃ j, i ≤ j ∧ j < i + n ∧ (w.rAddr j).toNat ≠ addr) := by
  induction n generalizing i r with
  | zero =>
    obtain rfl := Option.some.inj h
    refine ⟨sends_nil, fun hf => (by cases hf), fun hex => ?_⟩
    obtain ⟨j, hij, hj, _⟩ := hex
    omega
  | succ n ih =>
    obtain ⟨log, hlog, h⟩ := Option.bind_eq_some_iff.mp h
    have hread : Sends log [] := by
      rw [checked_some _ hlog]
      exact sends_nil
    by_cases hi : (w.rAddr i).toNat ≠ addr
    · rw [if_pos hi] at h
      obtain rfl := Option.some.inj h
      exact ⟨hread, fun _ => ⟨i, le_refl i, by omega, hi⟩, fun _ => rfl⟩
    · rw [if_neg hi] at h
      obtain ⟨r', hr', rfl⟩ := Option.map_eq_some_iff.mp h
      obtain ⟨hsends, hiff⟩ := ih (i + 1) r' hr'
      refine ⟨hread.append hsends, hiff.trans ?_⟩
      constructor
      · intro hex
        obtain ⟨j, hij, hj, hne⟩ := hex
        exact ⟨j, by omega, by omega, hne⟩
      · intro hex
        obtain ⟨j, hij, hj, hne⟩ := hex
        have hji : j ≠ i := by
          rintro rfl
          exact hi hne
        exact ⟨j, by omega, by omega, hne⟩

/-- where the loop is in front of word `k` -/
def uploadAt (k : ℕ) (log : List PciAccess) : UploadAt := ⟨k, uploadIndex k, 2 * k, log⟩

/-- **one turn** sends one word; the loop goes on if it was acknowledged -/
theorem uploadTurn_some (fw : List UInt8) (word : ℕ → WordAnswer) (k : ℕ) (log : List PciAccess)
    (hk : k < uploadCount (firmwareChunks fw)) (t : Turn UploadAt (List PciAccess × Bool))
    (h : uploadTurn debugAssertEnabled fw word (uploadAt k log) = some t) :
    ∃ sent, Sends sent [uploadWrite fw k] ∧
      ((word k).Passes k ∧ t = .again (uploadAt (k + 1) (log ++ sent)) ∨
        ¬ (word k).Passes k ∧ t = .leave (log ++ sent, false)) := by
  rw [uploadTurn, if_pos (show (uploadAt k log).index < _ from (uploadIndex_lt_iff k _).mpr hk),
    show (uploadAt k log).index = uploadIndex k from rfl, wordData_uploadIndex fw k hk,
    Option.bind_some] at h
  obtain ⟨written, hwritten, h⟩ := Option.bind_eq_some_iff.mp h
  obtain ⟨r, hr, h⟩ := Option.map_eq_some_iff.mp h
  obtain ⟨hpoll, hiff⟩ := pollLoop_some debugAssertEnabled (2 * k) (word k) timeoutUsec 0 r hr
  have hwrite : Sends written [uploadWrite fw k] := by
    obtain ⟨log₁, rest, h₁, hrest, rfl⟩ := (inOrder_cons _ _ _).mp hwritten
    obtain ⟨log₂, rest', h₂, hrest', rfl⟩ := (inOrder_cons _ _ _).mp hrest
    obtain rfl := Option.some.inj hrest'
    rw [checked_some _ h₁, checked_some _ h₂]
    intro p
    rfl
  have hpass : r.2 = true ↔ (word k).Passes k := by
    rw [hiff]
    constructor
    · intro hex
      obtain ⟨j, _, hj, hne⟩ := hex
      exact ⟨j, by omega, hne⟩
    · intro hex
      obtain ⟨j, hj, hne⟩ := hex
      exact ⟨j, by omega, by omega, hne⟩
  refine ⟨written ++ r.1, hwrite.append hpoll, ?_⟩
  by_cases hr2 : r.2 = true
  · rw [if_pos hr2, nextIndex_uploadIndex] at h
    exact .inl ⟨hpass.mp hr2, h.symm⟩
  · rw [if_neg hr2] at h
    exact .inr ⟨fun hp => hr2 (hpass.mpr hp), h.symm⟩

theorem uploadTurn_end (fw : List UInt8) (word : ℕ → WordAnswer) (k : ℕ) (log : List PciAccess)
    (hk : ¬ k < uploadCount (firmwareChunks fw)) :
    uploadTurn debugAssertEnabled fw word (uploadAt k log) = some (.leave (log, true)) := by
  rw [uploadTurn]
  exact if_neg fun h => hk ((uploadIndex_lt_iff k _).mp h)

/-- **a run of the loop** sends a word in each turn, up to the end of the image or to the first word
that is not acknowledged -/
theorem upload_run (fw : List UInt8) (word : ℕ → WordAnswer) (fuel k : ℕ) (log : List PciAccess)
    (r : List PciAccess × Bool)
    (h : runLoop (uploadTurn debugAssertEnabled fw word) fuel (uploadAt k log) = some r) :
    ∃ sent n, r.1 = log ++ sent ∧ Sends sent ((List.range' k n).map (uploadWrite fw)) ∧
      (r.2 = true → n = uploadCount (firmwareChunks fw) - k) ∧
      (r.2 = true ↔ ∀ j, k ≤ j → j < uploadCount (firmwareChunks fw) → (word j).Passes j) := by
  induction fuel generalizing k log with
  | zero => cases h
  | succ fuel ih =>
    rw [runLoop] at h
    by_cases hk : k < uploadCount (firmwareChunks fw)
    · cases ht : uploadTurn debugAssertEnabled fw word (uploadAt k log) with
      | none =>
        rw [ht] at h
        cases h
      | some t =>
        rw [ht] at h
        obtain ⟨sent, hsent, ⟨hp, rfl⟩ | ⟨hp, rfl⟩⟩ :=
          uploadTurn_some debugAssertEnabled fw word k log hk t ht
        · obtain ⟨sent', n, hr, hsent', hn, hiff⟩ := ih (k + 1) (log ++ sent) h
          refine ⟨sent ++ sent', n + 1, by rw [hr, List.append_assoc], ?_, ?_, ?_⟩
          · rw [List.range'_succ, List.map_cons]
            exact hsent.append hsent'
          · intro h2
            have hn := hn h2
            omega
          · rw [hiff]
            constructor
            · intro hall j hkj hj
              by_cases hjk : j = k
              · rw [hjk]
                exact hp
              · exact hall j (by omega) hj
            · intro hall j hkj hj
              exact hall j (by omega) hj
        · obtain rfl := Option.some.inj h
          refine ⟨sent, 1, rfl, hsent, fun hf => (by cases hf), fun hf => (by cases hf), ?_⟩
          intro hall
          exact absurd (hall k (le_refl k) hk) hp
    · rw [uploadTurn_end debugAssertEnabled fw word k log hk] at h
      obtain rfl := Option.some.inj h
      refine ⟨[], 0, (List.append_nil log).symm, sends_nil, fun _ => by omega, ?_, fun _ => rfl⟩
      intro _ j hkj hj
      omega

end

/-! ## the loop, when every word is acknowledged -/

/-- at poll `i`, the last that the driver makes, the register shows something else than the address
of word `k` -/
def WordAnswer.SeenAt (w : WordAnswer) (k i : ℕ) : Prop :=
  i < timeoutUsec ∧ (∀ j < i, (w.rAddr j).toNat = 2 * k) ∧ w.rAddr i ≠ UInt16.ofNat (2 * k)

/-- where a failed access stops the driver, no access of the word fails up to poll `i` -/
def WordAnswer.Clean (w : WordAnswer) (debugAssertEnabled : Bool) (i : ℕ) : Prop :=
  debugAssertEnabled = true → w.addrError = false ∧ w.dataError = false ∧
    ∀ j ≤ i, w.readError j = false

theorem WordAnswer.SeenAt.ne {w : WordAnswer} {k i : ℕ} (h : w.SeenAt k i) :
    (w.rAddr i).toNat ≠ 2 * k := by
  intro he
  apply h.2.2
  rw [← he, UInt16.ofNat_toNat]

section
variable (debugAssertEnabled : Bool)

theorem checked_ok (error : Bool) (access : PciAccess)
    (h : debugAssertEnabled = true → error = false) :
    checked debugAssertEnabled error access = some [access] := by
  rw [checked, if_neg]
  intro he
  rw [h he.2] at he
  exact absurd he.1 Bool.false_ne_true

theorem pollLoop_seen (addr : ℕ) (w : WordAnswer) (n i j : ℕ) (hij : i ≤ j) (hj : j < i + n)
    (hne : (w.rAddr j).toNat ≠ addr)
    (hclean : debugAssertEnabled = true → ∀ x ≤ j, w.readError x = false) :
    ∃ log, pollLoop debugAssertEnabled addr w n i = some (log, true) := by
  induction n generalizing i with
  | zero => omega
  | succ n ih =>
    rw [pollLoop, checked_ok debugAssertEnabled (w.readError i) .readSramAddr
      (fun hd => hclean hd i hij), Option.bind_some]
    by_cases hi : (w.rAddr i).toNat ≠ addr
    · rw [if_pos hi]
      exact ⟨_, rfl⟩
    · have hlt : i < j := by
        refine lt_of_le_of_ne hij ?_
        rintro rfl
        exact hi hne
      obtain ⟨log, hlog⟩ := ih (i + 1) hlt (by omega)
      rw [if_neg hi, hlog]
      exact ⟨_, rfl⟩

/-- a turn returns if its wait does and its writes do not fail -/
theorem uploadTurn_returns (fw : List UInt8) (word : ℕ → WordAnswer) (k : ℕ)
    (log : List PciAccess) (hk : k < uploadCount (firmwareChunks fw))
    (haddr : debugAssertEnabled = true → (word k).addrError = false)
    (hdata : debugAssertEnabled = true → (word k).dataError = false)
    (r : List PciAccess × Bool)
    (hpoll : pollLoop debugAssertEnabled (2 * k) (word k) timeoutUsec 0 = some r) :
    ∃ t, uploadTurn debugAssertEnabled fw word (uploadAt k log) = some t := by
  rw [uploadTurn, if_pos (show (uploadAt k log).index < _ from (uploadIndex_lt_iff k _).mpr hk),
    show (uploadAt k log).index = uploadIndex k from rfl, wordData_uploadIndex fw k hk,
    Option.bind_some, inOrder,
    checked_ok debugAssertEnabled (word (uploadAt k log).k).addrError _ haddr,
    Option.bind_some, inOrder,
    checked_ok debugAssertEnabled (word (uploadAt k log).k).dataError _ hdata, Option.bind_some,
    show pollLoop debugAssertEnabled (uploadAt k log).addr (word (uploadAt k log).k) timeoutUsec 0
      = some r from hpoll]
  exact ⟨_, rfl⟩

theorem uploadTurn_seen (fw : List UInt8) (word : ℕ → WordAnswer) (k : ℕ) (log : List PciAccess)
    (hk : k < uploadCount (firmwareChunks fw)) (i : ℕ) (hseen : (word k).SeenAt k i)
    (hclean : (word k).Clean debugAssertEnabled i) :
    ∃ sent, uploadTurn debugAssertEnabled fw word (uploadAt k log)
      = some (.again (uploadAt (k + 1) (log ++ sent))) := by
  obtain ⟨polled, hpolled⟩ := pollLoop_seen debugAssertEnabled (2 * k) (word k) timeoutUsec 0 i
    (Nat.zero_le i) (by have := hseen.1; omega) hseen.ne (fun hd => (hclean hd).2.2)
  obtain ⟨t, ht⟩ := uploadTurn_returns debugAssertEnabled fw word k log hk
    (fun hd => (hclean hd).1) (fun hd => (hclean hd).2.1) (polled, true) hpolled
  obtain ⟨sent, _, ⟨_, rfl⟩ | ⟨hp, _⟩⟩ := uploadTurn_some debugAssertEnabled fw word k log hk t ht
  · exact ⟨sent, ht⟩
  · exact absurd ⟨i, hseen.1, hseen.ne⟩ hp

theorem uploadLoop_returns (fw : List UInt8) (word : ℕ → WordAnswer)
    (hack : ∀ k < uploadCount (firmwareChunks fw),
      ∃ i, (word k).SeenAt k i ∧ (word k).Clean debugAssertEnabled i)
    (fuel : ℕ) (hfuel : firmwareChunks fw < fuel) :
    ∃ log, uploadLoop debugAssertEnabled fw word fuel = some (log, true) := by
  have hcount := uploadCount_le (firmwareChunks fw)
  obtain ⟨⟨log, ended⟩, hrun, hpost⟩ := runLoop_total (uploadTurn debugAssertEnabled fw word)
    (fun s => ∃ k log, k ≤ uploadCount (firmwareChunks fw) ∧ s = uploadAt k log)
    (fun s => uploadCount (firmwareChunks fw) - s.k) (fun r => r.2 = true)
    (by
      intro s hs
      obtain ⟨k, log, hk, rfl⟩ := hs
      by_cases hlt : k < uploadCount (firmwareChunks fw)
      · obtain ⟨i, hseen, hclean⟩ := hack k hlt
        obtain ⟨sent, hturn⟩ := uploadTurn_seen debugAssertEnabled fw word k log hlt i hseen hclean
        refine .inl ⟨_, hturn, ⟨k + 1, log ++ sent, hlt, rfl⟩, ?_⟩
        show uploadCount (firmwareChunks fw) - (k + 1) < uploadCount (firmwareChunks fw) - k
        omega
      · exact .inr ⟨_, uploadTurn_end debugAssertEnabled fw word k log hlt, rfl⟩)
    fuel (uploadAt 0 []) ⟨0, [], Nat.zero_le _, rfl⟩
    (show uploadCount (firmwareChunks fw) - 0 < fuel by omega)
  have hended : ended = true := hpost
  rw [hended] at hrun
  exact ⟨log, hrun⟩

end

/-! ## the image, back from the code memory -/

/-- the image in the code memory: a word is in the low or the high half of the data of its turn -/
def firmwareOf (sram : UInt16 → UInt32) (size : ℕ) : List UInt8 :=
  (List.range size).map fun x =>
    let word := x / 2
    let data := sram (UInt16.ofNat (2 * (word / 0x8000 * 0x4000 + word % 0x4000)))
    (data >>> UInt32.ofNat (16 * (word / 0x4000 % 2) + 8 * (x % 2))).toUInt8

theorem firmwareWord_toNat (fw : List UInt8) (i : ℕ) (h : 2 * i + 1 < fw.length) :
    ((firmwareWord fw i).getD 0).toNat
      = (fw.getD (2 * i) 0).toNat + 2^8 * (fw.getD (2 * i + 1) 0).toNat := by
  have hlow := fw[2 * i].toNat_lt
  have hhigh := fw[2 * i + 1].toNat_lt
  have hshift : (8 : UInt16).toNat % 16 = 8 := by decide
  rw [firmwareWord, List.getElem?_eq_getElem (by omega), List.getElem?_eq_getElem h,
    List.getD_eq_getElem fw 0 h, List.getD_eq_getElem fw 0 (by omega)]
  show (fw[2 * i + 1].toUInt16 <<< (8 : UInt16) ||| fw[2 * i].toUInt16).toNat = _
  rw [UInt16.toNat_or, UInt16.toNat_shiftLeft, UInt8.toNat_toUInt16, UInt8.toNat_toUInt16, hshift,
    shiftLeft_mod_or _ _ 8 16 hlow (by omega)]

/-- a byte of the image is one of the two of its word -/
theorem firmwareWord_byte (fw : List UInt8) (x : ℕ) (h : x / 2 < firmwareChunks fw) :
    ((firmwareWord fw (x / 2)).getD 0).toNat / 2^(8 * (x % 2)) % 2^8 = (fw.getD x 0).toNat := by
  rw [firmwareChunks] at h
  rw [firmwareWord_toNat fw (x / 2) (by omega)]
  have h0 := (fw.getD (2 * (x / 2)) 0).toNat_lt
  have h1 := (fw.getD (2 * (x / 2) + 1) 0).toNat_lt
  obtain hx2 | hx2 := Nat.mod_two_eq_zero_or_one x
  · rw [hx2, show fw.getD x 0 = fw.getD (2 * (x / 2)) 0 by congr 1; omega]
    omega
  · rw [hx2, show fw.getD x 0 = fw.getD (2 * (x / 2) + 1) 0 by congr 1; omega]
    omega

theorem uploadData_toNat (fw : List UInt8) (k : ℕ) :
    (uploadData fw k).toNat = ((firmwareWord fw (uploadIndex k)).getD 0).toNat
      + 2^16 * ((firmwareWord fw (uploadIndex k + 0x4000)).getD 0).toNat := by
  have hlow := ((firmwareWord fw (uploadIndex k)).getD 0).toNat_lt
  have hhigh := ((firmwareWord fw (uploadIndex k + 0x4000)).getD 0).toNat_lt
  have hshift : (16 : UInt32).toNat % 32 = 16 := by decide
  rw [uploadData, UInt32.toNat_or, UInt32.toNat_shiftLeft, UInt16.toNat_toUInt32,
    UInt16.toNat_toUInt32, hshift, Nat.or_comm, shiftLeft_mod_or _ _ 16 32 hlow (by omega)]

/-- byte `c` of half `b` of the data -/
theorem dataByte_toNat (data : UInt32) (b c : ℕ) (hb : b < 2) (hc : c < 2) :
    (data >>> UInt32.ofNat (16 * b + 8 * c)).toUInt8.toNat
      = data.toNat / 2^(16 * b + 8 * c) % 2^8 := by
  have hs : (UInt32.ofNat (16 * b + 8 * c)).toNat = 16 * b + 8 * c :=
    UInt32.toNat_ofNat_of_lt' (show _ < 2^32 by omega)
  rw [UInt32.toNat_toUInt8, UInt32.toNat_shiftRight, hs,
    Nat.mod_eq_of_lt (show 16 * b + 8 * c < 32 by omega), Nat.shiftRight_eq_div_pow]

/-- turn `k` has the address to itself -/
theorem uploadWrites_sram (fw : List UInt8) (sram : UInt16 → UInt32) (k n : ℕ) (hk : k < n)
    (hn : n ≤ 2^15) :
    applyWrites sram ((List.range n).map (uploadWrite fw)) (UInt16.ofNat (2 * k))
      = uploadData fw k := by
  apply applyWrites_const
  · intro w hw he
    obtain ⟨j, hj, rfl⟩ := List.mem_map.mp hw
    have hj := List.mem_range.mp hj
    have he' := congrArg UInt16.toNat (show UInt16.ofNat (2 * j) = UInt16.ofNat (2 * k) from he)
    rw [UInt16.toNat_ofNat_of_lt' (show _ < 2^16 by omega),
      UInt16.toNat_ofNat_of_lt' (show _ < 2^16 by omega)] at he'
    obtain rfl : j = k := by omega
    rfl
  · exact ⟨uploadWrite fw k, List.mem_map_of_mem (List.mem_range.mpr hk), rfl⟩

/-- **the image is back** -/
theorem firmwareOf_uploaded (fw : List UInt8) (sram : UInt16 → UInt32) (heven : fw.length % 2 = 0)
    (hsize : fw.length ≤ 2^17) :
    firmwareOf (applyWrites sram
      ((List.range (uploadCount (firmwareChunks fw))).map (uploadWrite fw))) fw.length = fw := by
  apply List.ext_getElem
  · rw [firmwareOf, List.length_map, List.length_range]
  · intro x hx hx'
    have hchunks : firmwareChunks fw = fw.length / 2 := rfl
    have hcount : uploadCount (firmwareChunks fw) ≤ 2^15 := by
      rw [uploadCount, hchunks]
      omega
    obtain ⟨k, hkdef⟩ : ∃ k, k = x / 2 / 0x8000 * 0x4000 + x / 2 % 0x4000 := ⟨_, rfl⟩
    have hword : x / 2 = uploadIndex k + 0x4000 * (x / 2 / 0x4000 % 2) := by
      rw [uploadIndex, hkdef]
      omega
    have hk : k < uploadCount (firmwareChunks fw) := by
      rw [← uploadIndex_lt_iff, hchunks]
      omega
    have hbyte : fw[x].toNat = (fw.getD x 0).toNat := by rw [List.getD_eq_getElem fw 0 hx']
    have hlow := ((firmwareWord fw (uploadIndex k)).getD 0).toNat_lt
    apply UInt8.toNat_inj.mp
    simp only [firmwareOf, List.getElem_map, List.getElem_range]
    rw [← hkdef, uploadWrites_sram fw sram k _ hk hcount,
      dataByte_toNat _ _ _ (Nat.mod_lt _ (by omega)) (Nat.mod_lt _ (by omega)), uploadData_toNat,
      hbyte, ← firmwareWord_byte fw x (by rw [hchunks]; omega)]
    obtain hhalf | hhalf := Nat.mod_two_eq_zero_or_one (x / 2 / 0x4000)
    · -- the word is in the low half
      rw [hhalf, Nat.mul_zero, Nat.add_zero] at hword
      rw [hhalf, hword]
      obtain hx2 | hx2 := Nat.mod_two_eq_zero_or_one x
      · rw [hx2]
        omega
      · rw [hx2]
        omega
    · rw [hhalf, Nat.mul_one] at hword
      rw [hhalf, hword, Nat.mul_one, Nat.pow_add, ← Nat.div_div_eq_div_mul,
        Nat.add_mul_div_left _ _ (Nat.two_pow_pos 16), Nat.div_eq_of_lt hlow, Nat.zero_add]

/-- **the upload covers the image**: when every word is acknowledged, the loop ends; turn `k` writes
the data at address `2k`, every word is sent once, and the image can be had back -/
theorem upload_covers_image (debugAssertEnabled : Bool) (fw : List UInt8) (word : ℕ → WordAnswer)
    (heven : fw.length % 2 = 0) (hsize : fw.length ≤ 2^17)
    (hack : ∀ k < uploadCount (firmwareChunks fw),
      ∃ i, (word k).SeenAt k i ∧ (word k).Clean debugAssertEnabled i) :
    ∃ log, (∀ fuel, firmwareChunks fw < fuel →
        uploadLoop debugAssertEnabled fw word fuel = some (log, true)) ∧
      Sends log ((List.range (uploadCount (firmwareChunks fw))).map (uploadWrite fw)) ∧
      (∀ k < uploadCount (firmwareChunks fw), (uploadWrite fw k).1.toNat = 2 * k) ∧
      ((List.range (uploadCount (firmwareChunks fw))).flatMap
        (uploadWords (firmwareChunks fw))).Perm (List.range (firmwareChunks fw)) ∧
      ∀ sram, firmwareOf (applyWrites sram
        ((List.range (uploadCount (firmwareChunks fw))).map (uploadWrite fw))) fw.length = fw := by
  obtain ⟨log, hlog⟩ := uploadLoop_returns debugAssertEnabled fw word hack
    (firmwareChunks fw + 1) (Nat.lt_succ_self _)
  have hcount : uploadCount (firmwareChunks fw) ≤ 2^15 := by
    rw [uploadCount, show firmwareChunks fw = fw.length / 2 from rfl]
    omega
  refine ⟨log, ?_, ?_, ?_, uploadWords_perm _, fun sram => firmwareOf_uploaded fw sram heven hsize⟩
  · intro fuel hfuel
    obtain ⟨log', hlog'⟩ := uploadLoop_returns debugAssertEnabled fw word hack fuel hfuel
    rw [hlog', runLoop_unique _ _ _ _ _ _ hlog hlog']
  · obtain ⟨sent, n, hsent, hsends, hn, _⟩ :=
      upload_run debugAssertEnabled fw word _ 0 [] (log, true) hlog
    rw [List.nil_append] at hsent
    have hall : n = uploadCount (firmwareChunks fw) := hn rfl
    rw [show log = sent from hsent, List.range_eq_range', ← hall]
    exact hsends
  · intro k hk
    exact UInt16.toNat_ofNat_of_lt' (show _ < 2^16 by omega)

/-- one word more than a chunk; the last one goes with the first -/
def chunkAndWord : List UInt8 := List.replicate 0x8000 1 ++ [2, 3]

/-- the controller takes each word at the second read -/
def takenAtSecondRead (k : ℕ) : WordAnswer :=
  ⟨false, false, fun _ => false, fun i => if i = 0 then UInt16.ofNat (2 * k) else 0xffff⟩

theorem chunkAndWord_length : chunkAndWord.length = 0x8002 := by
  rw [chunkAndWord, List.length_append, List.length_replicate]
  rfl

theorem chunkAndWord_chunks : firmwareChunks chunkAndWord = 0x4001 := by
  rw [firmwareChunks, chunkAndWord_length]

theorem chunkAndWord_first : uploadWrite chunkAndWord 0 = (0, 0x3020101) := by
  have hlen : (List.replicate 0x8000 (1 : UInt8)).length = 0x8000 := List.length_replicate
  have hfirst : firmwareWord chunkAndWord 0 = some 0x101 := by
    unfold firmwareWord chunkAndWord
    rw [List.getElem?_append_left (by rw [hlen]; norm_num),
      List.getElem?_append_left (by rw [hlen]; norm_num),
      List.getElem?_replicate_of_lt (by norm_num), List.getElem?_replicate_of_lt (by norm_num)]
    rfl
  have hlast : firmwareWord chunkAndWord 0x4000 = some 0x302 := by
    unfold firmwareWord chunkAndWord
    rw [List.getElem?_append_right (by rw [hlen]), List.getElem?_append_right (by rw [hlen]; norm_num),
      hlen]
    rfl
  rw [uploadWrite, uploadData, show uploadIndex 0 = 0 from rfl, hfirst, hlast]
  rfl

/-- `0x4001` words go out in `0x4000` writes, the first of them with the last word -/
theorem chunkAndWord_uploaded : ∃ log,
    (∀ fuel, 0x4001 < fuel →
      uploadLoop true chunkAndWord takenAtSecondRead fuel = some (log, true)) ∧
    Sends log ((List.range 0x4000).map (uploadWrite chunkAndWord)) ∧
    uploadWords 0x4001 0 = [0, 0x4000] ∧ uploadWrite chunkAndWord 0 = (0, 0x3020101) := by
  have hcount : uploadCount (firmwareChunks chunkAndWord) = 0x4000 := by
    rw [chunkAndWord_chunks]
    rfl
  obtain ⟨log, hrun, hsends, _⟩ := upload_covers_image true chunkAndWord takenAtSecondRead
    (by rw [chunkAndWord_length]) (by rw [chunkAndWord_length]; norm_num) (by
      intro k hk
      rw [hcount] at hk
      have htwo : (UInt16.ofNat (2 * k)).toNat = 2 * k :=
        UInt16.toNat_ofNat_of_lt' (show _ < 2^16 by omega)
      refine ⟨1, ⟨by decide, ?_, ?_⟩, fun _ => ⟨rfl, rfl, fun _ _ => rfl⟩⟩
      · intro j hj
        obtain rfl : j = 0 := by omega
        exact htwo
      · intro he
        have hmax : (0xffff : UInt16).toNat = 2 * k := by
          rw [← htwo, ← he]
          rfl
        have hodd : (0xffff : UInt16).toNat = 65535 := rfl
        omega)
  rw [hcount] at hsends
  rw [chunkAndWord_chunks] at hrun
  exact ⟨log, hrun, hsends, rfl, chunkAndWord_first⟩

end AppleSilicon

import AppleSilicon.Lib.Logged
import AppleSilicon.Lib.Status
import AppleSilicon.Lib.Store

/-!
# `LogSmbiosData`: an SMBIOS record and its strings

A record is a fixed structure, the strings behind it, each with its NUL, and a further NUL.  The
function counts the bytes in one pass and copies them in another.  The run keeps the log of the
allocation, of every byte written to the record, and of what is handed to the SMBIOS protocol.  The
fixed structure is the list of its bytes, a string the list of its characters, and a string pack
that is `NULL` is `none`.

* `recordSize_mod`        the first pass counts the bytes of the record, modulo `2^64`;
* `recordWrites_copy`     the second pass writes them one after the other;
* `smbios_record_iff`     the record is right unless the pack is `NULL`, which only the first pass
                          allows, or the count wraps.
-/

namespace AppleSilicon

open Logged

/-- what one call of `LogSmbiosData` is answered -/
structure SmbiosAnswers where
  locateProtocol : StatusCode
  /-- is there a pool of the size that is asked for -/
  allocateZeroPool : Bool
  /-- `Smbios->Add`: the status and the handle -/
  add : StatusCode × UInt16
  debugAssertEnabled : Bool

inductive SmbiosEvent where
  | allocateZeroPool (size : ℕ)
  | write (offset : ℕ) (b : UInt8)
  | add (record : List UInt8)
  | storeHandle (handle : UInt16)
  | freePool
deriving DecidableEq

/-- `AsciiStrSize` -/
def asciiStrSize (str : List UInt8) : ℕ := str.length + 1

/-- the first pass: `Size` -/
def recordSize (length : ℕ) : Option (List (List UInt8)) → ℕ
  | none => (length + 2) % 2^64
  | some pack =>
    let size := pack.foldl (fun size str => (size + asciiStrSize str) % 2^64) length
    let size := if pack = [] then (size + 1) % 2^64 else size
    (size + 1) % 2^64

/-- the second pass, with `Str` at an offset of the record -/
def stringWrites : ℕ → List (List UInt8) → List (ℕ × UInt8)
  | str, [] => [(str, 0)]
  | str, string :: pack =>
    copyWrites str (string ++ [0]) ++ stringWrites (str + asciiStrSize string) pack

def writeAll (ws : List (ℕ × UInt8)) : Logged SmbiosEvent Unit :=
  ⟨ws.map fun w => .write w.1 w.2, some ()⟩

/-- `Template->Length` -/
def templateLength (template : List UInt8) : ℕ := (template[1]?.getD 0).toNat

/-- the end of `LogSmbiosData`, from `Smbios->Add` on -/
def addRecord (s : SmbiosAnswers) (dataSmbiosHande : Bool) (record : List UInt8) :
    Logged SmbiosEvent StatusCode :=
  (note (.add record)).bind fun _ =>
    let (status, handle) := s.add
    (if status = StatusCode.success ∧ dataSmbiosHande then note (.storeHandle handle)
      else Logged.pure ()).bind fun _ =>
      if status.isError ∧ s.debugAssertEnabled then stop
      else (note .freePool).bind fun _ => Logged.pure status

/-- `LogSmbiosData(Template, StringPack, DataSmbiosHande)`; the last one is `NULL` or not -/
def logSmbiosData (s : SmbiosAnswers) (template : List UInt8)
    (stringPack : Option (List (List UInt8))) (dataSmbiosHande : Bool) :
    Logged SmbiosEvent StatusCode :=
  if s.locateProtocol.isError then Logged.pure s.locateProtocol
  else
    let size := recordSize (templateLength template) stringPack
    (note (.allocateZeroPool size)).bind fun _ =>
      if s.allocateZeroPool = false then Logged.pure StatusCode.outOfResources
      else
        let ws := copyWrites 0 (template.take (templateLength template))
        (writeAll ws).bind fun _ =>
          -- `Record->Length` is read from the record
          let str := (applyWrites (fun _ => 0) ws 1).toNat
          match stringPack with
          -- the loop reads `StringPack[0]` through the null pointer
          | none => stop
          | some pack =>
            let ws' := stringWrites str pack
            (writeAll ws').bind fun _ =>
              addRecord s dataSmbiosHande
                ((List.range size).map (applyWrites (fun _ => 0) (ws ++ ws')))

/-! ## what it should do -/

/-- the fixed structure, the strings with their NULs, and a further NUL; two without a string -/
def smbiosRecord (template : List UInt8) (pack : List (List UInt8)) : List UInt8 :=
  template.take (templateLength template) ++
    if pack = [] then [0, 0] else pack.flatMap (fun str => str ++ [0]) ++ [0]

def addedRecords (log : List SmbiosEvent) : List (List UInt8) :=
  log.filterMap fun
    | .add record => some record
    | _ => none

/-- the call gets to `Smbios->Add` -/
def SmbiosAnswers.pooled (s : SmbiosAnswers) : Bool :=
  !s.locateProtocol.isError && s.allocateZeroPool

/-- what the call is to return; a failed `ASSERT_EFI_ERROR` does not return -/
def SmbiosAnswers.status (s : SmbiosAnswers) : Option StatusCode :=
  if s.locateProtocol.isError then some s.locateProtocol
  else if s.allocateZeroPool = false then some .outOfResources
  else if s.add.1.isError ∧ s.debugAssertEnabled then none
  else some s.add.1

/-- the pool has the size of the record, every byte is written inside it, the record is what is
added, once, if the call gets there, and the status is the one of the service that decides -/
structure RecordRight (s : SmbiosAnswers) (record : List UInt8)
    (run : Logged SmbiosEvent StatusCode) : Prop where
  size : ∀ n, .allocateZeroPool n ∈ run.log → n = record.length
  inside : ∀ offset b, .write offset b ∈ run.log →
    .allocateZeroPool record.length ∈ run.log ∧ offset < record.length
  added : addedRecords run.log = if s.pooled then [record] else []
  status : run.result = s.status

/-! ## the two passes -/

theorem pack_size (length : ℕ) (pack : List (List UInt8)) (hl : length < 2^64) :
    pack.foldl (fun size str => (size + asciiStrSize str) % 2^64) length
      = (length + (pack.flatMap fun str => str ++ [0]).length) % 2^64 := by
  induction pack generalizing length with
  | nil =>
    rw [List.foldl_nil, List.flatMap_nil, List.length_nil, Nat.add_zero, Nat.mod_eq_of_lt hl]
  | cons str pack ih =>
    rw [List.foldl_cons, ih _ (Nat.mod_lt _ (Nat.two_pow_pos 64)), Nat.mod_add_mod,
      List.flatMap_cons, List.length_append, List.length_append, List.length_singleton,
      Nat.add_assoc, asciiStrSize]

/-- **the first pass counts the bytes of the record**, modulo `2^64` -/
theorem recordSize_mod (template : List UInt8) (stringPack : Option (List (List UInt8)))
    (hlen : templateLength template ≤ template.length) :
    recordSize (templateLength template) stringPack
      = (smbiosRecord template (stringPack.getD [])).length % 2^64 := by
  have hbyte : templateLength template < 2^8 := UInt8.toNat_lt _
  have htake : (template.take (templateLength template)).length = templateLength template := by
    rw [List.length_take, Nat.min_eq_left hlen]
  cases stringPack with
  | none =>
    rw [recordSize, Option.getD_none, smbiosRecord, if_pos rfl, List.length_append, htake]
    rfl
  | some pack =>
    rw [recordSize, Option.getD_some, smbiosRecord, List.length_append, htake,
      pack_size _ pack (by omega)]
    by_cases hp : pack = []
    · rw [if_pos hp, if_pos hp, hp, List.flatMap_nil, List.length_nil, Nat.add_zero,
        Nat.mod_add_mod, Nat.add_assoc, Nat.mod_add_mod]
      rfl
    · rw [if_neg hp, if_neg hp, Nat.mod_add_mod, List.length_append, List.length_singleton,
        Nat.add_assoc]

theorem stringWrites_copy (str : ℕ) (pack : List (List UInt8)) :
    stringWrites str pack = copyWrites str (pack.flatMap (fun string => string ++ [0]) ++ [0]) := by
  induction pack generalizing str with
  | nil => rfl
  | cons string pack ih =>
    rw [stringWrites, ih, List.flatMap_cons, List.append_assoc (string ++ [0]),
      copyWrites_append str (string ++ [0]), List.length_append, List.length_singleton,
      asciiStrSize]

/-- **the second pass writes the bytes one after the other** -/
theorem recordWrites_copy (template : List UInt8) (pack : List (List UInt8))
    (h4 : 4 ≤ templateLength template) (hlen : templateLength template ≤ template.length) :
    copyWrites 0 (template.take (templateLength template)) ++
        stringWrites (applyWrites (fun _ => 0)
          (copyWrites 0 (template.take (templateLength template))) 1).toNat pack
      = copyWrites 0 (template.take (templateLength template) ++
          (pack.flatMap (fun string => string ++ [0]) ++ [0])) := by
  obtain ⟨b, hb⟩ : ∃ b, template[1]? = some b := ⟨_, List.getElem?_eq_getElem (by omega)⟩
  have hread : applyWrites (fun _ => 0) (copyWrites 0 (template.take (templateLength template))) 1
      = b := by
    have := applyWrites_copy (fun _ => (0 : UInt8)) 0 1 (template.take (templateLength template)) b
      (by rw [List.getElem?_take_of_lt (by omega), hb])
    rw [Nat.zero_add] at this
    exact this
  have hbl : b.toNat = templateLength template := by rw [templateLength, hb, Option.getD_some]
  rw [hread, hbl, stringWrites_copy, copyWrites_append 0 (template.take (templateLength template)),
    List.length_take, Nat.min_eq_left hlen, Nat.zero_add]

/-- the record that is handed over, once the pool has the right size -/
theorem record_added (template : List UInt8) (pack : List (List UInt8)) :
    (List.range (smbiosRecord template pack).length).map (applyWrites (fun _ => 0)
        (copyWrites 0 (template.take (templateLength template) ++
          (pack.flatMap (fun string => string ++ [0]) ++ [0]))))
      = smbiosRecord template pack := by
  rw [smbiosRecord]
  by_cases hp : pack = []
  · -- the second NUL is not written: the pool is zeroed
    obtain ⟨fixed, hfixed⟩ : ∃ fixed, fixed = template.take (templateLength template) := ⟨_, rfl⟩
    rw [if_pos hp, hp, List.flatMap_nil, List.nil_append, ← hfixed]
    have hle : (fixed ++ [(0 : UInt8)]).length ≤ (fixed ++ [(0 : UInt8), 0]).length := by
      rw [List.length_append, List.length_append]
      exact Nat.add_le_add_left (by decide) _
    have hone : (fixed ++ [(0 : UInt8), 0]).length - (fixed ++ [(0 : UInt8)]).length = 1 := by
      rw [List.length_append, List.length_append, Nat.add_sub_add_left]
      rfl
    rw [copied_list _ _ _ hle, hone, List.append_assoc]
    rfl
  · rw [if_neg hp, copied_list _ _ _ (le_refl _), Nat.sub_self, List.range'_zero, List.map_nil,
      List.append_nil]

/-- what is written is no longer than the record -/
theorem written_length (template : List UInt8) (pack : List (List UInt8)) :
    (template.take (templateLength template) ++
      (pack.flatMap (fun string => string ++ [0]) ++ [0])).length
        ≤ (smbiosRecord template pack).length := by
  obtain ⟨fixed, hfixed⟩ : ∃ fixed, fixed = template.take (templateLength template) := ⟨_, rfl⟩
  rw [smbiosRecord, ← hfixed, @List.length_append _ fixed, @List.length_append _ fixed]
  refine Nat.add_le_add_left ?_ _
  by_cases hp : pack = []
  · rw [if_pos hp, hp]
    decide
  · rw [if_neg hp]

/-! ## the run -/

theorem mem_writeAll (ws : List (ℕ × UInt8)) (e : SmbiosEvent) (h : e ∈ (writeAll ws).log) :
    ∃ w ∈ ws, e = .write w.1 w.2 := by
  obtain ⟨w, hw, rfl⟩ := List.mem_map.mp h
  exact ⟨w, hw, rfl⟩

theorem addedRecords_writeAll (ws : List (ℕ × UInt8)) : addedRecords (writeAll ws).log = [] := by
  refine List.filterMap_eq_nil_iff.mpr fun e he => ?_
  obtain ⟨w, _, rfl⟩ := mem_writeAll ws e he
  rfl

/-- the end of the function adds the record once and writes nothing to it -/
theorem addRecord_log (s : SmbiosAnswers) (dataSmbiosHande : Bool) (record : List UInt8) :
    ∃ rest, (addRecord s dataSmbiosHande record).log = .add record :: rest ∧
      ∀ e ∈ rest, e = .storeHandle s.add.2 ∨ e = .freePool := by
  rw [addRecord, note_bind]
  refine ⟨_, rfl, ?_⟩
  show Logged.All (fun e : SmbiosEvent => e = .storeHandle s.add.2 ∨ e = .freePool) _
  rw [bind_all]
  constructor
  · split
    · exact (all_note _ _).mpr (Or.inl rfl)
    · exact all_silent _ _ rfl
  · intro _ _
    split
    · exact all_silent _ _ rfl
    · exact (note_bind_all _ _ _).mpr ⟨Or.inr rfl, all_silent _ _ rfl⟩

theorem addRecord_result (s : SmbiosAnswers) (dataSmbiosHande : Bool) (record : List UInt8) :
    (addRecord s dataSmbiosHande record).result =
      if s.add.1.isError ∧ s.debugAssertEnabled then none else some s.add.1 := by
  have hstore : (if s.add.1 = StatusCode.success ∧ dataSmbiosHande = true then
      note (SmbiosEvent.storeHandle s.add.2) else Logged.pure ()).result = some () := by
    split
    · rfl
    · rfl
  rw [addRecord, note_bind]
  show (Logged.bind _ _).result = _
  rw [bind_result, hstore, Option.bind_some]
  by_cases herr : s.add.1.isError = true ∧ s.debugAssertEnabled = true
  · rw [if_pos herr, if_pos herr]
    rfl
  · rw [if_neg herr, if_neg herr]
    rfl

theorem addedRecords_add (s : SmbiosAnswers) (dataSmbiosHande : Bool) (record : List UInt8) :
    addedRecords (addRecord s dataSmbiosHande record).log = [record] := by
  obtain ⟨rest, hlog, hrest⟩ := addRecord_log s dataSmbiosHande record
  have hend : addedRecords rest = [] := by
    refine List.filterMap_eq_nil_iff.mpr fun e he => ?_
    rcases hrest e he with rfl | rfl
    · rfl
    · rfl
  rw [hlog]
  exact congrArg (record :: ·) hend

/-- behind the pool the log holds the bytes that are written and the end of the function -/
theorem written_log (s : SmbiosAnswers) (dataSmbiosHande : Bool) (record : List UInt8)
    (ws : List (ℕ × UInt8)) (size : ℕ) (hws : ∀ w ∈ ws, w.1 < size) :
    ∀ e ∈ (writeAll ws).log ++ (addRecord s dataSmbiosHande record).log,
      (∀ n, e ≠ .allocateZeroPool n) ∧ ∀ offset b, e = .write offset b → offset < size := by
  obtain ⟨rest, hlog, hrest⟩ := addRecord_log s dataSmbiosHande record
  intro e he
  rw [hlog] at he
  rcases List.mem_append.mp he with he | he
  · obtain ⟨w, hw, rfl⟩ := mem_writeAll _ e he
    refine ⟨fun n hn => (by cases hn), fun offset b hwr => ?_⟩
    injection hwr with hoffset _
    rw [← hoffset]
    exact hws w hw
  · rcases List.mem_cons.mp he with rfl | he
    · exact ⟨fun n hn => (by cases hn), fun offset b hwr => (by cases hwr)⟩
    · rcases hrest e he with rfl | rfl
      · exact ⟨fun n hn => (by cases hn), fun offset b hwr => (by cases hwr)⟩
      · exact ⟨fun n hn => (by cases hn), fun offset b hwr => (by cases hwr)⟩

section
variable (s : SmbiosAnswers) (template : List UInt8) (dataSmbiosHande : Bool)

/-- without the protocol nothing is done -/
theorem noProtocol_right (stringPack : Option (List (List UInt8))) (record : List UInt8)
    (hlocate : s.locateProtocol.isError = true) :
    RecordRight s record (logSmbiosData s template stringPack dataSmbiosHande) := by
  rw [logSmbiosData, if_pos hlocate]
  refine ⟨fun n hn => (by cases hn), fun offset b hw => (by cases hw), ?_, ?_⟩
  · rw [SmbiosAnswers.pooled, hlocate]
    rfl
  · rw [SmbiosAnswers.status, if_pos hlocate]
    rfl

theorem logSmbiosData_noPool (stringPack : Option (List (List UInt8)))
    (hlocate : s.locateProtocol.isError = false) (hpool : s.allocateZeroPool = false) :
    logSmbiosData s template stringPack dataSmbiosHande =
      ⟨[.allocateZeroPool (recordSize (templateLength template) stringPack)],
        some .outOfResources⟩ := by
  rw [logSmbiosData, if_neg (by rw [hlocate]; exact Bool.false_ne_true)]
  dsimp only
  rw [note_bind, if_pos hpool]
  rfl

/-- without a pool nothing but that is asked for -/
theorem noPool_right (stringPack : Option (List (List UInt8))) (record : List UInt8)
    (hlocate : s.locateProtocol.isError = false) (hpool : s.allocateZeroPool = false)
    (hsize : recordSize (templateLength template) stringPack = record.length) :
    RecordRight s record (logSmbiosData s template stringPack dataSmbiosHande) := by
  rw [logSmbiosData_noPool s template dataSmbiosHande stringPack hlocate hpool, hsize]
  refine ⟨fun n hn => ?_, fun offset b hw => ?_, ?_, ?_⟩
  · injection List.mem_singleton.mp hn
  · cases List.mem_singleton.mp hw
  · rw [SmbiosAnswers.pooled, hpool, Bool.and_false]
    rfl
  · rw [SmbiosAnswers.status, hlocate, hpool]
    rfl

/-- with the protocol the pool is asked for first -/
theorem logSmbiosData_pool (stringPack : Option (List (List UInt8)))
    (hlocate : s.locateProtocol.isError = false) :
    .allocateZeroPool (recordSize (templateLength template) stringPack) ∈
      (logSmbiosData s template stringPack dataSmbiosHande).log := by
  rw [logSmbiosData, if_neg (by rw [hlocate]; exact Bool.false_ne_true)]
  dsimp only
  rw [note_bind]
  exact List.mem_cons_self ..

/-- **a pack that is `NULL`**: the strings are never copied, and no record is added -/
theorem logSmbiosData_null (hlocate : s.locateProtocol.isError = false) :
    addedRecords (logSmbiosData s template none dataSmbiosHande).log = [] := by
  rw [logSmbiosData, if_neg (by rw [hlocate]; exact Bool.false_ne_true)]
  dsimp only
  rw [note_bind]
  dsimp only
  split
  · rfl
  · show addedRecords ((writeAll _).bind _).log = []
    rw [bind_some _ _ () rfl]
    show addedRecords ((writeAll _).log ++ []) = []
    rw [List.append_nil]
    exact addedRecords_writeAll _

/-- **the run with a pack**: the bytes of the record are written one after the other into a pool of
its size, and the record is added -/
theorem logSmbiosData_pack (pack : List (List UInt8)) (h4 : 4 ≤ templateLength template)
    (hlen : templateLength template ≤ template.length)
    (hlocate : s.locateProtocol.isError = false)
    (hfits : (smbiosRecord template pack).length < 2^64)
    (hpool : s.allocateZeroPool = true) :
    logSmbiosData s template (some pack) dataSmbiosHande =
      (note (.allocateZeroPool (smbiosRecord template pack).length)).bind fun _ =>
        (writeAll (copyWrites 0 (template.take (templateLength template) ++
          (pack.flatMap (fun string => string ++ [0]) ++ [0])))).bind fun _ =>
            addRecord s dataSmbiosHande (smbiosRecord template pack) := by
  have hsize : recordSize (templateLength template) (some pack)
      = (smbiosRecord template pack).length := by
    rw [recordSize_mod template (some pack) hlen, Option.getD_some, Nat.mod_eq_of_lt hfits]
  have hwrites : ∀ ws ws' : List (ℕ × UInt8), (writeAll ws).bind (fun _ => writeAll ws')
      = writeAll (ws ++ ws') := by
    intro ws ws'
    rw [bind_some _ _ () rfl]
    unfold writeAll
    rw [List.map_append]
  rw [logSmbiosData, if_neg (by rw [hlocate]; exact Bool.false_ne_true)]
  dsimp only
  rw [hsize, hpool]
  simp only [Bool.true_eq_false, if_false]
  rw [← recordWrites_copy template pack h4 hlen, ← hwrites, bind_assoc]
  rw [recordWrites_copy template pack h4 hlen, record_added]

/-- a pack that is there, and a pool for the record: the record is right -/
theorem pooled_record_right (pack : List (List UInt8)) (h4 : 4 ≤ templateLength template)
    (hlen : templateLength template ≤ template.length)
    (hlocate : s.locateProtocol.isError = false)
    (hfits : (smbiosRecord template pack).length < 2^64)
    (hpool : s.allocateZeroPool = true) :
    RecordRight s (smbiosRecord template pack)
      (logSmbiosData s template (some pack) dataSmbiosHande) := by
  have hbytes := written_length template pack
  have htail := written_log s dataSmbiosHande (smbiosRecord template pack)
    (copyWrites 0 (template.take (templateLength template) ++
      (pack.flatMap (fun string => string ++ [0]) ++ [0]))) (smbiosRecord template pack).length
    fun w hw => by
      have hlt := (mem_copyWrites 0 _ w hw).2
      omega
  rw [logSmbiosData_pack s template dataSmbiosHande pack h4 hlen hlocate hfits hpool, note_bind,
    bind_some _ _ () rfl]
  refine ⟨?_, ?_, ?_, ?_⟩
  · intro n hn
    rcases List.mem_cons.mp hn with hn | hn
    · injection hn
    · exact absurd rfl ((htail _ hn).1 n)
  · intro offset b hw
    rcases List.mem_cons.mp hw with hw | hw
    · cases hw
    · exact ⟨List.mem_cons_self .., (htail _ hw).2 offset b rfl⟩
  · have hpooled : s.pooled = true := by rw [SmbiosAnswers.pooled, hlocate, hpool]; rfl
    rw [if_pos hpooled]
    show addedRecords ((writeAll _).log ++ (addRecord s dataSmbiosHande _).log) = _
    rw [addedRecords, List.filterMap_append]
    show addedRecords _ ++ addedRecords _ = _
    rw [addedRecords_writeAll, addedRecords_add, List.nil_append]
  · show (addRecord s dataSmbiosHande (smbiosRecord template pack)).result = _
    rw [addRecord_result, SmbiosAnswers.status, hlocate, hpool]
    rfl

/-- **a pack that is there**: the record is right, whatever the call is answered -/
theorem packed_record_right (pack : List (List UInt8)) (h4 : 4 ≤ templateLength template)
    (hlen : templateLength template ≤ template.length)
    (hfits : (smbiosRecord template pack).length < 2^64) :
    RecordRight s (smbiosRecord template pack)
      (logSmbiosData s template (some pack) dataSmbiosHande) := by
  cases hlocate : s.locateProtocol.isError with
  | true => exact noProtocol_right s template dataSmbiosHande (some pack) _ hlocate
  | false =>
    cases hpool : s.allocateZeroPool with
    | false =>
      apply noPool_right s template dataSmbiosHande (some pack) _ hlocate hpool
      rw [recordSize_mod template (some pack) hlen, Option.getD_some, Nat.mod_eq_of_lt hfits]
    | true => exact pooled_record_right s template dataSmbiosHande pack h4 hlen hlocate hfits hpool

end

/-- **The SMBIOS record**, for every template of at least four bytes and every pack: once the
protocol is there, the record is right exactly when its length fits a `UINTN` and the pack is not
`NULL`, unless there is no pool for it. -/
theorem smbios_record_iff (s : SmbiosAnswers) (template : List UInt8)
    (stringPack : Option (List (List UInt8))) (dataSmbiosHande : Bool)
    (h4 : 4 ≤ templateLength template) (hlen : templateLength template ≤ template.length) :
    RecordRight s (smbiosRecord template (stringPack.getD []))
        (logSmbiosData s template stringPack dataSmbiosHande) ↔
      s.locateProtocol.isError = true ∨
        (smbiosRecord template (stringPack.getD [])).length < 2^64 ∧
          (stringPack ≠ none ∨ s.allocateZeroPool = false) := by
  cases hlocate : s.locateProtocol.isError with
  | true =>
    exact ⟨fun _ => .inl rfl, fun _ =>
      noProtocol_right s template dataSmbiosHande stringPack _ hlocate⟩
  | false =>
    have hsize := recordSize_mod template stringPack hlen
    have hpool := logSmbiosData_pool s template dataSmbiosHande stringPack hlocate
    constructor
    · intro h
      right
      have hfits := h.size _ hpool
      rw [hsize] at hfits
      refine ⟨by rw [← hfits]; exact Nat.mod_lt _ (Nat.two_pow_pos 64), ?_⟩
      by_contra hbad
      obtain ⟨hnull, hyes⟩ := not_or.mp hbad
      rw [not_not] at hnull
      rw [Bool.not_eq_false] at hyes
      have hadded := h.added
      rw [hnull, logSmbiosData_null s template dataSmbiosHande hlocate, SmbiosAnswers.pooled,
        hlocate, hyes] at hadded
      cases hadded
    · rintro (herr | ⟨hfits, hpack⟩)
      · cases herr
      · cases stringPack with
        | some pack => exact packed_record_right s template dataSmbiosHande pack h4 hlen hfits
        | none =>
          have hno := hpack.resolve_left (fun h => h rfl)
          apply noPool_right s template dataSmbiosHande none _ hlocate hno
          rw [hsize, Nat.mod_eq_of_lt hfits]

/-- everything is there -/
def readyAnswers : SmbiosAnswers := ⟨StatusCode.success, true, (StatusCode.success, 7), false⟩

/-- a structure of four bytes, with the string `OK` behind it -/
theorem okString_record : RecordRight readyAnswers [12, 4, 0, 0, 0x4f, 0x4b, 0, 0]
    (logSmbiosData readyAnswers [12, 4, 0, 0] (some [[0x4f, 0x4b]]) false) :=
  (smbios_record_iff readyAnswers [12, 4, 0, 0] (some [[0x4f, 0x4b]]) false (by decide)
    (by decide)).mpr (Or.inr ⟨by decide, Or.inl (by decide)⟩)

/-- the same structure with the pack `NULL`: the run stops before the record is added -/
theorem nullPack_stops : logSmbiosData readyAnswers [12, 4, 0, 0] none false
      = ⟨[.allocateZeroPool 6, .write 0 12, .write 1 4, .write 2 0, .write 3 0], none⟩ ∧
    ¬ RecordRight readyAnswers [12, 4, 0, 0, 0, 0]
      (logSmbiosData readyAnswers [12, 4, 0, 0] none false) := by
  have hrun : logSmbiosData readyAnswers [12, 4, 0, 0] none false
      = ⟨[.allocateZeroPool 6, .write 0 12, .write 1 4, .write 2 0, .write 3 0], none⟩ := by
    decide +kernel
  refine ⟨hrun, fun h => ?_⟩
  have hadded := h.added
  rw [hrun] at hadded
  cases hadded

end AppleSilicon

import AppleSilicon.Drivers.AcpiLog

/-!
# The failures of the ACPI installation

A loop of `AcpiPlatformEntryPoint` leaves at the first status that is not `EFI_SUCCESS`: the end of
the file, a failed `ReadSection` and a warning of `InstallAcpiTable` look the same to it.

* `accounts_read_failed`, `accounts_installed`, `accounts_left`   what one call asks of those behind
  it;
* `takeSections_accounts`    the sections of a file;
* `errorsReported_iff`       when every failure is reported.
-/

namespace AppleSilicon

open Logged

/-! ## failures -/

/-- the place of a file in the order of the entry point -/
def AcpiStorageFile.number : AcpiStorageFile → ℕ
  | .device => 0
  | .soc => 1
  | .generic => 2
  | .deviceFamily => 3

/-- the call failed; behind the last section of a file `EFI_NOT_FOUND` is no failure -/
def AcpiEvent.Failed (sections : AcpiStorageFile → List (List UInt8)) : AcpiEvent → Prop
  | .read file i status =>
    status.isError = true ∧ ¬ (status = .notFound ∧ i = (sections file).length)
  | .install _ _ _ status => status.isError = true

/-- `InstallAcpiTable` was called with the section, but for the checksum, and gave no error -/
def InstalledIn (log : List AcpiEvent) (file : AcpiStorageFile) (i : ℕ) (sec : List UInt8) : Prop :=
  ∃ call status, .install file i call status ∈ log ∧ tableLength sec = some call.size ∧
    (∀ k, k ≠ checksumOffset → call.buffer[k]? = sec[k]?) ∧ status.isError = false

/-- a run returns an error, and not the status that asks for the image to be unloaded -/
def Refuses (run : Logged AcpiEvent (StatusCode × List InstallCall)) : Prop :=
  ∃ status calls, run.result = some (status, calls) ∧ status.isError = true ∧
    status ≠ .requestUnloadImage

/-- no table of a file behind this one is installed -/
def NoneLater (file : AcpiStorageFile) (log : List AcpiEvent) : Prop :=
  ∀ later i call status, .install later i call status ∈ log → file.number < later.number →
    status.isError = true

/-- a failed call makes the run return an error, and no table of a later file is installed -/
def FailuresReported (sections : AcpiStorageFile → List (List UInt8))
    (run : Logged AcpiEvent (StatusCode × List InstallCall)) : Prop :=
  ∀ before e after, run.log = before ++ e :: after → e.Failed sections →
    Refuses run ∧ NoneLater e.file after

/-- the image asks to be unloaded only where every section of the four files was installed, and
failures are reported -/
structure ErrorsReported (sections : AcpiStorageFile → List (List UInt8))
    (run : Logged AcpiEvent (StatusCode × List InstallCall)) : Prop where
  complete : ∀ calls, run.result = some (.requestUnloadImage, calls) →
    ∀ file i sec, (sections file)[i]? = some sec → InstalledIn run.log file i sec
  reported : FailuresReported sections run

/-! ## when all are reported -/

section
variable (services : AcpiServices) (sections : AcpiStorageFile → List (List UInt8))
  (reads : AcpiStorageFile → ℕ → StatusCode)

/-- the first section of these files that can be read is refused by `InstallAcpiTable` -/
def NextRefused : List AcpiStorageFile → List InstallCall → Prop
  | [], _ => False
  | file :: files, past =>
    match sections file with
    | [] => NextRefused files past
    | sec :: _ =>
      if (reads file 0).isError then NextRefused files past
      else ∃ call, services.callOf sec = some call ∧
        (services.installAcpiTable past call).isError = true

/-- the sections of a file from number `i` on: up to one that is no table or is refused, no read
fails before the last section or with another status than `EFI_NOT_FOUND` behind it, unless the next
table is refused; behind a warning the loop leaves, and `left` says whether it left sections out -/
def SectionsReported (reads : ℕ → StatusCode) (refused : List InstallCall → Prop)
    (rest : Bool → List InstallCall → Prop) (left : Bool) :
    List (List UInt8) → ℕ → List InstallCall → Prop
  | [], i, past => if reads i = .notFound then rest left past else refused past
  | sec :: secs, i, past =>
    if (reads i).isError then refused past
    else
      match services.callOf sec with
      | none => True
      | some call =>
        if (services.installAcpiTable past call).isError then True
        else if services.installAcpiTable past call = .success then
          SectionsReported reads refused rest left secs (i + 1) (past ++ [call])
        else rest (left || !secs.isEmpty) (past ++ [call])

/-- the files, one after the other; at the end no section was left out -/
def FilesReported : List AcpiStorageFile → Bool → List InstallCall → Prop
  | [], left, _ => left = false
  | file :: files, left, past =>
    SectionsReported services (reads file) (NextRefused services sections reads files)
      (FilesReported files) left (sections file) 0 past

end

/-! ### one event -/

/-- a run that installs nothing more and returns an error -/
def Stopped (run : Logged AcpiEvent (StatusCode × List InstallCall)) : Prop :=
  Refuses run ∧ ∀ file i call status, .install file i call status ∈ run.log → status.isError = true

/-- the rest of a run, where the sections `wanted` are to be installed; `left` says that another one
was left out before -/
structure Accounts (sections : AcpiStorageFile → List (List UInt8)) (left : Bool)
    (wanted : AcpiStorageFile → ℕ → Prop)
    (run : Logged AcpiEvent (StatusCode × List InstallCall)) : Prop where
  complete : ∀ calls, run.result = some (.requestUnloadImage, calls) → left = false ∧
    ∀ file i sec, wanted file i → (sections file)[i]? = some sec → InstalledIn run.log file i sec
  reported : FailuresReported sections run

section
variable (sections : AcpiStorageFile → List (List UInt8))
  (run : Logged AcpiEvent (StatusCode × List InstallCall))

theorem Stopped.failuresReported (h : Stopped run) : FailuresReported sections run := by
  intro before e after hlog _
  refine ⟨h.1, ?_⟩
  intro later i call status hmem _
  refine h.2 later i call status ?_
  rw [hlog]
  exact List.mem_append_right _ (List.mem_cons_of_mem _ hmem)

theorem Refuses.not_unload (h : Refuses run) (calls : List InstallCall) :
    run.result ≠ some (.requestUnloadImage, calls) := by
  intro hresult
  obtain ⟨status, calls', hstatus, _, hne⟩ := h
  exact hne (Prod.mk.inj (Option.some.inj (hstatus.symm.trans hresult))).1

theorem Stopped.accounts (h : Stopped run) (left : Bool) (wanted : AcpiStorageFile → ℕ → Prop) :
    Accounts sections left wanted run :=
  ⟨fun calls hresult => absurd hresult (h.1.not_unload run calls), h.failuresReported sections run⟩

theorem accounts_stop (left : Bool) (wanted : AcpiStorageFile → ℕ → Prop) :
    Accounts sections left wanted stop := by
  refine ⟨?_, ?_⟩
  · intro _ hresult
    cases hresult
  · intro before e after hlog
    cases before with
    | nil => cases hlog
    | cons e' before => cases hlog

/-- only sections that are there are wanted -/
theorem Accounts.wanted (left : Bool) (wanted wanted' : AcpiStorageFile → ℕ → Prop)
    (h : Accounts sections left wanted run)
    (hwanted : ∀ f j s, (sections f)[j]? = some s → wanted' f j → wanted f j) :
    Accounts sections left wanted' run := by
  refine ⟨?_, h.reported⟩
  intro calls hresult
  obtain ⟨hleft, hall⟩ := h.complete calls hresult
  exact ⟨hleft, fun f j s hw hs => hall f j s (hwanted f j s hs hw) hs⟩

/-- **an event in front of a run** -/
theorem failuresReported_note (e : AcpiEvent) :
    FailuresReported sections ((note e).bind fun _ => run) ↔
      (e.Failed sections → Refuses run ∧ NoneLater e.file run.log) ∧
        FailuresReported sections run := by
  constructor
  · intro h
    exact ⟨h [] e run.log rfl,
      fun before e' after hlog => h (e :: before) e' after (congrArg (e :: ·) hlog)⟩
  · intro ⟨hown, hrest⟩ before e' after hlog
    have hlog : e :: run.log = before ++ e' :: after := hlog
    cases before with
    | nil =>
      obtain ⟨rfl, rfl⟩ := List.cons.inj hlog
      exact hown
    | cons e₀ before => exact hrest before e' after (List.cons.inj hlog).2

theorem installedIn_note (e : AcpiEvent) (file : AcpiStorageFile) (i : ℕ) (sec : List UInt8)
    (he : ∀ call status, e ≠ .install file i call status) :
    InstalledIn (e :: run.log) file i sec ↔ InstalledIn run.log file i sec := by
  constructor
  · intro ⟨call, status, hmem, hright⟩
    rcases List.mem_cons.mp hmem with hown | hmem
    · exact absurd hown.symm (he call status)
    · exact ⟨call, status, hmem, hright⟩
  · intro ⟨call, status, hmem, hright⟩
    exact ⟨call, status, List.mem_cons_of_mem _ hmem, hright⟩

theorem stopped_read (file : AcpiStorageFile) (i : ℕ) (status : StatusCode) :
    Stopped ((note (.read file i status)).bind fun _ => run) ↔ Stopped run := by
  refine and_congr Iff.rfl ?_
  constructor
  · intro h later j call st hmem
    exact h later j call st (List.mem_cons_of_mem _ hmem)
  · intro h later j call st hmem
    rcases List.mem_cons.mp hmem with hown | hmem
    · cases hown
    · exact h later j call st hmem

variable (left : Bool) (wanted wanted' : AcpiStorageFile → ℕ → Prop) (file : AcpiStorageFile)
  (i : ℕ) (status : StatusCode)

/-- a read that is no failure -/
theorem accounts_read (h : ¬ (AcpiEvent.read file i status).Failed sections) :
    Accounts sections left wanted ((note (.read file i status)).bind fun _ => run) ↔
      Accounts sections left wanted run := by
  have hinstalled : ∀ f j sec,
      InstalledIn (.read file i status :: run.log) f j sec ↔ InstalledIn run.log f j sec :=
    fun f j sec => installedIn_note run _ f j sec fun _ _ he => nomatch he
  constructor
  · intro ⟨hcomplete, hreported⟩
    refine ⟨?_, ((failuresReported_note sections run _).mp hreported).2⟩
    intro calls hresult
    obtain ⟨hleft, hall⟩ := hcomplete calls hresult
    exact ⟨hleft, fun f j sec hw hsec => (hinstalled f j sec).mp (hall f j sec hw hsec)⟩
  · intro ⟨hcomplete, hreported⟩
    refine ⟨?_, (failuresReported_note sections run _).mpr ⟨fun hf => absurd hf h, hreported⟩⟩
    intro calls hresult
    obtain ⟨hleft, hall⟩ := hcomplete calls hresult
    exact ⟨hleft, fun f j sec hw hsec => (hinstalled f j sec).mpr (hall f j sec hw hsec)⟩

/-- **a read that fails**: what comes behind it has to stop -/
theorem accounts_read_failed (h : (AcpiEvent.read file i status).Failed sections)
    (hlater : run.All fun e => file.number < e.file.number) :
    Accounts sections left wanted ((note (.read file i status)).bind fun _ => run) ↔
      Stopped run := by
  constructor
  · intro ⟨_, hreported⟩
    obtain ⟨hown, _⟩ := (failuresReported_note sections run _).mp hreported
    obtain ⟨hrefuses, hnone⟩ := hown h
    exact ⟨hrefuses, fun later j call st hmem => hnone later j call st hmem (hlater _ hmem)⟩
  · intro hstopped
    exact ((stopped_read run file i status).mpr hstopped).accounts sections _ left wanted

/-- a table that is refused -/
theorem accounts_refused (call : InstallCall) (calls : List InstallCall)
    (h : status.isError = true) :
    Accounts sections left wanted
      ((note (.install file i call status)).bind fun _ => Logged.pure (.aborted, calls)) := by
  refine Stopped.accounts sections _ ⟨⟨.aborted, calls, rfl, rfl, by decide⟩, ?_⟩ left wanted
  intro later j call' st hmem
  obtain ⟨_, _, _, rfl⟩ := AcpiEvent.install.inj (List.mem_singleton.mp hmem)
  exact h

/-- **a table that is installed** is one of those wanted -/
theorem accounts_installed (sec : List UInt8) (call : InstallCall)
    (hsec : (sections file)[i]? = some sec) (hlength : tableLength sec = some call.size)
    (hsame : ∀ k, k ≠ checksumOffset → call.buffer[k]? = sec[k]?) (h : status.isError = false)
    (hwanted : ∀ f j s, (sections f)[j]? = some s →
      (wanted f j ↔ f = file ∧ j = i ∨ wanted' f j)) (hother : ¬ wanted' file i) :
    Accounts sections left wanted ((note (.install file i call status)).bind fun _ => run) ↔
      Accounts sections left wanted' run := by
  have hfailed : ¬ (AcpiEvent.install file i call status).Failed sections :=
    Bool.eq_false_iff.mp h
  constructor
  · intro ⟨hcomplete, hreported⟩
    refine ⟨?_, ((failuresReported_note sections run _).mp hreported).2⟩
    intro calls hresult
    obtain ⟨hleft, hall⟩ := hcomplete calls hresult
    refine ⟨hleft, ?_⟩
    intro f j s hw hs
    refine (installedIn_note run _ f j s ?_).mp (hall f j s ((hwanted f j s hs).mpr (.inr hw)) hs)
    intro call' st he
    obtain ⟨rfl, rfl, _, _⟩ := AcpiEvent.install.inj he
    exact hother hw
  · intro ⟨hcomplete, hreported⟩
    refine ⟨?_, (failuresReported_note sections run _).mpr ⟨fun hf => absurd hf hfailed, hreported⟩⟩
    intro calls hresult
    obtain ⟨hleft, hall⟩ := hcomplete calls hresult
    refine ⟨hleft, ?_⟩
    intro f j s hw hs
    rcases (hwanted f j s hs).mp hw with ⟨rfl, rfl⟩ | hw
    · obtain rfl := Option.some.inj (hs.symm.trans hsec)
      exact ⟨call, status, List.mem_cons_self, hlength, hsame, h⟩
    · obtain ⟨call', st, hmem, hright⟩ := hall f j s hw hs
      exact ⟨call', st, List.mem_cons_of_mem _ hmem, hright⟩

/-- a table behind which one is left out -/
theorem accounts_left (call : InstallCall) (sec : List UInt8) (h : status.isError = false)
    (hnext : (sections file)[i + 1]? = some sec) (hwanted : wanted file (i + 1))
    (hnone : run.All fun e => e.file ≠ file) :
    Accounts sections left wanted ((note (.install file i call status)).bind fun _ => run) ↔
      Accounts sections true wanted' run := by
  have hfailed : ¬ (AcpiEvent.install file i call status).Failed sections :=
    Bool.eq_false_iff.mp h
  constructor
  · intro ⟨hcomplete, hreported⟩
    refine ⟨?_, ((failuresReported_note sections run _).mp hreported).2⟩
    intro calls hresult
    obtain ⟨call', st, hmem, _⟩ := (hcomplete calls hresult).2 file (i + 1) sec hwanted hnext
    rcases List.mem_cons.mp hmem with hown | hmem
    · have := (AcpiEvent.install.inj hown).2.1
      omega
    · exact absurd rfl (hnone _ hmem)
  · intro ⟨hcomplete, hreported⟩
    refine ⟨?_, (failuresReported_note sections run _).mpr ⟨fun hf => absurd hf hfailed, hreported⟩⟩
    intro calls hresult
    cases (hcomplete calls hresult).1

end

/-! ### the sections and the files -/

section
variable (services : AcpiServices)

theorem callOf_section (sec : List UInt8) (call : InstallCall)
    (h : services.callOf sec = some call) :
    tableLength sec = some call.size ∧
      ∀ k, k ≠ checksumOffset → call.buffer[k]? = sec[k]? := by
  obtain ⟨tableSize, hlength, h⟩ := Option.bind_eq_some_iff.mp h
  by_cases hassert : services.debugAssertEnabled = true ∧ sec.length < tableSize
  · rw [if_pos hassert] at h
    cases h
  · rw [if_neg hassert] at h
    obtain ⟨table, htable, rfl⟩ := Option.map_eq_some_iff.mp h
    rw [AcpiServices.acpiPlatformChecksum] at htable
    by_cases hbounds : checksumOffset < sec.length ∧ tableSize ≤ sec.length
    · rw [if_pos hbounds] at htable
      obtain rfl := Option.some.inj htable
      refine ⟨hlength, ?_⟩
      intro k hk
      rw [List.getElem?_set_ne hk.symm, List.getElem?_set_ne hk.symm]
    · rw [if_neg hbounds] at htable
      cases htable

/-- a section, and what comes behind it -/
theorem takeSections_bind (file : AcpiStorageFile) (reads : ℕ → StatusCode)
    (rest : List InstallCall → Logged AcpiEvent (StatusCode × List InstallCall)) (sec : List UInt8)
    (secs : List (List UInt8)) (i : ℕ) (past : List InstallCall) :
    (services.takeSections file reads (sec :: secs) i past).bind (filesLeft rest) =
      (note (.read file i (reads i))).bind fun _ =>
        if (reads i).isError then rest past
        else (ofOption (services.callOf sec)).bind fun call =>
          let status := services.installAcpiTable past call
          (note (.install file i call status)).bind fun _ =>
            if status.isError then Logged.pure (.aborted, past ++ [call])
            else if status = .success then
              (services.takeSections file reads secs (i + 1) (past ++ [call])).bind (filesLeft rest)
            else rest (past ++ [call]) := by
  rw [AcpiServices.takeSections, bind_assoc]
  congr 1
  funext _
  by_cases hread : (reads i).isError = true
  · rw [if_pos hread, if_pos hread, pure_bind]
    rfl
  · rw [if_neg hread, if_neg hread, bind_assoc]
    congr 1
    funext call
    dsimp only
    rw [bind_assoc]
    congr 1
    funext _
    by_cases herror : (services.installAcpiTable past call).isError = true
    · rw [if_pos herror, if_pos herror]
      rfl
    · rw [if_neg herror, if_neg herror]
      by_cases hsuccess : services.installAcpiTable past call = .success
      · rw [if_pos hsuccess, if_pos hsuccess]
      · rw [if_neg hsuccess, if_neg hsuccess]
        rfl

variable (sections : AcpiStorageFile → List (List UInt8))
  (reads : AcpiStorageFile → ℕ → StatusCode)

theorem takeFiles_nil (file : AcpiStorageFile) (files : List AcpiStorageFile)
    (past : List InstallCall) (h : sections file = []) :
    services.takeFiles sections reads (file :: files) past =
      (note (.read file 0 (reads file 0))).bind fun _ =>
        services.takeFiles sections reads files past := by
  rw [AcpiServices.takeFiles, h]
  rfl

theorem takeFiles_cons (file : AcpiStorageFile) (files : List AcpiStorageFile)
    (past : List InstallCall) :
    services.takeFiles sections reads (file :: files) past =
      (services.takeSections file (reads file) (sections file) 0 past).bind
        (filesLeft (services.takeFiles sections reads files)) := by
  rw [AcpiServices.takeFiles]
  rfl

/-- the calls for a file are noted with the file -/
theorem takeSections_file (file : AcpiStorageFile) (reads : ℕ → StatusCode)
    (secs : List (List UInt8)) (i : ℕ) (past : List InstallCall) :
    (services.takeSections file reads secs i past).All fun e => e.file = file := by
  induction secs generalizing i past with
  | nil => exact (note_bind_all _ _ _).mpr ⟨rfl, all_silent _ _ rfl⟩
  | cons sec secs ih =>
    rw [AcpiServices.takeSections, note_bind_all]
    refine ⟨rfl, ?_⟩
    by_cases hread : (reads i).isError = true
    · rw [if_pos hread]
      exact all_silent _ _ rfl
    · rw [if_neg hread, ofOption_bind_all]
      intro call _
      dsimp only
      rw [note_bind_all]
      refine ⟨rfl, ?_⟩
      by_cases herror : (services.installAcpiTable past call).isError = true
      · rw [if_pos herror]
        exact all_silent _ _ rfl
      · rw [if_neg herror]
        by_cases hsuccess : services.installAcpiTable past call = .success
        · rw [if_pos hsuccess]
          exact ih (i + 1) (past ++ [call])
        · rw [if_neg hsuccess]
          exact all_silent _ _ rfl

theorem takeFiles_file (files : List AcpiStorageFile) (past : List InstallCall) :
    (services.takeFiles sections reads files past).All fun e => e.file ∈ files := by
  induction files generalizing past with
  | nil => exact all_silent _ _ rfl
  | cons file files ih =>
    rw [takeFiles_cons, bind_all]
    refine ⟨?_, ?_⟩
    · intro e he
      rw [takeSections_file services file (reads file) _ 0 past e he]
      exact List.mem_cons_self
    · intro r _
      rw [filesLeft]
      cases r.1 with
      | none => exact fun e he => List.mem_cons_of_mem _ (ih r.2 e he)
      | some status => exact all_silent _ _ rfl

/-- **what stops**: the files whose next table is refused -/
theorem stopped_iff (files : List AcpiStorageFile) (past : List InstallCall) :
    Stopped (services.takeFiles sections reads files past) ↔
      NextRefused services sections reads files past := by
  induction files generalizing past with
  | nil =>
    refine ⟨?_, False.elim⟩
    intro ⟨hrefuses, _⟩
    exact hrefuses.not_unload _ past rfl
  | cons file files ih =>
    rw [NextRefused]
    cases hsecs : sections file with
    | nil =>
      rw [takeFiles_nil services sections reads file files past hsecs, stopped_read]
      exact ih past
    | cons sec secs =>
      rw [takeFiles_cons, hsecs, takeSections_bind, stopped_read]
      dsimp only
      by_cases hread : (reads file 0).isError = true
      · rw [if_pos hread, if_pos hread]
        exact ih past
      · rw [if_neg hread, if_neg hread]
        cases hcall : services.callOf sec with
        | none =>
          refine ⟨?_, fun ⟨call, h, _⟩ => nomatch h⟩
          intro ⟨⟨status, calls, hresult, _⟩, _⟩
          cases hresult
        | some call =>
          rw [ofOption_bind _ _ call rfl]
          by_cases herror : (services.installAcpiTable past call).isError = true
          · rw [if_pos herror]
            refine ⟨fun _ => ⟨call, rfl, herror⟩, fun _ => ?_⟩
            refine ⟨⟨.aborted, past ++ [call], rfl, rfl, by decide⟩, ?_⟩
            intro later i call' status hmem
            obtain ⟨_, _, _, rfl⟩ := AcpiEvent.install.inj (List.mem_singleton.mp hmem)
            exact herror
          · refine ⟨?_, ?_⟩
            · intro ⟨_, hnone⟩
              exact absurd (hnone file 0 call _ List.mem_cons_self) herror
            · intro ⟨call', hcall', herror'⟩
              obtain rfl := Option.some.inj hcall'
              exact absurd herror' herror

/-- the sections from number `i` of a file on, and those of the files behind it -/
def WantedFrom (file : AcpiStorageFile) (files : List AcpiStorageFile) (i : ℕ)
    (f : AcpiStorageFile) (j : ℕ) : Prop :=
  f = file ∧ i ≤ j ∨ f ∈ files

theorem wantedFrom_step (file f : AcpiStorageFile) (files : List AcpiStorageFile) (i j : ℕ) :
    WantedFrom file files i f j ↔ f = file ∧ j = i ∨ WantedFrom file files (i + 1) f j := by
  constructor
  · rintro (⟨hf, hj⟩ | hf)
    · by_cases hij : j = i
      · exact .inl ⟨hf, hij⟩
      · exact .inr (.inl ⟨hf, by omega⟩)
    · exact .inr (.inr hf)
  · rintro (⟨hf, rfl⟩ | ⟨hf, hj⟩ | hf)
    · exact .inl ⟨hf, le_refl _⟩
    · exact .inl ⟨hf, by omega⟩
    · exact .inr hf

/-- behind the last section of a file only those of the files behind it are wanted -/
theorem wantedFrom_end (file f : AcpiStorageFile) (files : List AcpiStorageFile) (i j : ℕ)
    (sec : List UInt8) (hi : (sections file).length ≤ i) (hsec : (sections f)[j]? = some sec) :
    WantedFrom file files i f j ↔ f ∈ files := by
  refine ⟨?_, .inr⟩
  rintro (⟨rfl, hj⟩ | hf)
  · have := (List.getElem?_eq_some_iff.mp hsec).1
    omega
  · exact hf

section
variable (file : AcpiStorageFile) (files : List AcpiStorageFile)
  (hlater : ∀ other ∈ files, file.number < other.number)
include hlater

theorem takeFiles_later (past : List InstallCall) :
    (services.takeFiles sections reads files past).All fun e => file.number < e.file.number :=
  fun e he => hlater _ (takeFiles_file services sections reads files past e he)

/-- a failed read of a file, and the files behind it -/
theorem read_failed_iff (i : ℕ) (status : StatusCode) (past : List InstallCall) (left : Bool)
    (wanted : AcpiStorageFile → ℕ → Prop)
    (h : (AcpiEvent.read file i status).Failed sections) :
    Accounts sections left wanted ((note (.read file i status)).bind fun _ =>
        services.takeFiles sections reads files past) ↔
      NextRefused services sections reads files past := by
  rw [accounts_read_failed sections _ left wanted file i status h
    (takeFiles_later services sections reads file files hlater past)]
  exact stopped_iff services sections reads files past

variable (rest : Bool → List InstallCall → Prop)
  (hrest : ∀ left past, Accounts sections left (fun f _ => f ∈ files)
    (services.takeFiles sections reads files past) ↔ rest left past)
include hrest

/-- a table that is installed with a warning -/
theorem warning_iff (secs : List (List UInt8)) (i : ℕ) (past : List InstallCall) (left : Bool)
    (sec : List UInt8) (call : InstallCall) (status : StatusCode)
    (hsec : (sections file)[i]? = some sec) (htail : (sections file).drop (i + 1) = secs)
    (hcall : services.callOf sec = some call) (h : status.isError = false) :
    Accounts sections left (WantedFrom file files i)
        ((note (.install file i call status)).bind fun _ =>
          services.takeFiles sections reads files past) ↔
      rest (left || !secs.isEmpty) past := by
  have hother : file ∉ files := fun hf => absurd (hlater file hf) (lt_irrefl _)
  obtain ⟨hlength, hsame⟩ := callOf_section services sec call hcall
  rw [← hrest]
  cases secs with
  | nil =>
    have hlast : (sections file).length ≤ i + 1 := List.drop_eq_nil_iff.mp htail
    rw [List.isEmpty_nil, Bool.not_true, Bool.or_false]
    refine accounts_installed sections _ left _ _ file i _ sec call hsec hlength hsame h ?_ hother
    intro f j s hs
    rw [wantedFrom_step, wantedFrom_end sections file f files (i + 1) j s hlast hs]
  | cons next secs =>
    have hnext : (sections file)[i + 1]? = some next := by
      rw [← List.head?_drop, htail, List.head?_cons]
    rw [List.isEmpty_cons, Bool.not_false, Bool.or_true]
    refine accounts_left sections _ left _ _ file i _ call next h hnext (.inl ⟨rfl, by omega⟩) ?_
    intro e he hfile
    exact hother (hfile ▸ takeFiles_file services sections reads files past e he)

variable (hends : ∀ i, (reads file i).isError = false → i < (sections file).length)
include hends

/-- the end of a file -/
theorem takeSections_end (i : ℕ) (past : List InstallCall) (left : Bool)
    (hi : i = (sections file).length) :
    Accounts sections left (WantedFrom file files i)
        ((services.takeSections file (reads file) [] i past).bind
          (filesLeft (services.takeFiles sections reads files))) ↔
      SectionsReported services (reads file) (NextRefused services sections reads files) rest left
        [] i past := by
  show Accounts sections left _ ((note (.read file i (reads file i))).bind fun _ =>
    services.takeFiles sections reads files past) ↔ _
  rw [SectionsReported]
  by_cases hend : reads file i = .notFound
  · rw [if_pos hend, accounts_read sections _ left _ file i _ fun h => h.2 ⟨hend, hi⟩, ← hrest]
    have hwanted := fun f j sec => wantedFrom_end sections file f files i j sec hi.ge
    constructor
    · intro h
      exact h.wanted sections _ left _ _ fun f j s hs => (hwanted f j s hs).mpr
    · intro h
      exact h.wanted sections _ left _ _ fun f j s hs => (hwanted f j s hs).mp
  · have herror : (reads file i).isError = true := by
      by_contra h
      exact absurd (hends i (Bool.eq_false_iff.mpr h)) (by omega)
    rw [if_neg hend]
    exact read_failed_iff services sections reads file files hlater i _ past left _
      ⟨herror, fun h => hend h.1⟩

/-- **the sections of a file**, and what comes behind them -/
theorem takeSections_accounts (secs : List (List UInt8)) (i : ℕ) (past : List InstallCall)
    (left : Bool) (hi : i ≤ (sections file).length) (hsecs : (sections file).drop i = secs) :
    Accounts sections left (WantedFrom file files i)
        ((services.takeSections file (reads file) secs i past).bind
          (filesLeft (services.takeFiles sections reads files))) ↔
      SectionsReported services (reads file) (NextRefused services sections reads files) rest left
        secs i past := by
  induction secs generalizing i past with
  | nil =>
    exact takeSections_end services sections reads file files hlater rest hrest hends i past left
      (le_antisymm hi (List.drop_eq_nil_iff.mp hsecs))
  | cons sec secs ih =>
    have hsec : (sections file)[i]? = some sec := by
      rw [← List.head?_drop, hsecs, List.head?_cons]
    have hlt := (List.getElem?_eq_some_iff.mp hsec).1
    have htail : (sections file).drop (i + 1) = secs := by
      rw [← List.tail_drop, hsecs, List.tail_cons]
    rw [takeSections_bind, SectionsReported]
    by_cases hread : (reads file i).isError = true
    · rw [if_pos hread, if_pos hread]
      exact read_failed_iff services sections reads file files hlater i _ past left _
        ⟨hread, fun h => absurd h.2 hlt.ne⟩
    · rw [if_neg hread, if_neg hread, accounts_read sections _ left _ file i _ fun h => hread h.1]
      cases hcall : services.callOf sec with
      | none => exact iff_true_intro (accounts_stop sections left _)
      | some call =>
        rw [ofOption_bind _ _ call rfl]
        dsimp only
        by_cases herror : (services.installAcpiTable past call).isError = true
        · rw [if_pos herror, if_pos herror]
          exact iff_true_intro (accounts_refused sections left _ file i _ call _ herror)
        · have hgood := Bool.eq_false_iff.mpr herror
          rw [if_neg herror, if_neg herror]
          by_cases hsuccess : services.installAcpiTable past call = .success
          · obtain ⟨hlength, hsame⟩ := callOf_section services sec call hcall
            rw [if_pos hsuccess, if_pos hsuccess, accounts_installed sections _ left _
              (WantedFrom file files (i + 1)) file i _ sec call hsec hlength hsame hgood]
            · exact ih (i + 1) (past ++ [call]) hlt htail
            · exact fun f j _ _ => wantedFrom_step file f files i j
            · rintro (⟨_, hj⟩ | hf)
              · omega
              · exact absurd (hlater file hf) (lt_irrefl _)
          · rw [if_neg hsuccess, if_neg hsuccess]
            exact warning_iff services sections reads file files hlater rest hrest secs i _ left sec
              call _ hsec htail hcall hgood

end

/-- **the files**, one after the other -/
theorem takeFiles_accounts
    (hends : ∀ file i, (reads file i).isError = false → i < (sections file).length)
    (files : List AcpiStorageFile) (hfiles : files.Pairwise fun f g => f.number < g.number)
    (past : List InstallCall) (left : Bool) :
    Accounts sections left (fun f _ => f ∈ files)
        (services.takeFiles sections reads files past) ↔
      FilesReported services sections reads files left past := by
  induction files generalizing past left with
  | nil =>
    rw [FilesReported]
    constructor
    · intro h
      exact (h.complete past rfl).1
    · intro hleft
      refine ⟨fun calls _ => ⟨hleft, fun _ _ _ hw => nomatch hw⟩, ?_⟩
      intro before e after hlog
      cases before with
      | nil => cases hlog
      | cons e' before => cases hlog
  | cons file files ih =>
    obtain ⟨hlater, hrest⟩ := List.pairwise_cons.mp hfiles
    have hsections := takeSections_accounts services sections reads file files hlater
      (FilesReported services sections reads files) (fun left past => ih hrest past left)
      (hends file) (sections file) 0 past left (Nat.zero_le _) List.drop_zero
    rw [takeFiles_cons, FilesReported, ← hsections]
    have hwanted : ∀ f j, f ∈ file :: files ↔ WantedFrom file files 0 f j := by
      intro f j
      rw [List.mem_cons, WantedFrom]
      exact or_congr ⟨fun h => ⟨h, Nat.zero_le j⟩, fun h => h.1⟩ Iff.rfl
    constructor
    · intro h
      exact h.wanted sections _ left _ _ fun f j _ _ => (hwanted f j).mpr
    · intro h
      exact h.wanted sections _ left _ _ fun f j _ _ => (hwanted f j).mp

end

/-- where nothing fails, nothing is to be reported -/
theorem filesReported_clean (services : AcpiServices)
    (sections : AcpiStorageFile → List (List UInt8)) (reads : AcpiStorageFile → ℕ → StatusCode)
    (hinstall : ∀ past call, services.installAcpiTable past call = .success)
    (hreads : ∀ file i, i < (sections file).length → (reads file i).isError = false)
    (hend : ∀ file, reads file (sections file).length = .notFound)
    (files : List AcpiStorageFile) (past : List InstallCall) :
    FilesReported services sections reads files false past := by
  induction files generalizing past with
  | nil => rfl
  | cons file files ih =>
    rw [FilesReported]
    have hsections : ∀ secs i past, (sections file).drop i = secs → i ≤ (sections file).length →
        SectionsReported services (reads file) (NextRefused services sections reads files)
          (FilesReported services sections reads files) false secs i past := by
      intro secs
      induction secs with
      | nil =>
        intro i past hsecs hi
        obtain rfl := le_antisymm hi (List.drop_eq_nil_iff.mp hsecs)
        rw [SectionsReported, if_pos (hend file)]
        exact ih past
      | cons sec secs ihs =>
        intro i past hsecs _
        have hi : i < (sections file).length := by
          by_contra h
          rw [List.drop_eq_nil_iff.mpr (by omega)] at hsecs
          cases hsecs
        rw [SectionsReported, if_neg (Bool.eq_false_iff.mp (hreads file i hi))]
        cases services.callOf sec with
        | none => exact trivial
        | some call =>
          dsimp only
          rw [hinstall, if_neg (by decide), if_pos rfl]
          refine ihs (i + 1) _ ?_ hi
          rw [← List.tail_drop, hsecs, List.tail_cons]
    exact hsections (sections file) 0 past List.drop_zero (Nat.zero_le _)

/-- **all failures are reported** exactly when, going through the sections up to one that is no
table or is refused, no read fails but behind the last section of a file, unless the next table is
refused, and no section is left out behind a warning unless the run does not get to its end -/
theorem errorsReported_iff (services : AcpiServices)
    (sections : AcpiStorageFile → List (List UInt8)) (reads : AcpiStorageFile → ℕ → StatusCode)
    (hprotocol : services.locateProtocol.isError = false)
    (hanswered : ∀ file, services.Answered file (sections file) (reads file)) (fuel : ℕ)
    (hfuel : ∀ file, (sections file).length + 1 < fuel) :
    ErrorsReported sections (services.acpiPlatformEntryPointLog fuel) ↔
      FilesReported services sections reads [.device, .soc, .generic, .deviceFamily] false [] := by
  have hends : ∀ file i, (reads file i).isError = false → i < (sections file).length := by
    intro file i h
    obtain ⟨_, fwVol, _, _, _, _, hanswers⟩ := hanswered file
    obtain ⟨sec, hsec, _⟩ := (hanswers i 0).2 h
    exact (List.getElem?_eq_some_iff.mp hsec).1
  rw [entryPoint_takeFiles services sections reads hanswered fuel hfuel hprotocol,
    ← takeFiles_accounts services sections reads hends _ (by decide)]
  have hall : ∀ file, file ∈ [AcpiStorageFile.device, .soc, .generic, .deviceFamily] := by
    intro file
    cases file <;> decide
  constructor
  · intro h
    exact ⟨fun calls hresult => ⟨rfl, fun f j s _ => h.complete calls hresult f j s⟩, h.reported⟩
  · intro h
    exact ⟨fun calls hresult f j s => (h.complete calls hresult).2 f j s (hall f), h.reported⟩

/-- a volume that has all sections, and gives them where the status is no error -/
def exampleReadVolume (reads : AcpiStorageFile → ℕ → StatusCode) : FirmwareVolume where
  readFile _ := .success
  readSection file i buffer size :=
    if (reads file i).isError then ⟨reads file i, buffer, size⟩
    else ⟨reads file i, (exampleSections file)[i]?, (((exampleSections file)[i]?).getD []).length⟩

def exampleReadAcpi (reads : AcpiStorageFile → ℕ → StatusCode) : AcpiServices :=
  { exampleAcpi with locateHandleBuffer := .ok [exampleReadVolume reads] }

/-- every read succeeds, and `EFI_NOT_FOUND` is the end of each file -/
def exampleReads (file : AcpiStorageFile) (i : ℕ) : StatusCode :=
  if i < (exampleSections file).length then .success else .notFound

/-- all sections are there, and installed -/
theorem exampleReads_reported :
    ErrorsReported exampleSections
      ((exampleReadAcpi exampleReads).acpiPlatformEntryPointLog 4) := by
  refine (errorsReported_iff (exampleReadAcpi exampleReads) exampleSections exampleReads rfl ?_ 4
    ?_).mpr ?_
  · intro file
    refine ⟨[], exampleReadVolume exampleReads, [], rfl, ?_, rfl, ?_⟩
    · intro other hother
      cases hother
    · intro i size
      rw [exampleReadVolume]
      dsimp only
      by_cases hi : i < (exampleSections file).length
      · have hread : exampleReads file i = .success := if_pos hi
        rw [hread, if_neg (by decide), List.getElem?_eq_getElem hi]
        exact ⟨rfl, fun _ => ⟨_, rfl, rfl, rfl⟩⟩
      · have hread : exampleReads file i = .notFound := if_neg hi
        rw [hread]
        exact ⟨rfl, fun h => nomatch h⟩
  · intro file
    cases file <;> decide
  · exact filesReported_clean (exampleReadAcpi exampleReads) exampleSections exampleReads
      (fun _ _ => rfl) (fun file i hi => by rw [exampleReads, if_pos hi]; rfl)
      (fun file => if_neg (lt_irrefl _)) _ []

/-- the second section of the generic tables cannot be read -/
def exampleBrokenReads (file : AcpiStorageFile) (i : ℕ) : StatusCode :=
  if file = .generic ∧ i = 1 then .deviceError else exampleReads file i

/-- it is not installed, the table of the next file is, and the status is that of a run without
failures -/
theorem readError_unreported :
    ((exampleReadAcpi exampleBrokenReads).acpiPlatformEntryPoint 4).map Prod.fst
      = some .requestUnloadImage ∧
    ¬ ErrorsReported exampleSections
      ((exampleReadAcpi exampleBrokenReads).acpiPlatformEntryPointLog 4) := by
  have hstatus : ((exampleReadAcpi exampleBrokenReads).acpiPlatformEntryPoint 4).map Prod.fst
      = some .requestUnloadImage := by decide +kernel
  refine ⟨hstatus, ?_⟩
  intro h
  have hread : AcpiEvent.read .generic 1 .deviceError ∈
      ((exampleReadAcpi exampleBrokenReads).acpiPlatformEntryPointLog 4).log := by decide +kernel
  obtain ⟨before, after, hlog⟩ := List.append_of_mem hread
  obtain ⟨⟨status, calls, hresult, _, hne⟩, _⟩ :=
    h.reported before _ after hlog ⟨rfl, fun hend => nomatch hend.1⟩
  rw [AcpiServices.acpiPlatformEntryPointLog_result] at hresult
  rw [hresult] at hstatus
  exact hne (Option.some.inj hstatus)

end AppleSilicon

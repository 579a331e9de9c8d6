import AppleSilicon.Lib.Logged
import AppleSilicon.Lib.Status

/-!
# `BuildPathFromShellArg`: from a shell path to a device path

The part of the argument from the first backslash on is tried on every filesystem handle.  A path
is accepted when the firmware finds the handle it was made from; whether the volume has the file is
never asked.  The run keeps the log of what is allocated, freed and printed.

* `tryVolumes_frees`      the handle buffer and the rejected paths are freed, each once;
* `tryVolumes_first`      the first volume a path can be made for is taken;
* `buildPath_right_iff`   so the right one is, exactly when that volume has the file.
-/

namespace AppleSilicon

open Logged

/-- the services that are used; `none` is `NULL` -/
structure LaunchServices (H D : Type*) where
  locateHandleBuffer : Except StatusCode (List H)
  fileDevicePath : H → List UInt16 → Option D
  locateDevicePath : D → Except StatusCode H

inductive LaunchMessage where
  /-- `The path must contain '\', for example FS2:\EFI\BOOT\BOOTAA64.EFI` -/
  | mustContainBackslash
  /-- `No filesystem is available: %r` -/
  | noFilesystem (status : StatusCode)
  /-- `No volume contains %s` -/
  | noVolumeContains (fileName : List UInt16)
deriving DecidableEq

/-- a path is named by the index of its volume -/
inductive LaunchEvent where
  | print (m : LaunchMessage)
  | pathMade (index : ℕ)
  | freePath (index : ℕ)
  | freeHandles
deriving DecidableEq

/-- the character `\` -/
def backslash : UInt16 := 0x5c

section
variable {H D : Type*} [DecidableEq H] (s : LaunchServices H D)

/-- the loop over the handles from `index` on, and what follows it -/
def tryVolumes (fileName : List UInt16) : List H → ℕ → Logged LaunchEvent (Option D)
  | [], _ =>
    (note .freeHandles).bind fun _ =>
      (note (.print (.noVolumeContains fileName))).bind fun _ => Logged.pure none
  | handle :: handles, index =>
    match s.fileDevicePath handle fileName with
    | none => tryVolumes fileName handles (index + 1)
    | some devicePath =>
      (note (.pathMade index)).bind fun _ =>
        match s.locateDevicePath devicePath with
        | .ok testHandle =>
          if testHandle = handle then
            (note .freeHandles).bind fun _ => Logged.pure (some devicePath)
          else (note (.freePath index)).bind fun _ => tryVolumes fileName handles (index + 1)
        | .error _ => (note (.freePath index)).bind fun _ => tryVolumes fileName handles (index + 1)

/-- `BuildPathFromShellArg(Arg)`, for the characters of `Arg` -/
def buildPathFromShellArg (arg : List UInt16) : Logged LaunchEvent (Option D) :=
  let fileName := arg.dropWhile (· ≠ backslash)
  if fileName = [] then
    (note (.print .mustContainBackslash)).bind fun _ => Logged.pure none
  else
    match s.locateHandleBuffer with
    | .error status => (note (.print (.noFilesystem status))).bind fun _ => Logged.pure none
    | .ok handles => tryVolumes s fileName handles 0

/-! ## what is freed -/

/-- the handle buffer is freed once, if there is one, and so is each path but the one that is
returned -/
structure FreesRight (buffer : Bool) (log : List LaunchEvent) (ret : Option D) : Prop where
  handles : log.count .freeHandles = if buffer then 1 else 0
  paths : ∃ kept : Option ℕ, (kept.isSome ↔ ret.isSome) ∧
    ∀ i, log.count (.pathMade i) ≤ 1 ∧ (kept = some i → log.count (.pathMade i) = 1) ∧
      log.count (.freePath i) = if kept = some i then 0 else log.count (.pathMade i)

/-- the paths a log speaks of are those from `index` on -/
def PathsFrom (index : ℕ) (log : List LaunchEvent) : Prop :=
  ∀ i, i < index → log.count (.pathMade i) = 0 ∧ log.count (.freePath i) = 0

/-- a log that speaks of no path, and `NULL` -/
theorem frees_noPath (buffer : Bool) (log : List LaunchEvent)
    (hhandles : log.count .freeHandles = if buffer then 1 else 0)
    (hpaths : ∀ i, log.count (.pathMade i) = 0 ∧ log.count (.freePath i) = 0) :
    FreesRight buffer log (none : Option D) := by
  refine ⟨hhandles, none, Iff.rfl, fun i => ?_⟩
  rw [(hpaths i).1, (hpaths i).2]
  refine ⟨Nat.zero_le 1, fun h => ?_, ?_⟩
  · cases h
  · rw [if_neg (by simp)]

/-- a path that was made and is returned -/
theorem frees_accepted (index : ℕ) (devicePath : D) :
    FreesRight true [.pathMade index, .freeHandles] (some devicePath) ∧
      PathsFrom index [.pathMade index, .freeHandles] := by
  refine ⟨⟨?_, some index, by simp, fun i => ?_⟩, fun i hi => ?_⟩
  · rw [List.count_cons_of_ne (by simp), List.count_cons_self]
    rfl
  · by_cases hi : index = i
    · subst hi
      simp
    · simp [hi]
  · have hne : index ≠ i := by omega
    simp [hne]

/-- a path that was made and rejected -/
theorem frees_rejected (log : List LaunchEvent) (ret : Option D) (index : ℕ)
    (h : FreesRight true log ret) (hfrom : PathsFrom (index + 1) log) :
    FreesRight true (.pathMade index :: .freePath index :: log) ret ∧
      PathsFrom index (.pathMade index :: .freePath index :: log) := by
  obtain ⟨hhandles, kept, hkept, hpaths⟩ := h
  obtain ⟨hmade, hfreed⟩ := hfrom index (Nat.lt_succ_self index)
  have hother : ∀ i, i ≠ index →
      (LaunchEvent.pathMade index :: .freePath index :: log).count (.pathMade i)
        = log.count (.pathMade i) ∧
      (LaunchEvent.pathMade index :: .freePath index :: log).count (.freePath i)
        = log.count (.freePath i) := by
    intro i hi
    constructor
    · rw [List.count_cons_of_ne (by simpa using Ne.symm hi), List.count_cons_of_ne (by simp)]
    · rw [List.count_cons_of_ne (by simp), List.count_cons_of_ne (by simpa using Ne.symm hi)]
  have hself : (LaunchEvent.pathMade index :: .freePath index :: log).count (.pathMade index) = 1 ∧
      (LaunchEvent.pathMade index :: .freePath index :: log).count (.freePath index) = 1 := by
    constructor
    · rw [List.count_cons_self, List.count_cons_of_ne (by simp), hmade]
    · rw [List.count_cons_of_ne (by simp), List.count_cons_self, hfreed]
  refine ⟨⟨?_, kept, hkept, fun i => ?_⟩, fun i hi => ?_⟩
  · rw [List.count_cons_of_ne (by simp), List.count_cons_of_ne (by simp)]
    exact hhandles
  · by_cases hi : i = index
    · rw [hi, hself.1, hself.2]
      have hnot : kept ≠ some index := fun h => by
        have := (hpaths index).2.1 h
        omega
      exact ⟨le_refl 1, fun _ => rfl, by rw [if_neg hnot]⟩
    · rw [(hother i hi).1, (hother i hi).2]
      exact hpaths i
  · rw [(hother i (by omega)).1, (hother i (by omega)).2]
    exact hfrom i (by omega)

/-- **what is allocated is freed**, whatever the services answer -/
theorem tryVolumes_frees (fileName : List UInt16) (handles : List H) (index : ℕ) :
    ∃ ret, (tryVolumes s fileName handles index).result = some ret ∧
      FreesRight true (tryVolumes s fileName handles index).log ret ∧
      PathsFrom index (tryVolumes s fileName handles index).log := by
  induction handles generalizing index with
  | nil =>
    exact ⟨none, rfl, frees_noPath true _ rfl fun _ => ⟨rfl, rfl⟩, fun _ _ => ⟨rfl, rfl⟩⟩
  | cons handle handles ih =>
    rw [tryVolumes]
    cases hp : s.fileDevicePath handle fileName with
    | none =>
      obtain ⟨ret, h1, h2, h3⟩ := ih (index + 1)
      exact ⟨ret, h1, h2, fun i hi => h3 i (by omega)⟩
    | some devicePath =>
      have hrejected : ∃ ret,
          ((note (.pathMade index)).bind fun _ => (note (.freePath index)).bind fun _ =>
            tryVolumes s fileName handles (index + 1)).result = some ret ∧
          FreesRight true ((note (.pathMade index)).bind fun _ =>
            (note (.freePath index)).bind fun _ =>
            tryVolumes s fileName handles (index + 1)).log ret ∧
          PathsFrom index ((note (.pathMade index)).bind fun _ => (note (.freePath index)).bind
            fun _ => tryVolumes s fileName handles (index + 1)).log := by
        obtain ⟨ret, h1, h2, h3⟩ := ih (index + 1)
        exact ⟨ret, h1, frees_rejected _ ret index h2 h3⟩
      dsimp only
      cases s.locateDevicePath devicePath with
      | error status => exact hrejected
      | ok testHandle =>
        dsimp only
        by_cases ht : testHandle = handle
        · rw [if_pos ht]
          exact ⟨some devicePath, rfl, frees_accepted index devicePath⟩
        · rw [if_neg ht]
          exact hrejected

end

/-! ## the volume -/

section
variable {H D : Type*} (s : LaunchServices H D)

/-- the first volume a path can be made for -/
def firstVolume (fileName : List UInt16) (handles : List H) : Option H :=
  handles.find? fun handle => (s.fileDevicePath handle fileName).isSome

/-- a path is found on the volume it was made for -/
def Resolves (fileName : List UInt16) (handles : List H) : Prop :=
  ∀ handle ∈ handles, ∀ devicePath, s.fileDevicePath handle fileName = some devicePath →
    s.locateDevicePath devicePath = .ok handle

/-- a path on a volume with the file if there is such a volume, `NULL` otherwise -/
structure FindsFile (hasFile : H → Bool) (fileName : List UInt16) (handles : List H)
    (ret : Option D) : Prop where
  found : (∃ handle ∈ handles, hasFile handle = true) → ∃ handle ∈ handles, hasFile handle = true ∧
    ∃ devicePath, s.fileDevicePath handle fileName = some devicePath ∧ ret = some devicePath
  missing : (∀ handle ∈ handles, hasFile handle = false) → ret = none

/-- the first volume a path can be made for has the file, or no volume has it and no path can be
made -/
def FirstHasFile (hasFile : H → Bool) (fileName : List UInt16) (handles : List H) : Prop :=
  match firstVolume s fileName handles with
  | some handle => hasFile handle = true
  | none => ∀ handle ∈ handles, hasFile handle = false

theorem firstVolume_finds_iff (hasFile : H → Bool) (fileName : List UInt16) (handles : List H)
    (hres : Resolves s fileName handles) :
    FindsFile s hasFile fileName handles
        ((firstVolume s fileName handles).bind fun handle => s.fileDevicePath handle fileName) ↔
      FirstHasFile s hasFile fileName handles := by
  rw [FirstHasFile]
  cases hf : firstVolume s fileName handles with
  | none =>
    constructor
    · intro h handle hm
      by_contra hfile
      rw [Bool.not_eq_false] at hfile
      obtain ⟨_, _, _, devicePath, _, hret⟩ := h.found ⟨handle, hm, hfile⟩
      cases hret
    · intro h
      refine ⟨fun hex => ?_, fun _ => rfl⟩
      obtain ⟨handle, hm, hfile⟩ := hex
      rw [h handle hm] at hfile
      cases hfile
  | some first =>
    have hm := List.mem_of_find?_eq_some hf
    have hmade := @List.find?_some _ (fun h => (s.fileDevicePath h fileName).isSome) first
      handles hf
    obtain ⟨devicePath, hp⟩ := Option.isSome_iff_exists.mp hmade
    rw [Option.bind_some, hp]
    constructor
    · intro h
      by_contra hfile
      by_cases hex : ∃ handle ∈ handles, hasFile handle = true
      · obtain ⟨handle, hm', hfile', devicePath', hp', hret⟩ := h.found hex
        -- the path leads back to one volume
        obtain rfl := Option.some.inj hret
        have e := (hres first hm devicePath hp).symm.trans (hres handle hm' devicePath hp')
        obtain rfl : first = handle := by injection e
        exact hfile hfile'
      · have := h.missing fun handle hm' => by
          rw [← Bool.not_eq_true]
          exact fun hfile' => hex ⟨handle, hm', hfile'⟩
        cases this
    · intro hfile
      have hfile' : hasFile first = true := hfile
      refine ⟨fun _ => ⟨first, hm, hfile', devicePath, hp, rfl⟩, fun hnone => ?_⟩
      rw [hnone first hm] at hfile'
      cases hfile'

/-- the volumes the firmware lists -/
def LaunchServices.volumes : List H :=
  match s.locateHandleBuffer with
  | .ok handles => handles
  | .error _ => []

/-- is there a handle buffer -/
def LaunchServices.lists : Bool :=
  match s.locateHandleBuffer with
  | .ok _ => true
  | .error _ => false

variable [DecidableEq H]

/-- **the first volume a path can be made for is taken** -/
theorem tryVolumes_first (fileName : List UInt16) (handles : List H) (index : ℕ)
    (hres : Resolves s fileName handles) :
    (tryVolumes s fileName handles index).result
      = some ((firstVolume s fileName handles).bind fun handle =>
          s.fileDevicePath handle fileName) := by
  induction handles generalizing index with
  | nil => rfl
  | cons handle handles ih =>
    rw [tryVolumes, firstVolume, List.find?_cons]
    cases hp : s.fileDevicePath handle fileName with
    | none => exact ih (index + 1) fun h hm => hres h (List.mem_cons_of_mem _ hm)
    | some devicePath =>
      have hloc := hres handle (List.mem_cons_self ..) devicePath hp
      dsimp only [Option.isSome_some, Option.bind_some]
      rw [hloc, hp]
      dsimp only
      rw [if_pos rfl]
      rfl

/-- the run: what is freed, and what is returned -/
theorem buildPath_run (arg : List UInt16) (hname : arg.dropWhile (· ≠ backslash) ≠ [])
    (hres : Resolves s (arg.dropWhile (· ≠ backslash)) s.volumes) :
    ∃ ret, (buildPathFromShellArg s arg).result = some ret ∧
      FreesRight s.lists (buildPathFromShellArg s arg).log ret ∧
      ret = (firstVolume s (arg.dropWhile (· ≠ backslash)) s.volumes).bind fun handle =>
        s.fileDevicePath handle (arg.dropWhile (· ≠ backslash)) := by
  rw [buildPathFromShellArg, if_neg hname]
  unfold LaunchServices.volumes at hres ⊢
  unfold LaunchServices.lists
  cases hlist : s.locateHandleBuffer with
  | error status => exact ⟨none, rfl, frees_noPath false _ rfl fun _ => ⟨rfl, rfl⟩, rfl⟩
  | ok handles =>
    rw [hlist] at hres
    obtain ⟨ret, hret, hfrees, _⟩ :=
      tryVolumes_frees s (arg.dropWhile (· ≠ backslash)) handles 0
    refine ⟨ret, hret, hfrees, ?_⟩
    have hfirst := tryVolumes_first s (arg.dropWhile (· ≠ backslash)) handles 0 hres
    exact Option.some.inj (hret.symm.trans hfirst)

/-- **`BuildPathFromShellArg`** frees what it should, and it picks a volume that has the file
exactly when the first volume a path can be made for has it. -/
theorem buildPath_right_iff (hasFile : H → Bool) (arg : List UInt16) (harg : backslash ∈ arg)
    (hres : Resolves s (arg.dropWhile (· ≠ backslash)) s.volumes) :
    (∃ ret, (buildPathFromShellArg s arg).result = some ret ∧
      FindsFile s hasFile (arg.dropWhile (· ≠ backslash)) s.volumes ret ∧
      FreesRight s.lists (buildPathFromShellArg s arg).log ret) ↔
    FirstHasFile s hasFile (arg.dropWhile (· ≠ backslash)) s.volumes := by
  have hname : arg.dropWhile (· ≠ backslash) ≠ [] := by
    intro h
    have := List.dropWhile_eq_nil_iff.mp h backslash harg
    simp at this
  obtain ⟨ret, hret, hfrees, hfirst⟩ := buildPath_run s arg hname hres
  rw [← firstVolume_finds_iff s hasFile _ s.volumes hres, ← hfirst]
  constructor
  · intro ⟨ret', hret', hfinds, _⟩
    obtain rfl := Option.some.inj (hret.symm.trans hret')
    exact hfinds
  · intro hfinds
    exact ⟨ret, hret, hfinds, hfrees⟩

end

/-- volumes named by numbers; a path names its volume -/
def numberedVolumes (n : ℕ) : LaunchServices ℕ ℕ where
  locateHandleBuffer := .ok (List.range n)
  fileDevicePath handle _ := some handle
  locateDevicePath devicePath := .ok devicePath

/-- `FS0:\A` -/
def shellArg : List UInt16 := [0x46, 0x53, 0x30, 0x3a, 0x5c, 0x41]

theorem numberedVolumes_resolves (n : ℕ) (fileName : List UInt16) :
    Resolves (numberedVolumes n) fileName (List.range n) := by
  intro handle _ devicePath h
  obtain rfl := Option.some.inj h
  rfl

/-- two volumes, the file on the first one -/
theorem firstVolume_found :
    ∃ ret, (buildPathFromShellArg (numberedVolumes 2) shellArg).result = some ret ∧
    FindsFile (numberedVolumes 2) (fun handle => handle = 0) (shellArg.dropWhile (· ≠ backslash))
      [0, 1] ret ∧
    FreesRight true (buildPathFromShellArg (numberedVolumes 2) shellArg).log ret :=
  (buildPath_right_iff (numberedVolumes 2) (fun handle => handle = 0) shellArg (by decide)
    (numberedVolumes_resolves 2 _)).mpr rfl

/-- two volumes, the file on the second one alone: the path is on the first one -/
theorem secondVolume_not_found :
    (numberedVolumes 2).volumes = [0, 1] ∧ backslash ∈ shellArg ∧
      Resolves (numberedVolumes 2) (shellArg.dropWhile (· ≠ backslash)) [0, 1] ∧
      (buildPathFromShellArg (numberedVolumes 2) shellArg).result = some (some 0) ∧
      ¬ FindsFile (numberedVolumes 2) (fun handle => handle = 1)
        (shellArg.dropWhile (· ≠ backslash)) [0, 1] (some 0) := by
  refine ⟨rfl, by decide, numberedVolumes_resolves 2 _, by decide +kernel, fun h => ?_⟩
  obtain ⟨handle, _, hfile, devicePath, hp, hret⟩ := h.found ⟨1, by decide, rfl⟩
  obtain rfl := Option.some.inj hp
  obtain rfl : 0 = handle := Option.some.inj hret
  cases hfile

end AppleSilicon

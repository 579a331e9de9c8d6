import AppleSilicon.Lib.Status

/-!
# `WindowsAutoBootDxe`

The two callbacks go through the file systems and start the loader of the first internal one that
has it.  Both may run again from inside `LoadImage` and `StartImage`; the running callbacks are a
stack of points, the innermost first, and `mWindowsStarted` is all they share.

* `LoopPoint.advance`    `WindowsAutoBootFileSystemNotify` and `WindowsAutoBootReadyToBoot`;
* `CheckPoint.advance`   `TryStartWindowsFromHandle` and `HasWindowsFallbackLoader`;
* `StartPoint.advance`   `StartWindowsFromHandle`;
* `AutoBoot.step`        a callback starts, or the innermost one takes a step.
-/

namespace AppleSilicon

/-- `EFI_HANDLE` -/
abbrev EfiHandle := UInt64

/-- of `EFI_BLOCK_IO_MEDIA` -/
structure Media where
  mediaPresent : Bool
  removableMedia : Bool
deriving DecidableEq, Repr

/-- of `EFI_LOADED_IMAGE_PROTOCOL` -/
structure LoadedImage where
  loadOptions : UInt64
  loadOptionsSize : UInt32
deriving DecidableEq, Repr

/-- present and not removable -/
def Media.internal (media : Media) : Bool := media.mediaPresent && !media.removableMedia

/-- a medium that was checked -/
structure InternalMedia where
  media : Media
  internal : media.internal = true
deriving DecidableEq, Repr

def LoadedImage.cleared (image : LoadedImage) : Bool :=
  image.loadOptions = 0 && image.loadOptionsSize = 0

/-- what `TryStartWindowsFromHandle` turns a handle down for -/
inductive Refusal where
  /-- `HandleProtocol` for the block device, and its `Media` -/
  | blockIo (status : StatusCode) (media : Option Media)
  /-- `HandleProtocol` for the file system -/
  | fileSystem (status : StatusCode)
  | openVolume (status : StatusCode)
  /-- `Open` of the loader -/
  | openFile (status : StatusCode)
deriving DecidableEq, Repr

/-- no internal medium, no volume or no loader -/
def Refusal.right : Refusal → Bool
  | blockIo status media => status.isError || !media.any Media.internal
  | fileSystem status => status.isError
  | openVolume status => status.isError
  | openFile status => status.isError

inductive BootEvent where
  /-- `TryStartWindowsFromHandle` returns at once, `mWindowsStarted` being set -/
  | skipped (handle : EfiHandle)
  /-- it checks the handle -/
  | checked (handle : EfiHandle)
  | rejected (handle : EfiHandle) (refusal : Refusal)
  /-- it sets `mWindowsStarted`, with that medium and after `Open` returned that status -/
  | attempt (handle : EfiHandle) (media : Media) (opened : StatusCode)
  /-- `StartWindowsFromHandle` fails before the loader is started -/
  | failed (handle : EfiHandle) (status : StatusCode)
  | startImage (handle : EfiHandle) (image : LoadedImage)
  | startReturned (handle : EfiHandle) (status : StatusCode)
  /-- a callback leaves the handles that are left, `mWindowsStarted` being set -/
  | leaves
  /-- it leaves since no handle is left -/
  | exhausted
deriving DecidableEq, Repr

/-! ## the callbacks -/

/-- who called `TryStartWindowsFromHandle` -/
inductive Visitor where
  | fileSystemNotify
  | readyToBoot (rest : List EfiHandle)
deriving DecidableEq, Repr

/-- where `WindowsAutoBootFileSystemNotify` or `WindowsAutoBootReadyToBoot` is -/
inductive LoopPoint where
  /-- `while (!mWindowsStarted)` -/
  | notify
  /-- `ConnectAllBlockIoHandles` -/
  | connectAll
  | locateFileSystems
  | readyToBoot (handles : List EfiHandle)
deriving DecidableEq, Repr

/-- the call of `TryStartWindowsFromHandle` or of `HasWindowsFallbackLoader` that is next -/
inductive CheckPoint where
  | blockIo
  | fileSystem (media : InternalMedia)
  | openVolume (media : InternalMedia)
  | openFile (media : InternalMedia)
deriving DecidableEq, Repr

/-- the call of `StartWindowsFromHandle` that is next, or runs -/
inductive StartPoint where
  | fileDevicePath
  | loadImage
  | loadedImage
  | startImage
deriving DecidableEq, Repr

/-- where a callback is -/
inductive Point where
  | loop (point : LoopPoint)
  | check (visitor : Visitor) (handle : EfiHandle) (point : CheckPoint)
  | start (visitor : Visitor) (handle : EfiHandle) (point : StartPoint)
deriving DecidableEq, Repr

inductive BootCallback where
  | fileSystemNotify
  | readyToBoot
deriving DecidableEq, Repr

/-- what happens next: a callback starts, goes on by itself or is answered -/
inductive BootAction where
  | signal (callback : BootCallback)
  | goOn
  | locateHandle (status : StatusCode) (handle : EfiHandle)
  | locateBlockIo (status : StatusCode) (handles : List EfiHandle)
  | locateFileSystems (status : StatusCode) (handles : List EfiHandle)
  | blockIo (status : StatusCode) (media : Option Media)
  | fileSystem (status : StatusCode)
  | openVolume (status : StatusCode)
  | openFile (status : StatusCode)
  /-- `FileDevicePath` returned a path, or `NULL` -/
  | fileDevicePath (found : Bool)
  | loadImage (status : StatusCode)
  | loadedImage (status : StatusCode) (image : LoadedImage)
  | startImage (status : StatusCode)
deriving DecidableEq, Repr

def BootCallback.start : BootCallback → LoopPoint
  | fileSystemNotify => .notify
  | readyToBoot => .connectAll

/-- a step of a callback: `mWindowsStarted`, where the callback is now (nowhere, if it has returned)
and what happened -/
structure Outcome where
  windowsStarted : Bool
  point : Option Point
  log : List BootEvent
deriving DecidableEq, Repr

/-- `TryStartWindowsFromHandle` returns to the loop that called it -/
def Visitor.returns (windowsStarted : Bool) (log : List BootEvent) : Visitor → Bool → Outcome
  | fileSystemNotify, _ => ⟨windowsStarted, some (.loop .notify), log⟩
  | readyToBoot rest, false => ⟨windowsStarted, some (.loop (.readyToBoot rest)), log⟩
  | readyToBoot _, true => ⟨windowsStarted, none, log ++ [.leaves]⟩

/-- the first test of `TryStartWindowsFromHandle` -/
def tryStartWindowsFromHandle (windowsStarted : Bool) (visitor : Visitor) (handle : EfiHandle) :
    Outcome :=
  if windowsStarted then visitor.returns windowsStarted [.skipped handle] true
  else ⟨windowsStarted, some (.check visitor handle .blockIo), [.checked handle]⟩

/-- a step of a loop; `none` is an action that is not what the callback waits for -/
def LoopPoint.advance (windowsStarted : Bool) : LoopPoint → BootAction → Option Outcome
  | notify, a =>
    match a with
    | .goOn => if windowsStarted then some ⟨windowsStarted, none, [.leaves]⟩ else none
    | .locateHandle status handle =>
      if windowsStarted then none
      else if status.isError then some ⟨windowsStarted, none, [.exhausted]⟩
      else some (tryStartWindowsFromHandle windowsStarted .fileSystemNotify handle)
    | _ => none
  | connectAll, a =>
    match a with
    | .locateBlockIo _ _ => some ⟨windowsStarted, some (.loop .locateFileSystems), []⟩
    | _ => none
  | locateFileSystems, a =>
    match a with
    | .locateFileSystems status handles =>
      if status.isError then some ⟨windowsStarted, none, [.exhausted]⟩
      else some ⟨windowsStarted, some (.loop (.readyToBoot handles)), []⟩
    | _ => none
  | readyToBoot handles, a =>
    match a, handles with
    | .goOn, [] => some ⟨windowsStarted, none, [.exhausted]⟩
    | .goOn, handle :: rest =>
      some (tryStartWindowsFromHandle windowsStarted (.readyToBoot rest) handle)
    | _, _ => none

section
variable (windowsStarted : Bool) (visitor : Visitor) (handle : EfiHandle)

/-- `TryStartWindowsFromHandle` returns `FALSE` before it sets `mWindowsStarted` -/
def reject (refusal : Refusal) : Outcome :=
  visitor.returns windowsStarted [.rejected handle refusal] false

/-- a step of the checks -/
def CheckPoint.advance : CheckPoint → BootAction → Option Outcome
  | blockIo, .blockIo status none =>
    some (reject windowsStarted visitor handle (.blockIo status none))
  | blockIo, .blockIo status (some media) =>
    if status.isError then
      some (reject windowsStarted visitor handle (.blockIo status (some media)))
    else if internal : media.internal = true then
      some ⟨windowsStarted, some (.check visitor handle (.fileSystem ⟨media, internal⟩)), []⟩
    else some (reject windowsStarted visitor handle (.blockIo status (some media)))
  | fileSystem media, .fileSystem status =>
    if status.isError then some (reject windowsStarted visitor handle (.fileSystem status))
    else some ⟨windowsStarted, some (.check visitor handle (.openVolume media)), []⟩
  | openVolume media, .openVolume status =>
    if status.isError then some (reject windowsStarted visitor handle (.openVolume status))
    else some ⟨windowsStarted, some (.check visitor handle (.openFile media)), []⟩
  | openFile media, .openFile status =>
    if status.isError then some (reject windowsStarted visitor handle (.openFile status))
    else some ⟨true, some (.start visitor handle .fileDevicePath),
      [.attempt handle media.media status]⟩
  | _, _ => none

/-- `StartWindowsFromHandle` returns an error before `StartImage` -/
def failStart (status : StatusCode) : Outcome :=
  visitor.returns false [.failed handle status] false

/-- a step of `StartWindowsFromHandle` -/
def StartPoint.advance : StartPoint → BootAction → Option Outcome
  | fileDevicePath, .fileDevicePath found =>
    if found then some ⟨windowsStarted, some (.start visitor handle .loadImage), []⟩
    else some (failStart visitor handle .outOfResources)
  | loadImage, .loadImage status =>
    if status.isError then some (failStart visitor handle status)
    else some ⟨windowsStarted, some (.start visitor handle .loadedImage), []⟩
  | loadedImage, .loadedImage status image =>
    if status.isError then some (failStart visitor handle status)
    else
      let image := { image with loadOptions := 0, loadOptionsSize := 0 }
      some ⟨windowsStarted, some (.start visitor handle .startImage), [.startImage handle image]⟩
  | startImage, .startImage status =>
    if status.isError then some (visitor.returns false [.startReturned handle status] false)
    else some (visitor.returns windowsStarted [.startReturned handle status] true)
  | _, _ => none

end

/-- a step of the callback that runs -/
def Point.advance (windowsStarted : Bool) : Point → BootAction → Option Outcome
  | loop point => point.advance windowsStarted
  | check visitor handle point => point.advance windowsStarted visitor handle
  | start visitor handle point => point.advance windowsStarted visitor handle

/-- other callbacks can run while it waits -/
def Point.calls : Point → Bool
  | start _ _ .loadImage => true
  | start _ _ .startImage => true
  | _ => false

structure AutoBoot where
  /-- `mWindowsStarted` -/
  windowsStarted : Bool
  /-- the callbacks that run -/
  stack : List Point
deriving DecidableEq, Repr

/-- after `WindowsAutoBootDxeInitialize` -/
def AutoBoot.init : AutoBoot := ⟨false, []⟩

/-- the innermost callback takes a step -/
def AutoBoot.advance (s : AutoBoot) (a : BootAction) : Option (AutoBoot × List BootEvent) :=
  match s.stack with
  | [] => none
  | point :: stack => (point.advance s.windowsStarted a).map fun o =>
      (⟨o.windowsStarted, o.point.toList ++ stack⟩, o.log)

/-- a callback starts, or the innermost one takes a step -/
def AutoBoot.step (s : AutoBoot) (a : BootAction) : Option (AutoBoot × List BootEvent) :=
  match a with
  | .signal callback =>
    if s.stack.head?.all Point.calls then
      some (⟨s.windowsStarted, .loop callback.start :: s.stack⟩, [])
    else none
  | a => s.advance a

end AppleSilicon

import Mathlib

/-!
# `EFI_STATUS`

A status is a 64-bit word; an error has the highest bit set, so a warning is no error.
-/

namespace AppleSilicon

/-- `EFI_STATUS` -/
abbrev StatusCode := UInt64

namespace StatusCode

def success : StatusCode := 0
def invalidParameter : StatusCode := 0x8000000000000002
def unsupported : StatusCode := 0x8000000000000003
def deviceError : StatusCode := 0x8000000000000007
def outOfResources : StatusCode := 0x8000000000000009
def volumeCorrupted : StatusCode := 0x800000000000000a
def notFound : StatusCode := 0x800000000000000e
def timeout : StatusCode := 0x8000000000000012
def aborted : StatusCode := 0x8000000000000015

/-- `EFI_ERROR (status)` -/
def isError (status : StatusCode) : Bool := status ≥ 0x8000000000000000

end StatusCode

end AppleSilicon

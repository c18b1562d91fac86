import DmaRemap.Text.Described

namespace DmaRemap

/-- A flag or a group of flags with a name. -/
structure NamedFlag where
  name : String
  mask : BitVec 32
deriving DecidableEq, Repr

namespace NamedFlag

/-- The names in a flag set that is still to be described. Each takes its bits away, and one that
has no bit left is passed over. -/
def namesIn (whole : BitVec 32) : List NamedFlag → BitVec 32 → List String × BitVec 32
  | [], rest => ([], rest)
  | flag :: flags, rest =>
    if whole &&& flag.mask = flag.mask ∧ rest &&& flag.mask ≠ 0 then
      let (names, left) := namesIn whole flags (rest &&& ~~~flag.mask)
      (flag.name :: names, left)
    else
      namesIn whole flags rest

/-- A flag set as the names in it, with the bits that have no name last. -/
def describe (type : String) (flags : List NamedFlag) (bits : BitVec 32) : String :=
  let (names, rest) := namesIn bits flags bits
  let unnamed := if rest = 0 ∧ bits ≠ 0 then [] else [Text.hex rest.toNat]
  Text.wrapped type (" | ".intercalate (names ++ unnamed))

end NamedFlag

/-- Puts or takes away all bits of a mask. -/
def withFlag (bits mask : BitVec 32) (present : Bool) : BitVec 32 :=
  if present then bits ||| mask else bits &&& ~~~mask

/-- The global command register. Global status reports the same bits. -/
structure GlobalCommand where
  bits : BitVec 32
deriving DecidableEq, Repr

namespace GlobalCommand

/-- Set the interrupt remapping table pointer. -/
def setInterruptTable : BitVec 32 := BitVec.twoPow 32 24

/-- Set the root table pointer. -/
def setRootTable : BitVec 32 := BitVec.twoPow 32 30

/-- Translate. -/
def enable : BitVec 32 := BitVec.twoPow 32 31

/-- Commands that happen once and must not be repeated from the status. -/
def oneShot : BitVec 32 := setRootTable ||| setInterruptTable

def names : List NamedFlag :=
  [⟨"SIRTP", setInterruptTable⟩, ⟨"SRTP", setRootTable⟩, ⟨"ENABLE", enable⟩, ⟨"ONE_SHOT", oneShot⟩]

def has (command : GlobalCommand) (mask : BitVec 32) : Bool :=
  command.bits &&& mask == mask

/-- The command without bits that have no name. -/
def truncated (command : GlobalCommand) : GlobalCommand :=
  ⟨command.bits &&& (setInterruptTable ||| setRootTable ||| enable)⟩

/-- The command that repeats a status: the one-shot commands are left out. -/
def withoutOneShot (command : GlobalCommand) : GlobalCommand :=
  ⟨withFlag command.bits oneShot false⟩

def set (command : GlobalCommand) (mask : BitVec 32) (present : Bool) : GlobalCommand :=
  ⟨withFlag command.bits mask present⟩

def describe (command : GlobalCommand) : String :=
  NamedFlag.describe "GlobalCommand" names command.bits

end GlobalCommand

/-- The global status register. -/
structure GlobalStatus where
  bits : BitVec 32
deriving DecidableEq, Repr

namespace GlobalStatus

/-- The interrupt remapping table pointer was set. -/
def interruptTableSet : BitVec 32 := BitVec.twoPow 32 24

/-- Queued invalidation is enabled. -/
def queuedInvalidation : BitVec 32 := BitVec.twoPow 32 26

/-- The root table pointer was set. -/
def rootTableSet : BitVec 32 := BitVec.twoPow 32 30

/-- Translation is enabled. -/
def enabled : BitVec 32 := BitVec.twoPow 32 31

def names : List NamedFlag :=
  [⟨"IRTPS", interruptTableSet⟩, ⟨"QIES", queuedInvalidation⟩, ⟨"RTPS", rootTableSet⟩,
   ⟨"ENABLED", enabled⟩]

def has (status : GlobalStatus) (mask : BitVec 32) : Bool :=
  status.bits &&& mask == mask

def set (status : GlobalStatus) (mask : BitVec 32) (present : Bool) : GlobalStatus :=
  ⟨withFlag status.bits mask present⟩

def describe (status : GlobalStatus) : String :=
  NamedFlag.describe "GlobalStatus" names status.bits

end GlobalStatus

/-- The fault event control register. -/
structure FaultEventControl where
  bits : BitVec 32
deriving DecidableEq, Repr

namespace FaultEventControl

/-- An interrupt is pending. -/
def pending : BitVec 32 := BitVec.twoPow 32 30

/-- Interrupts are held back. -/
def masked : BitVec 32 := BitVec.twoPow 32 31

def names : List NamedFlag := [⟨"PENDING", pending⟩, ⟨"MASK", masked⟩]

def has (control : FaultEventControl) (mask : BitVec 32) : Bool :=
  control.bits &&& mask == mask

def unmasked (control : FaultEventControl) : FaultEventControl :=
  ⟨withFlag control.bits masked false⟩

def describe (control : FaultEventControl) : String :=
  NamedFlag.describe "FaultEventControl" names control.bits

end FaultEventControl

end DmaRemap

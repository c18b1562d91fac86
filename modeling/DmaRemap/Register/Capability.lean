import DmaRemap.Register.Field
import DmaRemap.Text.Described

namespace DmaRemap

open Text (hex paddedBinary)

/-- The version register. -/
structure Version where
  raw : BitVec 32
deriving DecidableEq, Repr

namespace Version

def minorField : Field := ⟨0, 4⟩
def majorField : Field := ⟨4, 4⟩

def minor (version : Version) : Nat := minorField.get version.raw

def major (version : Version) : Nat := majorField.get version.raw

instance : ToString Version := ⟨fun version => s!"{version.major}.{version.minor}"⟩

end Version

/-- The capability register. -/
structure Capability where
  raw : Word
deriving DecidableEq, Repr

namespace Capability

def domainsField : Field := ⟨0, 3⟩
def writeBufferField : Field := ⟨4, 1⟩
def cachingModeField : Field := ⟨7, 1⟩
def addressWidthsField : Field := ⟨9, 3⟩
def fourLevelField : Field := ⟨10, 1⟩
def recordOffsetField : Field := ⟨24, 10⟩
def recordsField : Field := ⟨40, 8⟩
def rootSetInvalidatesField : Field := ⟨63, 1⟩

/-- The code of the number of domain ids. -/
def domains (capability : Capability) : Nat := domainsField.get capability.raw

/-- The number of domain ids the unit supports, the reserved id 0 among them. -/
def maxDomains (capability : Capability) : Nat := 1 <<< (4 + 2 * capability.domains)

/-- Whether write buffers have to be flushed explicitly. -/
def writeBufferFlush (capability : Capability) : Bool := writeBufferField.isSet capability.raw

/-- Whether the unit may cache entries that are not present. -/
def cachingMode (capability : Capability) : Bool := cachingModeField.isSet capability.raw

/-- The supported widths of input addresses, one bit for each. -/
def addressWidths (capability : Capability) : Nat := addressWidthsField.get capability.raw

/-- Whether four-level second-level tables are supported. -/
def fourLevel (capability : Capability) : Bool := fourLevelField.isSet capability.raw

/-- The byte offset of the first fault record. -/
def recordOffset (capability : Capability) : Nat := recordOffsetField.get capability.raw * 16

/-- The number of fault records. -/
def records (capability : Capability) : Nat := recordsField.get capability.raw + 1

/-- Whether setting the root table pointer invalidates all caches. -/
def rootSetInvalidates (capability : Capability) : Bool :=
  rootSetInvalidatesField.isSet capability.raw

def describe (capability : Capability) : String :=
  Text.fields "Capability"
    [("raw", hex capability.raw.toNat), ("max_domains", toString capability.maxDomains),
      ("rwbf", toString capability.writeBufferFlush),
      ("caching_mode", toString capability.cachingMode),
      ("sagaw", paddedBinary 5 capability.addressWidths),
      ("fault_record_offset", hex capability.recordOffset),
      ("fault_records", toString capability.records),
      ("esrtps", toString capability.rootSetInvalidates)]

end Capability

/-- The extended capability register. -/
structure ExtendedCapability where
  raw : Word
deriving DecidableEq, Repr

namespace ExtendedCapability

def coherencyField : Field := ⟨0, 1⟩
def iotlbOffsetField : Field := ⟨8, 10⟩

/-- Whether the unit sees what the CPU's caches hold when it walks tables. -/
def coherentWalk (extended : ExtendedCapability) : Bool := coherencyField.isSet extended.raw

/-- The byte offset of the IOTLB registers. -/
def iotlbBlock (extended : ExtendedCapability) : Nat := iotlbOffsetField.get extended.raw * 16

/-- The byte offset of the IOTLB invalidate register, the second word of its block. -/
def iotlbOffset (extended : ExtendedCapability) : Nat := extended.iotlbBlock + 8

def describe (extended : ExtendedCapability) : String :=
  Text.fields "ExtendedCapability"
    [("raw", hex extended.raw.toNat), ("page_walk_coherency", toString extended.coherentWalk),
      ("iotlb_offset", hex extended.iotlbOffset)]

end ExtendedCapability

end DmaRemap

import DmaRemap.DomainId
import DmaRemap.Pool

/-!
Root and context tables in legacy mode. Both are nodes of 128-bit entries, the low word first: the
root table links a context table for each bus, and a context table binds each device of its bus to a
second-level table and a domain. Hardware may walk the tables between any two writes of a word.
-/

namespace DmaRemap

/-- The low word of an entry. -/
def lowSlot (index : Fin 256) : Slot := ⟨2 * index.val, by omega⟩

/-- The high word of an entry. -/
def highSlot (index : Fin 256) : Slot := ⟨2 * index.val + 1, by omega⟩

namespace RootField

def present : Field := ⟨0, 1⟩
def contextTable : Field := ⟨12, 52⟩

end RootField

namespace ContextField

def present : Field := ⟨0, 1⟩
def faultProcessingDisabled : Field := ⟨1, 1⟩
def translationType : Field := ⟨2, 2⟩
def table : Field := ⟨12, 52⟩
def addressWidth : Field := ⟨0, 3⟩
def domain : Field := ⟨8, 16⟩

end ContextField

/-- A context entry. -/
structure ContextEntry where
  low : Word
  high : Word
deriving DecidableEq, Repr

namespace ContextEntry

/-- The address-width code of four-level second-level tables. -/
def fourLevelWidth : Nat := 2

/-- The translation-type code under which untranslated requests alone are translated. -/
def untranslatedOnly : Nat := 0

/-- A present entry that translates through `table` as `domain`. -/
def binding (table : PhysicalAddress) (domain : DomainId) : ContextEntry where
  low :=
    ContextField.table.set
      (ContextField.translationType.set (ContextField.present.put 0 true) untranslatedOnly)
      (table.val >>> 12)
  high := ContextField.domain.set (ContextField.addressWidth.set 0 fourLevelWidth) domain.val.val

/-- The entry of a device that was never bound. -/
def absent : ContextEntry := ⟨0, 0⟩

def present (entry : ContextEntry) : Bool :=
  ContextField.present.isSet entry.low

/-- Whether faults of requests through the entry go unrecorded. -/
def faultProcessingDisabled (entry : ContextEntry) : Bool :=
  ContextField.faultProcessingDisabled.isSet entry.low

def translationType (entry : ContextEntry) : Nat :=
  ContextField.translationType.get entry.low

/-- The second-level table. -/
def table (entry : ContextEntry) : Except Abort PhysicalAddress :=
  Address.ofNat (ContextField.table.get entry.low <<< 12)

def addressWidth (entry : ContextEntry) : Nat :=
  ContextField.addressWidth.get entry.high

def domain (entry : ContextEntry) : DomainId :=
  .ofNat (ContextField.domain.get entry.high)

/-- The entry with its present bit cleared. -/
def cleared (entry : ContextEntry) : ContextEntry :=
  { entry with low := ContextField.present.put entry.low false }

def describe (entry : ContextEntry) : Except Abort String := do
  let table ← entry.table
  return Text.fields "ContextEntry"
    [("present", toString entry.present), ("domain", entry.domain.describe),
      ("stage2_pointer", table.describe), ("address_width", toString entry.addressWidth),
      ("translation_type", toString entry.translationType),
      ("fault_processing_disabled", toString entry.faultProcessingDisabled)]

end ContextEntry

namespace Node

/-- The context table that a root table links for a bus. -/
def contextTable? (root : Node) (bus : Fin 256) : Except Abort (Option PhysicalAddress) := do
  let low := root[lowSlot bus]
  if RootField.present.isSet low then
    return some (← Address.ofNat (RootField.contextTable.get low <<< 12))
  else
    return none

/-- The writes that link a context table for a bus. The low word, which makes the link present, is
last. -/
def linkWrites (bus : Fin 256) (table : PhysicalAddress) : List (Slot × Word) :=
  [(highSlot bus, 0),
   (lowSlot bus, RootField.present.put (RootField.contextTable.set 0 (table.val >>> 12)) true)]

/-- The entry of a device in a context table. -/
def contextEntry (context : Node) (devfn : Fin 256) : ContextEntry :=
  ⟨context[lowSlot devfn], context[highSlot devfn]⟩

/-- The writes that put an entry. The low word, which makes the entry present, is last. -/
def putWrites (devfn : Fin 256) (entry : ContextEntry) : List (Slot × Word) :=
  [(highSlot devfn, entry.high), (lowSlot devfn, entry.low)]

/-- The writes that clear the present bit of an entry. -/
def clearWrites (context : Node) (devfn : Fin 256) : List (Slot × Word) :=
  [(lowSlot devfn, (context.contextEntry devfn).cleared.low)]

def linkContextTable (root : Node) (bus : Fin 256) (table : PhysicalAddress) : Node :=
  root.write (linkWrites bus table)

def putContext (context : Node) (devfn : Fin 256) (entry : ContextEntry) : Node :=
  context.write (putWrites devfn entry)

def clearContext (context : Node) (devfn : Fin 256) : Node :=
  context.write (context.clearWrites devfn)

/-- Whether a context table binds no device. -/
def hasNoContext (context : Node) : Bool :=
  (List.finRange 256).all fun devfn => !(context.contextEntry devfn).present

end Node

end DmaRemap

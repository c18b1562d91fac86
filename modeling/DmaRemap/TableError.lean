import DmaRemap.Address

namespace DmaRemap

open Text (hex)

/-- Why a table could not be built or edited. -/
inductive TableError where
  /-- Memory for tables does not start at a table boundary or ends beyond the address width. -/
  | misaligned (address : PhysicalAddress)
  /-- A range is not made of whole pages or leaves the address space. -/
  | invalidRange (start : VirtualAddress) (size : Nat)
  /-- A different mapping is already present. -/
  | doubleInsertion (address : VirtualAddress)
  /-- The pool has no free table. -/
  | outOfMemory
  /-- A link leads out of the pool. -/
  | unknownTable (address : PhysicalAddress)
deriving DecidableEq, Repr

def TableError.message : TableError → String
  | misaligned address => s!"table memory at {address} is not table-aligned"
  | invalidRange start size => s!"invalid range {start}+{hex size}"
  | doubleInsertion address => s!"conflicting mapping already present at {address}"
  | outOfMemory => "table pool exhausted"
  | unknownTable address => s!"table {address} does not belong to this pool"

end DmaRemap

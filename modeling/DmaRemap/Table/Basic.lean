import DmaRemap.Format
import DmaRemap.Pool

namespace DmaRemap

/-- Whether the hardware that walks a table sees what the CPU's caches hold. -/
inductive Coherency where
  | coherent
  | nonCoherent
deriving DecidableEq, Repr, Inhabited

namespace Coherency

/-- Whether written descriptors have to be flushed to memory. -/
def needsFlush (coherency : Coherency) : Bool :=
  coherency == .nonCoherent

def name : Coherency → String
  | coherent => "Coherent"
  | nonCoherent => "NonCoherent"

end Coherency

/-- A translation table. Its nodes live in a pool that every operation is given. -/
structure TranslationTable where
  format : Format
  root : PhysicalAddress
  coherency : Coherency
deriving DecidableEq, Repr

namespace TranslationTable

/-- A new table that maps nothing. -/
def create (format : Format) (coherency : Coherency) : Action Pool TableError TranslationTable := do
  let root ← Pool.construct
  Action.record .debug fun () => s!"created {format.name} table at {root}"
  return { format, root, coherency }

def describe (table : TranslationTable) : String :=
  Text.fields "TranslationTable"
    [("format", Text.quoted table.format.name), ("root", table.root.describe),
      ("coherency", table.coherency.name)]

end TranslationTable

namespace Format

/-- The abort of an access below the last level. -/
def belowLeaf (format : Format) : Abort :=
  .indexOutOfBounds format.levels.length format.levels.length

/-- Whether a node holds no valid descriptor. -/
def isEmptyNode (format : Format) (node : Node) : Bool :=
  (List.finRange 512).all fun slot => !format.isPresent node[slot]

/-- Fails because a link leads out of the pool. -/
def failUnknown {σ α : Type} (format : Format) (table : PhysicalAddress) :
    Action σ TableError α := do
  Action.record .error fun () => s!"{format.name} table {table} is not part of the table pool"
  Action.fail (.unknownTable table)

/-- Reads a descriptor. -/
def load (format : Format) (table : PhysicalAddress) (slot : Slot) :
    Action Pool TableError Word := do
  match (← Action.state).read? table slot with
  | some descriptor => return descriptor
  | none => format.failUnknown table

/-- Writes a descriptor. -/
def store (format : Format) (table : PhysicalAddress) (slot : Slot) (descriptor : Word) :
    Action Pool TableError Unit := do
  if (← Action.state).contains table then
    Pool.put table [(slot, descriptor)]
  else
    format.failUnknown table

/-- Fails unless a range of input addresses is made of whole pages and lies in the input space. -/
def checkRange {σ : Type} (format : Format) (start : VirtualAddress) (size : Nat) :
    Action σ TableError Unit := do
  let smallest := 1 <<< format.minPageBits
  if start.val % smallest != 0 || size % smallest != 0 ||
      1 <<< format.inputBits < start.val + size then
    Action.record .debug fun () => s!"rejecting {format.name} range {start}+{Text.hex size}"
    Action.fail (.invalidRange start size)

end Format

end DmaRemap

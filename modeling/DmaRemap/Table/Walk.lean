import DmaRemap.Table.Basic

namespace DmaRemap

/-- What a descriptor leads to. -/
inductive Target where
  | table (next : PhysicalAddress)
  | page (address : PhysicalAddress) (size : Nat) (flags : PageFlags)
deriving DecidableEq, Repr

/-- A valid descriptor and its place. -/
structure WalkEntry where
  depth : Nat
  table : PhysicalAddress
  slot : Slot
  /-- The first input address the descriptor covers. -/
  start : VirtualAddress
  descriptor : Word
  target : Target
deriving DecidableEq, Repr

/-- A step of a walk. -/
inductive Visit where
  | entry (found : WalkEntry)
  /-- A link that leads out of the pool is not followed. -/
  | unresolved (table : PhysicalAddress)
deriving DecidableEq, Repr

def Visit.entry? : Visit → Option WalkEntry
  | entry found => some found
  | unresolved _ => none

namespace Format

/-- What a valid descriptor of a level leads to. -/
def target (format : Format) (level : Level) (descriptor : Word) : Target :=
  let address := format.address level descriptor
  if format.isPage level descriptor then
    .page address level.pageSize (format.pageFlags descriptor)
  else
    .table address

/-- Walks a table whose first entry covers the input address `base`. -/
def walkAt (format : Format) (pool : Pool) :
    List Level → (depth : Nat) → (table : PhysicalAddress) → (base : VirtualAddress) →
      Except Abort (List Visit)
  | [], _, _, _ => .error format.belowLeaf
  | level :: deeper, depth, table, base =>
    match pool.node? table with
    | none => return [.unresolved table]
    | some node => do
      let visits ← (List.finRange 512).mapM fun slot => do
        let descriptor := node[slot]
        if format.isPresent descriptor then
          let start ← base.add (slot.val * level.pageSize)
          let target := format.target level descriptor
          let below ← match target with
            | .table next => walkAt format pool deeper (depth + 1) next start
            | .page .. => pure []
          return .entry { depth, table, slot, start, descriptor, target } :: below
        else
          return []
      return visits.flatten

end Format

namespace TranslationTable

def visits (table : TranslationTable) (pool : Pool) : Except Abort (List Visit) :=
  table.format.walkAt pool table.format.levels 0 table.root Address.zero

/-- The valid descriptors of a table. Links that are not followed are reported. -/
def walk {ε : Type} (table : TranslationTable) : Action Pool ε (List WalkEntry) := do
  let visits ← table.visits (← Action.state)
  visits.forM fun
    | .entry _ => pure ()
    | .unresolved dangling => Action.record .warn fun () =>
        s!"skipping unresolvable {table.format.name} table {dangling}"
  return visits.filterMap Visit.entry?

end TranslationTable

/-- How many links and how many pages of each size a table holds. -/
structure Census where
  links : Nat
  pages4K : Nat
  pages2M : Nat
  pages1G : Nat
deriving DecidableEq, Repr

/-- Counts the entries of a walk. -/
def Census.ofWalk (entries : List WalkEntry) : Census :=
  let pages := fun bits => entries.countP fun entry =>
    match entry.target with
    | .page _ size _ => size == 1 <<< bits
    | .table _ => false
  let links := entries.countP fun entry =>
    match entry.target with
    | .page .. => false
    | .table _ => true
  ⟨links, pages 12, pages 21, pages 30⟩

end DmaRemap

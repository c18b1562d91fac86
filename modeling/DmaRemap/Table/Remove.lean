import DmaRemap.Table.Basic

/-!
Unmapping: a range of input addresses, or everything. Removing a range takes a large page away as
soon as the range touches it, and frees each table that becomes empty on the way.
-/

namespace DmaRemap

namespace Format

/-- Unmaps a range of offsets into a table. -/
def removeAt (format : Format) :
    List Level → (table : PhysicalAddress) → (range : Extent) → Action Pool TableError Unit
  | [], _, _ => Action.abort format.belowLeaf
  | level :: deeper, table, range =>
    (level.blocks range).forM fun block => do
      let piece ← level.piece range block
      let slot := level.slot piece.start
      let descriptor ← format.load table slot
      if format.isPresent descriptor then
        if format.isPage level descriptor then
          format.store table slot 0
        else
          let child := format.address level descriptor
          removeAt format deeper child ⟨piece.start % level.pageSize, piece.size⟩
          if ((← Action.state).node? child).any format.isEmptyNode then
            format.store table slot 0
            Pool.destruct child

/-- Frees every table below one. -/
def releaseBelow {ε : Type} (format : Format) : List Level → (table : PhysicalAddress) →
    Action Pool ε Unit
  | [], _ => Action.abort format.belowLeaf
  | level :: deeper, table => do
    unless level.kind = .leaf do
      (List.finRange 512).forM fun slot => do
        match (← Action.state).read? table slot with
        | none => pure ()
        | some descriptor =>
          if format.isPresent descriptor && !format.isPage level descriptor then
            let child := format.address level descriptor
            releaseBelow format deeper child
            Pool.destruct child

end Format

namespace TranslationTable

/-- Unmaps `size` bytes at `start`. What is not mapped is skipped. -/
def remove (table : TranslationTable) (start : VirtualAddress) (size : Nat) :
    Action Pool TableError Unit := do
  table.format.checkRange start size
  table.format.removeAt table.format.levels table.root ⟨start.val, size⟩

/-- Unmaps everything and frees every table below the root. -/
def clear {ε : Type} (table : TranslationTable) : Action Pool ε Unit := do
  table.format.releaseBelow table.format.levels table.root
  Pool.wipe table.root

/-- Frees every table, the root included. -/
def destroy {ε : Type} (table : TranslationTable) : Action Pool ε Unit := do
  table.clear
  Pool.destruct table.root
  Action.record .debug fun () => s!"destroyed {table.format.name} table at {table.root}"

end TranslationTable

end DmaRemap

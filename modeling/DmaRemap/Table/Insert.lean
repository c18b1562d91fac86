import DmaRemap.Table.Basic

/-!
Mapping a range. Every level maps with one page what is aligned to its pages on both sides and as
large as one of them, and leaves the rest to the next level, whose tables are made on demand.
-/

namespace DmaRemap

namespace Format

/-- The table a descriptor of a level links to. An absent one is replaced by a link to a new table;
a page is in the way of the mapping at `address`. -/
def nextTable (format : Format) (level : Level) (table : PhysicalAddress) (slot : Slot)
    (descriptor : Word) (address : VirtualAddress) : Action Pool TableError PhysicalAddress := do
  if !format.isPresent descriptor then
    let child ← Pool.construct
    format.store table slot (format.tableDescriptor child)
    return child
  else if format.isPage level descriptor then
    Action.fail (.doubleInsertion address)
  else
    return format.address level descriptor

/-- Maps a piece that lies in one block of a level and starts at the input address `address`. Unless
one page maps all of it, `descend` maps it in the table of the next level. -/
def insertPiece (format : Format) (level : Level) (flags : PageFlags) (table : PhysicalAddress)
    (address : VirtualAddress) (piece : Extent) (target : PhysicalAddress)
    (descend : PhysicalAddress → Action Pool TableError Unit) : Action Pool TableError Unit := do
  let slot := level.slot piece.start
  let descriptor ← format.load table slot
  if level.mapsPages && piece.start % level.pageSize == 0 && target.val % level.pageSize == 0 &&
      level.pageSize ≤ piece.size then
    let page := format.pageDescriptor target flags level
    if !format.isPresent descriptor then
      format.store table slot page
    else if format.strip descriptor != page then
      Action.record .debug fun () =>
        s!"{format.name} conflict at {address}: have {Text.hex descriptor.toNat}, " ++
          s!"want {Text.hex page.toNat}"
      Action.fail (.doubleInsertion address)
  else
    descend (← format.nextTable level table slot descriptor address)

/-- Maps a range of offsets into a table whose first entry covers the input address `base`. -/
def insertAt (format : Format) (flags : PageFlags) :
    List Level → (depth : Nat) → (table : PhysicalAddress) → (base : VirtualAddress) →
      (range : Extent) → (target : PhysicalAddress) → Action Pool TableError Unit
  | [], _, _, _, _, _ => Action.abort format.belowLeaf
  | level :: deeper, depth, table, base, range, target =>
    (level.blocks range).forM fun block => do
      let piece ← level.piece range block
      let address ← base.add piece.start
      let pieceTarget ← target.add (piece.start - range.start)
      format.insertPiece level flags table address piece pieceTarget fun child =>
        insertAt format flags deeper (depth + 1) child (address.floor level.pageSize)
          ⟨piece.start % level.pageSize, piece.size⟩ pieceTarget
      unless piece.stop = range.stop || piece.stop / level.pageSize < level.entries do
        Action.abort (.rangeOverran depth)

end Format

namespace TranslationTable

/-- Maps `size` bytes at `start` to `target`. A request that is not made of whole pages or leaves
the input or the output space changes nothing. A mapping that is already there is kept; one that
differs, or a pool without free nodes, ends the request after the pages before it have been mapped.
-/
def insert (table : TranslationTable) (start : VirtualAddress) (target : PhysicalAddress)
    (size : Nat) (flags : PageFlags) : Action Pool TableError Unit := do
  let format := table.format
  format.checkRange start size
  if target.val % (1 <<< format.minPageBits) != 0 ||
      1 <<< format.outputBits < target.val + size then
    Action.record .debug fun () =>
      s!"rejecting {format.name} output range {target}+{Text.hex size}"
    Action.fail (.invalidRange start size)
  format.insertAt flags format.levels 0 table.root Address.zero ⟨start.val, size⟩ target

end TranslationTable

end DmaRemap

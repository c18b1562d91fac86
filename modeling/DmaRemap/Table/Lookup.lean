import DmaRemap.Table.Basic

namespace DmaRemap

/-- Where an input address leads. -/
structure Translation where
  address : PhysicalAddress
  pageSize : Nat
  flags : PageFlags
deriving DecidableEq, Repr

namespace Format

/-- Translates an input address from a table down. A link out of the pool leads nowhere. -/
def lookupAt (format : Format) (pool : Pool) (input : VirtualAddress) :
    List Level → (table : PhysicalAddress) → Except Abort (Option Translation)
  | [], _ => return none
  | level :: deeper, table =>
    match pool.read? table (level.slot input.val) with
    | none => return none
    | some descriptor =>
      if format.isPresent descriptor then
        if format.isPage level descriptor then do
          let address ← (format.address level descriptor).add (input.val % level.pageSize)
          return some ⟨address, level.pageSize, format.pageFlags descriptor⟩
        else
          lookupAt format pool input deeper (format.address level descriptor)
      else
        return none

end Format

namespace TranslationTable

/-- Translates an input address. Addresses beyond the input space do not translate. -/
def lookup (table : TranslationTable) (pool : Pool) (input : VirtualAddress) :
    Except Abort (Option Translation) :=
  if input.val < 1 <<< table.format.inputBits then
    table.format.lookupAt pool input table.format.levels table.root
  else
    return none

/-- Whether the root holds no valid descriptor. A root out of the pool counts as empty. -/
def isEmpty (table : TranslationTable) (pool : Pool) : Bool :=
  (pool.node? table.root).all table.format.isEmptyNode

end TranslationTable

end DmaRemap

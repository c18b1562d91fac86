import DmaRemap.TableError

namespace DmaRemap

/-- Why a request to a remapping unit failed. -/
inductive IommuError where
  | table (cause : TableError)
  /-- The unit cannot walk four-level tables. -/
  | unsupportedTableDepth
  /-- Someone else has enabled the unit. -/
  | alreadyEnabled
  | domainIdsExhausted
deriving DecidableEq, Repr

namespace IommuError

def message : IommuError → String
  | table cause => s!"table error: {cause.message}"
  | unsupportedTableDepth => "4-level translation tables not supported"
  | alreadyEnabled => "remapping unit already enabled"
  | domainIdsExhausted => "no free domain id"

/-- The table error behind an error. -/
def cause? : IommuError → Option TableError
  | table cause => some cause
  | _ => none

end IommuError

end DmaRemap

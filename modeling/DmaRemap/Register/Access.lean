import DmaRemap.Text.Hex

namespace DmaRemap

/-- The width of a register access. -/
inductive AccessWidth where
  | word32
  | word64
deriving DecidableEq, Repr

def AccessWidth.bits : AccessWidth → Nat
  | word32 => 32
  | word64 => 64

/-- Whether an access reads or writes. -/
inductive AccessKind where
  | read
  | write
deriving DecidableEq, Repr

def AccessKind.letter : AccessKind → String
  | read => "r"
  | write => "w"

/-- A register access, with the value that software got or put. -/
structure RegisterAccess where
  kind : AccessKind
  width : AccessWidth
  offset : Nat
  value : Nat
deriving DecidableEq, Repr

def RegisterAccess.render (access : RegisterAccess) : String :=
  s!"{access.kind.letter}{access.width.bits} {Text.hex access.offset} {Text.hex access.value}"

end DmaRemap

import DmaRemap.Register.Field

namespace DmaRemap

/-- The root table address register: where the root table is and how it is laid out. -/
structure RootPointer where
  raw : Word
deriving DecidableEq, Repr

namespace RootPointer

def modeField : Field := ⟨10, 2⟩
def addressField : Field := ⟨12, 52⟩

/-- The mode of root and context tables without further levels of indirection. -/
def legacyMode : Nat := 0

/-- The pointer to a root table in legacy mode. -/
def legacy (address : Nat) : RootPointer :=
  ⟨modeField.set (addressField.set 0 (address >>> 12)) legacyMode⟩

def address (pointer : RootPointer) : Nat := addressField.get pointer.raw <<< 12

def mode (pointer : RootPointer) : Nat := modeField.get pointer.raw

end RootPointer

end DmaRemap

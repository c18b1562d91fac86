import DmaRemap.Action
import DmaRemap.Register.Field

namespace DmaRemap

namespace RegisterOffset

def version : Nat := 0x00
def capability : Nat := 0x08
def extendedCapability : Nat := 0x10
def globalCommand : Nat := 0x18
def globalStatus : Nat := 0x1c
def rootTableAddress : Nat := 0x20
def contextCommand : Nat := 0x28
def faultStatus : Nat := 0x34
def faultEventControl : Nat := 0x38
def faultEventData : Nat := 0x3c
def faultEventAddress : Nat := 0x40

end RegisterOffset

/-- The number of bytes in a register page. -/
def registerPageSize : Nat := 0x1000

/-- Register pages, by the accesses software makes. Reads, too, may change the state of the page. -/
class RegisterPage (ρ : Type) where
  read32 : Nat → Action ρ Empty (BitVec 32)
  read64 : Nat → Action ρ Empty Word
  write32 : Nat → BitVec 32 → Action ρ Empty Unit
  write64 : Nat → Word → Action ρ Empty Unit
  /-- A number of reads after which no further read changes what the page answers. -/
  settling : ρ → Nat

namespace RegisterPage

variable {ρ ε α : Type}

/-- A page's answer to an access, within an action that has errors of its own. -/
def ask (inner : Action ρ Empty α) : Action ρ ε α :=
  Action.mapError Empty.elim inner

variable [RegisterPage ρ]

def get32 (offset : Nat) : Action ρ ε (BitVec 32) := do
  let value ← ask (read32 offset)
  Action.observe (.access ⟨.read, .word32, offset, value.toNat⟩)
  return value

def get64 (offset : Nat) : Action ρ ε Word := do
  let value ← ask (read64 offset)
  Action.observe (.access ⟨.read, .word64, offset, value.toNat⟩)
  return value

def put32 (offset : Nat) (value : BitVec 32) : Action ρ ε Unit := do
  Action.observe (.access ⟨.write, .word32, offset, value.toNat⟩)
  ask (write32 offset value)

def put64 (offset : Nat) (value : Word) : Action ρ ε Unit := do
  Action.observe (.access ⟨.write, .word64, offset, value.toNat⟩)
  ask (write64 offset value)

end RegisterPage

end DmaRemap

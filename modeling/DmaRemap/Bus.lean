import DmaRemap.Register.Page

namespace DmaRemap

/-- Answers that stand in for reads of one register: one after the other, the last for good. -/
structure Substitute where
  width : AccessWidth
  offset : Nat
  value : Nat
  later : List Nat
deriving DecidableEq, Repr

/-- A register page behind a bus. -/
structure Bus (ρ : Type) where
  page : ρ
  substitutes : List Substitute := []

namespace Bus

variable {ρ : Type}

def pagePart : Part (Bus ρ) ρ := ⟨Bus.page, fun page bus => { bus with page }⟩

/-- Lets `values` answer reads of a register from now on; with no values, the page answers again. -/
def substitute (bus : Bus ρ) (width : AccessWidth) (offset : Nat) (values : List Nat) : Bus ρ :=
  let others := bus.substitutes.filter fun entry => entry.width != width || entry.offset != offset
  match values with
  | [] => { bus with substitutes := others }
  | value :: later => { bus with substitutes := ⟨width, offset, value, later⟩ :: others }

/-- The answer that stands in for a read, and the bus after it. -/
def substituted? (bus : Bus ρ) (width : AccessWidth) (offset : Nat) : Option (Nat × Bus ρ) :=
  match bus.substitutes.find? fun entry => entry.width == width && entry.offset == offset with
  | none => none
  | some entry =>
    match entry.later with
    | [] => some (entry.value, bus)
    | _ :: _ => some (entry.value, bus.substitute width offset entry.later)

/-- A read through the bus: a substitute answers it if there is one, otherwise the page does. -/
def read {size : Nat} (width : AccessWidth) (offset : Nat) (ask : Action ρ Empty (BitVec size)) :
    Action (Bus ρ) Empty (BitVec size) := do
  match (← Action.state).substituted? width offset with
  | some (value, bus) =>
    Action.update fun _ => bus
    return BitVec.ofNat size value
  | none => Action.on pagePart ask

instance [RegisterPage ρ] : RegisterPage (Bus ρ) where
  read32 offset := read .word32 offset (RegisterPage.read32 offset)
  read64 offset := read .word64 offset (RegisterPage.read64 offset)
  write32 offset value := Action.on pagePart (RegisterPage.write32 offset value)
  write64 offset value := Action.on pagePart (RegisterPage.write64 offset value)
  settling bus :=
    bus.substitutes.foldl (fun reads entry => reads + entry.later.length)
      (RegisterPage.settling bus.page)

end Bus

end DmaRemap

import DmaRemap.Action
import DmaRemap.Bitmap
import DmaRemap.Level
import DmaRemap.Register.Field
import DmaRemap.TableError
import DmaRemap.Text.Described

/-!
Pools of tables. A pool owns a window of physical memory, divided into nodes of one table each, and
hands out the lowest free node. Descriptors name nodes by physical address, so a pool resolves an
address to the node it has handed out there.
-/

namespace DmaRemap

/-- The words of one table. -/
abbrev Node := Vector Word 512

namespace Node

def zero : Node := Vector.replicate 512 0

/-- Performs writes of single words in their order. -/
def write (node : Node) (writes : List (Slot × Word)) : Node :=
  writes.foldl (fun now entry => now.set entry.1.val entry.2) node

end Node

/-- A pool of nodes with known physical addresses, a bitmap of those that are handed out and a count
of the free ones. -/
structure Pool where
  base : PhysicalAddress
  capacity : Nat
  nodes : Vector Node capacity
  handedOut : Bitmap capacity
  free : Nat
  aligned : base.val % 4096 = 0
  fits : base.val + capacity * 4096 < 1 <<< 52

namespace Pool

/-- A pool that has not handed out any node. -/
def fresh (base : PhysicalAddress) (capacity : Nat) (aligned : base.val % 4096 = 0)
    (fits : base.val + capacity * 4096 < 1 <<< 52) : Pool :=
  ⟨base, capacity, Vector.replicate capacity Node.zero, .clear capacity, capacity, aligned, fits⟩

/-- A pool that cannot hand out any node. -/
def empty : Pool := fresh Address.zero 0 (by decide) (by decide)

instance : Inhabited Pool := ⟨empty⟩

/-- The number of nodes handed out. -/
def used (pool : Pool) : Nat := pool.capacity - pool.free

/-- The pool over `nodes` from `base` on, if the base is aligned and the window ends within the
address width. Whatever the nodes held is cleared. -/
def over? (base : PhysicalAddress) (nodes : Array Node) : Option Pool :=
  if aligned : base.val % 4096 = 0 then
    if fits : base.val + nodes.size * 4096 < 1 <<< 52 then
      some (fresh base nodes.size aligned fits)
    else none
  else none

/-- A pool over `nodes` from `base` on. -/
def ofNodes {σ : Type} (base : PhysicalAddress) (nodes : Array Node) :
    Action σ TableError Pool := do
  match over? base nodes with
  | some pool => return pool
  | none =>
    if base.val % 4096 != 0 then
      Action.record .error fun () =>
        s!"table pool at {base} is not aligned to {Text.hex tableBytes}"
    Action.fail (.misaligned base)

/-- A pool of `capacity` nodes from `base` on. -/
def create {σ : Type} (base : PhysicalAddress) (capacity : Nat) : Action σ TableError Pool :=
  ofNodes base (Array.replicate capacity Node.zero)

/-- The address of a node. -/
def addressOf (pool : Pool) (index : Fin pool.capacity) : PhysicalAddress :=
  ⟨pool.base.val + index.val * 4096,
    Nat.lt_trans
      (Nat.add_lt_add_left (Nat.mul_lt_mul_of_pos_right index.isLt (by decide)) _) pool.fits⟩

/-- The live node at an address, as an index. -/
def indexOf? (pool : Pool) (address : PhysicalAddress) : Option (Fin pool.capacity) :=
  let offset := address.val - pool.base.val
  if pool.base.val ≤ address.val ∧ offset % 4096 = 0 then
    if within : offset / 4096 < pool.capacity then
      if pool.handedOut.isUsed ⟨offset / 4096, within⟩ then some ⟨offset / 4096, within⟩ else none
    else none
  else none

/-- The address of a live node, which is found by its index. -/
def nodeAddress? (pool : Pool) (index : Nat) : Option PhysicalAddress :=
  if within : index < pool.capacity then
    if pool.handedOut.isUsed ⟨index, within⟩ then some (pool.addressOf ⟨index, within⟩) else none
  else none

/-- Whether an address is that of a live node. -/
def contains (pool : Pool) (address : PhysicalAddress) : Bool :=
  (pool.indexOf? address).isSome

/-- The live node at an address. -/
def node? (pool : Pool) (address : PhysicalAddress) : Option Node :=
  (pool.indexOf? address).map pool.nodes.get

/-- A word of the live node at an address. -/
def read? (pool : Pool) (address : PhysicalAddress) (slot : Slot) : Option Word :=
  (pool.indexOf? address).map fun index => (pool.nodes.get index)[slot]

/-- Changes the live node at an address; without one there, nothing changes. -/
def modifyNode (pool : Pool) (address : PhysicalAddress) (change : Node → Node) : Pool :=
  match pool.indexOf? address with
  | some index => { pool with nodes := pool.nodes.set index (change (pool.nodes.get index)) }
  | none => pool

/-- Writes a word of the live node at an address. -/
def write (pool : Pool) (address : PhysicalAddress) (slot : Slot) (word : Word) : Pool :=
  pool.modifyNode address fun node => node.set slot.val word

/-- Hands out the lowest free node, all zero. -/
def take (pool : Pool) : Option PhysicalAddress × Pool :=
  match pool.handedOut.lowestFree? with
  | some index =>
    (some (pool.addressOf index),
      { pool with
        nodes := pool.nodes.set index Node.zero
        handedOut := pool.handedOut.setUsed index true
        free := pool.free - 1 })
  | none => (none, pool)

/-- Takes back the live node at an address and clears it. The result tells whether there was one. -/
def giveBack (pool : Pool) (address : PhysicalAddress) : Bool × Pool :=
  match pool.indexOf? address with
  | some index =>
    (true,
      { pool with
        nodes := pool.nodes.set index Node.zero
        handedOut := pool.handedOut.setUsed index false
        free := pool.free + 1 })
  | none => (false, pool)

/-- Hands out a node. -/
def construct : Action Pool TableError PhysicalAddress := do
  match ← Action.step take with
  | some address =>
    Action.observe (.wipe address)
    let pool ← Action.state
    Action.record .trace fun () => s!"allocated table {address} ({pool.free} free)"
    return address
  | none => Action.fail .outOfMemory

/-- Takes a node back. An address without a live node is reported and otherwise ignored. -/
def destruct {ε : Type} (address : PhysicalAddress) : Action Pool ε Unit := do
  if ← Action.step fun pool => pool.giveBack address then
    Action.observe (.wipe address)
    let pool ← Action.state
    Action.record .trace fun () => s!"released table {address} ({pool.free} free)"
  else
    Action.record .error fun () => s!"attempt to release unknown table {address}"

/-- Writes words of the live node at an address, one after the other. -/
def put {ε : Type} (address : PhysicalAddress) (writes : List (Slot × Word)) :
    Action Pool ε Unit :=
  writes.forM fun (slot, word) => do
    Action.update fun pool => pool.write address slot word
    Action.observe (.write address slot word)

/-- Sets the live node at an address to zero, if there is one. -/
def wipe {ε : Type} (address : PhysicalAddress) : Action Pool ε Unit := do
  if (← Action.state).contains address then
    Action.update fun pool => pool.modifyNode address fun _ => Node.zero
    Action.observe (.wipe address)

/-- An index into a node that is not known to be in range. -/
def checkSlot (index : Nat) : Except Abort Slot :=
  if within : index < 512 then .ok ⟨index, within⟩
  else .error (.indexOutOfBounds 512 index)

/-- A word of the live node at an address, if there is such a node. -/
def peek (pool : Pool) (address : PhysicalAddress) (index : Nat) : Except Abort (Option Word) := do
  if pool.contains address then
    return pool.read? address (← checkSlot index)
  else
    return none

/-- Replaces a word of the live node at an address, if there is such a node, and gives the old one.
-/
def poke {ε : Type} (address : PhysicalAddress) (index : Nat) (word : Word) :
    Action Pool ε (Option Word) := do
  if (← Action.state).contains address then
    let slot ← checkSlot index
    let old := (← Action.state).read? address slot
    put address [(slot, word)]
    return old
  else
    return none

def describe (pool : Pool) : String :=
  Text.fields "TableAllocator"
    [("phys_base", pool.base.describe), ("capacity", toString pool.capacity),
      ("free", toString pool.free)]

end Pool

end DmaRemap

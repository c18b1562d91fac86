import DmaRemap.Action
import DmaRemap.Bitmap
import DmaRemap.Error

namespace DmaRemap

/-- The hardware's tag of a domain. -/
structure DomainId where
  val : Fin 65536
deriving DecidableEq, Repr

namespace DomainId

def ofNat (n : Nat) : DomainId := ⟨Fin.ofNat 65536 n⟩

theorem ofNat_val (id : DomainId) : ofNat id.val.val = id :=
  congrArg mk (Fin.ext (Nat.mod_eq_of_lt id.val.isLt))

/-- The reserved id that names no domain. -/
def invalid : DomainId := ⟨0⟩

def isValid (id : DomainId) : Bool :=
  id != invalid

instance : ToString DomainId := ⟨fun id => toString id.val.val⟩

def describe (id : DomainId) : String :=
  s!"DomainId({id})"

end DomainId

/-- The ids from 1 to `count`, with a bitmap of those that are handed out and a counter of the
others. The bit of an id has the place before it, as the reserved id has none. Ids have 16 bits. -/
structure DomainIds where
  count : Nat
  handedOut : Bitmap count
  available : Nat
  small : count ≤ 65535

namespace DomainIds

/-- All ids of a unit that supports `limit` ids, the reserved one among them. -/
def ofLimit (limit : Nat) : DomainIds :=
  let count := min (limit - 1) 65535
  ⟨count, .clear count, count, Nat.min_le_right ..⟩

/-- The id whose bit has a place. -/
def idAt (ids : DomainIds) (place : Fin ids.count) : DomainId :=
  ⟨place.val + 1, Nat.lt_of_le_of_lt (Nat.le_trans place.isLt ids.small) (by decide)⟩

/-- The place of the bit of an id, if it has one. The reserved id wraps around to a place far behind
the last. -/
def placeOf? (ids : DomainIds) (id : DomainId) : Option (Fin ids.count) :=
  let place := (BitVec.ofNat 64 id.val.val - 1#64).toNat
  if within : place < ids.count then some ⟨place, within⟩ else none

/-- Hands out the lowest free id. -/
def take (ids : DomainIds) : Option DomainId × DomainIds :=
  match ids.handedOut.lowestFree? with
  | some place =>
    (some (ids.idAt place),
      { ids with
        handedOut := ids.handedOut.setUsed place true
        available := ids.available - 1 })
  | none => (none, ids)

/-- Takes back an id that is handed out. The result tells whether it was. -/
def giveBack (ids : DomainIds) (id : DomainId) : Bool × DomainIds :=
  match ids.placeOf? id with
  | some place =>
    if ids.handedOut.isUsed place then
      (true,
        { ids with
          handedOut := ids.handedOut.setUsed place false
          available := ids.available + 1 })
    else
      (false, ids)
  | none => (false, ids)

/-- Hands out an id. A counter that has missed it aborts. -/
def acquire : Action DomainIds IommuError DomainId := do
  let ids ← Action.state
  match ids.take with
  | (some id, rest) =>
    let _ ← Checked.sub ids.available 1
    Action.update fun _ => rest
    return id
  | (none, _) => Action.fail .domainIdsExhausted

/-- Takes an id back. One that is not handed out is reported and otherwise ignored. -/
def release {ε : Type} (id : DomainId) : Action DomainIds ε Unit := do
  let ids ← Action.state
  match ids.giveBack id with
  | (true, rest) =>
    let _ ← Checked.add ids.available 1
    Action.update fun _ => rest
  | (false, _) =>
    Action.record .error fun () => s!"attempt to free unallocated domain id {id}"

end DomainIds

end DmaRemap

import DmaRemap.Context.Entry
import DmaRemap.Pci.Device
import DmaRemap.Table.Basic

/-!
The bindings of devices to domains: a root table and the context tables it links, made when the
first device of a bus is bound. In effect a finite map from devices to a second-level table and a
domain.
-/

namespace DmaRemap

/-- What binding a device did. -/
inductive BindOutcome where
  | installed
  /-- The device was already bound to the same table as the same domain. -/
  | unchanged
  /-- A different binding was overwritten. -/
  | replaced (previous : ContextEntry)
deriving DecidableEq, Repr

/-- What unbinding a device did. -/
inductive UnbindOutcome where
  | removed
  | absent
  /-- The device was bound to another table than expected; it was unbound all the same. -/
  | foreign (found : PhysicalAddress)
deriving DecidableEq, Repr

/-- A root table, and the pool of the root table and all context tables. -/
structure Bindings where
  pool : Pool
  root : PhysicalAddress
  coherency : Coherency

namespace Bindings

def tables : Part Bindings Pool :=
  ⟨Bindings.pool, fun pool bindings => { bindings with pool }⟩

/-- An empty root table from a pool. -/
def create {σ : Type} (pool : Pool) (coherency : Coherency) : Action σ TableError Bindings := do
  match ← Action.beside pool (Action.on .second Pool.construct) with
  | (.ok root, pool) => return { pool, root, coherency }
  | (.error cause, _) => Action.fail cause

/-- The context table of a bus. -/
def contextTable? (bindings : Bindings) (bus : Fin 256) : Except Abort (Option PhysicalAddress) :=
  match bindings.pool.node? bindings.root with
  | some root => root.contextTable? bus
  | none => return none

/-- The words of the context table of a bus. -/
def contextNode? (bindings : Bindings) (bus : Fin 256) : Except Abort (Option Node) := do
  return (← bindings.contextTable? bus).bind bindings.pool.node?

/-- The context entry of a device, present or not. -/
def context (bindings : Bindings) (bdf : Bdf) : Except Abort ContextEntry := do
  match ← bindings.contextNode? bdf.bus with
  | some node => return node.contextEntry bdf.devfn
  | none => return .absent

/-- The bound devices and their entries, in the order of their routing ids. -/
def toList (bindings : Bindings) : Except Abort (List (Bdf × ContextEntry)) := do
  let buses ← (List.finRange 256).mapM fun bus => do
    match ← bindings.contextNode? bus with
    | none => return []
    | some node =>
      return (List.finRange 256).filterMap fun devfn =>
        let entry := node.contextEntry devfn
        if entry.present then
          some (.ofRoutingId (.ofNat (bus.val * 256 + devfn.val)), entry)
        else
          none
  return buses.flatten

/-- The context table of a bus, which is made and linked if there is none. -/
def ensureContextTable (bus : Fin 256) : Action Bindings TableError PhysicalAddress := do
  let bindings ← Action.state
  match ← bindings.contextTable? bus with
  | some table => return table
  | none =>
    let table ← Action.on tables Pool.construct
    unless bindings.pool.contains bindings.root do
      Action.fail (.unknownTable bindings.root)
    Action.on tables (Pool.put bindings.root (Node.linkWrites bus table))
    Action.record .debug fun () =>
      s!"created context table {table} for bus 0x{Text.paddedDigits 16 2 bus.val}"
    return table

/-- Binds a device to a second-level table as a domain. Another binding is reported and overwritten.
-/
def bind (bdf : Bdf) (table : PhysicalAddress) (domain : DomainId) :
    Action Bindings TableError BindOutcome := do
  let context ← ensureContextTable bdf.bus
  match (← Action.state).pool.node? context with
  | none => Action.fail (.unknownTable context)
  | some node =>
    let entry := ContextEntry.binding table domain
    let previous := node.contextEntry bdf.devfn
    if previous.present && previous == entry then
      return .unchanged
    if previous.present then
      Action.recordM .error do
        let bound ← previous.table
        return s!"context entry for {bdf} already present " ++
          s!"(domain {previous.domain}, table {bound}), overwriting"
    Action.on tables (Pool.put context (Node.putWrites bdf.devfn entry))
    return if previous.present then .replaced previous else .installed

/-- Unbinds a device, which is expected to be bound to `table`. -/
def unbind {ε : Type} (bdf : Bdf) (table : PhysicalAddress) : Action Bindings ε UnbindOutcome := do
  let bindings ← Action.state
  match ← bindings.contextTable? bdf.bus with
  | none => return .absent
  | some context =>
    match bindings.pool.node? context with
    | none => return .absent
    | some node =>
      let entry := node.contextEntry bdf.devfn
      if !entry.present then
        return .absent
      Action.on tables (Pool.put context (node.clearWrites bdf.devfn))
      let found ← entry.table
      if found = table then
        return .removed
      Action.record .error fun () =>
        s!"removing foreign context entry for {bdf}: expected table {table}, found {found}"
      return .foreign found

/-- The devices of a context table that are bound to a second-level table. -/
def boundDevices (node : Node) (table : PhysicalAddress) : Except Abort (List (Fin 256)) :=
  (List.finRange 256).filterM fun devfn => do
    let entry := node.contextEntry devfn
    if entry.present then
      return (← entry.table) == table
    else
      return false

/-- Unbinds every device that is bound to a second-level table, and counts them. -/
def unbindAll {ε : Type} (table : PhysicalAddress) : Action Bindings ε Nat := do
  let counts ← (List.finRange 256).mapM fun bus => do
    let bindings ← Action.state
    match ← bindings.contextTable? bus with
    | none => return 0
    | some context =>
      match bindings.pool.node? context with
      | none => return 0
      | some node =>
        let bound ← boundDevices node table
        Action.on tables <| bound.forM fun devfn =>
          Pool.put context (node.clearWrites devfn)
        return bound.length
  return counts.foldl (· + ·) 0

end Bindings

end DmaRemap

import DmaRemap.Controller.Basic
import DmaRemap.Proofs.Effects

namespace DmaRemap

open DmaRemap.Action (Keeps)
open RegisterPage (get32 get64 put32 put64)

variable {ρ ε α : Type}

/-- Whether a register that shows this word has its command in flight. Both kinds of command say so
in the same bit. -/
abbrev inFlight (word : Word) : Bool := ContextCommand.invalidateField.isSet word

namespace RemappingUnit

/-- The command that invalidates the IOTLB for a domain, if it is a valid one, or for all. -/
def iotlbRequest (domain : Option DomainId) : IotlbCommand :=
  let domain := domain.filter DomainId.isValid
  .invalidate (iotlbScope domain) (domain.getD .invalid)

/-- The command that invalidates the context cache. -/
def contextRequest (domain : Option DomainId) (device : Option RoutingId) : ContextCommand :=
  let domain := domain.filter DomainId.isValid
  .invalidate (contextScope domain device) (device.getD (.ofNat 0)) (domain.getD .invalid)

theorem iotlbRequest_filter (domain : Option DomainId) :
    iotlbRequest (domain.filter DomainId.isValid) = iotlbRequest domain := by
  simp [iotlbRequest, Option.filter_filter]

variable [RegisterPage ρ] (unit : RemappingUnit)

/-- Polls a register until it shows that no command is in flight. -/
def await (name : String) (offset : Nat) : Action ρ ε Unit :=
  unit.poll name do return !inFlight (← get64 offset)

/-- Gives a command to a register and returns the unit's report. -/
def handshake (name : String) (offset : Nat) (command : Word) : Action ρ ε Word := do
  unit.await name offset
  put64 offset command
  unit.await name offset
  get64 offset

/-- An invalidation of the IOTLB is a handshake whose report is judged. -/
theorem invalidateIotlb_eq (domain : Option DomainId) (range : VirtualAddress) (size : Nat) :
    ∃ text, (unit.invalidateIotlb domain range size : Action ρ ε Invalidation) = (do
      Action.record .trace text
      let report ← unit.handshake "IOTLB invalidation" unit.extended.iotlbOffset
        (iotlbRequest domain).raw
      unit.checkGranularity "IOTLB" (iotlbScope (domain.filter DomainId.isValid))
        (IotlbCommand.mk report).actual) := by
  apply Exists.intro
  rw [invalidateIotlb]
  simp only [handshake, readIotlbCommand, bind_assoc, pure_bind]
  rfl

/-- Invalidates the context cache by a handshake whose report is judged, and then the IOTLB. -/
def flush (domain : Option DomainId) (device : Option RoutingId) : Action ρ ε Invalidation := do
  let report ← unit.handshake "context-cache invalidation" RegisterOffset.contextCommand
    (contextRequest domain device).raw
  let outcome ← unit.checkGranularity "context-cache"
    (contextScope (domain.filter DomainId.isValid) device) (ContextCommand.mk report).actual
  discard <| unit.invalidateIotlb (domain.filter DomainId.isValid) Address.zero 0
  return outcome

/-- An invalidation of all caches is refused by the version or flushes them. -/
theorem invalidateAll_eq (domain : Option DomainId) (device : Option RoutingId) :
    ∃ text, (unit.invalidateAll domain device : Action ρ ε Invalidation) = (do
      let version ← readVersion
      if lastRegisterInvalidation < version.major then
        Action.record .error text
        return .unsupported
      else
        unit.flush domain device) := by
  apply Exists.intro
  rw [invalidateAll]
  simp only [flush, handshake, readContextCommand, bind_assoc, pure_bind]
  rfl

end RemappingUnit

/-- A property of actions that messages have, and that steps in a row have if each of them does. -/
structure Action.Compositional (holds : ∀ {α : Type}, Action ρ ε α → Prop) : Prop where
  pure : ∀ {α : Type} (value : α), holds (Pure.pure value)
  record : ∀ (severity : Severity) (text : Unit → String), holds (Action.record severity text)
  bind : ∀ {α β : Type} {first : Action ρ ε β} {rest : β → Action ρ ε α}, holds first →
    (∀ value, holds (rest value)) → holds (first >>= rest)

namespace Action.Compositional

variable {holds : ∀ {α : Type}, Action ρ ε α → Prop} (composes : Compositional @holds)
  (unit : RemappingUnit)
include composes

theorem checkGranularity (cache : String) (requested : Granularity)
    (actual : Option Granularity) : holds (unit.checkGranularity cache requested actual) := by
  have noted (severity : Severity) (text : Unit → String) (outcome : Invalidation) :
      holds (Action.record severity text >>= fun _ => Pure.pure outcome) :=
    composes.bind (composes.record ..) fun _ => composes.pure _
  unfold RemappingUnit.checkGranularity
  split
  · exact noted ..
  · split
    · split
      · exact noted ..
      · exact composes.pure _
    · exact composes.pure _

variable [RegisterPage ρ]

theorem handshake {name : String} {offset : Nat} {command : Word}
    (waits : holds (unit.await name offset)) (writes : holds (put64 offset command))
    (reads : holds (get64 offset)) : holds (unit.handshake name offset command) :=
  composes.bind waits fun _ => composes.bind writes fun _ => composes.bind waits fun _ => reads

variable {domain : Option DomainId}
  (flushes : ∀ name, holds (unit.handshake name unit.extended.iotlbOffset
    (RemappingUnit.iotlbRequest domain).raw))
include flushes

theorem invalidateIotlb (start : VirtualAddress) (size : Nat) :
    holds (unit.invalidateIotlb domain start size) := by
  obtain ⟨text, same⟩ := unit.invalidateIotlb_eq (ρ := ρ) (ε := ε) domain start size
  rw [same]
  exact composes.bind (composes.record ..) fun _ => composes.bind (flushes _) fun _ =>
    composes.checkGranularity ..

theorem invalidateAll {device : Option RoutingId} (asks : holds RemappingUnit.readVersion)
    (shakes : ∀ name, holds (unit.handshake name RegisterOffset.contextCommand
      (RemappingUnit.contextRequest domain device).raw)) :
    holds (unit.invalidateAll domain device) := by
  obtain ⟨text, same⟩ := unit.invalidateAll_eq (ρ := ρ) (ε := ε) domain device
  rw [same]
  refine composes.bind asks fun version => ?_
  split
  · exact composes.bind (composes.record ..) fun _ => composes.pure _
  · rw [RemappingUnit.flush]
    refine composes.bind (shakes _) fun report => composes.bind (composes.checkGranularity ..)
      fun outcome => ?_
    rw [← RemappingUnit.iotlbRequest_filter] at flushes
    have last := composes.invalidateIotlb unit flushes Address.zero 0
    exact composes.bind (composes.bind last fun _ => composes.pure ()) fun _ => composes.pure _

end Action.Compositional

variable {relation : Journaled ρ → Journaled ρ → Prop} [IsPreorder (Journaled ρ) relation]

theorem RemappingUnit.keeps_pollUpTo {done : Action ρ ε Bool} (kept : done.Keeps relation)
    (giveUp : Abort) (polls : Nat) : (pollUpTo done giveUp polls).Keeps relation := by
  induction polls with
  | zero => exact .abort giveUp
  | succ polls ih => exact .bind kept fun _ => .ite _ (.pure _) ih

variable [RegisterPage ρ]

theorem RemappingUnit.keeps_poll {done : Action ρ ε Bool} (kept : done.Keeps relation)
    (unit : RemappingUnit) (command : String) : (unit.poll command done).Keeps relation := by
  unfold poll
  split
  · exact keeps_pollUpTo kept ..
  · exact .bind .state fun _ => keeps_pollUpTo kept ..

/-- A relation that everything keeps by which software talks to a unit, short of the writes of
64-bit registers. -/
structure Tolerant (ε : Type) (relation : Journaled ρ → Journaled ρ → Prop) : Prop where
  record : ∀ severity text, (Action.record severity text : Action ρ ε Unit).Keeps relation
  get32 : ∀ offset, (get32 offset : Action ρ ε (BitVec 32)).Keeps relation
  put32 : ∀ offset value, (put32 offset value : Action ρ ε Unit).Keeps relation
  get64 : ∀ offset, (get64 offset : Action ρ ε Word).Keeps relation

namespace Tolerant

variable (tolerates : Tolerant ε relation) (unit : RemappingUnit)
include tolerates

theorem compositional :
    Action.Compositional fun {α} (action : Action ρ ε α) => action.Keeps relation :=
  ⟨.pure, tolerates.record, .bind⟩

theorem readVersion : (RemappingUnit.readVersion : Action ρ ε Version).Keeps relation :=
  .bind (tolerates.get32 _) fun _ => .pure _

theorem handshake {offset : Nat} {command : Word}
    (writes : (put64 offset command : Action ρ ε Unit).Keeps relation) (name : String) :
    (unit.handshake name offset command : Action ρ ε Word).Keeps relation := by
  have waits : (unit.await name offset : Action ρ ε Unit).Keeps relation :=
    RemappingUnit.keeps_poll (.bind (tolerates.get64 offset) fun _ => .pure _) unit name
  exact tolerates.compositional.handshake unit waits writes (tolerates.get64 offset)

theorem globalCommand (mask : BitVec 32) (present : Bool) :
    (unit.globalCommand mask present : Action ρ ε Unit).Keeps relation :=
  .bind (tolerates.get32 _) fun _ => .bind (tolerates.put32 ..) fun _ =>
    RemappingUnit.keeps_poll (.bind (tolerates.get32 _) fun _ => .pure _) ..

theorem routeFaults (interrupt : FaultInterrupt) :
    (unit.routeFaults interrupt : Action ρ ε Unit).Keeps relation := by
  unfold RemappingUnit.routeFaults
  split
  · exact tolerates.record ..
  · exact .bind (tolerates.put32 ..) fun _ => .bind (tolerates.put32 ..) fun _ =>
      .bind (tolerates.get32 _) fun _ => tolerates.put32 ..

end Tolerant

end DmaRemap

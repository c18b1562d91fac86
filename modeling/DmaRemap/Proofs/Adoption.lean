import DmaRemap.Proofs.Bindings
import DmaRemap.Proofs.Commands

namespace DmaRemap.Controller

open RegisterPage (get64 put64)

variable {ρ : Type} [RegisterPage ρ]

/-- The last part of taking a unit over. -/
def install (unit : RemappingUnit) (bindings : Bindings) (interrupt : Option FaultInterrupt) :
    Action ρ IommuError Controller := do
  let capability := unit.capability
  let extended := unit.extended
  if capability.writeBufferFlush && !capability.cachingMode then
    Action.record .warn fun () =>
      s!"IOMMU {unit.name} requires explicit write-buffer flushing (not implemented)"
  interrupt.forM unit.routeFaults
  put64 RegisterOffset.rootTableAddress (RootPointer.legacy bindings.root.val).raw
  unit.globalCommand GlobalCommand.setRootTable true
  Action.recordM .debug do
    let version ← RemappingUnit.readVersion
    return s!"IOMMU {unit.name}: version {version}, {capability.describe}, {extended.describe}, " ++
      s!"root table at {bindings.root}"
  return {
    unit
    bindings
    ids := .ofLimit capability.maxDomains
    interrupt := interrupt.map FaultInterrupt.acknowledge }

/-- Takes over a unit once software knows what it is capable of. -/
def adopt (unit : RemappingUnit) (pool : Pool) (interrupt : Option FaultInterrupt) :
    Action ρ IommuError Controller := do
  if unit.capability.fourLevel then
    let bindings ← Action.mapError .table (Bindings.create pool unit.coherency)
    if !unit.capability.rootSetInvalidates then
      discard <| unit.invalidateAll none none
      install unit bindings interrupt
    else if (← RemappingUnit.readGlobalStatus).has GlobalStatus.enabled then
      Action.record .error fun () => s!"IOMMU {unit.name} already enabled"
      Action.fail .alreadyEnabled
    else
      install unit bindings interrupt
  else
    Action.record .error fun () => s!"IOMMU {unit.name} does not support 4-level page tables"
    Action.fail .unsupportedTableDepth

theorem takeOver_eq (name : String) (pool : Pool) (interrupt : Option FaultInterrupt)
    (driver : Config) :
    (takeOver name pool interrupt driver : Action ρ IommuError Controller) = (do
      let capability ← get64 RegisterOffset.capability
      let extended ← get64 RegisterOffset.extendedCapability
      adopt ⟨name, driver, ⟨capability⟩, ⟨extended⟩⟩ pool interrupt) :=
  rfl

theorem install_gives (unit : RemappingUnit) (bindings : Bindings)
    (interrupt : Option FaultInterrupt) :
    (install unit bindings interrupt : Action ρ IommuError Controller).Gives fun controller =>
      controller.unit = unit ∧ controller.bindings = bindings ∧
        ∃ limit, controller.ids = .ofLimit limit := by
  refine .ite _ (.after fun _ => ?_) ?_
  all_goals
    exact .after fun _ => .after fun _ => .after fun _ => .after fun _ => .pure ⟨rfl, rfl, _, rfl⟩

/-- A unit that was adopted has bindings that bind nothing, and all ids are free. -/
theorem adopt_gives (unit : RemappingUnit) (pool : Pool) (interrupt : Option FaultInterrupt) :
    (adopt unit pool interrupt : Action ρ IommuError Controller).Gives fun controller =>
      controller.unit = unit ∧ controller.bindings.Wired (fun _ => none) ∧
        ∃ limit, controller.ids = .ofLimit limit := by
  have created : (Action.mapError .table (Bindings.create pool unit.coherency) :
      Action ρ IommuError Bindings).Gives fun bindings => bindings.Wired fun _ => none := by
    constructor
    intro start
    rw [Action.ends_mapError]
    exact (Bindings.create_ends pool unit.coherency start).mono (fun _ _ ended => ended.2.1)
      fun _ _ _ => trivial
  refine .ite _ (.bind created fun bindings wired => ?_) (.after fun _ => .fail _)
  have installs : (install unit bindings interrupt : Action ρ IommuError Controller).Gives
      fun controller => controller.unit = unit ∧ controller.bindings.Wired (fun _ => none) ∧
        ∃ limit, controller.ids = .ofLimit limit :=
    (install_gives ..).mono fun controller installed =>
      ⟨installed.1, installed.2.1 ▸ wired, installed.2.2⟩
  exact .ite _ (.after fun _ => installs)
    (.after fun _ => .ite _ (.after fun _ => .fail _) installs)

/-- Taking over a unit makes bindings that bind nothing, and all ids are free. -/
theorem takeOver_gives (name : String) (pool : Pool) (interrupt : Option FaultInterrupt)
    (config : Config) :
    (takeOver name pool interrupt config : Action ρ IommuError Controller).Gives fun controller =>
      controller.bindings.Wired (fun _ => none) ∧ ∃ limit, controller.ids = .ofLimit limit := by
  rw [takeOver_eq]
  exact .after fun _ => .after fun _ => (adopt_gives ..).mono fun _ => And.right

section Tolerant

variable {relation : Journaled ρ → Journaled ρ → Prop} [IsPreorder (Journaled ρ) relation]
  (tolerates : Tolerant IommuError relation)
  (links : ∀ value,
    (put64 RegisterOffset.rootTableAddress value : Action ρ IommuError Unit).Keeps relation)
include tolerates links

theorem keeps_install (unit : RemappingUnit) (bindings : Bindings)
    (interrupt : Option FaultInterrupt) :
    (install unit bindings interrupt : Action ρ IommuError Controller).Keeps relation := by
  have routes : (interrupt.forM unit.routeFaults : Action ρ IommuError Unit).Keeps relation := by
    cases interrupt with
    | none => exact .pure _
    | some interrupt => exact tolerates.routeFaults unit interrupt
  refine .ite _ (.bind (tolerates.record ..) fun _ => ?_) ?_
  all_goals
    exact .bind routes fun _ => .bind (links _) fun _ =>
      .bind (tolerates.globalCommand ..) fun _ =>
        .bind (.recordM (fun _ => tolerates.record ..) (.bind tolerates.readVersion fun _ =>
          .pure _)) fun _ => .pure _

theorem keeps_adopt (unit : RemappingUnit) (pool : Pool) (interrupt : Option FaultInterrupt)
    (creates : (Bindings.create pool unit.coherency : Action ρ TableError Bindings).Keeps relation)
    (forgets : (unit.invalidateAll none none : Action ρ IommuError Invalidation).Keeps relation) :
    (adopt unit pool interrupt : Action ρ IommuError Controller).Keeps relation := by
  have refuses (text : Unit → String) (error : IommuError) :
      (Action.record .error text >>= fun _ => Action.fail error :
        Action ρ IommuError Controller).Keeps relation :=
    .bind (tolerates.record ..) fun _ => .fail _
  refine .ite _ (.bind (.mapError _ creates) fun bindings => ?_) (refuses ..)
  have installs := keeps_install tolerates links unit bindings interrupt
  exact .ite _ (.bind forgets.discard fun _ => installs)
    (.bind (.bind (tolerates.get32 _) fun _ => .pure _) fun _ => .ite _ (refuses ..) installs)

end Tolerant

end DmaRemap.Controller

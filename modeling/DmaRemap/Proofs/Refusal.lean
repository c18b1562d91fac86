import DmaRemap.Proofs.Runs

/-! Units that have no registers to invalidate with. Their version says so, and software that has
read it must not submit commands to them. What is followed here is which 64-bit registers an action
writes as long as the versions it reads are that new. Invalidating the context cache asks for the
version first; invalidating the IOTLB does not, and some calls on domains do nothing else. -/

namespace DmaRemap

open DmaRemap.Action (Keeps)
open RegisterPage (get32 get64 put32 put64)
open RemappingUnit (lastRegisterInvalidation)

variable {σ τ ρ ε ε' α β : Type}

/-- The offset of the 64-bit register that an effect writes, if it writes one. -/
def Effect.stored? : Effect → Option Nat
  | .access ⟨.write, .word64, offset, _⟩ => some offset
  | _ => none

theorem Effect.stored?_of_contextCommand? {effect : Effect} {command : ContextCommand}
    (submits : effect.contextCommand? = some command) :
    effect.stored? = some RegisterOffset.contextCommand := by
  unfold contextCommand? at submits
  split at submits
  · split at submits
    case isTrue here => rw [stored?, here]
    case isFalse => cases submits
  · cases submits

/-- Whether no version that the software got has registers to invalidate with. -/
def LacksRegisters (log : List Effect) : Prop :=
  ∀ version ∈ log.filterMap Effect.version?, lastRegisterInvalidation < version.major

instance (log : List Effect) : Decidable (LacksRegisters log) :=
  inferInstanceAs (Decidable (∀ version ∈ log.filterMap Effect.version?, _))

theorem Effect.Visits.eq_of_stored? {offset other : Nat} {command : Word} {effect : Effect}
    (visits : effect.Visits offset command) (stored : effect.stored? = some other) :
    offset = other := by
  obtain ⟨word, rfl⟩ | rfl := visits
  · cases stored
  · exact Option.some.inj stored

theorem lacksRegisters_append {past later : List Effect} :
    LacksRegisters (past ++ later) ↔ LacksRegisters past ∧ LacksRegisters later := by
  simp only [LacksRegisters, List.filterMap_append, List.forall_mem_append]

variable {offsets offsets' : Nat → Prop}

/-- Whether effects write 64-bit registers at some offsets only, unless a version among them has
registers to invalidate with. -/
def StoresAt (offsets : Nat → Prop) (added : List Effect) : Prop :=
  LacksRegisters added → ∀ effect ∈ added, ∀ offset, effect.stored? = some offset → offsets offset

namespace StoresAt

variable {added : List Effect}

theorem none (stored : ∀ effect ∈ added, effect.stored? = .none) : StoresAt offsets added := by
  intro _ effect member offset stores
  cases (stored effect member).symm.trans stores

theorem of_visits {offset : Nat} {command : Word} (allowed : offsets offset)
    (visits : ∀ effect ∈ added, effect.Visits offset command) : StoresAt offsets added :=
  fun _ effect member _ stores => (visits effect member).eq_of_stored? stores ▸ allowed

theorem of_offered {version : Version} (offered : version.major ≤ lastRegisterInvalidation) :
    StoresAt offsets (version.read :: added) :=
  fun lacks => absurd (lacks version (by simp)) (Nat.not_lt_of_le offered)

theorem mono (stores : StoresAt offsets added)
    (weaker : ∀ offset, offsets offset → offsets' offset) : StoresAt offsets' added :=
  fun lacks effect member offset stored => weaker offset (stores lacks effect member offset stored)

theorem append {more : List Effect} (stores : StoresAt offsets added)
    (stores' : StoresAt offsets more) : StoresAt offsets (added ++ more) := by
  intro lacks effect member
  obtain ⟨before, after⟩ := lacksRegisters_append.mp lacks
  exact (List.mem_append.mp member).elim (stores before effect) (stores' after effect)

end StoresAt

/-- One journal goes on from the other by effects that store at these offsets. -/
def Journal.KeepsTo (offsets : Nat → Prop) (start last : Journal) : Prop :=
  ∃ added, last.log = start.log ++ added ∧ StoresAt offsets added

namespace Journal

variable {start middle last : Journal}

theorem KeepsTo.of_log_eq (same : last.log = start.log) : KeepsTo offsets start last :=
  ⟨[], by simp [same], .none (List.forall_mem_nil _)⟩

theorem KeepsTo.mono (keeps : KeepsTo offsets start last)
    (weaker : ∀ offset, offsets offset → offsets' offset) : KeepsTo offsets' start last := by
  obtain ⟨added, log, stores⟩ := keeps
  exact ⟨added, log, stores.mono weaker⟩

theorem KeepsTo.trans (first : KeepsTo offsets start middle)
    (second : KeepsTo offsets middle last) : KeepsTo offsets start last := by
  obtain ⟨added, log, stores⟩ := first
  obtain ⟨more, log', stores'⟩ := second
  exact ⟨added ++ more, by rw [log', log, List.append_assoc], stores.append stores'⟩

end Journal

/-- From a state of some kind the way leads to one of the same kind, and the journal keeps to the
64-bit registers at some offsets. -/
def Restrained (kind : σ → Prop) (offsets : Nat → Prop) (start last : Journaled σ) : Prop :=
  kind start.state → kind last.state ∧ start.journal.KeepsTo offsets last.journal

/-- Any state at all. -/
abbrev anyState : σ → Prop := fun _ => True

variable {kind : σ → Prop} {kind' : τ → Prop}

theorem Restrained.of_sameLog {start last : Journaled σ} (same : SameLog start last)
    (kept : kind start.state → kind last.state) : Restrained kind offsets start last :=
  fun holds => ⟨kept holds, .of_log_eq same⟩

instance : IsPreorder (Journaled σ) (Restrained kind offsets) where
  refl _ := .of_sameLog rfl id
  trans _ _ _ first second := by
    intro holds
    obtain ⟨holds', kept⟩ := first holds
    obtain ⟨holds'', kept'⟩ := second holds'
    exact ⟨holds'', kept.trans kept'⟩

theorem restrained_record (severity : Severity) (text : Unit → String) :
    (Action.record severity text : Action σ ε Unit).Keeps (Restrained kind offsets) :=
  ⟨fun _ => (Action.ends_record severity text).mpr (.of_sameLog (Journal.log_record ..) id)⟩

theorem restrained_update {change : σ → σ} (kept : ∀ state, kind state → kind (change state)) :
    (Action.update change : Action σ ε Unit).Keeps (Restrained kind offsets) :=
  ⟨fun start => (Action.ends_update change).mpr (.of_sameLog rfl (kept start.state))⟩

theorem restrained_state_bind {rest : σ → Action σ ε α}
    (kept : ∀ state, kind state → (rest state).Keeps (Restrained kind offsets)) :
    (Action.state >>= rest).Keeps (Restrained kind offsets) := by
  constructor
  intro start
  rw [Action.ends_bind, Action.ends_state]
  by_cases holds : kind start.state
  · exact (kept start.state holds).ends start
  · exact Action.ends_true.mono (fun _ _ _ => (absurd · holds)) fun _ _ _ => (absurd · holds)

theorem restrained_on {part : Part σ τ} {inner : Action τ ε α}
    (kept : inner.Keeps (Restrained kind' offsets))
    (inside : ∀ state, kind state → kind' (part.get state))
    (outside : ∀ value state, kind' value → kind state → kind (part.set value state)) :
    (Action.on part inner).Keeps (Restrained kind offsets) := by
  constructor
  intro start
  rw [Action.ends_on]
  apply (kept.ends _).mono
  all_goals
    intro _ last restrained holds
    obtain ⟨holds', keeps⟩ := restrained (inside _ holds)
    exact ⟨outside _ _ holds' holds, keeps⟩

theorem restrained_part (part : Part σ τ) {inner : Action τ ε α}
    (kept : inner.Keeps (Restrained anyState offsets)) :
    (Action.on part inner).Keeps (Restrained anyState offsets) :=
  restrained_on kept (fun _ _ => trivial) fun _ _ _ _ => trivial

theorem restrained_beside {extra : τ} {inner : Action (σ × τ) ε α}
    (kept : inner.Keeps (Restrained (fun pair => kind pair.1) offsets)) :
    (Action.beside extra inner : Action σ ε' (Except ε α × τ)).Keeps (Restrained kind offsets) := by
  constructor
  intro start
  rw [Action.ends_beside]
  apply (kept.ends _).mono
  · exact fun _ _ => id
  · intro cause last restrained
    cases cause with
    | error cause => exact restrained
    | abort reason => exact restrained

theorem restrained_beside_second {extra : τ} {inner : Action τ ε α}
    (kept : inner.Keeps (Restrained anyState offsets)) :
    (Action.beside extra (Action.on .second inner) :
      Action σ ε' (Except ε α × τ)).Keeps (Restrained kind offsets) :=
  restrained_beside (restrained_on kept (fun _ _ => trivial) fun _ _ _ => id)

theorem restrained_of_logs {told : α → List Effect → Prop} {halted : List Effect → Prop}
    {action : Action σ ε α} (logs : action.Logs told halted)
    (returns : ∀ value added, told value added → StoresAt offsets added)
    (stops : ∀ added, halted added → StoresAt offsets added) :
    action.Keeps (Restrained anyState offsets) := by
  constructor
  intro start
  apply (logs.ends start).mono
  · rintro value _ ⟨added, log, holds⟩ _
    exact ⟨trivial, added, log, returns value added holds⟩
  · rintro _ _ ⟨-, added, log, holds⟩ _
    exact ⟨trivial, added, log, stops added holds⟩

section Registers

variable [RegisterPage ρ] [QuietPage ρ]

theorem restrained_tolerant : Tolerant (ρ := ρ) ε (Restrained anyState offsets) where
  record := restrained_record
  get32 offset := by
    apply restrained_of_logs (logs_get32 offset)
    · rintro _ _ rfl
      exact .none (by simp [Effect.stored?])
    · rintro _ rfl
      exact .none (List.forall_mem_nil _)
  put32 offset value := by
    apply restrained_of_logs (logs_put32 offset value)
    · rintro _ _ rfl
      exact .none (by simp [Effect.stored?])
    · rintro _ rfl
      exact .none (by simp [Effect.stored?])
  get64 offset := by
    apply restrained_of_logs (logs_get64 offset)
    · rintro _ _ rfl
      exact .none (by simp [Effect.read64, Effect.stored?])
    · rintro _ rfl
      exact .none (List.forall_mem_nil _)

theorem restrained_put64 {offset : Nat} (allowed : offsets offset) (value : Word) :
    (put64 offset value : Action ρ ε Unit).Keeps (Restrained anyState offsets) := by
  have visits : ∀ effect ∈ [Effect.write64 offset value], effect.Visits offset value :=
    List.forall_mem_singleton.mpr (.inr rfl)
  apply restrained_of_logs (logs_put64 offset value)
  · rintro _ _ rfl
    exact .of_visits allowed visits
  · rintro _ rfl
    exact .of_visits allowed visits

end Registers

namespace RemappingUnit

variable [RegisterPage ρ] [QuietPage ρ] (unit : RemappingUnit)

/-- An invalidation of the IOTLB writes its register. It does not ask for the version. -/
theorem restrained_invalidateIotlb (allowed : offsets unit.extended.iotlbOffset)
    (domain : Option DomainId) (start : VirtualAddress) (size : Nat) :
    (unit.invalidateIotlb domain start size : Action ρ ε Invalidation).Keeps
      (Restrained anyState offsets) := by
  apply restrained_of_logs (unit.logs_invalidateIotlb domain start size)
  · rintro _ added ⟨report, shaken, -⟩
    exact .of_visits allowed shaken.visits
  · exact fun added => .of_visits allowed

/-- An invalidation of all caches that reads too new a version writes no 64-bit registers at all. -/
theorem restrained_invalidateAll (domain : Option DomainId) (device : Option RoutingId) :
    (unit.invalidateAll domain device : Action ρ ε Invalidation).Keeps
      (Restrained anyState offsets) := by
  apply restrained_of_logs (unit.logs_invalidateAll domain device)
  · rintro _ added ⟨version, ⟨-, -, rfl⟩ | ⟨offered, _, _, early, late, rfl, -⟩⟩
    · exact .none (by simp [Version.read, Effect.stored?])
    · exact .of_offered offered
  · rintro added (rfl | ⟨version, later, offered, rfl, -⟩)
    · exact .none (List.forall_mem_nil _)
    · exact .of_offered offered

end RemappingUnit

/-- Nothing that an action on a pool does writes a 64-bit register. -/
abbrev Pool.OffRegisters : Journaled Pool → Journaled Pool → Prop :=
  Pool.Stays fun effect => effect.stored? = none

theorem restrained_of_stays {action : Action Pool ε α} (stays : action.Keeps Pool.OffRegisters) :
    action.Keeps (Restrained anyState offsets) := by
  have ended {start last : Journaled Pool} (stayed : Pool.OffRegisters start last) :
      Restrained anyState offsets start last := by
    obtain ⟨_, added, log, stored⟩ := stayed
    exact fun _ => ⟨trivial, added, log, .none stored⟩
  exact ⟨fun start => (stays.ends start).mono (fun _ _ => ended) fun _ _ => ended⟩

namespace Bindings

theorem restrained_tables {inner : Action Pool ε α} (stays : inner.Keeps Pool.OffRegisters) :
    (Action.on tables inner).Keeps (Restrained anyState offsets) :=
  restrained_part tables (restrained_of_stays stays)

theorem stays_put (address : PhysicalAddress) (words : List (Slot × Word)) :
    (Pool.put address words : Action Pool ε Unit).Keeps Pool.OffRegisters :=
  Pool.stays_put (fun _ _ _ => rfl) ..

theorem restrained_create (pool : Pool) (coherency : Coherency) :
    (create pool coherency : Action σ TableError Bindings).Keeps (Restrained kind offsets) := by
  apply Keeps.bind
  · exact restrained_beside_second (restrained_of_stays (Pool.stays_construct fun _ => rfl))
  · intro made
    split
    · exact .pure _
    · exact .fail _

theorem restrained_ensureContextTable (bus : Fin 256) :
    (ensureContextTable bus).Keeps (Restrained anyState offsets) := by
  refine .bind .state fun bindings => .bind (.lift _) fun linked => ?_
  split
  · exact .pure _
  · refine .bind (restrained_tables (Pool.stays_construct fun _ => rfl)) fun table => .ite _ ?_ ?_
    · exact .bind (restrained_tables (stays_put ..)) fun _ =>
        .bind (restrained_record ..) fun _ => .pure _
    · exact .fail_bind ..

theorem restrained_bind (bdf : Bdf) (table : PhysicalAddress) (domain : DomainId) :
    (bind bdf table domain).Keeps (Restrained anyState offsets) := by
  refine .bind (restrained_ensureContextTable _) fun context => .bind .state fun bindings => ?_
  split
  · exact .fail _
  · refine .ite _ (.pure _) (.ite _ (.bind (.recordM (fun _ => restrained_record ..) ?text)
      fun _ => ?_) ?_)
    case text => exact .bind (.lift _) fun _ => .pure _
    all_goals exact .bind (restrained_tables (stays_put ..)) fun _ => .pure _

theorem restrained_unbind (bdf : Bdf) (table : PhysicalAddress) :
    (unbind bdf table : Action Bindings ε UnbindOutcome).Keeps (Restrained anyState offsets) := by
  refine .bind .state fun bindings => .bind (.lift _) fun linked => ?_
  split
  · exact .pure _
  · split
    · exact .pure _
    · refine .ite _ (.pure _) (.bind (restrained_tables (stays_put ..)) fun _ => ?_)
      refine .bind (.lift _) fun found => .ite _ (.pure _) ?_
      exact .bind (restrained_record ..) fun _ => .pure _

theorem restrained_unbindAll (table : PhysicalAddress) :
    (unbindAll table : Action Bindings ε Nat).Keeps (Restrained anyState offsets) := by
  refine .bind (.mapM (fun bus => ?_) _) fun _ => .pure _
  refine .bind .state fun bindings => .bind (.lift _) fun linked => ?_
  split
  · exact .pure _
  · split
    · exact .pure _
    · refine .bind (.lift _) fun bound => .bind (restrained_tables (.forM (fun devfn => ?_) _))
        fun _ => .pure _
      exact stays_put ..

end Bindings

namespace DomainIds

theorem restrained_acquire : acquire.Keeps (Restrained anyState offsets) := by
  refine .bind .state fun ids => ?_
  split
  · exact .bind (.lift _) fun _ => .bind (restrained_update fun _ _ => trivial) fun _ => .pure _
  · exact .fail _

theorem restrained_release (given : DomainId) :
    (release given : Action DomainIds ε Unit).Keeps (Restrained anyState offsets) := by
  refine .bind .state fun ids => ?_
  split
  · exact .bind (.lift _) fun _ => restrained_update fun _ _ => trivial
  · exact restrained_record ..

end DomainIds

namespace Controller

variable [RegisterPage ρ] [QuietPage ρ]

theorem restrained_takeOver (allowed : offsets RegisterOffset.rootTableAddress) (name : String)
    (pool : Pool) (interrupt : Option FaultInterrupt) (config : Config) :
    (takeOver name pool interrupt config : Action ρ IommuError Controller).Keeps
      (Restrained anyState offsets) := by
  rw [takeOver_eq]
  refine .bind (restrained_tolerant.get64 _) fun _ => .bind (restrained_tolerant.get64 _) fun _ =>
    keeps_adopt restrained_tolerant (restrained_put64 allowed) _ pool interrupt ?creates ?forgets
  case creates => exact Bindings.restrained_create ..
  case forgets => exact RemappingUnit.restrained_invalidateAll ..

end Controller

/-- Whether a machine drives this unit. -/
def Machine.Drives (unit : RemappingUnit) (machine : Machine ρ) : Prop :=
  machine.controller.unit = unit

namespace Machine

variable {unit : RemappingUnit}

theorem restrained_page {inner : Action ρ ε α} (kept : inner.Keeps (Restrained anyState offsets)) :
    (Action.on pagePart inner).Keeps (Restrained (Drives unit) offsets) :=
  restrained_on kept (fun _ _ => trivial) fun _ _ _ => id

theorem restrained_bindings {inner : Action Bindings ε α}
    (kept : inner.Keeps (Restrained anyState offsets)) :
    (Action.on bindingsPart inner : Action (Machine ρ) ε α).Keeps
      (Restrained (Drives unit) offsets) :=
  restrained_on kept (fun _ _ => trivial) fun _ _ _ => id

theorem restrained_ids {inner : Action DomainIds ε α}
    (kept : inner.Keeps (Restrained anyState offsets)) :
    (Action.on idsPart inner : Action (Machine ρ) ε α).Keeps (Restrained (Drives unit) offsets) :=
  restrained_on kept (fun _ _ => trivial) fun _ _ _ => id

theorem restrained_unit_bind {rest : RemappingUnit → Action (Machine ρ) ε α}
    (kept : (rest unit).Keeps (Restrained (Drives unit) offsets)) :
    (Machine.unit >>= rest).Keeps (Restrained (Drives unit) offsets) := by
  rw [Machine.unit, bind_assoc]
  refine restrained_state_bind fun machine drives => ?_
  rwa [pure_bind, drives]

variable [RegisterPage ρ] [QuietPage ρ]

theorem restrained_invalidateIotlb (allowed : offsets unit.extended.iotlbOffset)
    (domain : Option DomainId) (start : VirtualAddress) (size : Nat) :
    (invalidateIotlb domain start size : Action (Machine ρ) ε Invalidation).Keeps
      (Restrained (Drives unit) offsets) :=
  restrained_unit_bind (restrained_page (unit.restrained_invalidateIotlb allowed ..))

theorem restrained_invalidateAll (domain : Option DomainId) (device : Option RoutingId) :
    (invalidateAll domain device : Action (Machine ρ) ε Invalidation).Keeps
      (Restrained (Drives unit) offsets) :=
  restrained_unit_bind (restrained_page (unit.restrained_invalidateAll ..))

end Machine

/-- Whether the machine beside a domain drives this unit. -/
def Attached.Drives (unit : RemappingUnit) (attached : Attached ρ) : Prop :=
  attached.machine.Drives unit

namespace Attached

variable {unit : RemappingUnit}

theorem restrained_machine {inner : Action (Machine ρ) ε α}
    (kept : inner.Keeps (Restrained (Machine.Drives unit) offsets)) :
    (Action.on machinePart inner).Keeps (Restrained (Drives unit) offsets) :=
  restrained_on kept (fun _ => id) fun _ _ drives _ => drives

theorem restrained_pool {inner : Action Pool ε α} (stays : inner.Keeps Pool.OffRegisters) :
    (Action.on poolPart inner : Action (Attached ρ) ε α).Keeps (Restrained (Drives unit) offsets) :=
  restrained_on (restrained_of_stays stays) (fun _ _ => trivial) fun _ _ _ => id

theorem restrained_setDevices (change : List Bdf → List Bdf) :
    (setDevices change : Action (Attached ρ) ε Unit).Keeps (Restrained (Drives unit) offsets) :=
  restrained_update fun _ => id

variable [RegisterPage ρ] [QuietPage ρ]

/-- Mapping a range invalidates the IOTLB of a unit in caching mode, whatever its version. -/
theorem restrained_addRange
    (allowed : unit.cachingMode = true → offsets unit.extended.iotlbOffset) (range : DmaRange)
    (target : PhysicalAddress) :
    (addRange range target : Action (Attached ρ) IommuError Unit).Keeps
      (Restrained (Drives unit) offsets) := by
  refine restrained_state_bind fun attached drives => ?_
  refine .bind (.attempt (restrained_pool ?_)) fun outcome => ?_
  · exact TranslationTable.stays_insert _ (fun _ _ _ => rfl) (fun _ => rfl) ..
  have told (caching : attached.machine.controller.unit.cachingMode = true) :
      (discard (Action.on machinePart (Machine.invalidateIotlb (some attached.domain.id)
        range.start range.size)) : Action (Attached ρ) IommuError Unit).Keeps
          (Restrained (Drives unit) offsets) := by
    rw [show attached.machine.controller.unit = unit from drives] at caching
    exact (restrained_machine (Machine.restrained_invalidateIotlb (allowed caching) ..)).discard
  -- A mapping that failed is reported after the unit was told of it.
  cases outcome with
  | error cause =>
    exact .ite_of _ (fun caching => .bind (told caching) fun _ => .fail _) fun _ => .fail _
  | ok done =>
    exact .ite_of _ (fun caching => .bind (told caching) fun _ => restrained_record ..)
      fun _ => restrained_record ..

/-- Unmapping a range invalidates the IOTLB of any unit, whatever its version. -/
theorem restrained_removeRange (allowed : offsets unit.extended.iotlbOffset) (range : DmaRange) :
    (removeRange range : Action (Attached ρ) IommuError Unit).Keeps
      (Restrained (Drives unit) offsets) := by
  refine .bind .state fun attached => .bind (.mapError _ (restrained_pool ?_)) fun _ => ?_
  · exact TranslationTable.stays_remove _ (fun _ _ _ => rfl) (fun _ => rfl) ..
  · exact .bind (restrained_record ..) fun _ =>
      (restrained_machine (Machine.restrained_invalidateIotlb allowed ..)).discard

theorem restrained_enableDevice (bdf : Bdf) :
    (enableDevice bdf : Action (Attached ρ) IommuError BindOutcome).Keeps
      (Restrained (Drives unit) offsets) := by
  have told (domain : DomainId) : (discard (Action.on machinePart
      (Machine.invalidateAll (some domain) (some bdf.routingId))) :
        Action (Attached ρ) IommuError Unit).Keeps (Restrained (Drives unit) offsets) :=
    (restrained_machine (Machine.restrained_invalidateAll ..)).discard
  refine .bind .state fun attached => .bind (.mapError _ (restrained_machine
    (Machine.restrained_bindings (Bindings.restrained_bind ..)))) fun outcome => ?_
  refine .bind (restrained_setDevices _) fun _ => ?_
  cases outcome with
  | replaced previous =>
    exact .bind (told _) fun _ => .ite _ (.bind (told _) fun _ => .pure _) (.pure _)
  | installed | unchanged => exact .ite _ (.bind (told _) fun _ => .pure _) (.pure _)

theorem restrained_disableDevice (bdf : Bdf) :
    (disableDevice bdf : Action (Attached ρ) ε UnbindOutcome).Keeps
      (Restrained (Drives unit) offsets) :=
  .bind .state fun _ => .bind (restrained_machine
    (Machine.restrained_bindings (Bindings.restrained_unbind ..))) fun _ =>
      .bind (restrained_setDevices _) fun _ =>
        .bind (restrained_machine (Machine.restrained_invalidateAll ..)).discard fun _ => .pure _

end Attached

namespace Machine

variable {unit : RemappingUnit} [RegisterPage ρ] [QuietPage ρ]

theorem restrained_destroyDomain (domain : Domain) :
    (destroyDomain domain : Action (Machine ρ) ε Pool).Keeps
      (Restrained (Drives unit) offsets) := by
  have release : (Domain.release domain.table : Action Pool Empty Unit).Keeps
      Pool.OffRegisters :=
    .bind (domain.table.stays_clear fun _ => rfl) fun _ => Pool.stays_destruct (fun _ => rfl) _
  refine .bind (restrained_bindings (Bindings.restrained_unbindAll _)) fun removed => ?_
  refine .bind (restrained_invalidateAll ..).discard fun _ => ?_
  refine .bind (restrained_ids (DomainIds.restrained_release _)) fun _ => restrained_unit_bind ?_
  refine .bind (restrained_record ..) fun _ => .bind (restrained_beside_second ?_) fun _ => .pure _
  exact restrained_of_stays release

omit [RegisterPage ρ] [QuietPage ρ] in
theorem restrained_withDomain {domain : Domain} {inner : Action (Attached ρ) ε α}
    (kept : inner.Keeps (Restrained (Attached.Drives unit) offsets)) :
    (withDomain domain inner : Action (Machine ρ) ε' (Except ε α × Domain)).Keeps
      (Restrained (Drives unit) offsets) :=
  restrained_beside (restrained_on kept (fun _ => id) fun _ _ drives _ => drives)

theorem restrained_mapBuffer
    (allowed : unit.cachingMode = true → offsets unit.extended.iotlbOffset) (buffer : DmaBuffer) :
    (mapBuffer unit buffer : Action (Attached ρ) IommuError Unit).Keeps
      (Restrained (Attached.Drives unit) offsets) := by
  refine .bind (.attempt (Attached.restrained_addRange allowed ..)) fun outcome => ?_
  split
  · exact .pure _
  · exact .bind .state fun _ => .bind (restrained_record ..) fun _ => .fail _

/-- A new domain invalidates the IOTLB of a unit in caching mode if it is given buffers. -/
theorem restrained_createDomain {buffers : List DmaBuffer}
    (allowed : unit.cachingMode = true → buffers ≠ [] → offsets unit.extended.iotlbOffset)
    (pool : Pool) :
    (createDomain pool buffers : Action (Machine ρ) IommuError Domain).Keeps
      (Restrained (Drives unit) offsets) := by
  have maps : (buffers.forM (mapBuffer unit) : Action (Attached ρ) IommuError Unit).Keeps
      (Restrained (Attached.Drives unit) offsets) := by
    cases buffers with
    | nil => exact .pure _
    | cons buffer rest =>
      exact .forM (restrained_mapBuffer fun caching => allowed caching nofun) _
  refine restrained_unit_bind (.bind (restrained_ids DomainIds.restrained_acquire) fun id => ?_)
  refine .bind (restrained_beside_second (restrained_of_stays ?_)) fun built => ?_
  · exact TranslationTable.stays_create (fun _ => rfl) ..
  split
  · exact .bind (restrained_ids (DomainIds.restrained_release _)) fun _ => .fail _
  · refine .bind (restrained_withDomain maps) fun mapped => ?_
    split
    · exact .bind (restrained_destroyDomain _).discard fun _ => .fail _
    · exact .bind (restrained_record ..) fun _ => .pure _

end Machine

/-- Whether the machine of a platform drives this unit. -/
def Platform.Drives (unit : RemappingUnit) (platform : Platform ρ) : Prop :=
  platform.machine.Drives unit

namespace Platform

variable {unit : RemappingUnit}

theorem restrained_machine {inner : Action (Machine ρ) ε α}
    (kept : inner.Keeps (Restrained (Machine.Drives unit) offsets)) :
    (Action.on machinePart inner).Keeps (Restrained (Drives unit) offsets) :=
  restrained_on kept (fun _ => id) fun _ _ drives _ => drives

theorem restrained_attached {place : Nat} {domain : Domain} {inner : Action (Attached ρ) ε α}
    (kept : inner.Keeps (Restrained (Attached.Drives unit) offsets)) :
    (Action.on (attachedPart place domain) inner).Keeps (Restrained (Drives unit) offsets) :=
  restrained_on kept (fun _ => id) fun _ _ drives _ => drives

theorem restrained_onDomain {place : Nat} {action : Domain → Action (Platform ρ) IommuError Reply}
    (kept : ∀ domain, (action domain).Keeps (Restrained (Drives unit) offsets)) :
    (onDomain place action).Keeps (Restrained (Drives unit) offsets) := by
  refine .bind .state fun platform => ?_
  split
  · exact .pure _
  · exact kept _

end Platform

/-- Whether a call may invalidate the IOTLB of a unit without asking for its version. -/
def Call.Unguarded (unit : RemappingUnit) : Call → Prop
  | create _ buffers => unit.cachingMode = true ∧ buffers ≠ []
  | addRange .. => unit.cachingMode = true
  | removeRange .. => True
  | _ => False

theorem Call.restrained_perform [RegisterPage ρ] [QuietPage ρ] {unit : RemappingUnit} {call : Call}
    (allowed : call.Unguarded unit → offsets unit.extended.iotlbOffset) :
    (call.perform : Action (Platform ρ) IommuError Reply).Keeps
      (Restrained (Platform.Drives unit) offsets) := by
  cases call with
  | create pool buffers =>
    have allowed (caching : unit.cachingMode = true) (given : buffers ≠ []) :
        offsets unit.extended.iotlbOffset :=
      allowed ⟨caching, given⟩
    exact .bind (Platform.restrained_machine (Machine.restrained_createDomain allowed pool))
      fun domain => .bind (restrained_update fun _ => id) fun _ => .pure _
  | addRange place range target =>
    refine Platform.restrained_onDomain fun domain => ?_
    exact .bind (Platform.restrained_attached (Attached.restrained_addRange allowed ..)) fun _ =>
      .pure _
  | removeRange place range =>
    refine Platform.restrained_onDomain fun domain => ?_
    exact .bind (Platform.restrained_attached
      (Attached.restrained_removeRange (allowed trivial) ..)) fun _ => .pure _
  | enable place bdf =>
    exact Platform.restrained_onDomain fun domain =>
      .map _ (Platform.restrained_attached (Attached.restrained_enableDevice ..))
  | disable place bdf =>
    exact Platform.restrained_onDomain fun domain =>
      .map _ (Platform.restrained_attached (Attached.restrained_disableDevice ..))
  | destroy place =>
    refine Platform.restrained_onDomain fun domain => ?_
    exact .bind (Platform.restrained_machine (Machine.restrained_destroyDomain _)) fun _ =>
      .bind (restrained_update fun _ => id) fun _ => .pure _
  | abandon place =>
    refine Platform.restrained_onDomain fun domain => .bind (restrained_record ..) fun _ => ?_
    exact .bind (restrained_update fun _ => id) fun _ => .pure _

/-- What the software may do with a unit. -/
inductive Command where
  /-- Takes the unit over, whatever was done with it before. No domain lives on. -/
  | takeOver (name : String) (pool : Pool) (interrupt : Option FaultInterrupt) (config : Config)
  | invalidateAll (domain : Option DomainId) (device : Option RoutingId)
  | invalidateIotlb (domain : Option DomainId) (start : VirtualAddress) (size : Nat)
  | call (made : Call)

namespace Command

open Platform (machinePart)

/-- What a command does. -/
def perform [RegisterPage ρ] : Command → Action (Platform ρ) IommuError Unit
  | takeOver name pool interrupt config => do
    let controller ← Action.on machinePart <| Action.on Machine.pagePart <|
      Controller.takeOver name pool interrupt config
    Action.update fun platform => ⟨⟨controller, platform.machine.page⟩, []⟩
  | invalidateAll domain device =>
    discard <| Action.on machinePart (Machine.invalidateAll domain device)
  | invalidateIotlb domain start size =>
    discard <| Action.on machinePart (Machine.invalidateIotlb domain start size)
  | call made => discard made.perform

/-- Whether a command may invalidate the IOTLB of a unit without asking for its version. -/
def Unguarded (unit : RemappingUnit) : Command → Prop
  | invalidateIotlb .. => True
  | call made => made.Unguarded unit
  | _ => False

/-- The 64-bit registers that a command may write, however new the unit is. -/
def Reaches (unit : RemappingUnit) (command : Command) (offset : Nat) : Prop :=
  offset = RegisterOffset.rootTableAddress ∨
    command.Unguarded unit ∧ offset = unit.extended.iotlbOffset

variable [RegisterPage ρ] [QuietPage ρ]

theorem restrained_takeOver (unit : RemappingUnit) (name : String) (pool : Pool)
    (interrupt : Option FaultInterrupt) (config : Config) :
    ((takeOver name pool interrupt config).perform : Action (Platform ρ) IommuError Unit).Keeps
      (Restrained anyState ((takeOver name pool interrupt config).Reaches unit)) := by
  have root : (takeOver name pool interrupt config).Reaches unit
      RegisterOffset.rootTableAddress :=
    .inl rfl
  exact .bind (restrained_part _ (restrained_part _ (Controller.restrained_takeOver root ..)))
    fun _ => restrained_update fun _ _ => trivial

theorem keepsTo_perform (command : Command) (start : Journaled (Platform ρ)) :
    start.journal.KeepsTo (command.Reaches start.state.machine.controller.unit)
      (command.perform.finish start).journal := by
  -- Except for a takeover, the unit is the same all along.
  have same {α : Type} {inner : Action (Platform ρ) IommuError α}
      (kept : inner.Keeps (Restrained (Platform.Drives start.state.machine.controller.unit)
        (command.Reaches start.state.machine.controller.unit))) :
      start.journal.KeepsTo (command.Reaches start.state.machine.controller.unit)
        ((discard inner : Action (Platform ρ) IommuError Unit).finish start).journal :=
    (kept.discard.finish start rfl).2
  cases command with
  | takeOver name pool interrupt config =>
    exact ((restrained_takeOver _ name pool interrupt config).finish start trivial).2
  | invalidateAll domain device =>
    exact same (Platform.restrained_machine (Machine.restrained_invalidateAll ..))
  | invalidateIotlb domain first size =>
    have allowed : (invalidateIotlb domain first size).Reaches
        start.state.machine.controller.unit
        start.state.machine.controller.unit.extended.iotlbOffset :=
      .inr ⟨trivial, rfl⟩
    exact same (Platform.restrained_machine (Machine.restrained_invalidateIotlb allowed ..))
  | call made => exact same (Call.restrained_perform fun unguarded => Or.inr ⟨unguarded, rfl⟩)

end Command

namespace Platform

/-- What the software has done with a unit from some start on, each command with the unit it was
given to. Whether a command returns or fails, the software may go on. Between two commands the
registers may change in any way. -/
inductive Commanded [RegisterPage ρ] (first : Journaled (Platform ρ)) :
    List (RemappingUnit × Command) → Journaled (Platform ρ) → Prop where
  | start : Commanded first [] first
  | step {trace : List (RemappingUnit × Command)} {now : Journaled (Platform ρ)}
      (run : Commanded first trace now) (command : Command) :
      Commanded first (trace ++ [(now.state.machine.controller.unit, command)])
        (command.perform.finish now)
  | registers {trace : List (RemappingUnit × Command)} {now : Journaled (Platform ρ)}
      (run : Commanded first trace now) (page : ρ) :
      Commanded first trace
        ⟨{ now.state with machine := { now.state.machine with page } }, now.journal⟩

variable [RegisterPage ρ] [QuietPage ρ] {trace : List (RemappingUnit × Command)}

theorem Commanded.keepsTo {first last : Journaled (Platform ρ)}
    (run : Commanded first trace last) :
    first.journal.KeepsTo (fun offset => ∃ entry ∈ trace, entry.2.Reaches entry.1 offset)
      last.journal := by
  induction run with
  | start => exact .of_log_eq rfl
  | step run command ih =>
    refine (ih.mono fun offset reached => ?_).trans
      ((command.keepsTo_perform _).mono fun offset reached => ?_)
    · obtain ⟨entry, member, reaches⟩ := reached
      exact ⟨entry, List.mem_append_left _ member, reaches⟩
    · exact ⟨_, List.mem_append_right _ (List.mem_singleton_self _), reached⟩
  | registers _ _ ih => exact ih

variable {platform : Platform ρ} {threshold : Option Severity} {last : Journaled (Platform ρ)}

/-- Every 64-bit register that a run writes is in reach of one of its commands. -/
theorem Commanded.reached (run : Commanded (platform.fresh threshold) trace last)
    (lacks : LacksRegisters last.journal.log) {effect : Effect}
    (member : effect ∈ last.journal.log) {offset : Nat} (stored : effect.stored? = some offset) :
    ∃ entry ∈ trace, entry.2.Reaches entry.1 offset := by
  obtain ⟨added, log, kept⟩ := run.keepsTo
  have all : last.journal.log = added := log
  rw [all] at lacks member
  exact kept lacks effect member offset stored

/-- The IOTLB invalidate register is the second word of a block of 16 bytes. -/
theorem iotlbOffset_ne_rootTableAddress (unit : RemappingUnit) :
    unit.extended.iotlbOffset ≠ RegisterOffset.rootTableAddress := by
  simp only [ExtendedCapability.iotlbOffset, ExtendedCapability.iotlbBlock,
    RegisterOffset.rootTableAddress]
  omega

/-- Software that reads no version but ones without registers to invalidate with submits no command
to a unit, except where it invalidates the IOTLB without asking for the version. -/
theorem refuses_invalidation (run : Commanded (platform.fresh threshold) trace last)
    (lacks : LacksRegisters last.journal.log) :
    (∀ effect ∈ last.journal.log, ∀ offset, effect.stored? = some offset →
      offset = RegisterOffset.rootTableAddress ∨ ∃ entry ∈ trace,
        entry.2.Unguarded entry.1 ∧ offset = entry.1.extended.iotlbOffset) ∧
    ((∀ entry ∈ trace, ¬entry.2.Unguarded entry.1) → ∀ effect ∈ last.journal.log,
      effect.contextCommand? = none ∧
        ∀ (unit : RemappingUnit) (command : IotlbCommand), effect ≠ unit.submission command) := by
  constructor
  case left =>
    intro effect member offset stored
    obtain ⟨entry, among, root | unguarded⟩ := run.reached lacks member stored
    · exact .inl root
    · exact .inr ⟨entry, among, unguarded⟩
  case right =>
    intro guarded effect member
    have root {offset : Nat} (stored : effect.stored? = some offset) :
        offset = RegisterOffset.rootTableAddress := by
      obtain ⟨entry, among, root | unguarded⟩ := run.reached lacks member stored
      · exact root
      · exact absurd unguarded.1 (guarded entry among)
    constructor
    · cases found : effect.contextCommand? with
      | none => rfl
      | some command => cases root (Effect.stored?_of_contextCommand? found)
    · rintro unit command rfl
      exact iotlbOffset_ne_rootTableAddress unit (root rfl)

open Forest (samplePool silent)

/-- A unit of architecture version 6 once it was taken over. -/
def newerSample : Platform EmulatedUnit :=
  taken (Controller.takeOver "unit" samplePool none (.strict 4))
    ⟨.create { version := 0x60 }, silent⟩ (by decide +kernel)

/-- What some commands leave behind, each given after the one before. -/
def after (start : Journaled (Platform EmulatedUnit)) (commands : List Command) :
    Journaled (Platform EmulatedUnit) :=
  commands.foldl (fun now command => command.perform.finish now) start

/-- Commands that ask for the version wherever they are to invalidate something. -/
def guardedSample : Journaled (Platform EmulatedUnit) :=
  after (newerSample.fresh none)
    [.invalidateAll none none, .takeOver "unit" samplePool none (.strict 4),
      .call (.create poolSample []), .call (.enable 0 deviceSample),
      .call (.disable 0 deviceSample)]

/-- None of them submits anything. -/
theorem refuses_invalidation_sample :
    ∃ trace, Commanded (newerSample.fresh none) trace guardedSample ∧
      LacksRegisters guardedSample.journal.log ∧
      (∃ version : Version, version.read ∈ guardedSample.journal.log) ∧
      (∀ entry ∈ trace, ¬entry.2.Unguarded entry.1) ∧
      ∀ effect ∈ guardedSample.journal.log, effect.contextCommand? = none ∧
        ∀ (unit : RemappingUnit) (command : IotlbCommand), effect ≠ unit.submission command := by
  have run : Commanded (newerSample.fresh none) _ guardedSample :=
    Commanded.start.step _ |>.step _ |>.step _ |>.step _ |>.step _
  have lacks : LacksRegisters guardedSample.journal.log := by decide +kernel
  refine ⟨_, run, lacks, ⟨⟨0x60⟩, by decide +kernel⟩, ?guarded,
    (refuses_invalidation run lacks).2 ?guarded⟩
  simp [Command.Unguarded, Call.Unguarded]

/-- A domain is created and a range of it unmapped, after an invalidation that was refused. -/
def unguardedSample : Journaled (Platform EmulatedUnit) :=
  after (newerSample.fresh none)
    [.invalidateAll none none, .call (.create poolSample []),
      .call (.removeRange 0 bufferSample.range)]

/-- To unmap a range submits a command to the unit whose version was read to have no registers for
it. -/
theorem unguarded_submits :
    ∃ trace, Commanded (newerSample.fresh none) trace unguardedSample ∧
      LacksRegisters unguardedSample.journal.log ∧
      (∃ version : Version, version.read ∈ unguardedSample.journal.log) ∧
      ∃ command, newerSample.machine.controller.unit.submission command ∈
        unguardedSample.journal.log := by
  refine ⟨_, Commanded.start.step _ |>.step _ |>.step _, ?_, ⟨⟨0x60⟩, ?_⟩,
    RemappingUnit.iotlbRequest (some (.ofNat 1)), ?_⟩
  all_goals decide +kernel

end Platform

end DmaRemap

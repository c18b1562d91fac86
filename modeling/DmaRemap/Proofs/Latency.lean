import DmaRemap.Proofs.Ports

/-! Invalidations of an emulated unit that is busy for any number of reads. Software that waits as
long as it takes submits one command for each cache and judges what the unit reports. Software with
a budget gets the same answer if the budget lasts, and gives up on the first command otherwise. -/

namespace DmaRemap

open RemappingUnit (contextRequest contextScope iotlbRequest iotlbScope lastRegisterInvalidation
  readVersion)

variable {ε : Type}

/-- Whether a command asks to invalidate what the context cache holds of a device, if there is one,
else of a domain, if there is one, and else all. -/
structure ContextCommand.Asks (command : ContextCommand) (domain : Option DomainId)
    (device : Option RoutingId) : Prop where
  inProgress : command.inProgress = true
  requested : command.requested = some (match device, domain with
    | some _, _ => .device
    | none, some _ => .domain
    | none, none => .global)
  source : command.source = device.getD (.ofNat 0)
  domain : command.domain = domain.getD (.ofNat 0)

/-- Whether a command asks to invalidate what the IOTLB holds of a domain, if there is one, and else
all, and to drain what is in flight. -/
structure IotlbCommand.Asks (command : IotlbCommand) (domain : Option DomainId) : Prop where
  inProgress : command.inProgress = true
  requested : command.requested = some (match domain with
    | some _ => .domain
    | none => .global)
  domain : command.domain = domain.getD (.ofNat 0)
  drainsReads : IotlbCommand.drainReadsField.isSet command.raw = true
  drainsWrites : IotlbCommand.drainWritesField.isSet command.raw = true

namespace RemappingUnit

theorem asks_contextRequest (domain : Option DomainId) (device : Option RoutingId) :
    (contextRequest domain device).Asks (domain.filter DomainId.isValid) device where
  inProgress := ContextCommand.inProgress_invalidate
  requested := by
    rw [contextRequest, ContextCommand.requested_invalidate, contextScope]
    cases device <;> cases domain.filter DomainId.isValid <;> rfl
  source := ContextCommand.source_invalidate
  domain := ContextCommand.domain_invalidate

theorem asks_iotlbRequest (domain : Option DomainId) :
    (iotlbRequest domain).Asks (domain.filter DomainId.isValid) where
  inProgress := IotlbCommand.inProgress_invalidate
  requested := by
    rw [iotlbRequest, IotlbCommand.requested_invalidate, iotlbScope]
    cases domain.filter DomainId.isValid <;> rfl
  domain := IotlbCommand.domain_invalidate
  drainsReads := by
    simp (disch := decide) only [iotlbRequest, IotlbCommand.invalidate, Field.isSet, Field.put,
      Field.get_set_of_disjoint, Field.get_set]
    rfl
  drainsWrites := by
    simp (disch := decide) only [iotlbRequest, IotlbCommand.invalidate, Field.isSet, Field.put,
      Field.get_set_of_disjoint, Field.get_set]
    rfl

end RemappingUnit

namespace EmulatedConfig

/-- The scope that is reported for a requested one: the one with the low bits of a code that is set,
else the requested one. -/
def reported (code : Option Word) (requested : Granularity) : Option Granularity :=
  Granularity.ofCode? ((code.map BitVec.toNat).getD requested.code % 4)

variable (config : EmulatedConfig)

theorem actual_completeContext (domain : Option DomainId) (device : Option RoutingId) :
    (ContextCommand.mk (config.completeContext (contextRequest domain device).raw)).actual =
      reported config.contextGranularity
        (contextScope (domain.filter DomainId.isValid) device) := by
  rw [reported, ContextCommand.actual, completeContext, contextRequest,
    ContextCommand.requestCode_invalidate]
  exact congrArg Granularity.ofCode? (Field.get_set _ _ _ (by decide))

theorem actual_completeIotlb (domain : Option DomainId) :
    (IotlbCommand.mk (config.completeIotlb (iotlbRequest domain).raw)).actual =
      reported config.iotlbGranularity (iotlbScope (domain.filter DomainId.isValid)) := by
  rw [reported, IotlbCommand.actual, completeIotlb, iotlbRequest,
    IotlbCommand.requestCode_invalidate]
  exact congrArg Granularity.ofCode? (Field.get_set _ _ _ (by decide))

end EmulatedConfig

namespace EmulatedUnit

/-- What software can do to a unit from its reset on. -/
inductive Accessed (config : EmulatedConfig) : EmulatedUnit → Prop where
  | start : Accessed config (.create config)
  | read {page : EmulatedUnit} (accessed : Accessed config page) (register : Register64) :
      Accessed config (page.afterRead64 register)
  | write32 {page next : EmulatedUnit} {offset : Nat} {value : BitVec 32}
      (accessed : Accessed config page) (writes : page.write32? offset value = some next) :
      Accessed config next
  | write64 {page next : EmulatedUnit} {offset : Nat} {value : Word}
      (accessed : Accessed config page) (writes : page.write64? offset value = some next) :
      Accessed config next
  | busy {page : EmulatedUnit} (accessed : Accessed config page) (polls : Nat) :
      Accessed config (page.setBusyPolls polls)
  | overflow {page : EmulatedUnit} (accessed : Accessed config page) :
      Accessed config page.setFaultOverflow
  | fault {page next : EmulatedUnit} {index : Nat} {record : FaultRecord}
      (accessed : Accessed config page) (raised : page.raiseFault index record = .ok next) :
      Accessed config next

variable {config : EmulatedConfig} {page next : EmulatedUnit} {unit : RemappingUnit} {offset : Nat}

/-- A unit of some properties that completes the commands in flight. -/
structure Completing (config : EmulatedConfig) (page : EmulatedUnit) : Prop where
  config : page.config = config
  context : page.context.Prompt .unbounded
  iotlb : page.iotlb.Prompt .unbounded

namespace Completing

theorem prompt (completing : Completing config page) :
    (port : Port) → (port.register page).Prompt .unbounded
  | .context => completing.context
  | .iotlb => completing.iotlb

theorem read (completing : Completing config page) (register : Register64) :
    Completing config (page.afterRead64 register) := by
  have read (port : Port) :
      ((port.register page).afterRead (port.complete page.config)).Prompt .unbounded :=
    ((completing.prompt port).afterRead Port.inFlight_complete).1
  cases register with
  | contextCommand => exact ⟨completing.config, read .context, completing.iotlb⟩
  | iotlbInvalidate => exact ⟨completing.config, completing.context, read .iotlb⟩
  | _ => exact completing

theorem write32 (completing : Completing config page) {value : BitVec 32}
    (writes : page.write32? offset value = some next) : Completing config next := by
  unfold write32? at writes
  repeat' split at writes
  all_goals cases writes <;> exact ⟨completing.config, completing.context, completing.iotlb⟩

theorem write64 (completing : Completing config page) {value : Word}
    (writes : page.write64? offset value = some next) : Completing config next := by
  have accepted (port : Port) : (port.register (port.accept value page)).Prompt .unbounded :=
    Port.prompt_accept
  unfold write64? at writes
  repeat' split at writes
  all_goals cases writes
  case h_1 => exact ⟨completing.config, completing.context, completing.iotlb⟩
  case h_2 => exact ⟨completing.config, accepted .context, completing.iotlb⟩
  case h_3 => exact ⟨completing.config, completing.context, accepted .iotlb⟩
  all_goals exact ⟨completing.config, completing.context, completing.iotlb⟩

end Completing

/-- A unit completes the commands in flight, whatever software does to it. -/
theorem Accessed.completing (accessed : Accessed config page) : Completing config page := by
  induction accessed with
  | start =>
    have idle : inFlight 0 = false := by decide
    exact ⟨rfl, ⟨trivial, fun _ => idle⟩, ⟨trivial, fun _ => idle⟩⟩
  | read _ register ih => exact ih.read register
  | write32 _ writes ih => exact ih.write32 writes
  | write64 _ writes ih => exact ih.write64 writes
  | busy _ polls ih | overflow _ ih => exact ⟨ih.config, ih.context, ih.iotlb⟩
  | fault _ raised ih =>
    unfold raiseFault at raised
    split at raised
    · cases raised
      exact ⟨ih.config, ih.context, ih.iotlb⟩
    · cases raised

theorem Accessed.accept (accessed : Accessed config page) (apart : config.IotlbApart) (port : Port)
    (command : Word) : Accessed config (port.accept command page) := by
  obtain rfl := accessed.completing.config
  exact accessed.write64 (Port.write64?_offset apart command)

/-- A unit that software knows, and whose commands in flight do not make it give up. -/
structure Driven (unit : RemappingUnit) (page : EmulatedUnit) : Prop where
  known : page.config.extendedCapability = unit.extended
  apart : page.config.IotlbApart
  prompt : ∀ port : Port, (port.register page).Prompt .unbounded
  allowed : ∀ port : Port, unit.config.poll.Allows (port.register page).needed

theorem Driven.perform (driven : Driven unit page) (port : Port) (command : Word) :
    Driven unit (port.perform command page) := by
  have idle : inFlight (port.complete page.config command) = false :=
    Port.inFlight_complete command
  have config : (port.perform command page).config = page.config := Port.config_perform
  refine ⟨config ▸ driven.known, config ▸ driven.apart, fun other => ?_, fun other => ?_⟩
  · rcases eq_or_ne other port with rfl | others
    · rw [Port.register_perform]
      exact ⟨trivial, fun _ => idle⟩
    · rw [Port.register_perform_of_ne others]
      exact driven.prompt other
  · rcases eq_or_ne other port with rfl | others
    · rw [Port.register_perform, InvalidationRegister.needed_done]
      exact PollPolicy.allows_iff.mpr fun _ _ => Nat.zero_le _
    · rw [Port.register_perform_of_ne others]
      exact driven.allowed other

section Calls

variable (driven : Driven unit page) (domain : Option DomainId) (journal : Journal)

include driven

theorem Driven.invalidateIotlb_waits (range : VirtualAddress) (size : Nat) :
    unit.WaitsOut Port.iotlb.title page.busyPolls
      (unit.invalidateIotlb domain range size : Action EmulatedUnit ε Invalidation)
      ⟨page, journal⟩
      (fun outcome last => Invalidation.Judged (iotlbScope (domain.filter DomainId.isValid))
          (EmulatedConfig.reported page.config.iotlbGranularity
            (iotlbScope (domain.filter DomainId.isValid))) outcome ∧
        Port.iotlb.Performed (iotlbRequest domain).raw page journal.log last)
      (Port.iotlb.Abandoned (iotlbRequest domain).raw page journal.log) := by
  obtain ⟨text, same⟩ := unit.invalidateIotlb_eq (ρ := EmulatedUnit) (ε := ε) domain range size
  have flying : inFlight (iotlbRequest domain).raw = true :=
    (RemappingUnit.asks_iotlbRequest domain).inProgress
  rw [same, RemappingUnit.WaitsOut, Action.ends_bind, Action.ends_record, Action.ends_bind,
    ← driven.known]
  apply (handshake_port .iotlb unit Port.iotlb.title _ rfl driven.apart (driven.prompt .iotlb)
    (driven.allowed .iotlb) flying).mono
  · rintro report middle ⟨allows, rfl, performed⟩
    apply (unit.checkGranularity_returns _ _ _ middle).mono _ fun _ _ => False.elim
    rintro outcome last ⟨state, log, judged⟩
    rw [Journal.log_record] at performed
    refine ⟨allows, ?_, state.trans performed.state, log.trans performed.log⟩
    exact page.config.actual_completeIotlb domain ▸ judged
  · rintro cause last ⟨budget, member, more, rfl, abandoned⟩
    rw [Journal.log_record] at abandoned
    exact ⟨budget, member, more, rfl, abandoned⟩

/-- An invalidation of all caches waits until the unit has performed its first command. The second
takes as long. -/
theorem Driven.invalidateAll_waits (device : Option RoutingId)
    (offered : (Version.mk page.config.version).major ≤ lastRegisterInvalidation) :
    unit.WaitsOut Port.context.title page.busyPolls
      (unit.invalidateAll domain device : Action EmulatedUnit ε Invalidation) ⟨page, journal⟩
      (fun outcome last =>
        Invalidation.Judged (contextScope (domain.filter DomainId.isValid) device)
          (EmulatedConfig.reported page.config.contextGranularity
            (contextScope (domain.filter DomainId.isValid) device)) outcome ∧
        last.state = Port.iotlb.perform (iotlbRequest domain).raw
          (Port.context.perform (contextRequest domain device).raw page) ∧
        last.journal.log = journal.log ++ (Version.mk page.config.version).read ::
          (Port.context.exchange (contextRequest domain device).raw page ++
            Port.iotlb.exchange (iotlbRequest domain).raw page))
      (Port.context.Abandoned (contextRequest domain device).raw page
        (journal.log ++ [(Version.mk page.config.version).read])) := by
  obtain ⟨text, same⟩ := unit.invalidateAll_eq (ρ := EmulatedUnit) (ε := ε) domain device
  have flying : inFlight (contextRequest domain device).raw = true :=
    (RemappingUnit.asks_contextRequest domain device).inProgress
  rw [same, RemappingUnit.WaitsOut, Action.ends_bind]
  apply (readVersion_returns ⟨page, journal⟩).mono _ fun _ _ => False.elim
  rintro version ⟨_, asked⟩ ⟨rfl, same, log⟩
  obtain rfl : page = _ := same.symm
  rw [if_neg (Nat.not_lt_of_le offered), RemappingUnit.flush, Action.ends_bind]
  apply (handshake_port .context unit Port.context.title asked rfl driven.apart
    (driven.prompt .context) (driven.allowed .context) flying).mono
  · rintro report middle ⟨allows, rfl, done, exchanged⟩
    rw [Action.ends_bind]
    apply (unit.checkGranularity_returns _ _ _ middle).mono _ fun _ _ => False.elim
    rintro outcome ⟨now, checked⟩ ⟨same, quiet, judged⟩
    obtain rfl : now = Port.context.perform (contextRequest domain device).raw page :=
      same.trans done
    rw [Action.ends_bind, Action.ends_discard]
    have performed := driven.perform .context (contextRequest domain device).raw
    apply (performed.invalidateIotlb_waits (domain.filter DomainId.isValid) checked
      Address.zero 0).mono
    · rintro _ last ⟨-, -, state, flushed⟩
      rw [RemappingUnit.iotlbRequest_filter] at state flushed
      rw [Action.ends_pure]
      refine ⟨allows, page.config.actual_completeContext domain device ▸ judged, state, ?_⟩
      have others : Port.iotlb ≠ Port.context := by simp
      rw [flushed, quiet, exchanged, log, Port.exchange_perform_of_ne others]
      simp
    · rintro cause last ⟨budget, member, more, -⟩
      rw [Port.busyPolls_perform] at more
      exact absurd (PollPolicy.allows_iff.mp allows budget member) (Nat.not_le_of_lt more)
  · rintro cause last ⟨budget, member, more, rfl, abandoned⟩
    exact ⟨budget, member, more, rfl, log ▸ abandoned⟩

end Calls

/-- Software that waits as long as it takes waits for the commands in flight, and submits one
command for each cache that it invalidates, the second when the first is done. Each asks for what
the arguments say, and is done in the end. The outcome tells what was reported for the first. -/
theorem Accessed.invalidates (accessed : Accessed config page) (apart : config.IotlbApart)
    (offered : (Version.mk config.version).major ≤ lastRegisterInvalidation)
    (known : config.extendedCapability = unit.extended)
    (policy : unit.config.poll = .unbounded) (domain : Option DomainId) (journal : Journal) :
    (∀ (range : VirtualAddress) (size : Nat),
      (unit.invalidateIotlb domain range size : Action EmulatedUnit ε Invalidation).Returns
        ⟨page, journal⟩ fun outcome last =>
          last.state = { page with
            iotlbCommands := page.iotlbCommands.push (iotlbRequest domain)
            iotlb := ⟨config.completeIotlb (iotlbRequest domain).raw, 0⟩ } ∧
          inFlight last.state.iotlb.value = false ∧
          (iotlbRequest domain).Asks (domain.filter DomainId.isValid) ∧
          (∃ added, last.journal.log = journal.log ++ added ∧
            Port.iotlb.Given (iotlbRequest domain).raw page added) ∧
          ∃ requested, (iotlbRequest domain).requested = some requested ∧
            Invalidation.Judged requested
              (EmulatedConfig.reported config.iotlbGranularity requested) outcome) ∧
      ∀ device : Option RoutingId,
        (unit.invalidateAll domain device : Action EmulatedUnit ε Invalidation).Returns
          ⟨page, journal⟩ fun outcome last =>
            last.state = { page with
              contextCommands := page.contextCommands.push (contextRequest domain device)
              context := ⟨config.completeContext (contextRequest domain device).raw, 0⟩
              iotlbCommands := page.iotlbCommands.push (iotlbRequest domain)
              iotlb := ⟨config.completeIotlb (iotlbRequest domain).raw, 0⟩ } ∧
            inFlight last.state.context.value = false ∧
            inFlight last.state.iotlb.value = false ∧
            (contextRequest domain device).Asks (domain.filter DomainId.isValid) device ∧
            (iotlbRequest domain).Asks (domain.filter DomainId.isValid) ∧
            (∃ early late, last.journal.log =
                journal.log ++ (Version.mk config.version).read :: (early ++ late) ∧
              Port.context.Given (contextRequest domain device).raw page early ∧
              Port.iotlb.Given (iotlbRequest domain).raw page late) ∧
            ∃ requested, (contextRequest domain device).requested = some requested ∧
              Invalidation.Judged requested
                (EmulatedConfig.reported config.contextGranularity requested) outcome := by
  obtain ⟨rfl, context, iotlb⟩ := accessed.completing
  have driven : Driven unit page :=
    ⟨known, apart, (⟨rfl, context, iotlb⟩ : Completing page.config page).prompt,
      fun _ => policy ▸ trivial⟩
  have stays {budget : Nat} (member : budget ∈ unit.config.poll.budget?) : False := by
    rw [policy] at member
    cases member
  constructor
  · intro range size
    apply (driven.invalidateIotlb_waits domain journal range size).mono
    · rintro outcome last ⟨-, judged, state, log⟩
      refine ⟨state, ?_, RemappingUnit.asks_iotlbRequest domain,
        ⟨_, log, Port.given_exchange iotlb⟩, _, IotlbCommand.requested_invalidate, judged⟩
      rw [state]
      exact page.config.isSet_completeIotlb _
    · rintro cause last ⟨budget, member, -⟩
      exact stays member
  · intro device
    apply (driven.invalidateAll_waits domain journal device offered).mono
    · rintro outcome last ⟨-, judged, state, log⟩
      refine ⟨state, ?_, ?_, RemappingUnit.asks_contextRequest domain device,
        RemappingUnit.asks_iotlbRequest domain,
        ⟨_, _, log, Port.given_exchange context, Port.given_exchange iotlb⟩, _,
        ContextCommand.requested_invalidate, judged⟩
      · rw [state]
        exact page.config.isSet_completeContext _
      · rw [state]
        exact page.config.isSet_completeIotlb _
    · rintro cause last ⟨budget, member, -⟩
      exact stays member

/-- A unit with earlier commands in flight that reports other scopes than the requested ones. -/
def flyingSample : EmulatedUnit :=
  Port.iotlb.accept (iotlbRequest none).raw <|
    Port.context.accept (contextRequest none none).raw <|
      .create { busyPolls := 3, contextGranularity := some 5, iotlbGranularity := some 4 }

/-- Software that drives the unit and waits as long as it takes. -/
def patientSample : RemappingUnit where
  name := "unit"
  config := {}
  capability := flyingSample.config.capability
  extended := flyingSample.config.extendedCapability

theorem Accessed.invalidates_flyingSample :
    Accessed flyingSample.config flyingSample ∧
      inFlight flyingSample.context.value = true ∧ inFlight flyingSample.iotlb.value = true ∧
      (patientSample.invalidateAll (some (.ofNat 7)) none :
        Action EmulatedUnit Empty Invalidation).outcome ⟨flyingSample, { threshold := none }⟩ =
          .ok (.coarser .domain .global) ∧
      ((patientSample.invalidateAll (some (.ofNat 7)) none :
        Action EmulatedUnit Empty Invalidation).finish
          ⟨flyingSample, { threshold := none }⟩).state.contextCommands =
            #[contextRequest none none, contextRequest (some (.ofNat 7)) none] := by
  have apart : flyingSample.config.IotlbApart := by decide +kernel
  have accessed : Accessed flyingSample.config flyingSample :=
    (Accessed.start.accept apart .context _).accept apart .iotlb _
  have known : flyingSample.config.extendedCapability = patientSample.extended := rfl
  have outcome : (patientSample.invalidateAll (some (.ofNat 7)) none :
      Action EmulatedUnit Empty Invalidation).outcome ⟨flyingSample, { threshold := none }⟩ =
        .ok (.coarser .domain .global) := by decide +kernel
  have invalidates := (accessed.invalidates (ε := Empty) apart (by decide +kernel) known rfl
    (some (.ofNat 7)) { threshold := none }).2 none
  exact ⟨accessed, by decide +kernel, by decide +kernel, outcome,
    congrArg contextCommands (invalidates.returned outcome).1⟩

end EmulatedUnit

/-- The same software, if it waits as long as it takes. -/
def RemappingUnit.patient (unit : RemappingUnit) : RemappingUnit :=
  { unit with config := { unit.config with poll := .unbounded } }

namespace EmulatedUnit

variable {page : EmulatedUnit} {unit : RemappingUnit}

/-- What a call comes to for software with a budget. If the unit is busy for no more reads than the
budget has, the call returns what it returns to software that waits as long as it takes;
otherwise it aborts once the budget is spent. -/
structure Budgeted (unit : RemappingUnit) (budget : Nat) (title : String)
    (call : RemappingUnit → Action EmulatedUnit ε Invalidation) (page : EmulatedUnit)
    (journal : Journal) (abandoned : Journaled EmulatedUnit → Prop) : Prop where
  lasts : page.busyPolls ≤ max budget 1 → ∃ outcome,
    (call unit).outcome ⟨page, journal⟩ = .ok outcome ∧
      (call unit.patient).outcome ⟨page, journal⟩ = .ok outcome
  spent : max budget 1 < page.busyPolls →
    (call unit).outcome ⟨page, journal⟩ =
        .error (.abort (.pollBudgetSpent unit.name title (max budget 1))) ∧
      abandoned ((call unit).finish ⟨page, journal⟩)

/-- Two calls that wait out the same unit are given the same report to judge. -/
theorem Budgeted.of_waits {budget : Nat} {title : String}
    {call : RemappingUnit → Action EmulatedUnit ε Invalidation} {journal : Journal}
    {requested : Granularity} {reported : Option Granularity}
    {performed : Journaled EmulatedUnit → Prop} {abandoned : Nat → Journaled EmulatedUnit → Prop}
    (policy : unit.config.poll = .fatal budget)
    (waits : ∀ driver ∈ [unit, unit.patient],
      driver.WaitsOut title page.busyPolls (call driver) ⟨page, journal⟩
        (fun outcome last => Invalidation.Judged requested reported outcome ∧ performed last)
        abandoned) :
    Budgeted unit budget title call page journal (abandoned (max budget 1)) := by
  have own := (waits unit (by simp)).outcome_finish
  rw [policy] at own
  constructor
  case lasts =>
    intro within
    rcases own with ⟨outcome, returned, -, judged, -⟩ | ⟨_, -, _, ⟨⟩, more, -⟩
    · rcases (waits unit.patient (by simp)).outcome_finish with
        ⟨outcome', returned', -, judged', -⟩ | ⟨_, -, _, ⟨⟩, -⟩
      exact ⟨outcome, returned, judged.unique judged' ▸ returned'⟩
    · exact absurd within (Nat.not_le_of_lt more)
  case spent =>
    intro more
    rcases own with ⟨_, -, within, -⟩ | ⟨_, failed, _, ⟨⟩, -, rfl, abandoned⟩
    · exact absurd within (Nat.not_le_of_lt more)
    · exact ⟨failed, abandoned⟩

/-- Software with a budget invalidates the caches of a unit with nothing in flight exactly if the
unit is busy for no more reads than the budget has, and then with the same outcome as software that
waits as long as it takes. Otherwise it aborts when it has polled for its first command as often as
the budget says, and submits no other. -/
theorem invalidates_within_budget (apart : page.config.IotlbApart)
    (known : page.config.extendedCapability = unit.extended)
    (idle : ∀ port : Port, inFlight (port.register page).value = false) {budget : Nat}
    (policy : unit.config.poll = .fatal budget) (domain : Option DomainId) (journal : Journal) :
    (∀ (range : VirtualAddress) (size : Nat),
      Budgeted (ε := ε) unit budget "IOTLB invalidation"
        (fun driver => driver.invalidateIotlb domain range size) page journal
        (Port.iotlb.Abandoned (iotlbRequest domain).raw page journal.log (max budget 1))) ∧
      ((Version.mk page.config.version).major ≤ lastRegisterInvalidation →
        ∀ device : Option RoutingId,
          Budgeted (ε := ε) unit budget "context-cache invalidation"
            (fun driver => driver.invalidateAll domain device) page journal
            (Port.context.Abandoned (contextRequest domain device).raw page
              (journal.log ++ [(Version.mk page.config.version).read]) (max budget 1))) := by
  have driven : ∀ driver ∈ [unit, unit.patient], Driven driver page := by
    intro driver member
    have extended : driver.extended = unit.extended := by
      rcases List.mem_pair.mp member with rfl | rfl <;> rfl
    refine ⟨known.trans extended.symm, apart, fun port => ⟨trivial, fun _ => idle port⟩,
      fun port => ?_⟩
    rw [InvalidationRegister.needed_of_idle _ (idle port)]
    exact PollPolicy.allows_iff.mpr fun _ _ => Nat.zero_le _
  constructor
  · intro range size
    exact .of_waits policy fun driver member =>
      (driven driver member).invalidateIotlb_waits domain journal range size
  · intro offered device
    exact .of_waits policy fun driver member =>
      (driven driver member).invalidateAll_waits domain journal device offered

/-- A unit that is busy for three reads. -/
def busySample : EmulatedUnit := .create { busyPolls := 3 }

/-- Software that drives the unit with a budget. -/
def thriftySample (budget : Nat) : RemappingUnit where
  name := "unit"
  config := .strict budget
  capability := busySample.config.capability
  extended := busySample.config.extendedCapability

theorem invalidates_within_budget_busySample :
    (∃ outcome, ((thriftySample 3).invalidateAll none none :
        Action EmulatedUnit Empty Invalidation).outcome ⟨busySample, { threshold := none }⟩ =
      .ok outcome) ∧
    ((thriftySample 2).invalidateAll none none :
        Action EmulatedUnit Empty Invalidation).outcome ⟨busySample, { threshold := none }⟩ =
      .error (.abort (.pollBudgetSpent "unit" "context-cache invalidation" 2)) := by
  have apart : busySample.config.IotlbApart := by decide +kernel
  have idle : ∀ port : Port, inFlight (port.register busySample).value = false := by
    intro port
    cases port <;> decide +kernel
  have offered : (Version.mk busySample.config.version).major ≤ lastRegisterInvalidation := by
    decide +kernel
  have known (budget : Nat) :
      busySample.config.extendedCapability = (thriftySample budget).extended := rfl
  have budgeted (budget : Nat) := (invalidates_within_budget (ε := Empty) apart (known budget) idle
    rfl none { threshold := none }).2 offered none
  obtain ⟨outcome, returned, -⟩ := (budgeted 3).lasts (by decide +kernel)
  exact ⟨⟨outcome, returned⟩, ((budgeted 2).spent (by decide +kernel)).1⟩

end EmulatedUnit

end DmaRemap

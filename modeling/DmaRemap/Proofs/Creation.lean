import DmaRemap.Proofs.Completion
import DmaRemap.Proofs.Conflict
import DmaRemap.Proofs.Runs

namespace DmaRemap

variable {ρ : Type}

/-- The entry of a binding can be read back, wherever its table is. -/
theorem ContextEntry.exists_table_binding (table : PhysicalAddress) (domain : DomainId) :
    ∃ found, (binding table domain).table = .ok found := by
  have bound := table.isLt
  exact ⟨⟨table.val / 4096 * 4096, by omega⟩, Address.ofNat_eq_ok tableField_binding⟩

namespace Call.Does

variable {start last : Journaled (Platform ρ)} {call : Call} {reply : Except IommuError Reply}

theorem readable (does : call.Does start reply last)
    (readable : start.state.machine.controller.bindings.Readable) :
    last.state.machine.controller.bindings.Readable := by
  cases does with
  | idle same => exact same ▸ readable
  | created made taken controller => exact controller ▸ readable
  | uncreated wired uncreated =>
    rcases uncreated.bindings with same | ⟨_, _, _, first, middle, same, same', unbinding⟩
    · exact same ▸ readable
    · rw [← same']
      rw [← same] at wired readable
      exact unbinding.readable wired readable
  | edited _ _ controller | abandoned controller => exact controller ▸ readable
  | bound here bound _ _ controller =>
    rw [controller]
    intro bdf entry now present
    rw [bound.rebinds.context] at now
    split at now
    case isTrue =>
      cases now
      exact ContextEntry.exists_table_binding ..
    case isFalse => exact readable bdf entry now present
  | unbound here unbound _ _ controller =>
    rw [controller]
    intro bdf entry now present
    exact readable bdf entry (unbound.context_of_present now present) present
  | destroyed here wired unbinding destroys =>
    exact destroys.controller ▸ unbinding.readable wired readable

end Call.Does

/-- Whatever calls led to a platform, the entries of its bindings can be read back. -/
theorem Platform.Reached.readable [RegisterPage ρ] [QuietPage ρ]
    {admits : Platform ρ → Call → Prop} {platform : Platform ρ}
    (reached : Reached admits platform) :
    platform.Ordered ∧ platform.machine.controller.bindings.Readable := by
  refine @Reached.invariant _ _ _ _ _
    (fun platform => platform.machine.controller.bindings.Readable)
    ?taken ?called ?registers reached
  case taken =>
    intro controller page wired _ bdf entry holds present
    cases (wired.context_eq bdf).symm.trans holds
    cases ContextEntry.present_absent.symm.trans present
  case called => exact fun _ readable _ does => does.readable readable
  case registers => exact fun _ _ => id

theorem Format.expressed_dmaBuffer : secondLevel.expressed .dmaBuffer = .dmaBuffer := by
  decide

/-- Whether the addresses of some buffers translate as these ask for, and no other addresses do. -/
structure MapsExactly (translate : VirtualAddress → Except Abort (Option Translation))
    (buffers : List DmaBuffer) : Prop where
  inside : ∀ buffer ∈ buffers, ∀ offset < buffer.size, ∃ input : VirtualAddress,
    input.val = buffer.start.val + offset ∧ ∃ answer, translate input = .ok (some answer) ∧
      answer.address.val = buffer.target.val + offset ∧ answer.flags = .dmaBuffer
  outside : ∀ input : VirtualAddress, (∀ buffer ∈ buffers,
    ¬(buffer.start.val ≤ input.val ∧ input.val < buffer.start.val + buffer.size)) →
      translate input = .ok none

namespace TranslationTable

variable {table : TranslationTable} {first now : Pool} {buffers : List DmaBuffer}

/-- Inserts the mapping of a buffer. -/
def fill (table : TranslationTable) (buffer : DmaBuffer) : Action Pool TableError Unit :=
  table.insert buffer.start buffer.target buffer.size .dmaBuffer

/-- Buffers were inserted into a table one after the other, and from one pool that led to the
other. -/
inductive Filled (table : TranslationTable) (first : Pool) : List DmaBuffer → Pool → Prop where
  | none : Filled table first [] first
  | next {past : List DmaBuffer} {now : Pool} {buffer : DmaBuffer}
      (filled : Filled table first past now) (journal : Journal)
      (inserted : (table.fill buffer).outcome ⟨now, journal⟩ = .ok ()) :
      Filled table first (past ++ [buffer]) ((table.fill buffer).finish ⟨now, journal⟩).state

/-- Whatever insertions keep of a table is left when buffers were inserted. -/
theorem Filled.evolves (filled : table.Filled first buffers now) : Evolves table first now := by
  induction filled with
  | none => exact .refl table first
  | next _ journal inserted evolves => exact (evolves.insert_ends ..).returned inserted

theorem Maps.next {past : List DmaBuffer} {buffer : DmaBuffer} {after : Pool}
    (exactly : MapsExactly (table.lookup now) past) (format : table.format = .secondLevel)
    (sited : (Request.mapping buffer.start buffer.target buffer.size .dmaBuffer).Sited table.format
      table.format.levels 0)
    (maps : table.Maps (.mapping buffer.start buffer.target buffer.size .dmaBuffer) buffer.size now
      after) : MapsExactly (table.lookup after) (past ++ [buffer]) := by
  constructor
  · intro other member offset below
    rcases List.mem_append.mp member with before | here
    · obtain ⟨input, place, answer, translated, answers⟩ := exactly.inside other before offset below
      exact ⟨input, place, answer, maps.kept input answer translated, answers⟩
    · cases List.mem_singleton.mp here
      have room : buffer.start.val + offset < 1 <<< 64 := by
        have stop : buffer.start.val + buffer.size ≤ Level.span table.format.levels := sited.inside
        rw [Format.span_levels, format] at stop
        simp only [Format.inputBits] at stop
        omega
      refine ⟨⟨buffer.start.val + offset, room⟩, rfl, ?_⟩
      obtain ⟨answer, translated, answers⟩ := maps.inside ⟨buffer.start.val + offset, room⟩
        ⟨Nat.le_add_right .., Nat.add_lt_add_left below _⟩
      refine ⟨answer, translated, ?_, ?_⟩
      · rw [answers.address]
        exact congrArg (buffer.target.val + ·) (Nat.add_sub_cancel_left ..)
      · rw [answers.flags, format]
        exact Format.expressed_dmaBuffer
  · intro input missed
    have outside : ¬(Request.mapping buffer.start buffer.target buffer.size .dmaBuffer).Reaches
        buffer.size input.val := missed buffer (List.mem_append_right _ List.mem_cons_self)
    rw [maps.outside input outside]
    exact exactly.outside input fun other member => missed other (List.mem_append_left _ member)

/-- A table into which buffers were inserted maps them and nothing else. -/
theorem Filled.mapsExactly (filled : table.Filled first buffers now)
    (format : table.format = .secondLevel) (held : table.Held first Format.blank)
    (fits : table.format.Fits first) : MapsExactly (table.lookup now) buffers := by
  induction filled with
  | none => exact ⟨nofun, fun input _ => lookup_blank held input⟩
  | next filled journal inserted exactly =>
    obtain ⟨fits', branches, held'⟩ := filled.evolves.held ⟨fits, _, held⟩
    obtain ⟨sited, carried⟩ := (insert_ends held' fits' ..).returned inserted
    exact Maps.next exactly format sited (maps_of_carried held' sited (Nat.le_refl _) carried)

/-- A table was made in a pool, and buffers were inserted into it. -/
def Built (table : TranslationTable) (coherency : Coherency) (pool : Pool)
    (buffers : List DmaBuffer) (now : Pool) : Prop :=
  ∃ journal, (create .secondLevel coherency).outcome ⟨pool, journal⟩ = .ok table ∧
    table.Filled ((create .secondLevel coherency).finish ⟨pool, journal⟩).state buffers now

variable {coherency : Coherency} {pool : Pool}

theorem Built.made (built : table.Built coherency pool buffers now) : Made pool table now := by
  obtain ⟨journal, created, filled⟩ := built
  exact ((made_ends pool coherency journal).returned created).trans filled.evolves

theorem Built.mapsExactly (built : table.Built coherency pool buffers now)
    (fits : Format.secondLevel.Fits pool) : MapsExactly (table.lookup now) buffers := by
  obtain ⟨journal, created, filled⟩ := built
  obtain ⟨format, held, taken⟩ := (create_ends _ _ _).returned created
  rw [← format] at fits
  exact filled.mapsExactly format held (fits.exchange taken)

/-- No table can be made in a pool. -/
def Unmade (coherency : Coherency) (pool : Pool) (cause : TableError) : Prop :=
  ∃ journal, (create .secondLevel coherency).outcome ⟨pool, journal⟩ = .error (.error cause)

/-- A buffer cannot be inserted into a table that was made in a pool, after those before it. -/
def Refuses (table : TranslationTable) (coherency : Coherency) (pool : Pool)
    (past : List DmaBuffer) (buffer : DmaBuffer) (cause : TableError) : Prop :=
  ∃ now journal, table.Built coherency pool past now ∧
    (table.fill buffer).outcome ⟨now, journal⟩ = .error (.error cause)

/-- What goes wrong first when a table is made for some buffers. -/
inductive Fails (coherency : Coherency) (pool : Pool) (buffers : List DmaBuffer)
    (cause : TableError) : Prop where
  | unmade (failed : Unmade coherency pool cause)
  | refused {past later : List DmaBuffer} {buffer : DmaBuffer} {table : TranslationTable}
      (split : buffers = past ++ buffer :: later)
      (failed : table.Refuses coherency pool past buffer cause)

end TranslationTable

namespace Controller

/-- What the creation of a domain leaves of a controller and makes of the domain. -/
structure Created (before after : Controller) (buffers : List DmaBuffer) (domain : Domain) : Prop
    where
  free : domain.id.val.val ∈ before.ids.free
  valid : domain.id.isValid = true
  taken : before.ids.take = (some domain.id, after.ids)
  rest : after = { before with ids := after.ids }
  devices : domain.devices = []
  maps : MapsExactly domain.translate buffers

/-- What is left of a controller if no domain was created, and why none was. -/
structure Refused (before after : Controller) (pool : Pool) (buffers : List DmaBuffer)
    (error : IommuError) : Prop where
  ids : after.ids = before.ids
  context : ∀ bdf, after.bindings.context bdf = before.bindings.context bdf
  exhausted : error = .domainIdsExhausted ↔ before.ids.available = 0
  cause : 0 < before.ids.available → ∃ cause, error = .table cause ∧
    TranslationTable.Fails before.unit.coherency pool buffers cause

end Controller

namespace Machine

variable {before after : Controller} {contexts : Fin 256 → Option PhysicalAddress} {pool : Pool}
  {buffers : List DmaBuffer} {error : IommuError}

/-- A domain that is created has the table that was built for the buffers, or what went wrong first
is told. -/
theorem createDomain_ends_building [RegisterPage ρ] [QuietPage ρ] {start : Journaled (Machine ρ)}
    (wired : start.state.controller.bindings.Wired contexts) (pool : Pool)
    (buffers : List DmaBuffer) :
    (createDomain pool buffers).Ends start
      (fun domain last => ∃ ids, start.state.controller.ids.take = (some domain.id, ids) ∧
        last.state.controller = { start.state.controller with ids } ∧
        domain.table.Built start.state.controller.unit.coherency pool buffers domain.pool ∧
        domain.devices = [])
      (fun cause last => (∃ reason, cause = .abort reason) ∨ ∃ error, cause = .error error ∧
        GivenUp (TranslationTable.Unmade start.state.controller.unit.coherency pool)
          (fun past buffer cause table _ =>
            table.Refuses start.state.controller.unit.coherency pool past buffer cause)
          contexts buffers start.state.controller error last.state.controller) := by
  refine createDomain_ends_explaining
    (fun past table now => table.Built start.state.controller.unit.coherency pool past now) _ _
    wired ?_ ?_ buffers
  · intro journal
    apply Action.ends_run.mono
    · rintro table last ⟨created, rfl⟩
      exact ⟨journal, created, .none⟩
    · rintro _ last ⟨failed, rfl⟩ error rfl
      exact ⟨journal, failed⟩
  · intro past buffer table now built journal
    apply Action.ends_run.mono
    · rintro _ last ⟨inserted, rfl⟩
      obtain ⟨first, created, filled⟩ := built
      exact ⟨first, created, filled.next journal inserted⟩
    · rintro _ last ⟨failed, rfl⟩ error rfl
      exact ⟨now, journal, built, failed⟩

/-- Giving up the creation of a domain leaves no trace, unless a device is bound to the table. -/
theorem GivenUp.refused
    (givenUp : GivenUp (TranslationTable.Unmade before.unit.coherency pool)
      (fun past buffer cause table _ =>
        table.Refuses before.unit.coherency pool past buffer cause)
      contexts buffers before error after)
    (wired : before.bindings.Wired contexts) (counted : before.ids.Counted)
    (unnamed : ∀ bdf entry table, before.bindings.context bdf = .ok entry → entry.Names table →
      ¬pool.window.Contains table) : before.Refused after pool buffers error := by
  have available {id : DomainId} {ids : DomainIds} (taken : before.ids.take = (some id, ids)) :
      before.ids.available ≠ 0 := by
    rw [counted.available_eq, (DomainIds.free_of_take taken).1]
    exact Nat.succ_ne_zero _
  cases givenUp with
  | exhausted none =>
    have full : before.ids.available = 0 := by
      rw [counted.available_eq, none, List.length_nil]
    exact ⟨rfl, fun _ => rfl, ⟨fun _ => full, fun _ => rfl⟩,
      fun free => absurd full (Nat.ne_of_gt free)⟩
  | tableless taken failed =>
    exact ⟨DomainIds.giveBack_of_take counted taken, fun _ => rfl,
      ⟨nofun, fun full => absurd full (available taken)⟩, fun _ => ⟨_, rfl, .unmade failed⟩⟩
  | unmapped taken split failed start unbinding =>
    obtain ⟨now, journal, built, stopped⟩ := failed
    refine ⟨DomainIds.giveBack_of_take counted taken, fun bdf => ?_,
      ⟨nofun, fun full => absurd full (available taken)⟩,
      fun _ => ⟨_, rfl, .refused split ⟨now, journal, built, stopped⟩⟩⟩
    have held := wired.context_eq bdf
    rw [← start] at wired held unnamed ⊢
    have other := fun names => unnamed bdf _ _ held names built.made.window.2
    exact ((unbinding.context_eq wired held).2 other).trans held.symm

end Machine

namespace Platform

open Machine (createDomain)

/-- On a unit that completes its invalidations, whatever calls led to its state, the creation of a
domain in a pool that links can name never aborts. If no device is bound to a table in the window of
the pool, the domain maps exactly the buffers that were asked for, or nothing has changed and the
error tells what went wrong first. -/
theorem createDomain_all_or_nothing [RegisterPage ρ] [QuietPage ρ]
    {admits : Platform ρ → Call → Prop} {platform : Platform ρ} (reached : Reached admits platform)
    (completes : platform.machine.controller.unit.Completes platform.machine.page) {pool : Pool}
    (fits : Format.secondLevel.Fits pool)
    (unnamed : ∀ bdf entry table, platform.machine.controller.bindings.context bdf = .ok entry →
      entry.Names table → ¬pool.window.Contains table)
    (buffers : List DmaBuffer) (journal : Journal) :
    (∃ domain, (createDomain pool buffers).outcome ⟨platform.machine, journal⟩ = .ok domain ∧
      platform.machine.controller.Created
        ((createDomain pool buffers).finish ⟨platform.machine, journal⟩).state.controller buffers
        domain) ∨
    ∃ error, (createDomain pool buffers).outcome ⟨platform.machine, journal⟩ =
        .error (.error error) ∧
      platform.machine.controller.Refused
        ((createDomain pool buffers).finish ⟨platform.machine, journal⟩).state.controller pool
        buffers error := by
  obtain ⟨ordered, readable⟩ := reached.readable
  obtain ⟨contexts, wired⟩ := ordered.wired
  have ready : platform.machine.Ready platform.machine.controller.unit :=
    ⟨rfl, completes, ordered.wired, readable, ordered.ids⟩
  have ends : (createDomain pool buffers).Ends ⟨platform.machine, journal⟩ _ _ :=
    Machine.createDomain_ends_building wired pool buffers
  rcases ends.outcome_finish with ⟨domain, returned, ids, taken, left, built, devices⟩ |
    ⟨cause, failed, ⟨reason, rfl⟩ | ⟨error, rfl, givenUp⟩⟩
  · refine .inl ⟨domain, returned, ?_⟩
    rw [left]
    have first := (DomainIds.free_of_take taken).1
    exact ⟨first ▸ List.mem_cons_self, DomainIds.isValid_of_take taken, taken, rfl, devices,
      built.mapsExactly fits⟩
  · exact absurd failed ((Machine.steady_createDomain pool buffers).concluded ready reason)
  · exact .inr ⟨error, failed, givenUp.refused wired ordered.ids unnamed⟩

theorem completes_bareSample :
    bareSample.machine.controller.unit.Completes bareSample.machine.page := by
  apply EmulatedUnit.Prompt.completes
  refine ⟨?_, ?_, ⟨?_, fun _ => ?_⟩, ⟨?_, fun _ => ?_⟩⟩
  all_goals decide +kernel

/-- A domain is created for the buffer of the sample, but not in a pool without nodes. -/
theorem createDomain_all_or_nothing_sample :
    (∃ domain, (createDomain poolSample [bufferSample]).outcome
        ⟨bareSample.machine, Forest.silent⟩ = .ok domain ∧
      bareSample.machine.controller.Created ((createDomain poolSample [bufferSample]).finish
        ⟨bareSample.machine, Forest.silent⟩).state.controller [bufferSample] domain) ∧
    ∃ error, (createDomain .empty [bufferSample]).outcome
        ⟨bareSample.machine, Forest.silent⟩ = .error (.error error) ∧
      bareSample.machine.controller.Refused ((createDomain .empty [bufferSample]).finish
        ⟨bareSample.machine, Forest.silent⟩).state.controller .empty [bufferSample] error := by
  have reached : Reached Separates bareSample := reached_bareSample
  have unnamed (pool : Pool) (bdf : Bdf) (entry : ContextEntry) (table : PhysicalAddress)
      (held : bareSample.machine.controller.bindings.context bdf = .ok entry)
      (names : entry.Names table) : ¬pool.window.Contains table := by
    obtain ⟨holding, member, _⟩ := reached.separate.2.bound held names.1
    exact absurd member List.not_mem_nil
  constructor
  · have returned : ((createDomain poolSample [bufferSample]).outcome
        ⟨bareSample.machine, Forest.silent⟩).isOk = true := by
      decide +kernel
    rcases createDomain_all_or_nothing reached completes_bareSample fits_samples.1
      (unnamed poolSample) [bufferSample] Forest.silent with created | ⟨error, failed, _⟩
    · exact created
    · rw [failed] at returned
      cases returned
  · have stopped : ((createDomain .empty [bufferSample]).outcome
        ⟨bareSample.machine, Forest.silent⟩).isOk = false := by
      decide +kernel
    rcases createDomain_all_or_nothing reached completes_bareSample (fun index => index.elim0)
      (unnamed .empty) [bufferSample] Forest.silent with ⟨domain, returned, _⟩ | refused
    · rw [returned] at stopped
      cases stopped
    · exact refused

end Platform

end DmaRemap

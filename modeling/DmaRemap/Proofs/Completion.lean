import DmaRemap.Proofs.Domains
import DmaRemap.Proofs.Emulated
import DmaRemap.Proofs.Total

/-! Units that complete what they are asked for. Software that waits for such a unit never gives up,
so that nothing that it does with domains aborts. An emulated unit completes every invalidation if
the software polls as often as the unit is busy. -/

namespace DmaRemap

open DmaRemap.Action (Orderly)

section Steady

variable {σ τ ε ε' α β : Type}

/-- From every state of a kind an action returns or fails with an error, and leaves a state of that
kind. It never aborts. -/
structure Action.Steady (kind : σ → Prop) (action : Action σ ε α) : Prop where
  ends : ∀ start, kind start.state → action.Ends start (fun _ last => kind last.state)
    fun cause last => kind last.state ∧ ∃ error, cause = .error error

namespace Action.Steady

variable {kind : σ → Prop} {kind' : τ → Prop}

theorem pure (result : α) : (Pure.pure result : Action σ ε α).Steady kind :=
  ⟨fun _ holds => (ends_pure result).mpr holds⟩

theorem fail (cause : ε) : (Action.fail cause : Action σ ε α).Steady kind :=
  ⟨fun _ holds => (ends_fail cause).mpr ⟨holds, cause, rfl⟩⟩

theorem record (severity : Severity) (text : Unit → String) :
    (Action.record severity text : Action σ ε Unit).Steady kind :=
  ⟨fun _ holds => (ends_record severity text).mpr holds⟩

theorem state : (Action.state : Action σ ε σ).Steady kind :=
  ⟨fun _ holds => ends_state.mpr holds⟩

theorem state_bind {rest : σ → Action σ ε α} (steady : ∀ now, kind now → (rest now).Steady kind) :
    (Action.state >>= rest).Steady kind := by
  constructor
  intro start holds
  rw [ends_bind, ends_state]
  exact (steady start.state holds).ends start holds

theorem bind {first : Action σ ε β} {rest : β → Action σ ε α} (steady : first.Steady kind)
    (goesOn : ∀ value, (rest value).Steady kind) : (first >>= rest).Steady kind := by
  constructor
  intro start holds
  rw [ends_bind]
  apply (steady.ends start holds).mono _ fun _ _ => id
  exact fun value middle holds => (goesOn value).ends middle holds

theorem ite (condition : Prop) [Decidable condition] {yes no : Action σ ε α}
    (steady : yes.Steady kind) (steady' : no.Steady kind) :
    (if condition then yes else no).Steady kind := by
  split
  · exact steady
  · exact steady'

theorem forM {body : β → Action σ ε Unit} (steady : ∀ turn, (body turn).Steady kind)
    (turns : List β) : (turns.forM body).Steady kind := by
  constructor
  intro start holds
  apply ends_forM fun _ now => kind now.state
  case initial => exact holds
  case turn => exact fun _ next _ now _ holds => (steady next).ends now holds
  case final => exact fun _ => id

theorem discard {inner : Action σ ε β} (steady : inner.Steady kind) :
    (discard inner : Action σ ε Unit).Steady kind := by
  constructor
  intro start holds
  rw [ends_discard]
  exact steady.ends start holds

theorem attempt {inner : Action σ ε α} (steady : inner.Steady kind) :
    (Action.attempt inner : Action σ ε' (Except ε α)).Steady kind := by
  constructor
  intro start holds
  rw [ends_attempt]
  apply (steady.ends start holds).mono (fun _ _ => id)
  rintro _ last ⟨holds, error, rfl⟩
  exact holds

theorem on {part : Part σ τ} {inner : Action τ ε α} (steady : inner.Steady kind')
    (reads : ∀ now, kind now → kind' (part.get now))
    (writes : ∀ now value, kind now → kind' value → kind (part.set value now)) :
    (Action.on part inner).Steady kind := by
  constructor
  intro start holds
  rw [ends_on]
  apply (steady.ends ⟨part.get start.state, start.journal⟩ (reads start.state holds)).mono
  · exact fun _ last => writes start.state last.state holds
  · exact fun _ last ended => ⟨writes start.state last.state holds ended.1, ended.2⟩

theorem beside {extra : τ} {inner : Action (σ × τ) ε α}
    (steady : inner.Steady fun both => kind both.1) :
    (Action.beside extra inner : Action σ ε' (Except ε α × τ)).Steady kind := by
  constructor
  intro start holds
  rw [ends_beside]
  apply (steady.ends ⟨(start.state, extra), start.journal⟩ holds).mono (fun _ _ => id)
  rintro _ last ⟨holds, error, rfl⟩
  exact holds

theorem beside_second {extra : τ} {inner : Action τ ε α} (steady : inner.Steady fun _ => True) :
    (Action.beside extra (Action.on .second inner) :
      Action σ ε' (Except ε α × τ)).Steady kind :=
  .beside (.on steady (fun _ _ => trivial) fun _ _ holds _ => holds)

theorem of_orderly {invariant : σ → Prop} {expected : ε → Prop} {action : Action σ ε α}
    (orderly : action.Orderly invariant expected) : action.Steady fun _ => True := by
  constructor
  intro start _
  apply (orderly.ends start).mono (fun _ _ _ => trivial)
  exact fun _ _ ended => ⟨trivial, ended.2.imp fun _ => And.right⟩

theorem of_returns {action : Action σ ε α}
    (ends : ∀ start, kind start.state → action.Returns start fun _ last => kind last.state) :
    action.Steady kind :=
  ⟨fun start holds => (ends start holds).mono (fun _ _ => id) fun _ _ => False.elim⟩

theorem kept {action : Action σ ε α} (steady : action.Steady kind) {start : Journaled σ}
    (holds : kind start.state) : kind (action.finish start).state :=
  (steady.ends start holds).outcome_finish.elim (fun ⟨_, _, kept⟩ => kept)
    fun ⟨_, _, kept, _⟩ => kept

theorem concluded {action : Action σ ε α} (steady : action.Steady kind) {start : Journaled σ}
    (holds : kind start.state) (reason : Abort) :
    action.outcome start ≠ .error (.abort reason) := by
  intro aborted
  obtain ⟨_, error, same⟩ := (steady.ends start holds).failed aborted
  cases same

theorem compositional :
    Action.Compositional fun {α} (action : Action σ ε α) => action.Steady kind :=
  ⟨.pure, .record, .bind⟩

end Action.Steady

end Steady

variable {ρ ε : Type}

/-- An invalidation that software asks a unit for. -/
inductive Flush where
  | iotlb (domain : Option DomainId) (start : VirtualAddress) (size : Nat)
  | all (domain : Option DomainId) (device : Option RoutingId)

def Flush.perform [RegisterPage ρ] (unit : RemappingUnit) :
    Flush → Action ρ IommuError Invalidation
  | iotlb domain start size => unit.invalidateIotlb domain start size
  | all domain device => unit.invalidateAll domain device

namespace RemappingUnit

variable [RegisterPage ρ] {unit : RemappingUnit} {page now : ρ}

/-- The states of a page that invalidations lead to. -/
inductive Flushing (unit : RemappingUnit) (page : ρ) : ρ → Prop where
  | start : Flushing unit page page
  | next {now : ρ} (led : Flushing unit page now) (flush : Flush) (journal : Journal) :
      Flushing unit page ((flush.perform unit).finish ⟨now, journal⟩).state

theorem Flushing.trans {last : ρ} (first : unit.Flushing page now)
    (second : unit.Flushing now last) : unit.Flushing page last := by
  induction second with
  | start => exact first
  | next _ flush journal led => exact led.next flush journal

/-- Whether a unit completes the invalidations that it is asked for, however many, before software
that waits for it as it is configured to gives up. -/
def Completes (unit : RemappingUnit) (page : ρ) : Prop :=
  ∀ now, unit.Flushing page now → ∀ (flush : Flush) (journal : Journal) (reason : Abort),
    (flush.perform unit).outcome ⟨now, journal⟩ ≠ .error (.abort reason)

theorem steady_flush (unit : RemappingUnit) (flush : Flush) :
    (flush.perform unit : Action ρ IommuError Invalidation).Steady unit.Completes := by
  constructor
  intro start completes
  have led : unit.Completes ((flush.perform unit).finish start).state :=
    fun now later => completes now ((Flushing.start.next flush start.journal).trans later)
  apply Action.ends_run.mono
  · exact fun _ last ran => ran.2 ▸ led
  · intro cause last ran
    obtain ⟨failed, rfl⟩ := ran
    refine ⟨led, ?_⟩
    cases cause with
    | error error => exact ⟨error, rfl⟩
    | abort reason => exact absurd failed (completes start.state .start flush start.journal reason)

/-- A unit completes its invalidations if each leads from a state of some kind to another one. -/
theorem Completes.of_kind {kind : ρ → Prop} (holds : kind page)
    (flushes : ∀ flush : Flush, (flush.perform unit).Steady kind) : unit.Completes page := by
  have kept (now : ρ) (led : unit.Flushing page now) : kind now := by
    induction led with
    | start => exact holds
    | next _ flush journal before =>
      exact (flushes flush).kept before
  exact fun now led flush journal => (flushes flush).concluded (kept now led)

/-- Waiting for a unit that comes closer to its end with every poll. -/
theorem poll_returns {done : Action ρ ε Bool} {kind : ρ → Prop} (left : ρ → Nat)
    (asks : ∀ now : Journaled ρ, kind now.state → done.Returns now fun answer last =>
      kind last.state ∧ (answer = true ∨ left last.state < left now.state))
    (command : String) {start : Journaled ρ} (holds : kind start.state)
    (enough : match unit.config.poll with
      | .fatal budget => left start.state < max budget 1
      | .unbounded => left start.state ≤ RegisterPage.settling start.state) :
    (unit.poll command done).Returns start fun _ last => kind last.state := by
  have polls (giveUp : Abort) (count : Nat) (now : Journaled ρ) (holds : kind now.state)
      (within : left now.state < count) :
      (pollUpTo done giveUp count).Returns now fun _ last => kind last.state := by
    induction count generalizing now with
    | zero => exact absurd within (Nat.not_lt_zero _)
    | succ count ih =>
      apply (Action.ends_bind ..).mpr
      apply (asks now holds).mono _ fun _ _ => id
      intro answer next ended
      obtain ⟨holds, closer⟩ := ended
      cases answer with
      | true => exact (Action.ends_pure ()).mpr holds
      | false => exact ih next holds (by simp at closer; omega)
  unfold poll
  split
  case h_1 budget policy =>
    rw [policy] at enough
    exact polls _ _ start holds enough
  case h_2 policy =>
    rw [policy] at enough
    rw [Action.Returns, Action.ends_bind, Action.ends_state]
    exact polls _ _ start holds (Nat.lt_succ_of_le enough)

end RemappingUnit

/-- Whether software that polls by a policy polls so many times before it gives up. -/
def PollPolicy.Allows : PollPolicy → Nat → Prop
  | unbounded, _ => True
  | fatal budget, polls => polls ≤ max budget 1

instance (policy : PollPolicy) (polls : Nat) : Decidable (policy.Allows polls) :=
  match policy with
  | .unbounded => isTrue trivial
  | .fatal budget => inferInstanceAs (Decidable (polls ≤ max budget 1))

theorem PollPolicy.Allows.of_le {policy : PollPolicy} {polls fewer : Nat}
    (allows : policy.Allows polls) (less : fewer ≤ polls) : policy.Allows fewer := by
  cases policy with
  | unbounded => trivial
  | fatal budget => exact less.trans allows

/-- Whether a register shows the end of its command within as many reads as a policy allows. -/
structure InvalidationRegister.Prompt (policy : PollPolicy) (register : InvalidationRegister) :
    Prop where
  allowed : policy.Allows register.busy
  done : register.busy = 0 → ContextCommand.invalidateField.isSet register.value = false

namespace InvalidationRegister.Prompt

variable {policy : PollPolicy} {register : InvalidationRegister} {complete : Word → Word}
  (completes : ∀ command, ContextCommand.invalidateField.isSet (complete command) = false)
include completes

theorem submit {busy : Nat} (allowed : policy.Allows busy) (command : Word) :
    (InvalidationRegister.submit complete command busy).Prompt policy := by
  refine ⟨allowed, fun idle => ?_⟩
  have idle : busy = 0 := idle
  simp only [InvalidationRegister.submit, if_pos idle]
  exact completes command

/-- A read shows that the command is done, or brings its end closer. -/
theorem afterRead (prompt : register.Prompt policy) :
    (register.afterRead complete).Prompt policy ∧
      (ContextCommand.invalidateField.isSet (register.afterRead complete).value = false ∨
        (register.afterRead complete).busy - 1 < register.busy - 1) := by
  obtain ⟨value, busy⟩ := register
  obtain ⟨allowed, done⟩ := prompt
  match busy with
  | 0 => exact ⟨⟨allowed, done⟩, .inl (done rfl)⟩
  | 1 =>
    exact ⟨⟨allowed.of_le (Nat.zero_le _), fun _ => completes value⟩, .inl (completes value)⟩
  | busy + 2 =>
    refine ⟨⟨allowed.of_le (Nat.le_succ _), nofun⟩, .inr ?_⟩
    simp only [InvalidationRegister.afterRead]
    omega

end InvalidationRegister.Prompt

namespace EmulatedConfig

theorem isSet_completeContext (config : EmulatedConfig) (command : Word) :
    ContextCommand.invalidateField.isSet (config.completeContext command) = false := by
  simp (disch := decide) only [completeContext, ContextCommand.complete, Field.isSet, Field.put,
    Field.get_set_of_disjoint, Field.get_set]
  rfl

theorem isSet_completeIotlb (config : EmulatedConfig) (command : Word) :
    ContextCommand.invalidateField.isSet (config.completeIotlb command) = false := by
  change IotlbCommand.invalidateField.isSet _ = false
  simp (disch := decide) only [completeIotlb, IotlbCommand.complete, Field.isSet, Field.put,
    Field.get_set_of_disjoint, Field.get_set]
  rfl

end EmulatedConfig

namespace EmulatedUnit

open RegisterPage (get64 put64)
open RemappingUnit (readVersion lastRegisterInvalidation)

/-- Whether the IOTLB register of an emulated unit is where software looks for it, and the unit is
done with every command within as many reads as software polls. -/
structure Prompt (unit : RemappingUnit) (page : EmulatedUnit) : Prop where
  offset : page.register64? unit.extended.iotlbOffset = some .iotlbInvalidate
  allowed : unit.config.poll.Allows page.busyPolls
  context : page.context.Prompt unit.config.poll
  iotlb : page.iotlb.Prompt unit.config.poll

variable {unit : RemappingUnit} {start : Journaled EmulatedUnit}

theorem Prompt.written (prompt : Prompt unit start.state) :
    start.state.written64? unit.extended.iotlbOffset = some .iotlbInvalidate := by
  have offset := prompt.offset
  unfold register64? at offset
  split at offset
  · cases offset
  · split at offset
    · cases offset
    · exact offset

theorem get64_contextCommand_returns (prompt : Prompt unit start.state) :
    (get64 RegisterOffset.contextCommand : Action EmulatedUnit ε Word).Returns start
      fun word last => Prompt unit last.state ∧ (inFlight word = false ∨
        last.state.context.busy - 1 < start.state.context.busy - 1) := by
  apply (get64_returns _ start).mono _ fun _ _ => id
  intro value last read
  have read : last.state = start.state.afterRead64 .contextCommand ∧
    value = last.state.value64 .contextCommand := read
  obtain ⟨now, rfl⟩ := read
  obtain ⟨context, closer⟩ :=
    prompt.context.afterRead start.state.config.isSet_completeContext
  rw [now]
  exact ⟨⟨prompt.offset, prompt.allowed, context, prompt.iotlb⟩, closer⟩

theorem get64_iotlbOffset_returns (prompt : Prompt unit start.state) :
    (get64 unit.extended.iotlbOffset : Action EmulatedUnit ε Word).Returns start
      fun word last => Prompt unit last.state ∧ (inFlight word = false ∨
        last.state.iotlb.busy - 1 < start.state.iotlb.busy - 1) := by
  apply (get64_returns _ start).mono _ fun _ _ => id
  intro value last read
  rw [prompt.offset] at read
  have read : last.state = start.state.afterRead64 .iotlbInvalidate ∧
    value = last.state.value64 .iotlbInvalidate := read
  obtain ⟨now, rfl⟩ := read
  obtain ⟨iotlb, closer⟩ := prompt.iotlb.afterRead start.state.config.isSet_completeIotlb
  rw [now]
  exact ⟨⟨prompt.offset, prompt.allowed, prompt.context, iotlb⟩, closer⟩

theorem steady_putContext (command : Word) :
    (put64 RegisterOffset.contextCommand command : Action EmulatedUnit ε Unit).Steady
      (Prompt unit) := by
  refine .of_returns fun start prompt => (put64_returns _ command start).mono ?_ fun _ _ => id
  intro _ last written
  have now : last.state = { start.state with
      contextCommands := start.state.contextCommands.push ⟨command⟩
      context := .submit start.state.config.completeContext command start.state.busyPolls } :=
    written
  rw [now]
  exact ⟨prompt.offset, prompt.allowed,
    .submit start.state.config.isSet_completeContext prompt.allowed command, prompt.iotlb⟩

theorem steady_putIotlb (command : Word) :
    (put64 unit.extended.iotlbOffset command : Action EmulatedUnit ε Unit).Steady
      (Prompt unit) := by
  refine .of_returns fun start prompt => (put64_returns _ command start).mono ?_ fun _ _ => id
  intro _ last written
  rw [write64?, prompt.written] at written
  have now : last.state = { start.state with
      iotlbCommands := start.state.iotlbCommands.push ⟨command⟩
      iotlb := .submit start.state.config.completeIotlb command start.state.busyPolls } :=
    written
  rw [now]
  exact ⟨prompt.offset, prompt.allowed, prompt.context,
    .submit start.state.config.isSet_completeIotlb prompt.allowed command⟩

section Handshake

variable {offset : Nat} {register : EmulatedUnit → InvalidationRegister}
  (reads : ∀ start, Prompt unit start.state →
    (get64 offset : Action EmulatedUnit ε Word).Returns start fun word last =>
      Prompt unit last.state ∧ (inFlight word = false ∨
        (register last.state).busy - 1 < (register start.state).busy - 1))
  (prompt : ∀ page, Prompt unit page → (register page).Prompt unit.config.poll)
  (settles : ∀ page, (register page).busy ≤ RegisterPage.settling page)
include reads prompt settles

theorem steady_await (name : String) :
    (unit.await name offset : Action EmulatedUnit ε Unit).Steady (Prompt unit) := by
  refine .of_returns fun start holds => ?_
  refine RemappingUnit.poll_returns (fun page => (register page).busy - 1) ?_ name holds ?_
  · intro now holds
    apply (Action.ends_bind ..).mpr
    apply (reads now holds).mono _ fun _ _ => id
    intro command last ended
    rw [Action.ends_pure, Bool.not_eq_true']
    exact ended
  · have allowed := (prompt start.state holds).allowed
    split
    case h_1 budget policy =>
      rw [policy] at allowed
      have within : (register start.state).busy ≤ max budget 1 := allowed
      omega
    case h_2 => exact (Nat.sub_le ..).trans (settles start.state)

theorem steady_handshake {command : Word}
    (writes : (put64 offset command : Action EmulatedUnit ε Unit).Steady (Prompt unit))
    (name : String) :
    (unit.handshake name offset command : Action EmulatedUnit ε Word).Steady (Prompt unit) := by
  have read : (get64 offset : Action EmulatedUnit ε Word).Steady (Prompt unit) :=
    .of_returns fun start holds => (reads start holds).mono (fun _ _ => And.left) fun _ _ => id
  exact Action.Steady.compositional.handshake unit (steady_await reads prompt settles name) writes
    read

end Handshake

theorem steady_handshakeContext (command : Word) (name : String) :
    (unit.handshake name RegisterOffset.contextCommand command :
      Action EmulatedUnit ε Word).Steady (Prompt unit) :=
  steady_handshake (fun _ => get64_contextCommand_returns) (fun _ => Prompt.context)
    (fun _ => Nat.le_add_right ..) (steady_putContext command) name

theorem steady_handshakeIotlb (command : Word) (name : String) :
    (unit.handshake name unit.extended.iotlbOffset command :
      Action EmulatedUnit ε Word).Steady (Prompt unit) :=
  steady_handshake (fun _ => get64_iotlbOffset_returns) (fun _ => Prompt.iotlb)
    (fun _ => Nat.le_add_left ..) (steady_putIotlb command) name

theorem readVersion_returns (start : Journaled EmulatedUnit) :
    (readVersion : Action EmulatedUnit ε Version).Returns start fun version last =>
      version = ⟨start.state.config.version⟩ ∧ last.state = start.state ∧
        last.journal.log = start.journal.log ++ [version.read] := by
  rw [Action.Returns, readVersion, Action.ends_bind]
  apply ((get32_returns _ start).and ((logs_get32 _).ends start)).mono _ fun _ _ => And.left
  rintro value last ⟨⟨same, shown⟩, added, log, rfl⟩
  rw [Action.ends_pure]
  exact ⟨congrArg Version.mk shown, same, log⟩

theorem steady_readVersion :
    (readVersion : Action EmulatedUnit ε Version).Steady (Prompt unit) :=
  .of_returns fun start prompt => (readVersion_returns start).mono
    (fun _ _ read => read.2.1 ▸ prompt) fun _ _ => id

/-- An emulated unit completes every invalidation that it is asked for. -/
theorem Prompt.completes {page : EmulatedUnit} (prompt : Prompt unit page) :
    unit.Completes page := by
  refine .of_kind prompt fun flush => ?_
  cases flush with
  | iotlb domain start size =>
    exact Action.Steady.compositional.invalidateIotlb unit (steady_handshakeIotlb _) start size
  | all domain device =>
    exact Action.Steady.compositional.invalidateAll unit (steady_handshakeIotlb _)
      steady_readVersion (steady_handshakeContext _)

/-- An invalidation of all caches shows no version but that of the emulated unit. -/
theorem offers_invalidateAll (unit : RemappingUnit) (start : Journaled EmulatedUnit)
    (offered : (Version.mk start.state.config.version).major ≤ lastRegisterInvalidation)
    (domain : Option DomainId) (device : Option RoutingId) :
    (unit.invalidateAll domain device : Action EmulatedUnit ε Invalidation).Ends start
      (fun _ last => OffersRegisters start.journal.log → OffersRegisters last.journal.log)
      (fun cause _ => ∃ reason, cause = .abort reason) := by
  obtain ⟨text, same⟩ := unit.invalidateAll_eq (ρ := EmulatedUnit) (ε := ε) domain device
  rw [same, Action.ends_bind]
  apply (readVersion_returns start).mono _ fun _ _ => False.elim
  rintro _ middle ⟨rfl, -, asked⟩
  rw [if_neg (Nat.not_lt_of_le offered)]
  apply ((unit.logs_flush domain device).ends middle).mono _ fun _ _ => And.left
  rintro _ last ⟨_, log, _, _, early, late, rfl, shaken, flushed, -⟩ offers
  rw [log, asked]
  refine (offers.append ?_).append (.of_none (List.forall_mem_append.mpr ⟨?_, ?_⟩))
  · exact .of_reads offered
  · exact fun effect member => (shaken.visits effect member).version?_eq_none
  · exact fun effect member => (flushed.visits effect member).version?_eq_none

end EmulatedUnit

/-- A machine whose unit completes invalidations, whose bindings work and can be read back, and
whose ids are counted. -/
structure Machine.Ready (unit : RemappingUnit) [RegisterPage ρ] (machine : Machine ρ) : Prop where
  drives : machine.controller.unit = unit
  completes : unit.Completes machine.page
  wired : ∃ contexts, machine.controller.bindings.Wired contexts
  readable : machine.controller.bindings.Readable
  counted : machine.controller.ids.Counted

theorem Bindings.Unbinding.readable {start last : Journaled Bindings}
    {contexts : Fin 256 → Option PhysicalAddress} {table : PhysicalAddress}
    (unbinding : Unbinding start last contexts table (List.finRange 256))
    (wired : start.state.Wired contexts) (readable : start.state.Readable) :
    last.state.Readable := fun bdf entry now present =>
  readable bdf entry (unbinding.context_of_present wired now present).1 present

theorem Bindings.steady_unbindAll (table : PhysicalAddress) :
    (unbindAll table : Action Bindings ε Nat).Steady fun bindings =>
      (∃ contexts, bindings.Wired contexts) ∧ bindings.Readable := by
  constructor
  rintro start ⟨⟨contexts, wired⟩, readable⟩
  apply (unbindAll_ends_counting wired table).mono
  · intro _ last ended
    exact ⟨⟨contexts, ended.1.wired⟩, ended.1.readable wired readable⟩
  · rintro cause last ⟨reason, _, unreadable⟩
    exact absurd readable unreadable

namespace DomainIds

theorem steady_acquire : acquire.Steady Counted := by
  constructor
  intro start counted
  apply (acquire_ends start).mono
  · exact fun id last handed => counted.take handed.1
  · rintro cause last (⟨reason, _, uncounted⟩ | ⟨rfl, rfl, _⟩)
    · exact absurd counted uncounted
    · exact ⟨counted, _, rfl⟩

theorem steady_release (given : DomainId) :
    (release given : Action DomainIds ε Unit).Steady Counted := by
  constructor
  intro start counted
  apply (release_ends given start).mono
  · exact fun _ last freed => freed.1 ▸ counted.giveBack given
  · exact fun _ _ ⟨_, _, uncounted⟩ => absurd counted uncounted

end DomainIds

theorem TranslationTable.steady_insert (table : TranslationTable) (start : VirtualAddress)
    (target : PhysicalAddress) (size : Nat) (flags : PageFlags) :
    (table.insert start target size flags).Steady fun _ => True := by
  constructor
  intro now _
  apply Action.ends_run.mono (fun _ _ _ => trivial)
  intro cause last ran
  refine ⟨trivial, ?_⟩
  cases cause with
  | error error => exact ⟨error, rfl⟩
  | abort reason =>
    exact absurd ran.1 ((table.vetted_insert now start target size flags).concluded reason)

theorem TranslationTable.steady_create (format : Format) (coherency : Coherency) :
    (create format coherency).Steady fun _ => True :=
  .bind (.of_orderly Pool.orderly_construct) fun _ => .bind (.record ..) fun _ => .pure _

theorem Domain.steady_release (table : TranslationTable) :
    (release table : Action Pool ε Unit).Steady fun _ => True := by
  have orderly : (release table : Action Pool ε Unit).Orderly Pool.Counted fun _ => True :=
    .bind table.orderly_clear fun _ => Pool.orderly_destruct _
  exact .of_orderly orderly

namespace Machine

variable [RegisterPage ρ] {unit : RemappingUnit}

theorem steady_ids {α : Type} {inner : Action DomainIds ε α}
    (steady : inner.Steady DomainIds.Counted) :
    (Action.on idsPart inner : Action (Machine ρ) ε α).Steady (Ready unit) :=
  .on steady (fun _ => Ready.counted) fun _ _ ready counted =>
    ⟨ready.drives, ready.completes, ready.wired, ready.readable, counted⟩

theorem steady_unit_bind {α : Type} {rest : RemappingUnit → Action (Machine ρ) ε α}
    (steady : (rest unit).Steady (Ready unit)) :
    (Machine.unit >>= rest).Steady (Ready unit) := by
  rw [Machine.unit, bind_assoc]
  refine .state_bind fun machine ready => ?_
  rwa [pure_bind, ready.drives]

theorem steady_flush (flush : Flush) :
    (Machine.unit >>= fun unit => Action.on pagePart (flush.perform unit) :
      Action (Machine ρ) IommuError Invalidation).Steady (Ready unit) :=
  steady_unit_bind <| .on (unit.steady_flush flush) (fun _ => Ready.completes)
    fun _ _ ready completes =>
      ⟨ready.drives, completes, ready.wired, ready.readable, ready.counted⟩

theorem steady_invalidateIotlb (domain : Option DomainId) (start : VirtualAddress) (size : Nat) :
    (invalidateIotlb domain start size : Action (Machine ρ) IommuError Invalidation).Steady
      (Ready unit) :=
  steady_flush (.iotlb domain start size)

theorem steady_invalidateAll (domain : Option DomainId) (device : Option RoutingId) :
    (invalidateAll domain device : Action (Machine ρ) IommuError Invalidation).Steady
      (Ready unit) :=
  steady_flush (.all domain device)

theorem steady_destroyDomain (domain : Domain) :
    (destroyDomain domain : Action (Machine ρ) IommuError Pool).Steady (Ready unit) := by
  refine .bind (.on (Bindings.steady_unbindAll domain.table.root)
    (fun _ ready => ⟨ready.wired, ready.readable⟩)
    fun _ _ ready works => ⟨ready.drives, ready.completes, works.1, works.2, ready.counted⟩)
    fun removed => ?_
  refine .bind (steady_invalidateAll ..).discard fun _ => ?_
  refine .bind (steady_ids (DomainIds.steady_release _)) fun _ => steady_unit_bind ?_
  exact .bind (.record ..) fun _ => .bind (.beside_second (Domain.steady_release _)) fun _ =>
    .pure _

theorem offers_invalidateAll (start : Journaled (Machine EmulatedUnit))
    (offered : (Version.mk start.state.page.config.version).major ≤
      RemappingUnit.lastRegisterInvalidation) (domain : Option DomainId)
    (device : Option RoutingId) :
    (invalidateAll domain device : Action (Machine EmulatedUnit) ε Invalidation).Ends start
      (fun _ last => OffersRegisters start.journal.log → OffersRegisters last.journal.log)
      (fun cause _ => ∃ reason, cause = .abort reason) := by
  unfold invalidateAll Machine.unit
  simp only [Action.ends_bind, Action.ends_state, Action.ends_on, Action.ends_pure]
  exact EmulatedUnit.offers_invalidateAll _ ⟨start.state.page, start.journal⟩ offered domain device

theorem offers_destroyDomain (start : Journaled (Machine EmulatedUnit))
    {contexts : Fin 256 → Option PhysicalAddress}
    (wired : start.state.controller.bindings.Wired contexts)
    (offered : (Version.mk start.state.page.config.version).major ≤
      RemappingUnit.lastRegisterInvalidation) (domain : Domain) :
    (destroyDomain domain : Action (Machine EmulatedUnit) ε Pool).Ends start
      (fun _ last => OffersRegisters start.journal.log → OffersRegisters last.journal.log)
      (fun cause _ => ∃ reason, cause = .abort reason) := by
  unfold destroyDomain Machine.unit
  simp only [Action.ends_bind, Action.ends_state, Action.ends_on, Action.ends_discard,
    Action.ends_pure, Action.ends_record, Action.ends_beside]
  apply (Bindings.unbindAll_ends wired domain.table.root).mono _ fun _ _ => id
  intro _ middle unbinding
  apply (offers_invalidateAll ⟨bindingsPart.set middle.state start.state, middle.journal⟩ offered
    _ _).mono _ fun _ _ => id
  intro _ flushed told
  apply (DomainIds.release_ends domain.id _).mono _ fun _ _ => .imp fun _ => And.left
  rintro _ freed ⟨-, quiet⟩
  apply ((Domain.stays_release domain.table).ends _).mono
  · rintro _ last wiped offers
    obtain ⟨writes, log, written⟩ := unbinding.grows
    obtain ⟨wipes, log', cleared⟩ := wiped.grows
    rw [log', Journal.log_record, quiet]
    refine (told ?_).append (.of_none fun effect member => ?_)
    · rw [log]
      refine offers.append (.of_none fun effect member => ?_)
      obtain ⟨_, _, _, rfl⟩ := written effect member
      rfl
    · obtain ⟨_, rfl⟩ := cleared effect member
      rfl
  · intro cause _ _
    cases cause with
    | error impossible => exact impossible.elim
    | abort reason => exact ⟨reason, rfl⟩

/-- A machine with an emulated unit that is ready for it destroys domains. -/
theorem Ready.destroyDomain_returns {machine : Machine EmulatedUnit} {unit : RemappingUnit}
    (ready : machine.Ready unit)
    (offered : (Version.mk machine.page.config.version).major ≤
      RemappingUnit.lastRegisterInvalidation) (domain : Domain) (threshold : Option Severity) :
    (destroyDomain domain : Action (Machine EmulatedUnit) IommuError Pool).Returns
      ⟨machine, { threshold }⟩ fun _ last => OffersRegisters last.journal.log := by
  obtain ⟨contexts, wired⟩ := ready.wired
  have offers := offers_destroyDomain (ε := IommuError) ⟨machine, { threshold }⟩ wired offered
    domain
  apply (((steady_destroyDomain domain).ends _ ready).and offers).mono
  · exact fun _ _ ended => ended.2 (.of_none (List.forall_mem_nil _))
  · rintro cause _ ⟨⟨-, error, rfl⟩, reason, aborted⟩
    cases aborted

end Machine

theorem Attached.steady_machine [RegisterPage ρ] {unit : RemappingUnit} {α : Type}
    {inner : Action (Machine ρ) ε α} (steady : inner.Steady (Machine.Ready unit)) :
    (Action.on machinePart inner).Steady fun attached => attached.machine.Ready unit :=
  .on steady (fun _ => id) fun _ _ _ => id

theorem Attached.steady_addRange [RegisterPage ρ] {unit : RemappingUnit} (range : DmaRange)
    (target : PhysicalAddress) :
    (addRange range target : Action (Attached ρ) IommuError Unit).Steady fun attached =>
      attached.machine.Ready unit := by
  have told (domain : DomainId) : (discard (Action.on machinePart
      (Machine.invalidateIotlb (some domain) range.start range.size)) :
        Action (Attached ρ) IommuError Unit).Steady fun attached => attached.machine.Ready unit :=
    (steady_machine (Machine.steady_invalidateIotlb ..)).discard
  refine .bind .state fun attached => ?_
  refine .bind (.attempt (.on (TranslationTable.steady_insert ..) (fun _ _ => trivial)
    fun _ _ ready _ => ready)) fun outcome => ?_
  cases outcome with
  | error cause => exact .ite _ (.bind (told _) fun _ => .fail _) (.fail _)
  | ok done => exact .ite _ (.bind (told _) fun _ => .record ..) (.record ..)

namespace Machine

variable [RegisterPage ρ] {unit : RemappingUnit}

theorem steady_mapBuffer (buffer : DmaBuffer) :
    (mapBuffer unit buffer : Action (Attached ρ) IommuError Unit).Steady fun attached =>
      attached.machine.Ready unit := by
  refine .bind (.attempt (Attached.steady_addRange ..)) fun outcome => ?_
  split
  · exact .pure _
  · exact .bind .state fun _ => .bind (.record ..) fun _ => .fail _

/-- Creating a domain never aborts on a unit that completes its invalidations. -/
theorem steady_createDomain (pool : Pool) (buffers : List DmaBuffer) :
    (createDomain pool buffers : Action (Machine ρ) IommuError Domain).Steady (Ready unit) := by
  refine steady_unit_bind (.bind (steady_ids DomainIds.steady_acquire) fun number => ?_)
  refine .bind (.beside_second (TranslationTable.steady_create ..)) fun built => ?_
  split
  · exact .bind (steady_ids (DomainIds.steady_release _)) fun _ => .fail _
  · refine .bind (.beside (.on (.forM steady_mapBuffer buffers) (fun _ => id)
      fun _ _ _ => id)) fun mapped => ?_
    split
    · exact .bind (steady_destroyDomain _).discard fun _ => .fail _
    · exact .bind (.record ..) fun _ => .pure _

end Machine

end DmaRemap

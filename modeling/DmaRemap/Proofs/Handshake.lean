import DmaRemap.Proofs.Invalidation

/-! The handshake by which software gives a unit a command: it waits until the register of the
command is idle, writes the command, waits again and reads which scope the unit reports. An
invalidation judges this scope by the one it asked for. What software has added to the effects is
known whether it returns or gives up, and all that is known of the effects follows from there. -/

namespace DmaRemap

open RegisterPage (get32 get64 put32 put64)
open DmaRemap.Action (Keeps)

variable {σ ρ ε α β : Type}

/-- A read of a 64-bit register that shows a word. -/
def Effect.read64 (offset : Nat) (word : Word) : Effect :=
  .access ⟨.read, .word64, offset, word.toNat⟩

/-- A write of a word to a 64-bit register. -/
def Effect.write64 (offset : Nat) (word : Word) : Effect :=
  .access ⟨.write, .word64, offset, word.toNat⟩

/-- Reads of a register until it shows that no command is in flight. -/
inductive Polled (offset : Nat) : List Effect → Prop where
  | done {word : Word} (idle : inFlight word = false) : Polled offset [.read64 offset word]
  | again {word : Word} {later : List Effect} (busy : inFlight word = true)
      (polled : Polled offset later) : Polled offset (.read64 offset word :: later)

/-- The accesses by which software gives a command to a register and gets a report. -/
inductive Handshake (offset : Nat) (command report : Word) : List Effect → Prop where
  | steps {waits polls : List Effect} (waited : Polled offset waits)
      (polled : Polled offset polls) : Handshake offset command report
        (waits ++ .write64 offset command :: (polls ++ [.read64 offset report]))

/-- Whether an effect is a read of a register or the write of a command to it. -/
def Effect.Visits (offset : Nat) (command : Word) (effect : Effect) : Prop :=
  (∃ word, effect = .read64 offset word) ∨ effect = .write64 offset command

theorem Effect.Visits.isAccess {offset : Nat} {command : Word} {effect : Effect}
    (visits : effect.Visits offset command) : effect.IsAccess := by
  obtain ⟨word, rfl⟩ | rfl := visits
  · exact ⟨_, rfl⟩
  · exact ⟨_, rfl⟩

theorem Effect.Visits.version?_eq_none {offset : Nat} {command : Word} {effect : Effect}
    (visits : effect.Visits offset command) : effect.version? = none := by
  obtain ⟨word, rfl⟩ | rfl := visits
  · rfl
  · rfl

theorem Polled.reads {offset : Nat} {polls : List Effect} (polled : Polled offset polls) :
    ∀ effect ∈ polls, ∃ word, effect = .read64 offset word := by
  induction polled with
  | @done word idle => exact List.forall_mem_singleton.mpr ⟨word, rfl⟩
  | @again word later busy polled ih => exact List.forall_mem_cons.mpr ⟨⟨word, rfl⟩, ih⟩

theorem Handshake.visits {offset : Nat} {command report : Word} {added : List Effect}
    (shaken : Handshake offset command report added) :
    ∀ effect ∈ added, effect.Visits offset command := by
  obtain ⟨waited, polled⟩ := shaken
  simp only [List.forall_mem_append, List.forall_mem_cons]
  exact ⟨fun effect member => .inl (waited.reads effect member), .inr rfl,
    fun effect member => .inl (polled.reads effect member), .inl ⟨report, rfl⟩,
    List.forall_mem_nil _⟩

theorem Handshake.accesses {offset : Nat} {command report : Word} {added : List Effect}
    (shaken : Handshake offset command report added) : ∀ effect ∈ added, effect.IsAccess :=
  fun effect member => (shaken.visits effect member).isAccess

theorem Handshake.submits {offset : Nat} {command report : Word} {added : List Effect}
    (shaken : Handshake offset command report added) :
    [Effect.write64 offset command].Sublist added := by
  obtain ⟨waited, polled⟩ := shaken
  simp

/-- Whether an invalidation of one scope does all that one of another scope does. -/
def Granularity.Covers (performed requested : Granularity) : Prop :=
  performed = requested ∨ performed.isCoarserThan requested = true

instance (performed requested : Granularity) : Decidable (performed.Covers requested) :=
  inferInstanceAs (Decidable (_ ∨ _))

/-- Whether an outcome names a scope that is finer than the one that was asked for. -/
def Invalidation.NamesFiner (outcome : Invalidation) (requested : Granularity) : Prop :=
  ∃ finer, outcome = .performed finer ∧ requested.isCoarserThan finer = true

/-- Of two different scopes one is coarser. -/
theorem Granularity.eq_of_not_isCoarserThan {performed requested : Granularity}
    (within : performed.isCoarserThan requested = false)
    (within' : requested.isCoarserThan performed = false) : performed = requested := by
  cases performed <;> cases requested <;> simp_all [isCoarserThan, code]

/-- What an invalidation comes to, by the scope that was asked for and the one that was reported. -/
inductive Invalidation.Judged (requested : Granularity) :
    Option Granularity → Invalidation → Prop where
  | nothing : Judged requested none (.failed requested)
  | more {performed : Granularity} (coarser : performed.isCoarserThan requested = true) :
      Judged requested (some performed) (.coarser requested performed)
  | noMore {performed : Granularity} (within : performed.isCoarserThan requested = false) :
      Judged requested (some performed) (.performed performed)

namespace Invalidation.Judged

variable {requested performed : Granularity} {reported : Option Granularity}
  {outcome outcome' : Invalidation}

theorem unique (judged : Judged requested reported outcome)
    (judged' : Judged requested reported outcome') : outcome = outcome' := by
  cases judged <;> cases judged' <;> simp_all

theorem exists_performed (judged : Judged requested reported outcome)
    (succeeded : outcome.succeeded = true) : ∃ performed, reported = some performed := by
  cases judged with
  | nothing => cases succeeded
  | more | noMore => exact ⟨_, rfl⟩

/-- Only an outcome that names a finer scope hides that too little was done. -/
theorem covers_iff (judged : Judged requested (some performed) outcome) :
    performed.Covers requested ↔ ¬outcome.NamesFiner requested := by
  cases judged with
  | more coarser => exact iff_of_true (.inr coarser) nofun
  | noMore within =>
    constructor
    · rintro covers ⟨_, ⟨⟩, finer⟩
      rcases covers with rfl | coarser
      · cases within.symm.trans finer
      · cases within.symm.trans coarser
    · intro candid
      have within' : requested.isCoarserThan performed = false :=
        Bool.eq_false_iff.mpr fun finer => candid ⟨performed, rfl, finer⟩
      exact .inl (Granularity.eq_of_not_isCoarserThan within within')

end Invalidation.Judged

theorem Granularity.covers_device (performed : Granularity) : performed.Covers .device := by
  cases performed <;> decide

namespace Action

/-- What an action has added to the effects, by its result if it returns. It fails by aborts
alone. -/
structure Logs (action : Action σ ε α) (told : α → List Effect → Prop)
    (halted : List Effect → Prop) : Prop where
  ends : ∀ start, action.Ends start
    (fun value last => ∃ added, last.journal.log = start.journal.log ++ added ∧ told value added)
    (fun cause last => (∃ reason, cause = .abort reason) ∧
      ∃ added, last.journal.log = start.journal.log ++ added ∧ halted added)

namespace Logs

variable {told : β → List Effect → Prop} {told' : α → List Effect → Prop}
  {halted halted' : List Effect → Prop}

theorem mono {action : Action σ ε α} {told : α → List Effect → Prop}
    (logs : action.Logs told halted)
    (tells : ∀ value added, told value added → told' value added)
    (halts : ∀ added, halted added → halted' added) : action.Logs told' halted' := by
  constructor
  intro start
  apply (logs.ends start).mono
  · exact fun value _ => .imp fun added => .imp_right (tells value added)
  · exact fun _ _ => .imp_right (.imp fun added => .imp_right (halts added))

theorem pure {value : α} (tells : told' value []) :
    (Pure.pure value : Action σ ε α).Logs told' halted' :=
  ⟨fun _ => (ends_pure value).mpr ⟨[], by simp, tells⟩⟩

theorem abort (cause : Abort) (halts : halted' []) :
    (Action.abort cause : Action σ ε α).Logs told' halted' :=
  ⟨fun _ => (ends_abort cause).mpr ⟨⟨cause, rfl⟩, [], by simp, halts⟩⟩

theorem state : (Action.state : Action σ ε σ).Logs (fun _ added => added = []) fun _ => False :=
  ⟨fun _ => ends_state.mpr ⟨[], by simp, rfl⟩⟩

theorem record (severity : Severity) (text : Unit → String) :
    (Action.record severity text : Action σ ε Unit).Logs (fun _ added => added = [])
      fun _ => False :=
  ⟨fun _ => (ends_record severity text).mpr ⟨[], by simp, rfl⟩⟩

theorem observe (effect : Effect) : (Action.observe effect : Action σ ε Unit).Logs
    (fun _ added => added = [effect]) fun _ => False :=
  ⟨fun _ => (ends_observe effect).mpr ⟨_, Journal.log_observe .., rfl⟩⟩

theorem discard {inner : Action σ ε β} (logs : inner.Logs told halted) :
    (discard inner : Action σ ε Unit).Logs (fun _ added => ∃ value, told value added) halted := by
  constructor
  intro start
  rw [ends_discard]
  apply (logs.ends start).mono _ fun _ _ => id
  exact fun value _ => .imp fun added => .imp_right fun holds => ⟨value, holds⟩

theorem bind {first : Action σ ε β} {rest : β → Action σ ε α} (logs : first.Logs told halted)
    (halts : ∀ added, halted added → halted' added)
    (goesOn : ∀ value added, told value added →
      (rest value).Logs (fun result later => told' result (added ++ later))
        fun later => halted' (added ++ later)) :
    (first >>= rest).Logs told' halted' := by
  constructor
  intro start
  rw [ends_bind]
  apply (logs.ends start).mono
  · rintro value middle ⟨added, log, holds⟩
    apply ((goesOn value added holds).ends middle).mono
    · rintro result last ⟨later, log', holds'⟩
      exact ⟨added ++ later, by rw [log', log, List.append_assoc], holds'⟩
    · rintro cause last ⟨aborted, later, log', holds'⟩
      exact ⟨aborted, added ++ later, by rw [log', log, List.append_assoc], holds'⟩
  · exact fun _ _ => .imp_right (.imp fun added => .imp_right (halts added))

theorem ite (condition : Prop) [Decidable condition] {yes no : Action σ ε α}
    (logs : condition → yes.Logs told' halted') (logs' : ¬condition → no.Logs told' halted') :
    (if condition then yes else no).Logs told' halted' := by
  split
  case isTrue holds => exact logs holds
  case isFalse fails => exact logs' fails

/-- What adds nothing to the effects, and does not fail, may come first. -/
theorem quiet_bind {first : Action σ ε β} {rest : β → Action σ ε α}
    (logs : first.Logs (fun _ added => added = []) fun _ => False)
    (goesOn : ∀ value, (rest value).Logs told' halted') : (first >>= rest).Logs told' halted' := by
  refine .bind logs (fun _ => False.elim) fun value added none => ?_
  simpa only [none, List.nil_append] using goesOn value

theorem ask {inner : Action ρ Empty α} (quiet : inner.Keeps SameLog) :
    (RegisterPage.ask inner : Action ρ ε α).Logs (fun _ added => added = [])
      fun added => added = [] := by
  constructor
  intro start
  rw [RegisterPage.ask, ends_mapError]
  apply (quiet.ends start).mono
  · exact fun _ _ same => ⟨[], by simpa using same, rfl⟩
  · intro cause _ same
    cases cause with
    | error cause => exact cause.elim
    | abort reason => exact ⟨⟨reason, rfl⟩, [], by simpa using same, rfl⟩

end Logs

end Action

open DmaRemap.Action (Logs)

section QuietPage

variable [RegisterPage ρ] [QuietPage ρ] (offset : Nat)

theorem logs_get32 : (get32 offset : Action ρ ε (BitVec 32)).Logs
    (fun value added => added = [.access ⟨.read, .word32, offset, value.toNat⟩])
    fun added => added = [] := by
  refine .bind (.ask (QuietPage.read32 offset)) (fun _ => id) fun value added none => ?_
  subst none
  constructor
  intro start
  simp

theorem logs_get64 : (get64 offset : Action ρ ε Word).Logs
    (fun value added => added = [.read64 offset value]) fun added => added = [] := by
  refine .bind (.ask (QuietPage.read64 offset)) (fun _ => id) fun value added none => ?_
  subst none
  constructor
  intro start
  simp [Effect.read64]

theorem logs_put32 (value : BitVec 32) : (put32 offset value : Action ρ ε Unit).Logs
    (fun _ added => added = [.access ⟨.write, .word32, offset, value.toNat⟩])
    fun added => added = [.access ⟨.write, .word32, offset, value.toNat⟩] := by
  refine .bind (.observe _) (fun _ => False.elim) fun _ added told => ?_
  subst told
  refine (Logs.ask (QuietPage.write32 offset value)).mono (fun _ _ none => ?_) fun _ none => ?_
  all_goals rw [none, List.append_nil]

theorem logs_put64 (value : Word) : (put64 offset value : Action ρ ε Unit).Logs
    (fun _ added => added = [.write64 offset value])
    fun added => added = [.write64 offset value] := by
  refine .bind (.observe _) (fun _ => False.elim) fun _ added told => ?_
  subst told
  refine (Logs.ask (QuietPage.write64 offset value)).mono (fun _ _ none => ?_) fun _ none => ?_
  all_goals
    rw [none, List.append_nil]
    rfl

end QuietPage

namespace RemappingUnit

variable [RegisterPage ρ] (unit : RemappingUnit)

omit [RegisterPage ρ] in
/-- A report is judged, and nothing happens but that a message may be written. -/
theorem checkGranularity_returns (cache : String) (requested : Granularity)
    (reported : Option Granularity) (start : Journaled ρ) :
    (unit.checkGranularity cache requested reported : Action ρ ε Invalidation).Returns start
      fun outcome last => last.state = start.state ∧ last.journal.log = start.journal.log ∧
        Invalidation.Judged requested reported outcome := by
  unfold checkGranularity
  cases reported with
  | none =>
    rw [Action.Returns, Action.ends_bind, Action.ends_record]
    exact (Action.ends_pure _).mpr ⟨rfl, Journal.log_record .., .nothing⟩
  | some performed =>
    rw [Action.Returns, Action.ends_ite, Action.ends_ite]
    refine ⟨fun coarser => ⟨fun _ => ?_, fun _ => ?_⟩, fun within => ?_⟩
    · rw [Action.ends_bind, Action.ends_record]
      exact (Action.ends_pure _).mpr ⟨rfl, Journal.log_record .., .more coarser⟩
    · exact (Action.ends_pure _).mpr ⟨rfl, rfl, .more coarser⟩
    · exact (Action.ends_pure _).mpr ⟨rfl, rfl, .noMore (Bool.eq_false_iff.mpr within)⟩

omit [RegisterPage ρ] in
theorem logs_checkGranularity (cache : String) (requested : Granularity)
    (reported : Option Granularity) :
    (unit.checkGranularity cache requested reported : Action ρ ε Invalidation).Logs
      (fun outcome added => added = [] ∧ Invalidation.Judged requested reported outcome)
      fun _ => False := by
  constructor
  intro start
  apply (unit.checkGranularity_returns cache requested reported start).mono _ fun _ _ => False.elim
  rintro outcome last ⟨-, log, judged⟩
  exact ⟨[], by simpa using log, rfl, judged⟩

section Logs

variable [QuietPage ρ] (name : String) (offset : Nat)

theorem logs_await : (unit.await name offset : Action ρ ε Unit).Logs
    (fun _ added => Polled offset added)
    fun added => ∀ effect ∈ added, ∃ word, effect = .read64 offset word := by
  have polls (giveUp : Abort) (count : Nat) :
      (pollUpTo (do return !inFlight (← get64 offset)) giveUp count : Action ρ ε Unit).Logs
        (fun _ added => Polled offset added)
        fun added => ∀ effect ∈ added, ∃ word, effect = .read64 offset word := by
    induction count with
    | zero => exact .abort giveUp (List.forall_mem_nil _)
    | succ count ih =>
      rw [pollUpTo, bind_assoc]
      refine .bind (logs_get64 offset) (fun _ none => none ▸ List.forall_mem_nil _)
        fun word added read => ?_
      subst read
      rw [pure_bind]
      refine .ite _ (fun idle => .pure (.done ?_)) fun busy => ih.mono ?_ ?_
      · exact (Bool.not_eq_true' _).mp idle
      · exact fun _ later => .again (by simpa using busy)
      · exact fun later reads => List.forall_mem_cons.mpr ⟨⟨word, rfl⟩, reads⟩
  unfold await poll
  split
  · exact polls ..
  · exact .quiet_bind .state fun _ => polls ..

theorem logs_handshake (command : Word) :
    (unit.handshake name offset command : Action ρ ε Word).Logs (Handshake offset command)
      fun added => ∀ effect ∈ added, effect.Visits offset command := by
  have reads {polls : List Effect} (read : ∀ effect ∈ polls, ∃ word, effect = .read64 offset word) :
      ∀ effect ∈ polls, effect.Visits offset command :=
    fun effect member => .inl (read effect member)
  refine .bind (unit.logs_await name offset) (fun _ => reads) fun _ waits waited => ?_
  have early := reads waited.reads
  refine .bind (logs_put64 offset command) ?_ fun _ _ written => ?_
  · rintro _ rfl
    exact List.forall_mem_append.mpr ⟨early, by simp [Effect.Visits]⟩
  subst written
  refine .bind (unit.logs_await name offset) ?_ fun _ polls polled => ?_
  · intro polls read
    exact List.forall_mem_append.mpr ⟨early, List.forall_mem_cons.mpr ⟨.inr rfl, reads read⟩⟩
  refine (logs_get64 offset).mono (fun report _ read => ?_) fun _ none => ?_
  · subst read
    simpa using Handshake.steps waited polled
  · subst none
    rw [List.append_nil]
    exact List.forall_mem_append.mpr ⟨early,
      List.forall_mem_cons.mpr ⟨.inr rfl, reads polled.reads⟩⟩

/-- The effects of an invalidation of the IOTLB, and how it judges the report. -/
theorem logs_invalidateIotlb (domain : Option DomainId) (range : VirtualAddress) (size : Nat) :
    (unit.invalidateIotlb domain range size : Action ρ ε Invalidation).Logs
      (fun outcome added => ∃ report : IotlbCommand,
        Handshake unit.extended.iotlbOffset (iotlbRequest domain).raw report.raw added ∧
          Invalidation.Judged (iotlbScope (domain.filter DomainId.isValid)) report.actual outcome)
      fun added => ∀ effect ∈ added,
        effect.Visits unit.extended.iotlbOffset (iotlbRequest domain).raw := by
  obtain ⟨text, same⟩ := unit.invalidateIotlb_eq (ρ := ρ) (ε := ε) domain range size
  rw [same]
  refine .quiet_bind (.record ..) fun _ => ?_
  refine .bind (unit.logs_handshake ..) (fun _ => id) fun report added shaken => ?_
  refine (unit.logs_checkGranularity ..).mono (fun outcome _ judged => ?_) fun _ => False.elim
  obtain ⟨rfl, judged⟩ := judged
  exact ⟨⟨report⟩, by simpa using shaken, judged⟩

/-- The effects of flushing both caches, and how it judges the report of the first. -/
theorem logs_flush (domain : Option DomainId) (device : Option RoutingId) :
    (unit.flush domain device : Action ρ ε Invalidation).Logs
      (fun outcome added => ∃ (report : ContextCommand) (later : Word) (early late : List Effect),
        added = early ++ late ∧
          Handshake RegisterOffset.contextCommand (contextRequest domain device).raw report.raw
            early ∧
          Handshake unit.extended.iotlbOffset (iotlbRequest domain).raw later late ∧
          Invalidation.Judged (contextScope (domain.filter DomainId.isValid) device) report.actual
            outcome)
      fun added => ∀ effect ∈ added, effect.IsAccess := by
  have accesses {offset : Nat} {command : Word} {added : List Effect}
      (visits : ∀ effect ∈ added, effect.Visits offset command) :
      ∀ effect ∈ added, effect.IsAccess :=
    fun effect member => (visits effect member).isAccess
  refine .bind (unit.logs_handshake ..) (fun _ => accesses) fun report early shaken => ?_
  refine .bind (unit.logs_checkGranularity ..) (fun _ => False.elim) fun outcome _ judged => ?_
  obtain ⟨rfl, judged⟩ := judged
  refine .bind (unit.logs_invalidateIotlb ..).discard ?_ fun _ late flushed => .pure ?_
  · exact fun late visits => List.forall_mem_append.mpr ⟨shaken.accesses, accesses visits⟩
  obtain ⟨_, later, flushed, -⟩ := flushed
  rw [iotlbRequest_filter] at flushed
  exact ⟨⟨report⟩, later.raw, early, late, by simp, shaken, flushed, judged⟩

/-- The effects of an invalidation of all caches, and how it judges the report of the first. One
that gives up after a read of the version has found it to have registers to invalidate with. -/
theorem logs_invalidateAll (domain : Option DomainId) (device : Option RoutingId) :
    (unit.invalidateAll domain device : Action ρ ε Invalidation).Logs
      (fun outcome added => ∃ version : Version,
        lastRegisterInvalidation < version.major ∧ outcome = .unsupported ∧
            added = [version.read] ∨
          version.major ≤ lastRegisterInvalidation ∧
            ∃ (report : ContextCommand) (later : Word) (early late : List Effect),
              added = version.read :: (early ++ late) ∧
                Handshake RegisterOffset.contextCommand (contextRequest domain device).raw
                  report.raw early ∧
                Handshake unit.extended.iotlbOffset (iotlbRequest domain).raw later late ∧
                Invalidation.Judged (contextScope (domain.filter DomainId.isValid) device)
                  report.actual outcome)
      fun added => added = [] ∨ ∃ (version : Version) (later : List Effect),
        version.major ≤ lastRegisterInvalidation ∧ added = version.read :: later ∧
          ∀ effect ∈ later, effect.IsAccess := by
  obtain ⟨text, same⟩ := unit.invalidateAll_eq (ρ := ρ) (ε := ε) domain device
  rw [same, readVersion, bind_assoc]
  refine .bind (logs_get32 _) (fun _ => .inl) fun raw _ read => ?_
  subst read
  rw [pure_bind]
  refine .ite _ (fun newer => .quiet_bind (.record ..) fun _ => .pure ?_) fun offered => ?_
  · exact ⟨⟨raw⟩, .inl ⟨newer, rfl, rfl⟩⟩
  have offered := Nat.le_of_not_lt offered
  refine (unit.logs_flush domain device).mono ?_ ?_
  · rintro outcome _ ⟨report, later, early, late, rfl, flushed⟩
    exact ⟨⟨raw⟩, .inr ⟨offered, report, later, early, late, rfl, flushed⟩⟩
  · exact fun later accesses => .inr ⟨⟨raw⟩, later, offered, rfl, accesses⟩

theorem invalidateIotlb_ends (domain : Option DomainId) (range : VirtualAddress) (size : Nat)
    (start : Journaled ρ) :
    (unit.invalidateIotlb domain range size : Action ρ ε Invalidation).Ends start
      (fun _ last => start.journal.Issues last.journal [unit.submission (iotlbRequest domain)])
      (fun cause last =>
        (∃ reason, cause = .abort reason) ∧ start.journal.Issues last.journal []) := by
  apply ((unit.logs_invalidateIotlb domain range size).ends start).mono
  · rintro _ last ⟨added, log, report, shaken, -⟩
    exact ⟨added, log, shaken.accesses, shaken.submits⟩
  · rintro cause last ⟨aborted, added, log, visits⟩
    exact ⟨aborted, added, log, fun effect member => (visits effect member).isAccess,
      List.nil_sublist _⟩

/-- An invalidation of all caches asks for the version. Where that has registers to invalidate with,
a context command is submitted and then an IOTLB command. -/
theorem invalidateAll_ends (domain : Option DomainId) (device : Option RoutingId)
    (start : Journaled ρ) :
    (unit.invalidateAll domain device : Action ρ ε Invalidation).Ends start
      (fun _ last => ∃ version : Version, start.journal.Issues last.journal
        (version.read :: if version.major ≤ lastRegisterInvalidation then
          [(contextRequest domain device).submission, unit.submission (iotlbRequest domain)]
        else []))
      (fun cause last =>
        (∃ reason, cause = .abort reason) ∧ start.journal.Issues last.journal []) := by
  have asks (version : Version) : version.read.IsAccess := ⟨_, rfl⟩
  apply ((unit.logs_invalidateAll domain device).ends start).mono
  · rintro _ last ⟨added, log, version, ⟨newer, -, rfl⟩ | ⟨offered, report, later, early, late, rfl,
      shaken, flushed, -⟩⟩
    · rw [← Nat.not_le] at newer
      exact ⟨version, _, log, by simpa using asks version, by simp [newer]⟩
    · refine ⟨version, _, log, List.forall_mem_cons.mpr ⟨asks version,
        List.forall_mem_append.mpr ⟨shaken.accesses, flushed.accesses⟩⟩, ?_⟩
      rw [if_pos offered]
      exact (shaken.submits.append flushed.submits).cons_cons _
  · rintro cause last ⟨aborted, added, log, rfl | ⟨version, later, -, rfl, accesses⟩⟩
    · exact ⟨aborted, _, log, List.forall_mem_nil _, List.nil_sublist _⟩
    · exact ⟨aborted, _, log, List.forall_mem_cons.mpr ⟨asks version, accesses⟩,
        List.nil_sublist _⟩

/-- If an invalidation succeeded, the unit reported a scope for the command that it was given, and
that scope covers the requested one unless the outcome names a finer one. An invalidation for a
single device always does. -/
theorem succeeded_covers (domain : Option DomainId) :
    (∀ (range : VirtualAddress) (size : Nat) (start : Journaled ρ),
      (unit.invalidateIotlb domain range size : Action ρ ε Invalidation).Ends start
        (fun outcome last => outcome.succeeded = true →
          ∃ (report : IotlbCommand) (added : List Effect) (requested performed : Granularity),
            last.journal.log = start.journal.log ++ added ∧
              Handshake unit.extended.iotlbOffset (iotlbRequest domain).raw report.raw added ∧
              (iotlbRequest domain).requested = some requested ∧
              report.actual = some performed ∧
              (performed.Covers requested ↔ ¬outcome.NamesFiner requested))
        fun _ _ => True) ∧
      ∀ (device : Option RoutingId) (start : Journaled ρ),
        (unit.invalidateAll domain device : Action ρ ε Invalidation).Ends start
          (fun outcome last => outcome.succeeded = true →
            ∃ (version : Version) (report : ContextCommand) (later : Word)
                (early late : List Effect) (requested performed : Granularity),
              last.journal.log = start.journal.log ++ version.read :: (early ++ late) ∧
                Handshake RegisterOffset.contextCommand (contextRequest domain device).raw
                  report.raw early ∧
                Handshake unit.extended.iotlbOffset (iotlbRequest domain).raw later late ∧
                (contextRequest domain device).requested = some requested ∧
                report.actual = some performed ∧
                (performed.Covers requested ↔ ¬outcome.NamesFiner requested) ∧
                (device.isSome = true → performed.Covers requested))
          fun _ _ => True := by
  constructor
  · intro range size start
    apply ((unit.logs_invalidateIotlb domain range size).ends start).mono _ fun _ _ _ => trivial
    rintro outcome last ⟨added, log, report, shaken, judged⟩ succeeded
    obtain ⟨performed, reported⟩ := judged.exists_performed succeeded
    exact ⟨report, added, _, performed, log, shaken, IotlbCommand.requested_invalidate, reported,
      (reported ▸ judged).covers_iff⟩
  · intro device start
    apply ((unit.logs_invalidateAll domain device).ends start).mono _ fun _ _ _ => trivial
    rintro outcome last ⟨added, log, version, ⟨-, rfl, -⟩ | ⟨-, report, later, early, late, rfl,
      shaken, flushed, judged⟩⟩ succeeded
    · cases succeeded
    · obtain ⟨performed, reported⟩ := judged.exists_performed succeeded
      refine ⟨version, report, later, early, late, _, performed, log, shaken, flushed,
        ContextCommand.requested_invalidate, reported, (reported ▸ judged).covers_iff,
        fun single => ?_⟩
      rw [contextScope, if_pos single]
      exact performed.covers_device

end Logs

/-- An emulated unit that reports these scopes, whatever it is asked for. -/
def reportingSample (context iotlb : Option Word) : Journaled EmulatedUnit :=
  ⟨.create { contextGranularity := context, iotlbGranularity := iotlb }, { threshold := none }⟩

/-- What software knows of such a unit. -/
def knownSample : RemappingUnit where
  name := "unit"
  config := {}
  capability := ({} : EmulatedConfig).capability
  extended := ({} : EmulatedConfig).extendedCapability

/-- A unit that invalidates more than was asked for, once in the IOTLB for a domain and once in the
context cache for a device. -/
theorem succeeded_covers_sample :
    ((knownSample.invalidateIotlb (some (.ofNat 3)) Address.zero 0 :
        Action EmulatedUnit Empty Invalidation).outcome (reportingSample none (some 1)) =
      .ok (.coarser .domain .global)) ∧
    (∃ (report : IotlbCommand) (added : List Effect) (requested performed : Granularity),
      Handshake knownSample.extended.iotlbOffset (iotlbRequest (some (.ofNat 3))).raw report.raw
          added ∧
        (iotlbRequest (some (.ofNat 3))).requested = some requested ∧
        report.actual = some performed ∧ performed.Covers requested) ∧
    ((knownSample.invalidateAll (some (.ofNat 3)) (some (.ofNat 8)) :
        Action EmulatedUnit Empty Invalidation).outcome (reportingSample (some 2) none) =
      .ok (.coarser .device .domain)) ∧
    ∃ (report : ContextCommand) (later : Word) (early late : List Effect)
        (requested performed : Granularity),
      Handshake RegisterOffset.contextCommand
          (contextRequest (some (.ofNat 3)) (some (.ofNat 8))).raw report.raw early ∧
        Handshake knownSample.extended.iotlbOffset (iotlbRequest (some (.ofNat 3))).raw later late ∧
        (contextRequest (some (.ofNat 3)) (some (.ofNat 8))).requested = some requested ∧
        report.actual = some performed ∧ performed.Covers requested := by
  have outcome : (knownSample.invalidateIotlb (some (.ofNat 3)) Address.zero 0 :
      Action EmulatedUnit Empty Invalidation).outcome (reportingSample none (some 1)) =
        .ok (.coarser .domain .global) := by decide +kernel
  have outcome' : (knownSample.invalidateAll (some (.ofNat 3)) (some (.ofNat 8)) :
      Action EmulatedUnit Empty Invalidation).outcome (reportingSample (some 2) none) =
        .ok (.coarser .device .domain) := by decide +kernel
  have ends := knownSample.succeeded_covers (ρ := EmulatedUnit) (ε := Empty) (some (.ofNat 3))
  obtain ⟨report, added, requested, performed, -, shaken, asked, reported, covers⟩ :=
    (ends.1 Address.zero 0 _).returned outcome rfl
  obtain ⟨_, report', later, early, late, requested', performed', -, shaken', flushed, asked',
    reported', covers', -⟩ := (ends.2 (some (.ofNat 8)) _).returned outcome' rfl
  exact ⟨outcome, ⟨report, added, requested, performed, shaken, asked, reported, covers.mpr nofun⟩,
    outcome', report', later, early, late, requested', performed', shaken', flushed, asked',
    reported', covers'.mpr nofun⟩

/-- A unit that invalidates a single device where all was asked for counts as successful. -/
theorem succeeded_without_covering :
    (knownSample.invalidateAll none none :
        Action EmulatedUnit Empty Invalidation).outcome (reportingSample (some 3) none) =
      .ok (.performed .device) ∧
    (Invalidation.performed .device).succeeded = true ∧
    (contextRequest none none).requested = some .global ∧
    (ContextCommand.mk ((knownSample.invalidateAll none none :
        Action EmulatedUnit Empty Invalidation).finish
          (reportingSample (some 3) none)).state.context.value).actual = some .device ∧
    ¬Granularity.Covers .device .global := by
  decide +kernel

end RemappingUnit

end DmaRemap

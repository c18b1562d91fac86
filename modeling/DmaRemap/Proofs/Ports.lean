import DmaRemap.Proofs.Completion
import DmaRemap.Proofs.Handshake

/-! The two registers through which an emulated unit is told to invalidate. A unit with a command
in flight completes it after a number of reads. So the reads of software that waits for it, and the
state that they lead to, are known beforehand. -/

namespace DmaRemap

open RegisterPage (get64 put64)
open RemappingUnit (pollUpTo)

variable {ε : Type}

theorem PollPolicy.allows_iff {policy : PollPolicy} {polls : Nat} :
    policy.Allows polls ↔ ∀ budget ∈ policy.budget?, polls ≤ max budget 1 := by
  cases policy <;> simp [Allows, budget?]

/-- A call waits for so many polls if the policy allows them, and gives up otherwise. -/
def RemappingUnit.WaitsOut {σ α : Type} (unit : RemappingUnit) (title : String) (polls : Nat)
    (call : Action σ ε α) (start : Journaled σ) (performed : α → Journaled σ → Prop)
    (abandoned : Nat → Journaled σ → Prop) : Prop :=
  call.Ends start
    (fun result last => unit.config.poll.Allows polls ∧ performed result last)
    fun cause last => ∃ budget ∈ unit.config.poll.budget?, max budget 1 < polls ∧
      cause = .abort (.pollBudgetSpent unit.name title (max budget 1)) ∧
      abandoned (max budget 1) last

namespace InvalidationRegister

variable {register : InvalidationRegister} {complete : Word → Word}

/-- How many reads it takes until a register shows that the command in flight is done. -/
def needed (register : InvalidationRegister) : Nat :=
  if inFlight register.value then register.busy else 0

/-- The register once software has waited until no command was in flight. -/
def awaited (complete : Word → Word) (register : InvalidationRegister) : InvalidationRegister :=
  if inFlight register.value then ⟨complete register.value, 0⟩ else register.afterRead complete

/-- What the register shows meanwhile. -/
def shown (complete : Word → Word) (register : InvalidationRegister) : List Word :=
  List.replicate (register.needed - 1) register.value ++ [(register.awaited complete).value]

theorem needed_done (word : Word) : needed ⟨word, 0⟩ = 0 := by
  rw [needed, ite_self]

theorem needed_of_idle (register : InvalidationRegister)
    (idle : inFlight register.value = false) : register.needed = 0 := by
  rw [needed, if_neg (by simp [idle])]

section Flying

variable (register : InvalidationRegister) (flying : inFlight register.value = true)
include flying

theorem needed_of_flying : register.needed = register.busy := by
  rw [needed, if_pos flying]

theorem awaited_of_flying : register.awaited complete = ⟨complete register.value, 0⟩ := by
  rw [awaited, if_pos flying]

theorem shown_of_flying : register.shown complete =
    List.replicate (register.busy - 1) register.value ++ [complete register.value] := by
  rw [shown, needed_of_flying register flying, awaited_of_flying register flying]

theorem needed_next :
    needed ⟨register.value, register.busy - 1⟩ = register.needed - 1 := by
  rw [needed_of_flying register flying, needed_of_flying ⟨register.value, register.busy - 1⟩ flying]

theorem awaited_next : awaited complete ⟨register.value, register.busy - 1⟩ =
    register.awaited complete := by
  rw [awaited_of_flying register flying,
    awaited_of_flying ⟨register.value, register.busy - 1⟩ flying]

theorem shown_next (far : 1 < register.busy) : register.shown complete =
    register.value :: shown complete ⟨register.value, register.busy - 1⟩ := by
  obtain ⟨less, count⟩ := Nat.exists_eq_add_of_le' far
  rw [shown_of_flying register flying,
    shown_of_flying ⟨register.value, register.busy - 1⟩ flying, count]
  rfl

end Flying

section Completes

variable (completes : ∀ command, inFlight (complete command) = false)
include completes

/-- A read ends the waiting, or shows the command in flight and brings its end closer. -/
theorem afterRead_cases (prompt : register.Prompt .unbounded) :
    inFlight (register.afterRead complete).value = false ∧ register.needed ≤ 1 ∧
        register.awaited complete = register.afterRead complete ∨
      inFlight register.value = true ∧ 1 < register.busy ∧
        register.afterRead complete = ⟨register.value, register.busy - 1⟩ := by
  obtain ⟨value, busy⟩ := register
  by_cases flying : inFlight value = true
  case pos =>
    match busy with
    | 0 =>
      have idle : inFlight value = false := prompt.done rfl
      rw [idle] at flying
      cases flying
    | 1 =>
      refine .inl ⟨completes value, ?_, ?_⟩
      · rw [needed, if_pos flying]
      · rw [awaited, if_pos flying, afterRead]
    | busy + 2 => exact .inr ⟨flying, Nat.lt_add_left busy (Nat.lt_succ_self 1), rfl⟩
  case neg =>
    have idle : inFlight value = false := Bool.eq_false_iff.mpr flying
    refine .inl ⟨?_, ?_, ?_⟩
    · match busy with
      | 0 => exact idle
      | 1 => exact completes value
      | busy + 2 => exact idle
    · rw [needed_of_idle ⟨value, busy⟩ idle]
      exact Nat.zero_le 1
    · rw [awaited, if_neg flying]

theorem idle_awaited (prompt : register.Prompt .unbounded) :
    inFlight (register.awaited complete).value = false := by
  by_cases flying : inFlight register.value = true
  case pos =>
    rw [awaited, if_pos flying]
    exact completes register.value
  case neg =>
    rcases afterRead_cases completes prompt with ⟨idle, -, same⟩ | ⟨busy, -, -⟩
    · exact same ▸ idle
    · exact absurd busy flying

/-- What a register shows ends with the first word that has no command in flight. -/
theorem polled_shown (prompt : register.Prompt .unbounded) (offset : Nat) :
    Polled offset ((register.shown complete).map (.read64 offset)) := by
  have idle := idle_awaited completes prompt
  by_cases flying : inFlight register.value = true
  case pos =>
    rw [shown]
    generalize register.needed - 1 = count
    induction count with
    | zero => exact .done idle
    | succ count ih => exact .again flying ih
  case neg =>
    rw [shown, needed_of_idle register (Bool.eq_false_iff.mpr flying)]
    exact .done idle

variable {command : Word} (flying : inFlight command = true) (busy : Nat)
include flying

theorem needed_submit : (submit complete command busy).needed = busy := by
  by_cases idle : busy = 0
  · rw [submit, if_pos idle, needed_of_idle ⟨complete command, busy⟩ (completes command), idle]
  · rw [submit, if_neg idle, needed, if_pos flying]

theorem awaited_submit :
    (submit complete command busy).awaited complete = ⟨complete command, 0⟩ := by
  by_cases idle : busy = 0
  · have done : ¬inFlight (complete command) = true := by simp [completes]
    rw [submit, if_pos idle, awaited, if_neg done, idle, afterRead]
  · rw [submit, if_neg idle, awaited, if_pos flying]

end Completes

end InvalidationRegister

/-- Whether the IOTLB register of a unit lies apart from the 64-bit registers of fixed places. A
fault record in its place would give way to it. -/
def EmulatedConfig.IotlbApart (config : EmulatedConfig) : Prop :=
  config.extendedCapability.iotlbOffset ∉ [RegisterOffset.capability,
    RegisterOffset.extendedCapability, RegisterOffset.rootTableAddress,
    RegisterOffset.contextCommand]

instance (config : EmulatedConfig) : Decidable config.IotlbApart :=
  inferInstanceAs (Decidable ¬_)

namespace EmulatedUnit

/-- The registers through which a unit is told to invalidate. -/
inductive Port where
  | context
  | iotlb

namespace Port

variable (port : Port) (config : EmulatedConfig) (command : Word) (page : EmulatedUnit)

/-- What software calls a command. -/
def title : Port → String
  | context => "context-cache invalidation"
  | iotlb => "IOTLB invalidation"

def offset : Port → Nat
  | context => RegisterOffset.contextCommand
  | iotlb => config.extendedCapability.iotlbOffset

def place : Port → Register64
  | context => .contextCommand
  | iotlb => .iotlbInvalidate

def complete : Port → Word → Word
  | context => config.completeContext
  | iotlb => config.completeIotlb

def register : Port → InvalidationRegister
  | context => page.context
  | iotlb => page.iotlb

/-- The unit with another content of the register. -/
def hold (register : InvalidationRegister) : Port → EmulatedUnit
  | context => { page with context := register }
  | iotlb => { page with iotlb := register }

/-- The unit with one more command in the list of those that were written to the register. -/
def note : Port → EmulatedUnit
  | context => { page with contextCommands := page.contextCommands.push ⟨command⟩ }
  | iotlb => { page with iotlbCommands := page.iotlbCommands.push ⟨command⟩ }

/-- The unit after a command was written to the register. -/
def accept : EmulatedUnit :=
  port.hold (port.note command page)
    (.submit (port.complete page.config) command page.busyPolls)

/-- The unit after it has performed a command. -/
def perform : EmulatedUnit :=
  port.hold (port.note command page) ⟨port.complete page.config command, 0⟩

/-- The reads of software that waits until no command is in flight. -/
def waits : List Effect :=
  ((port.register page).shown (port.complete page.config)).map (.read64 (port.offset page.config))

/-- The accesses of software that gives the unit a command and waits until it has performed it. -/
def exchange : List Effect :=
  port.waits page ++ .write64 (port.offset page.config) command ::
    (port.waits (port.accept command page) ++
      [.read64 (port.offset page.config) (port.complete page.config command)])

variable {port config command page} {register register' : InvalidationRegister}

@[simp] theorem register_hold : port.register (port.hold page register) = register := by
  cases port <;> rfl

@[simp] theorem hold_hold :
    port.hold (port.hold page register') register = port.hold page register := by
  cases port <;> rfl

@[simp] theorem hold_register : port.hold page (port.register page) = page := by
  cases port <;> rfl

@[simp] theorem note_hold :
    port.note command (port.hold page register) = port.hold (port.note command page) register := by
  cases port <;> rfl

@[simp] theorem config_hold : (port.hold page register).config = page.config := by
  cases port <;> rfl

@[simp] theorem busyPolls_hold : (port.hold page register).busyPolls = page.busyPolls := by
  cases port <;> rfl

@[simp] theorem config_note : (port.note command page).config = page.config := by
  cases port <;> rfl

@[simp] theorem config_accept : (port.accept command page).config = page.config := by
  simp [accept]

@[simp] theorem config_perform : (port.perform command page).config = page.config := by
  simp [perform]

@[simp] theorem register_accept : port.register (port.accept command page) =
    .submit (port.complete page.config) command page.busyPolls := by
  simp [accept]

@[simp] theorem accept_hold :
    port.accept command (port.hold page register) = port.accept command page := by
  simp [accept]

@[simp] theorem hold_accept : port.hold (port.accept command page) register =
    port.hold (port.note command page) register := by
  simp [accept]

@[simp] theorem register_perform :
    port.register (port.perform command page) = ⟨port.complete page.config command, 0⟩ := by
  simp [perform]

theorem register_perform_of_ne {other : Port} (others : other ≠ port) :
    other.register (port.perform command page) = other.register page := by
  cases port with
  | context =>
    cases other with
    | context => exact absurd rfl others
    | iotlb => rfl
  | iotlb =>
    cases other with
    | context => rfl
    | iotlb => exact absurd rfl others

@[simp] theorem busyPolls_perform : (port.perform command page).busyPolls = page.busyPolls := by
  cases port <;> rfl

theorem exchange_perform_of_ne {other : Port} (others : other ≠ port) (command' : Word) :
    other.exchange command' (port.perform command page) = other.exchange command' page := by
  simp only [exchange, waits, register_accept, config_accept, config_perform, busyPolls_perform,
    register_perform_of_ne others]

theorem inFlight_complete (command : Word) : inFlight (port.complete config command) = false := by
  cases port with
  | context => exact config.isSet_completeContext command
  | iotlb => exact config.isSet_completeIotlb command

theorem written64?_offset (apart : page.config.IotlbApart) :
    page.written64? (port.offset page.config) = some port.place := by
  simp only [EmulatedConfig.IotlbApart, List.mem_cons, List.not_mem_nil, or_false, not_or] at apart
  cases port with
  | context => rfl
  | iotlb => simp [written64?, offset, place, apart]

theorem register64?_offset (apart : page.config.IotlbApart) :
    page.register64? (port.offset page.config) = some port.place := by
  have written : page.written64? (port.offset page.config) = some port.place :=
    written64?_offset apart
  simp only [EmulatedConfig.IotlbApart, List.mem_cons, List.not_mem_nil, or_false, not_or] at apart
  cases port with
  | context => rfl
  | iotlb =>
    have places : offset page.config .iotlb = page.config.extendedCapability.iotlbOffset := rfl
    rw [register64?, places, if_neg apart.1, if_neg apart.2.1]
    exact written

theorem write64?_offset (apart : page.config.IotlbApart) (command : Word) :
    page.write64? (port.offset page.config) command = some (port.accept command page) := by
  rw [write64?, written64?_offset apart]
  cases port <;> rfl

theorem polled_waits (prompt : (port.register page).Prompt .unbounded) :
    Polled (port.offset page.config) (port.waits page) :=
  InvalidationRegister.polled_shown inFlight_complete prompt _

theorem prompt_accept : (port.register (port.accept command page)).Prompt .unbounded := by
  rw [register_accept]
  have allowed : PollPolicy.unbounded.Allows page.busyPolls := trivial
  exact .submit inFlight_complete allowed command

section Accept

variable (flying : inFlight command = true)
include flying

theorem needed_accept :
    (port.register (port.accept command page)).needed = page.busyPolls := by
  rw [register_accept, InvalidationRegister.needed_submit inFlight_complete flying]

/-- A unit that was waited for has performed the command it was given. -/
theorem hold_awaited_accept : port.hold (port.accept command page)
    ((port.register (port.accept command page)).awaited
      (port.complete (port.accept command page).config)) = port.perform command page := by
  rw [config_accept, register_accept,
    InvalidationRegister.awaited_submit inFlight_complete flying, hold_accept]
  rfl

end Accept

/-- Software has given the unit a command by a handshake. If another one was in flight, it has read
that this was done just before it wrote its own. -/
structure Given (port : Port) (command : Word) (page : EmulatedUnit) (added : List Effect) :
    Prop where
  handshake : Handshake (port.offset page.config) command (port.complete page.config command) added
  waited : inFlight (port.register page).value = true → ∃ early late, added =
    early ++ .read64 (port.offset page.config)
      (port.complete page.config (port.register page).value) ::
      .write64 (port.offset page.config) command :: late

theorem given_exchange (prompt : (port.register page).Prompt .unbounded) :
    port.Given command page (port.exchange command page) where
  handshake := by
    have polled : Polled (port.offset (port.accept command page).config)
        (port.waits (port.accept command page)) := polled_waits prompt_accept
    rw [config_accept] at polled
    exact .steps (polled_waits prompt) polled
  waited flying := by
    rw [exchange, waits, InvalidationRegister.shown_of_flying _ flying, List.map_append,
      List.append_assoc]
    exact ⟨_, _, rfl⟩

end Port

section Ends

variable {start : Journaled EmulatedUnit} {port : Port} {config : EmulatedConfig}

theorem get64_port (known : start.state.config = config) (apart : config.IotlbApart) :
    (get64 (port.offset config) : Action EmulatedUnit ε Word).Returns start fun value last =>
      last.state = port.hold start.state
          ((port.register start.state).afterRead (port.complete config)) ∧
        value = (port.register last.state).value ∧
        last.journal.log = start.journal.log ++ [.read64 (port.offset config) value] := by
  subst known
  apply ((get64_returns _ start).and ((logs_get64 _).ends start)).mono _ fun _ _ => And.left
  rintro value last ⟨⟨now, shown⟩, added, log, rfl⟩
  rw [Port.register64?_offset apart] at now shown
  refine ⟨?_, ?_, log⟩
  · rw [now]
    cases port <;> rfl
  · rw [shown]
    cases port <;> rfl

theorem put64_port (known : start.state.config = config) (apart : config.IotlbApart)
    (command : Word) :
    (put64 (port.offset config) command : Action EmulatedUnit ε Unit).Returns start fun _ last =>
      last.state = port.accept command start.state ∧
        last.journal.log = start.journal.log ++ [.write64 (port.offset config) command] := by
  subst known
  apply ((put64_returns _ command start).and ((logs_put64 _ command).ends start)).mono _
    fun _ _ => And.left
  rintro _ last ⟨now, added, log, rfl⟩
  refine ⟨?_, log⟩
  rw [now, Port.write64?_offset apart, Option.getD_some]

/-- The state and the accesses of software that has waited for a port. -/
structure Port.Waited (port : Port) (start last : Journaled EmulatedUnit) : Prop where
  state : last.state = port.hold start.state
    ((port.register start.state).awaited (port.complete start.state.config))
  log : last.journal.log = start.journal.log ++ port.waits start.state

/-- The state and the accesses of software that has polled a port so many times in vain. -/
structure Port.Starved (port : Port) (polls : Nat) (start last : Journaled EmulatedUnit) :
    Prop where
  state : last.state = port.hold start.state
    ⟨(port.register start.state).value, (port.register start.state).busy - polls⟩
  log : last.journal.log = start.journal.log ++ List.replicate polls
    (.read64 (port.offset start.state.config) (port.register start.state).value)

section Read

variable {journal : Journal} {last : Journaled EmulatedUnit}
  (read : journal.log = start.journal.log ++
    [.read64 (port.offset start.state.config) (port.register start.state).value])
include read

/-- A read that shows the command in flight comes first. -/
theorem Port.Waited.after_read (flying : inFlight (port.register start.state).value = true)
    (far : 1 < (port.register start.state).busy)
    (waited : port.Waited ⟨port.hold start.state
      ⟨(port.register start.state).value, (port.register start.state).busy - 1⟩, journal⟩ last) :
    port.Waited start last := by
  obtain ⟨state, log⟩ := waited
  constructor
  · rw [state, hold_hold, register_hold, config_hold,
      InvalidationRegister.awaited_next _ flying]
  · rw [log, read, waits, waits, register_hold, config_hold,
      InvalidationRegister.shown_next _ flying far, List.append_assoc]
    rfl

theorem Port.Starved.after_read {polls : Nat}
    (starved : port.Starved polls ⟨port.hold start.state
      ⟨(port.register start.state).value, (port.register start.state).busy - 1⟩, journal⟩ last) :
    port.Starved (polls + 1) start last := by
  obtain ⟨state, log⟩ := starved
  constructor
  · rw [state, hold_hold, register_hold, Nat.sub_sub, Nat.add_comm 1 polls]
  · rw [log, read, register_hold, config_hold, List.replicate_succ, List.append_assoc]
    rfl

end Read

/-- Waiting ends if software polls as often as needed, and fails otherwise. -/
theorem pollUpTo_port (known : start.state.config = config) (apart : config.IotlbApart)
    (prompt : (port.register start.state).Prompt .unbounded) (giveUp : Abort) (polls : Nat) :
    (pollUpTo (do return !inFlight (← get64 (port.offset config))) giveUp polls :
        Action EmulatedUnit ε Unit).Ends start
      (fun _ last => (port.register start.state).needed - 1 < polls ∧ port.Waited start last)
      (fun cause last => polls ≤ (port.register start.state).needed - 1 ∧
        cause = .abort giveUp ∧ port.Starved polls start last) := by
  -- A read that does not end the waiting leaves a register that needs one read less.
  induction polls generalizing start with
  | zero =>
    exact (Action.ends_abort _).mpr ⟨Nat.zero_le _, rfl, Port.hold_register.symm, by simp⟩
  | succ polls ih =>
    obtain rfl := known
    rw [pollUpTo, bind_assoc, Action.ends_bind]
    apply (get64_port rfl apart).mono _ fun _ _ => False.elim
    rintro value ⟨page, journal⟩ ⟨rfl, rfl, log⟩
    rw [pure_bind, Port.register_hold]
    rw [Port.register_hold] at log
    rcases InvalidationRegister.afterRead_cases Port.inFlight_complete prompt with
      ⟨idle, near, same⟩ | ⟨flying, far, same⟩
    · rw [idle]
      refine (Action.ends_pure ()).mpr ⟨by omega, by rw [same], ?_⟩
      rw [Port.waits, InvalidationRegister.shown, Nat.sub_eq_zero_of_le near, same]
      exact log
    · rw [same] at log ⊢
      rw [flying]
      refine (ih Port.config_hold ?closer).mono ?_ ?_
      case closer =>
        rw [Port.register_hold, ← same]
        exact (prompt.afterRead Port.inFlight_complete).1
      · rintro _ last ⟨enough, waited⟩
        refine ⟨?_, waited.after_read log flying far⟩
        rw [Port.register_hold, InvalidationRegister.needed_next _ flying] at enough
        omega
      · rintro cause last ⟨few, rfl, starved⟩
        refine ⟨?_, rfl, starved.after_read log⟩
        rw [Port.register_hold, InvalidationRegister.needed_next _ flying] at few
        rw [InvalidationRegister.needed_of_flying _ flying] at few ⊢
        omega

/-- The state and the accesses of software that has given a unit a command which it performed. -/
structure Port.Performed (port : Port) (command : Word) (page : EmulatedUnit) (log : List Effect)
    (last : Journaled EmulatedUnit) : Prop where
  state : last.state = port.perform command page
  log : last.journal.log = log ++ port.exchange command page

/-- The state and the accesses of software that has given a unit a command, and has polled so many
times in vain. -/
structure Port.Abandoned (port : Port) (command : Word) (page : EmulatedUnit) (log : List Effect)
    (polls : Nat) (last : Journaled EmulatedUnit) : Prop where
  flying : inFlight command = true
  state : last.state = port.hold (port.note command page) ⟨command, page.busyPolls - polls⟩
  log : last.journal.log = log ++ (port.waits page ++ .write64 (port.offset page.config) command ::
    List.replicate polls (.read64 (port.offset page.config) command))

section Page

variable (port : Port) (unit : RemappingUnit) (title : String) {page : EmulatedUnit}
  (journal : Journal) (known : page.config = config) (apart : config.IotlbApart)
  (prompt : (port.register page).Prompt .unbounded)
include known apart prompt

/-- Software waits for a port as often as its policy allows. -/
theorem await_port : unit.WaitsOut title (port.register page).needed
    (unit.await title (port.offset config) : Action EmulatedUnit ε Unit) ⟨page, journal⟩
    (fun _ last => port.Waited ⟨page, journal⟩ last)
    fun polls last => port.Starved polls ⟨page, journal⟩ last := by
  unfold RemappingUnit.WaitsOut RemappingUnit.await RemappingUnit.poll
  split
  case h_1 budget policy =>
    rw [policy]
    apply (pollUpTo_port known apart prompt _ _).mono
    · rintro _ last ⟨enough, waited⟩
      have allows : (port.register page).needed ≤ max budget 1 := Nat.le_of_pred_lt enough
      exact ⟨allows, waited⟩
    · rintro cause last ⟨few, rfl, starved⟩
      have few : max budget 1 ≤ (port.register page).needed - 1 := few
      exact ⟨budget, rfl, by omega, rfl, starved⟩
  case h_2 policy =>
    rw [policy, Action.ends_bind, Action.ends_state]
    apply (pollUpTo_port known apart prompt _ _).mono
    · exact fun _ last ended => ⟨trivial, ended.2⟩
    · rintro cause last ⟨few, -, -⟩
      have few : RegisterPage.settling page + 1 ≤ (port.register page).needed - 1 := few
      -- A unit settles no sooner than it has completed the command in flight.
      have needed : (port.register page).needed ≤ (port.register page).busy := by
        unfold InvalidationRegister.needed
        split <;> simp
      have settles : (port.register page).busy ≤ RegisterPage.settling page := by
        cases port with
        | context => exact Nat.le_add_right ..
        | iotlb => exact Nat.le_add_left ..
      omega

/-- If software waits for the command in flight, it gives the unit another one, and gives up only if
the unit is busy with that for more reads than the policy allows. -/
theorem handshake_port
    (allowed : unit.config.poll.Allows (port.register page).needed) {command : Word}
    (flying : inFlight command = true) :
    unit.WaitsOut title page.busyPolls
      (unit.handshake title (port.offset config) command : Action EmulatedUnit ε Word)
      ⟨page, journal⟩
      (fun report last => report = port.complete config command ∧
        port.Performed command page journal.log last)
      (port.Abandoned command page journal.log) := by
  subst known
  unfold RemappingUnit.WaitsOut RemappingUnit.handshake
  rw [Action.ends_bind]
  apply (await_port port unit title journal rfl apart prompt).mono
  case failing =>
    rintro cause last ⟨budget, member, more, -⟩
    exact absurd (PollPolicy.allows_iff.mp allowed budget member) (Nat.not_le_of_lt more)
  rintro _ ⟨_, idle⟩ ⟨-, rfl, waited⟩
  rw [Action.ends_bind]
  apply (put64_port Port.config_hold apart command).mono _ fun _ _ => False.elim
  rintro _ ⟨_, submitted⟩ ⟨rfl, written⟩
  rw [Port.accept_hold, Action.ends_bind]
  apply (await_port port unit title submitted Port.config_accept apart Port.prompt_accept).mono
  · rintro _ ⟨now, settled⟩ ⟨allows, done, polled⟩
    rw [Port.needed_accept flying] at allows
    obtain rfl : now = port.perform command page := done.trans (Port.hold_awaited_accept flying)
    apply (get64_port Port.config_perform apart).mono _ fun _ _ => False.elim
    rintro report last ⟨done, shown, read⟩
    have done : last.state = port.perform command page := by
      rw [done, Port.register_perform]
      exact Port.hold_hold
    have report : report = port.complete page.config command := by
      rw [shown, done, Port.register_perform]
    refine ⟨allows, report, ⟨done, ?_⟩⟩
    rw [read, polled, written, waited, report, Port.exchange]
    simp
  · rintro cause last ⟨budget, member, more, rfl, state, log⟩
    rw [Port.needed_accept flying] at more
    have sent : port.register (port.accept command page) = ⟨command, page.busyPolls⟩ := by
      rw [Port.register_accept, InvalidationRegister.submit, if_neg (by omega)]
    simp only [sent, Port.config_accept, Port.hold_accept] at state log
    refine ⟨budget, member, more, rfl, flying, state, ?_⟩
    rw [log, written, waited]
    simp

end Page

end Ends

end EmulatedUnit

end DmaRemap

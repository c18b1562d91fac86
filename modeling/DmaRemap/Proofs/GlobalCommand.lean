import DmaRemap.Proofs.Emulated
import DmaRemap.Proofs.Handshake

/-! The global command of an emulated unit. Software repeats in every command what the status says,
but for the commands that happen once, and the unit answers at once. So a command changes the one
bit that it is about. -/

namespace DmaRemap

open RegisterPage (get32 put32)

variable {ρ ε : Type}

theorem getLsbD_withFlag (bits mask : BitVec 32) (present : Bool) {place : Nat}
    (inside : place < 32) : (withFlag bits mask present).getLsbD place =
      if mask.getLsbD place then present else bits.getLsbD place := by
  cases present <;> cases masked : mask.getLsbD place <;>
    simp [withFlag, -BitVec.getLsbD_eq_getElem, inside, masked]

theorem and_twoPow_beq (bits : BitVec 32) {place : Nat} (inside : place < 32) :
    (bits &&& BitVec.twoPow 32 place == BitVec.twoPow 32 place) = bits.getLsbD place := by
  have some : BitVec.twoPow 32 place ≠ 0#32 := by
    intro none
    have bit := congrArg (·.getLsbD place) none
    simp [inside] at bit
  rw [BitVec.and_twoPow]
  cases bits.getLsbD place <;> simp [some.symm]

/-- The global command that an effect gives, if it does. -/
def Effect.globalCommand? : Effect → Option GlobalCommand
  | .access ⟨.write, .word32, offset, value⟩ =>
    if offset = RegisterOffset.globalCommand then some ⟨.ofNat 32 value⟩ else none
  | _ => none

/-- The global commands that were given, in their order. -/
def Journal.globalCommands (journal : Journal) : List GlobalCommand :=
  journal.log.filterMap Effect.globalCommand?

@[simp] theorem Journal.globalCommands_record (journal : Journal) (severity : Severity)
    (text : Unit → String) : (journal.record severity text).globalCommands =
      journal.globalCommands := by
  rw [globalCommands, log_record, globalCommands]

theorem Journal.globalCommands_of_log {journal next : Journal} {added : List Effect}
    (log : next.log = journal.log ++ added) :
    next.globalCommands = journal.globalCommands ++ added.filterMap Effect.globalCommand? := by
  rw [globalCommands, log, List.filterMap_append, globalCommands]

/-- Whether a command sets none of the pointers, which happens once. -/
def GlobalCommand.Repeatable (command : GlobalCommand) : Prop :=
  command.has setRootTable = false ∧ command.has setInterruptTable = false

theorem RemappingUnit.poll_returns_of_done [RegisterPage ρ] (driver : RemappingUnit)
    (title : String) {done : Action ρ ε Bool} {start : Journaled ρ} {returns : Journaled ρ → Prop}
    (holds : done.Returns start fun answer last => answer = true ∧ returns last) :
    (driver.poll title done).Returns start fun _ => returns := by
  have first (giveUp : Abort) (count : Nat) :
      (pollUpTo done giveUp (count + 1)).Returns start fun _ => returns := by
    apply (Action.ends_bind ..).mpr
    apply holds.mono _ fun _ _ => id
    rintro _ last ⟨rfl, reached⟩
    exact (Action.ends_pure ()).mpr reached
  unfold poll
  split
  case h_1 budget _ =>
    obtain ⟨more, count⟩ := Nat.exists_eq_add_of_le' (Nat.le_max_right budget 1)
    exact count ▸ first _ _
  case h_2 =>
    exact (Action.ends_bind ..).mpr ((Action.ends_state ..).mpr (first _ _))

namespace EmulatedUnit

variable (unit : EmulatedUnit) (mask : BitVec 32) (present : Bool)

/-- The command by which software puts or takes away a bit. -/
def command : GlobalCommand :=
  (GlobalCommand.mk unit.globalStatus.bits).withoutOneShot.set mask present

theorem getLsbD_globalStatus {place : Nat} (inside : place < 32) :
    unit.globalStatus.bits.getLsbD place =
      if place = 31 then unit.enabled else unit.latched.bits.getLsbD place := by
  have here : ∀ place < 32, GlobalStatus.enabled.getLsbD place = decide (place = 31) := by decide
  simp only [globalStatus, GlobalStatus.set, getLsbD_withFlag _ _ _ inside, here place inside,
    decide_eq_true_eq]

/-- A command says of every bit but its own what the status does, and nothing of the pointers. -/
theorem getLsbD_command {place : Nat} (inside : place < 32) :
    (unit.command mask present).bits.getLsbD place =
      if mask.getLsbD place then present
      else if place = 24 ∨ place = 30 then false
      else unit.globalStatus.bits.getLsbD place := by
  have here : ∀ place < 32,
      GlobalCommand.oneShot.getLsbD place = decide (place = 24 ∨ place = 30) := by decide
  simp only [command, GlobalCommand.set, GlobalCommand.withoutOneShot,
    getLsbD_withFlag _ _ _ inside, here place inside, decide_eq_true_eq]

theorem has_command (bit : Nat) {place : Nat} (inside : place < 32) :
    (unit.command (BitVec.twoPow 32 bit) present).has (BitVec.twoPow 32 place) =
      if place = bit then present
      else if place = 24 ∨ place = 30 then false
      else if place = 31 then unit.enabled
      else unit.latched.bits.getLsbD place := by
  rw [GlobalCommand.has, and_twoPow_beq _ inside, getLsbD_command _ _ _ inside,
    getLsbD_globalStatus _ inside, BitVec.getLsbD_twoPow]
  have own : (decide (bit < 32) && decide (bit = place)) = decide (place = bit) := by
    rw [Bool.eq_iff_iff, Bool.and_eq_true]
    simp only [decide_eq_true_eq]
    omega
  simp only [own, decide_eq_true_eq]

theorem repeatable_enable : (unit.command GlobalCommand.enable present).Repeatable :=
  ⟨unit.has_command present 31 (by decide), unit.has_command present 31 (by decide)⟩

theorem write32?_enable :
    unit.write32? RegisterOffset.globalCommand (unit.command GlobalCommand.enable present).bits =
      some { unit with enabled := present } := by
  obtain ⟨root, interrupt⟩ := unit.repeatable_enable present
  have enables : (unit.command GlobalCommand.enable present).has GlobalCommand.enable = present :=
    unit.has_command present 31 (by decide)
  rw [write32?, if_pos rfl]
  simp only [root, interrupt, enables, Bool.false_eq_true, if_false]

/-- Setting the root table latches that it was set, and translation stays as it is. -/
theorem write32?_setRootTable :
    unit.write32? RegisterOffset.globalCommand
        (unit.command GlobalCommand.setRootTable true).bits =
      some { unit with latched := unit.latched.set GlobalStatus.rootTableSet true } := by
  have has (place : Nat) (inside : place < 32) := unit.has_command true 30 inside
  have root : (unit.command GlobalCommand.setRootTable true).has GlobalCommand.setRootTable =
    true := has 30 (by decide)
  have interrupt : (unit.command GlobalCommand.setRootTable true).has
    GlobalCommand.setInterruptTable = false := has 24 (by decide)
  have enables : (unit.command GlobalCommand.setRootTable true).has GlobalCommand.enable =
    unit.enabled := has 31 (by decide)
  rw [write32?, if_pos rfl]
  simp only [root, interrupt, enables, Bool.false_eq_true, if_true, if_false]

theorem globalStatus_enable :
    { unit with enabled := present }.globalStatus.bits =
      withFlag unit.globalStatus.bits GlobalCommand.enable present := by
  apply BitVec.eq_of_getLsbD_eq
  intro place inside
  have here : ∀ place < 32, GlobalCommand.enable.getLsbD place = decide (place = 31) := by decide
  simp only [getLsbD_withFlag _ _ _ inside, getLsbD_globalStatus _ inside, here place inside,
    decide_eq_true_eq]
  split <;> rfl

theorem globalStatus_setRootTable :
    { unit with latched := unit.latched.set GlobalStatus.rootTableSet true }.globalStatus.bits =
      withFlag unit.globalStatus.bits GlobalCommand.setRootTable true := by
  apply BitVec.eq_of_getLsbD_eq
  intro place inside
  have here : ∀ place < 32, GlobalCommand.setRootTable.getLsbD place = decide (place = 30) := by
    decide
  have same : GlobalStatus.rootTableSet = GlobalCommand.setRootTable := rfl
  simp only [getLsbD_withFlag _ _ _ inside, getLsbD_globalStatus _ inside, GlobalStatus.set, same,
    here place inside, decide_eq_true_eq]
  split_ifs <;> first | rfl | omega

/-- The unit answers a global command at once, so that it is given once. -/
theorem globalCommand_returns (driver : RemappingUnit) (start : Journaled EmulatedUnit)
    {next : EmulatedUnit}
    (writes : start.state.write32? RegisterOffset.globalCommand
      (start.state.command mask present).bits = some next)
    (shows : next.globalStatus.bits = withFlag start.state.globalStatus.bits mask present) :
    (driver.globalCommand mask present : Action EmulatedUnit ε Unit).Returns start fun _ last =>
      last.state = next ∧ last.journal.globalCommands =
        start.journal.globalCommands ++ [start.state.command mask present] := by
  rw [Action.Returns, RemappingUnit.globalCommand, Action.ends_bind]
  apply ((get32_returns _ start).and ((logs_get32 _).ends start)).mono _ fun _ _ => And.left
  rintro status asked ⟨⟨same, read⟩, _, log, rfl⟩
  obtain rfl : status = start.state.globalStatus.bits := read
  rw [Action.ends_bind]
  apply ((put32_returns _ _ asked).and ((logs_put32 _ _).ends asked)).mono _ fun _ _ => And.left
  rintro _ told ⟨written, _, log', rfl⟩
  rw [same] at written
  replace written : told.state = next := written.trans (congrArg (·.getD start.state) writes)
  apply driver.poll_returns_of_done
  rw [Action.Returns, Action.ends_bind]
  apply ((get32_returns _ told).and ((logs_get32 _).ends told)).mono _ fun _ _ => And.left
  rintro status last ⟨⟨same', read'⟩, _, log'', rfl⟩
  rw [Action.ends_pure, beq_iff_eq]
  have read' : status = told.state.globalStatus.bits := read'
  refine ⟨by rw [read', written, shows], same'.trans written, ?_⟩
  rw [Journal.globalCommands_of_log log'', Journal.globalCommands_of_log log',
    Journal.globalCommands_of_log log]
  simp [Effect.globalCommand?]
  rfl

end EmulatedUnit

namespace Machine

/-- What requests to turn translation on or off come to: the last of them holds, nothing else of the
unit changes, and no pointer is set again. -/
structure Switched (start : Journaled (Machine EmulatedUnit)) (requests : List Bool)
    (last : Journaled (Machine EmulatedUnit)) : Prop where
  state : last.state = ⟨start.state.controller,
    { start.state.page with enabled := requests.getLastD start.state.page.enabled }⟩
  commands : ∃ issued, last.journal.globalCommands = start.journal.globalCommands ++ issued ∧
    issued.length = requests.length ∧ ∀ command ∈ issued, command.Repeatable

theorem Switched.setEnabled {start now : Journaled (Machine EmulatedUnit)} {requests : List Bool}
    (switched : Switched start requests now) (request : Bool) :
    (setEnabled request : Action (Machine EmulatedUnit) ε Unit).Returns now fun _ =>
      Switched start (requests ++ [request]) := by
  obtain ⟨issued, log, count, repeatable⟩ := switched.commands
  rw [Action.Returns, Machine.setEnabled, Machine.unit, bind_assoc, Action.ends_bind,
    Action.ends_state, pure_bind, Action.ends_bind, Action.ends_on]
  apply (EmulatedUnit.globalCommand_returns GlobalCommand.enable request _ _
    (EmulatedUnit.write32?_enable _ request) (EmulatedUnit.globalStatus_enable _ request)).mono
    _ fun _ _ => id
  rintro _ last ⟨state, command⟩
  have reached (journal : Journal) (same : journal.globalCommands = last.journal.globalCommands) :
      Switched start (requests ++ [request])
        ⟨pagePart.set last.state now.state, journal⟩ := by
    constructor
    case state =>
      rw [state, switched.state, List.getLastD_concat]
      rfl
    case commands =>
      refine ⟨issued ++ [now.state.page.command GlobalCommand.enable request], ?_, ?_, ?_⟩
      · rw [same, command, log, List.append_assoc]
        rfl
      · simp [count]
      · simp only [List.mem_append, List.mem_singleton]
        rintro command (earlier | rfl)
        · exact repeatable command earlier
        · exact EmulatedUnit.repeatable_enable _ request
  rw [Action.ends_ite]
  exact ⟨fun _ => (Action.ends_record ..).mpr (reached _ (Journal.globalCommands_record ..)),
    fun _ => (Action.ends_pure ()).mpr (reached _ rfl)⟩

/-- Whatever requests follow on each other, the last of them holds. -/
theorem switched_forM (requests : List Bool) (start : Journaled (Machine EmulatedUnit)) :
    (requests.forM setEnabled : Action (Machine EmulatedUnit) ε Unit).Returns start fun _ =>
      Switched start requests := by
  refine Action.ends_forM (Switched start) requests ⟨rfl, [], by simp, rfl, nofun⟩ ?_ fun _ => id
  intro past request _ now _ switched
  exact switched.setEnabled request

end Machine

end DmaRemap

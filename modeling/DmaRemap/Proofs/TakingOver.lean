import DmaRemap.Proofs.GlobalCommand
import DmaRemap.Proofs.Latency

/-! Taking over a unit after its reset. Software refuses a unit for one of three reasons, of which
it names the first that holds, and then it has changed nothing. Otherwise it makes the unit forget
what it has cached, if the unit does not do so by itself, and sets the root table. -/

namespace DmaRemap

open RemappingUnit (contextRequest iotlbRequest lastRegisterInvalidation)
open EmulatedUnit (Accessed Driven Port)

variable {ε : Type}

namespace Bindings

theorem create_ends_settled {σ : Type} (pool : Pool) (coherency : Coherency) (start : Journaled σ) :
    (create pool coherency : Action σ TableError Bindings).Ends start
      (fun bindings last => last.state = start.state ∧ ¬pool.Exhausted ∧
        pool.Exchanges bindings.pool [] [bindings.root] ∧ 4096 ∣ bindings.root.val)
      (fun cause last => last.state = start.state ∧ pool.Exhausted ∧
        cause = .error .outOfMemory) := by
  unfold create
  simp only [Action.ends_bind, Action.ends_beside, Action.ends_on]
  apply (Pool.construct_ends _).mono
  · rintro root last ⟨exchange, held⟩
    rw [Action.ends_pure]
    exact ⟨rfl, exchange.not_exhausted held, exchange, Pool.dvd_of_node? held⟩
  · rintro cause last ⟨rfl, same, exhausted⟩
    simp only [Action.Handled, Action.ends_fail]
    exact ⟨rfl, exhausted, trivial⟩

end Bindings

namespace RootPointer

theorem toNat_legacy {address : Nat} (aligned : 4096 ∣ address) (small : address < 2 ^ 64) :
    (legacy address).raw.toNat = address := by
  apply Nat.eq_of_testBit_eq
  intro place
  obtain ⟨page, rfl⟩ := aligned
  have pages : (4096 * page) >>> 12 = page := by
    rw [Nat.shiftRight_eq_div_pow]
    omega
  have bits : (4096 * page).testBit place = (decide (12 ≤ place) && page.testBit (place - 12)) := by
    rw [show 4096 = 2 ^ 12 from rfl, Nat.testBit_two_pow_mul]
  have none : ¬place < 64 → page.testBit (place - 12) = false := by
    intro outside
    apply Nat.testBit_lt_two_pow
    calc page < 2 ^ 52 := by omega
      _ ≤ 2 ^ (place - 12) := Nat.pow_le_pow_right (by decide) (by omega)
  rw [BitVec.testBit_toNat, legacy, Field.getLsbD_set, Field.getLsbD_set, pages, bits]
  simp only [modeField, addressField, legacyMode]
  by_cases inside : place < 64
  · by_cases high : 12 ≤ place
    · simp [inside, high, show ¬place < 12 by omega]
    · simp [high]
  · simp [none inside, show ¬place < 12 by omega, inside]

end RootPointer

namespace EmulatedConfig

variable (config : EmulatedConfig)

theorem fourLevel_capability : config.capability.fourLevel = config.fourLevel := by
  simp (disch := decide) only [Capability.fourLevel, capability, Field.isSet, Field.put,
    Field.get_set_of_disjoint, Field.get_set]
  cases config.fourLevel <;> rfl

theorem rootSetInvalidates_capability :
    config.capability.rootSetInvalidates = config.rootSetInvalidates := by
  simp (disch := decide) only [Capability.rootSetInvalidates, capability, Field.isSet, Field.put,
    Field.get_set]
  cases config.rootSetInvalidates <;> rfl

/-- Why software that has such a pool does not take a unit over, if it does not. -/
def refusal? (pool : Pool) : Option IommuError :=
  if config.fourLevel = false then some .unsupportedTableDepth
  else if pool.Exhausted then some (.table .outOfMemory)
  else if config.rootSetInvalidates = true ∧ config.enabled = true then some .alreadyEnabled
  else none

/-- Whether software makes a unit forget what it has cached, since the unit does not do so when the
root table is set, and has registers for it. -/
def Forgetting : Prop :=
  config.rootSetInvalidates = false ∧
    (Version.mk config.version).major ≤ lastRegisterInvalidation

instance : Decidable config.Forgetting := inferInstanceAs (Decidable (_ ∧ _))

/-- A unit that has done nothing but forget, if it was told to. -/
def prepared : EmulatedUnit :=
  if config.Forgetting then
    Port.iotlb.perform (iotlbRequest none).raw
      (Port.context.perform (contextRequest none none).raw (.create config))
  else
    .create config

end EmulatedConfig

namespace EmulatedUnit

variable (unit : EmulatedUnit)

/-- The unit after its fault events were given a place to go. -/
def route (address data : BitVec 32) (control : FaultEventControl) : EmulatedUnit :=
  { unit with
    faultEventAddress := address
    faultEventData := data
    faultEventControl := control }

/-- The unit after its root table was set. -/
def point (root : PhysicalAddress) : EmulatedUnit :=
  { unit with
    rootPointer := (RootPointer.legacy root.val).raw
    latched := unit.latched.set GlobalStatus.rootTableSet true }

theorem has_globalStatus : unit.globalStatus.has GlobalStatus.enabled = unit.enabled := by
  rw [GlobalStatus.has, GlobalStatus.enabled, and_twoPow_beq _ (by decide),
    getLsbD_globalStatus _ (by decide), if_pos rfl]

end EmulatedUnit

namespace Controller

/-- Routing fault events changes only where they go. -/
theorem routeFaults_returns (driver : RemappingUnit) (interrupt : Option FaultInterrupt)
    (start : Journaled EmulatedUnit) :
    (interrupt.forM driver.routeFaults : Action EmulatedUnit ε Unit).Returns start fun _ last =>
      ∃ address data control, last.state = start.state.route address data control := by
  cases interrupt with
  | none => exact (Action.ends_pure ()).mpr ⟨_, _, _, rfl⟩
  | some interrupt =>
    change (driver.routeFaults interrupt).Ends _ _ _
    unfold RemappingUnit.routeFaults
    split
    · exact (Action.ends_record ..).mpr ⟨_, _, _, rfl⟩
    · rw [Action.ends_bind]
      apply (EmulatedUnit.put32_returns _ _ start).mono _ fun _ _ => id
      intro _ addressed address
      rw [Action.ends_bind]
      apply (EmulatedUnit.put32_returns _ _ addressed).mono _ fun _ _ => id
      intro _ filled data
      rw [Action.ends_bind]
      apply (EmulatedUnit.get32_returns _ filled).mono _ fun _ _ => id
      rintro value read ⟨same, -⟩
      apply (EmulatedUnit.put32_returns _ _ read).mono _ fun _ _ => id
      intro _ last control
      rw [control, same, data, address]
      exact ⟨_, _, _, rfl⟩

/-- The unit holds the root table and has latched it; nothing else changes but where fault events
go. -/
theorem install_returns (driver : RemappingUnit) (bindings : Bindings)
    (interrupt : Option FaultInterrupt) (start : Journaled EmulatedUnit) :
    (install driver bindings interrupt : Action EmulatedUnit IommuError Controller).Returns start
      fun controller last => controller.bindings = bindings ∧
        ∃ address data control,
          last.state = (start.state.route address data control).point bindings.root := by
  unfold install
  apply Action.ends_ite_record
  intro journal
  rw [Action.ends_bind]
  apply (routeFaults_returns driver interrupt _).mono _ fun _ _ => id
  rintro _ routed ⟨address, data, control, same⟩
  rw [Action.ends_bind]
  apply (EmulatedUnit.put64_returns _ _ routed).mono _ fun _ _ => id
  intro _ pointed pointer
  rw [Action.ends_bind]
  apply (EmulatedUnit.globalCommand_returns _ _ driver pointed
    (EmulatedUnit.write32?_setRootTable _) (EmulatedUnit.globalStatus_setRootTable _)).mono _
    fun _ _ => id
  rintro _ latched ⟨set, -⟩
  have reached (last : Journaled EmulatedUnit) (still : last.state = latched.state) :
      ∃ address data control,
        last.state = (start.state.route address data control).point bindings.root := by
    rw [still, set, pointer, same]
    exact ⟨address, data, control, rfl⟩
  rw [Action.ends_bind, Action.ends_recordM]
  split
  · rw [Action.ends_bind]
    apply (EmulatedUnit.readVersion_returns latched).mono _ fun _ _ => id
    rintro version last ⟨-, still, -⟩
    exact (Action.ends_pure _).mpr ((Action.ends_pure _).mpr ⟨rfl, reached _ still⟩)
  · exact (Action.ends_pure _).mpr ⟨rfl, reached _ rfl⟩

/-- A fresh unit that does not forget by itself forgets what it has cached, if it has registers for
it. Its commands are done when software goes on. -/
theorem invalidateAll_returns {config : EmulatedConfig} (apart : config.IotlbApart)
    {driver : RemappingUnit} (known : config.extendedCapability = driver.extended)
    (policy : driver.config.poll = .unbounded) (retains : config.rootSetInvalidates = false)
    (journal : Journal) :
    (driver.invalidateAll none none : Action EmulatedUnit ε Invalidation).Returns
      ⟨.create config, journal⟩ fun _ last => last.state = config.prepared := by
  by_cases offered : (Version.mk config.version).major ≤ lastRegisterInvalidation
  case pos =>
    have driven : Driven driver (.create config) :=
      ⟨known, apart, Accessed.start.completing.prompt, fun _ => policy ▸ trivial⟩
    apply (driven.invalidateAll_waits none journal none offered).mono
    · rintro _ last ⟨-, -, state, -⟩
      rw [state, EmulatedConfig.prepared, if_pos ⟨retains, offered⟩]
    · rintro cause last ⟨budget, member, -⟩
      rw [policy] at member
      cases member
  case neg =>
    obtain ⟨text, same⟩ := driver.invalidateAll_eq (ρ := EmulatedUnit) (ε := ε) none none
    rw [same, Action.Returns, Action.ends_bind]
    apply (EmulatedUnit.readVersion_returns _).mono _ fun _ _ => id
    rintro _ last ⟨rfl, still, -⟩
    have newer : lastRegisterInvalidation <
        (Version.mk (EmulatedUnit.create config).config.version).major := Nat.lt_of_not_le offered
    rw [if_pos newer, Action.ends_bind, Action.ends_record, Action.ends_pure,
      EmulatedConfig.prepared, if_neg fun forgetting => offered forgetting.2]
    exact still

/-- What holds of a unit once software has taken it over. -/
structure TakenOver (config : EmulatedConfig) (pool : Pool) (controller : Controller)
    (unit : EmulatedUnit) : Prop where
  /-- The root table is a node of the pool that was free. -/
  tables : pool.Exchanges controller.bindings.pool [] [controller.bindings.root]
  root : unit.rootPointer.toNat = controller.bindings.root.val
  latched : unit.latched = ⟨GlobalStatus.rootTableSet⟩
  enabled : unit.enabled = config.enabled
  /-- One command for each cache asks the unit to forget all that it has cached. -/
  forgot : config.Forgetting →
    (∃ command : ContextCommand, unit.contextCommands = #[command] ∧ command.Asks none none) ∧
      ∃ command : IotlbCommand, unit.iotlbCommands = #[command] ∧ command.Asks none
  quiet : ¬config.Forgetting → unit.contextCommands = #[] ∧ unit.iotlbCommands = #[]

theorem takenOver_point {config : EmulatedConfig} {pool : Pool} {controller : Controller}
    (tables : pool.Exchanges controller.bindings.pool [] [controller.bindings.root])
    (aligned : 4096 ∣ controller.bindings.root.val) (address data : BitVec 32)
    (control : FaultEventControl) :
    TakenOver config pool controller
      ((config.prepared.route address data control).point controller.bindings.root) where
  tables := tables
  root := RootPointer.toNat_legacy aligned
    (Nat.lt_trans controller.bindings.root.isLt (by decide))
  latched := by
    have fresh : config.prepared.latched = ⟨0⟩ := by
      unfold EmulatedConfig.prepared
      split <;> rfl
    change config.prepared.latched.set _ _ = _
    rw [fresh]
    decide
  enabled := by
    change config.prepared.enabled = _
    unfold EmulatedConfig.prepared
    split <;> rfl
  forgot forgetting := by
    have done : config.prepared = _ := if_pos forgetting
    constructor
    · exact ⟨contextRequest none none, by rw [EmulatedUnit.point, EmulatedUnit.route, done]; rfl,
        RemappingUnit.asks_contextRequest none none⟩
    · exact ⟨iotlbRequest none, by rw [EmulatedUnit.point, EmulatedUnit.route, done]; rfl,
        RemappingUnit.asks_iotlbRequest none⟩
  quiet forgetting := by
    have done : config.prepared = _ := if_neg forgetting
    constructor <;> rw [EmulatedUnit.point, EmulatedUnit.route, done] <;> rfl

/-- Setting the root table is all that is left to do once a unit has forgotten what it had to. -/
theorem install_takesOver {config : EmulatedConfig} {pool : Pool} {bindings : Bindings}
    (tables : pool.Exchanges bindings.pool [] [bindings.root]) (aligned : 4096 ∣ bindings.root.val)
    (driver : RemappingUnit) (interrupt : Option FaultInterrupt) {now : Journaled EmulatedUnit}
    (prepared : now.state = config.prepared) :
    (install driver bindings interrupt : Action EmulatedUnit IommuError Controller).Returns now
      fun controller last => TakenOver config pool controller last.state := by
  apply (install_returns driver bindings interrupt now).mono _ fun _ _ => id
  rintro controller last ⟨rfl, address, data, control, state⟩
  rw [state, prepared]
  exact takenOver_point tables aligned address data control

/-- A fresh unit that software knows is taken over exactly if nothing speaks against it. -/
theorem adopt_ends {config : EmulatedConfig} (apart : config.IotlbApart) {driver : RemappingUnit}
    (capability : driver.capability = config.capability)
    (extended : driver.extended = config.extendedCapability)
    (policy : driver.config.poll = .unbounded) (pool : Pool) (interrupt : Option FaultInterrupt)
    (journal : Journal) :
    (adopt driver pool interrupt : Action EmulatedUnit IommuError Controller).Ends
      ⟨.create config, journal⟩
      (fun controller last => config.refusal? pool = none ∧
        TakenOver config pool controller last.state)
      (fun cause last => ∃ error, cause = .error error ∧ config.refusal? pool = some error ∧
        last.state = .create config) := by
  rw [adopt, Action.ends_ite, capability, config.fourLevel_capability]
  constructor
  case right =>
    intro shallow
    rw [Action.ends_bind, Action.ends_record, Action.ends_fail]
    exact ⟨_, rfl, if_pos (Bool.eq_false_iff.mpr shallow), rfl⟩
  intro deep
  -- What is left of the reasons to refuse the unit; each check of the program takes one away.
  have refusal : config.refusal? pool = if pool.Exhausted then some (.table .outOfMemory)
      else if config.rootSetInvalidates = true ∧ config.enabled = true then some .alreadyEnabled
      else none := if_neg (by simp [deep])
  rw [Action.ends_bind, Action.ends_mapError]
  apply (Bindings.create_ends_settled ..).mono
  case failing =>
    rintro _ last ⟨same, exhausted, rfl⟩
    exact ⟨_, rfl, refusal.trans (if_pos exhausted), same⟩
  rintro bindings ⟨_, journal⟩ ⟨rfl, spare, tables, aligned⟩
  rw [if_neg spare] at refusal
  rw [Action.ends_ite, config.rootSetInvalidates_capability, Bool.not_eq_true']
  constructor
  case left =>
    intro retains
    rw [Action.ends_bind, Action.ends_discard]
    apply (invalidateAll_returns apart extended.symm policy retains journal).mono _
      fun _ _ => False.elim
    intro _ now prepared
    have accepted : config.refusal? pool = none := refusal.trans (if_neg (by simp [retains]))
    exact (install_takesOver tables aligned driver interrupt prepared).mono
      (fun _ _ taken => ⟨accepted, taken⟩) fun _ _ => False.elim
  case right =>
    intro clears
    have clears : config.rootSetInvalidates = true := by simpa using clears
    have keeps : ¬config.Forgetting := by
      rintro ⟨retains, -⟩
      rw [retains] at clears
      cases clears
    rw [RemappingUnit.readGlobalStatus, bind_assoc, Action.ends_bind]
    apply (EmulatedUnit.get32_returns _ _).mono _ fun _ _ => False.elim
    rintro status now ⟨same, read⟩
    have shown : (GlobalStatus.mk status).has GlobalStatus.enabled = config.enabled :=
      read ▸ (EmulatedUnit.create config).has_globalStatus
    rw [pure_bind, Action.ends_ite, shown]
    constructor
    case left =>
      intro enabled
      rw [Action.ends_bind, Action.ends_record, Action.ends_fail]
      exact ⟨_, rfl, refusal.trans (if_pos ⟨clears, enabled⟩), same⟩
    case right =>
      intro disabled
      have accepted : config.refusal? pool = none :=
        refusal.trans (if_neg fun both => disabled both.2)
      have prepared : now.state = config.prepared := same.trans (if_neg keeps).symm
      exact (install_takesOver tables aligned driver interrupt prepared).mono
        (fun _ _ taken => ⟨accepted, taken⟩) fun _ _ => False.elim

/-- Software takes over a fresh unit exactly if nothing speaks against it. Otherwise it names the
first reason, and the unit is as it was. Once it has taken the unit over, it turns translation on
and off as it is asked to, and sets no pointer again. -/
theorem takeOver_settles {config : EmulatedConfig} (apart : config.IotlbApart) (name : String)
    (pool : Pool) (interrupt : Option FaultInterrupt) {driver : Config}
    (policy : driver.poll = .unbounded) (journal : Journal) :
    (takeOver name pool interrupt driver : Action EmulatedUnit IommuError Controller).Ends
      ⟨.create config, journal⟩
      (fun controller last => config.refusal? pool = none ∧
        TakenOver config pool controller last.state ∧
        ∀ requests : List Bool,
          (requests.forM Machine.setEnabled : Action (Machine EmulatedUnit) ε Unit).Returns
            ⟨⟨controller, last.state⟩, last.journal⟩ fun _ final =>
              Machine.Switched ⟨⟨controller, last.state⟩, last.journal⟩ requests final)
      (fun cause last => ∃ error, cause = .error error ∧ config.refusal? pool = some error ∧
        last.state = .create config) := by
  rw [takeOver_eq, Action.ends_bind]
  apply (EmulatedUnit.get64_capability _).mono _ fun _ _ => False.elim
  rintro capability ⟨page, journal⟩ ⟨known, same⟩
  obtain rfl : page = .create config := same
  rw [Action.ends_bind]
  apply (EmulatedUnit.get64_extendedCapability _).mono _ fun _ _ => False.elim
  rintro extended ⟨page, journal⟩ ⟨known', same⟩
  obtain rfl : page = .create config := same
  apply (adopt_ends apart (congrArg Capability.mk known) (congrArg ExtendedCapability.mk known')
    policy pool interrupt journal).mono _ fun _ _ => id
  rintro controller last ⟨accepted, taken⟩
  exact ⟨accepted, taken, fun requests => Machine.switched_forM requests _⟩

/-- A unit that translates from the start and does not forget by itself. -/
def retainingSample : EmulatedConfig where
  rootSetInvalidates := false
  enabled := true
  busyPolls := 2

/-- Room for a single table. -/
def singleSample : Pool := .fresh ⟨0x40 <<< 12, by decide⟩ 1 (by decide) (by decide)

theorem takeOver_settles_retainingSample :
    (∃ controller, (takeOver "unit" singleSample none {} :
        Action EmulatedUnit IommuError Controller).outcome
          ⟨.create retainingSample, { threshold := none }⟩ = .ok controller ∧
      TakenOver retainingSample singleSample controller ((takeOver "unit" singleSample none {} :
        Action EmulatedUnit IommuError Controller).finish
          ⟨.create retainingSample, { threshold := none }⟩).state) ∧
    (takeOver "unit" singleSample none {} : Action EmulatedUnit IommuError Controller).outcome
      ⟨.create { enabled := true }, { threshold := none }⟩ = .error (.error .alreadyEnabled) := by
  have settled (config : EmulatedConfig) (apart : config.IotlbApart) :=
    (takeOver_settles (ε := Empty) apart "unit" singleSample none
      (rfl : ({} : Config).poll = .unbounded) { threshold := none }).outcome_finish
  constructor
  · rcases settled retainingSample (by decide +kernel) with
      ⟨controller, returned, -, taken, -⟩ | ⟨cause, -, error, -, refused, -⟩
    · exact ⟨controller, returned, taken⟩
    · have accepted : retainingSample.refusal? singleSample = none := by decide +kernel
      cases accepted.symm.trans refused
  · have refusal : EmulatedConfig.refusal? { enabled := true } singleSample =
        some .alreadyEnabled := by decide +kernel
    rcases settled { enabled := true } (by decide +kernel) with
      ⟨controller, -, accepted, -⟩ | ⟨cause, failed, error, rfl, refused, -⟩
    · cases accepted.symm.trans refusal
    · cases refusal.symm.trans refused
      exact failed

end Controller

end DmaRemap

import DmaRemap.Proofs.FaultDrain

/-! Faults in any slots of the ring. A unit takes note of the first of them only while no other is
pending, and serving a fault event stops at an empty slot. The status shows a slot that holds a
fault as long as each event is served while the faults stand without a gap; a fault that is left
behind a gap is found by no later event. -/

namespace DmaRemap

namespace EmulatedUnit

variable {unit next last : EmulatedUnit} {report : FaultReport} {count slot : Nat}
  {record : FaultRecord}

/-- Whether no fault stands behind an empty slot, around the ring from the first slot on. -/
def Gapless (unit : EmulatedUnit) : Prop :=
  ∀ step < unit.config.records, unit.holdsFault (unit.slotAt step) = true →
    ∀ earlier < step, unit.holdsFault (unit.slotAt earlier) = true

instance (unit : EmulatedUnit) : Decidable unit.Gapless :=
  inferInstanceAs (Decidable (∀ step < unit.config.records, _ → ∀ earlier < step, _))

@[simp] theorem pending_faultStatus (unit : EmulatedUnit) :
    unit.faultStatus.pending = unit.faultPending :=
  FaultStatus.pending_report

theorem holdsFault_of_getElem? {words : RecordWords} (found : unit.records[slot]? = some words) :
    unit.holdsFault slot = FaultRecord.isFault words.high := by
  rw [holdsFault, found, Option.any_some]

theorem lt_of_holdsFault (holds : unit.holdsFault slot = true) : slot < unit.records.size := by
  by_contra outside
  rw [holdsFault, Array.getElem?_eq_none (Nat.le_of_not_lt outside)] at holds
  cases holds

theorem faultPending_iff : unit.faultPending = true ↔ ∃ slot, unit.holdsFault slot = true := by
  rw [faultPending, Array.any_eq_true]
  constructor
  · rintro ⟨slot, inside, fault⟩
    exact ⟨slot, (holdsFault_of_getElem? (Array.getElem?_eq_getElem inside)).trans fault⟩
  · rintro ⟨slot, holds⟩
    have inside := lt_of_holdsFault holds
    rw [holdsFault_of_getElem? (Array.getElem?_eq_getElem inside)] at holds
    exact ⟨slot, inside, holds⟩

theorem faultPending_eq_false_iff :
    unit.faultPending = false ↔ ∀ slot, unit.holdsFault slot = false := by
  rw [← Bool.not_eq_true, faultPending_iff, not_exists]
  simp only [Bool.not_eq_true]

theorem holdsFault_cleared (clears : unit.config.stickyFaults = false) (slots : List Nat) :
    (unit.cleared slots).holdsFault slot = (unit.holdsFault slot && decide (slot ∉ slots)) := by
  unfold holdsFault
  rw [getElem?_cleared, clears]
  by_cases member : slot ∈ slots
  · cases unit.records[slot]? <;> simp [member, FaultRecord.isFault, Field.isSet, Field.get]
  · simp [member]

theorem holdsFault_raise (raised : unit.raiseFault slot record = .ok next) :
    next.holdsFault slot = true ∧
      ∀ other, unit.holdsFault other = true → next.holdsFault other = true := by
  unfold raiseFault at raised
  split at raised
  case isFalse => cases raised
  case isTrue inside =>
    cases raised
    have held : (unit.records.setIfInBounds slot
        ⟨record.encodeLow, record.encodeHigh⟩)[slot]?.any
          (fun words => FaultRecord.isFault words.high) = true := by
      rw [Array.getElem?_setIfInBounds_self_of_lt inside, Option.any_some]
      exact record.isFault_encodeHigh
    refine ⟨held, fun other holds => ?_⟩
    by_cases same : slot = other
    · exact same ▸ held
    · rw [holdsFault, Array.getElem?_setIfInBounds_ne same]
      exact holds

/-- A ring whose first slot holds a fault whenever one is pending. -/
structure Pointed (unit : EmulatedUnit) : Prop where
  ring : unit.config.Ring
  size : unit.records.size = unit.config.records
  inside : unit.firstRecord < unit.config.records
  held : unit.faultPending = true → unit.holdsFault unit.firstRecord = true

namespace Pointed

theorem create {config : EmulatedConfig} (ring : config.Ring) : (create config).Pointed where
  ring := ring
  size := Array.size_replicate ..
  inside := ring.some
  held pending := by
    obtain ⟨slot, holds⟩ := faultPending_iff.mp pending
    have inside := lt_of_holdsFault holds
    have empty : (EmulatedUnit.create config).records[slot]? = some {} := by
      rw [Array.getElem?_eq_getElem inside]
      exact congrArg some (Array.getElem_replicate ..)
    rw [holdsFault_of_getElem? empty] at holds
    cases holds

theorem of_same (pointed : unit.Pointed) (same : unit.SameFaults next) : next.Pointed := by
  have pending : next.faultPending = unit.faultPending := by
    rw [faultPending, faultPending, same.records]
  have holds : next.holdsFault next.firstRecord = unit.holdsFault unit.firstRecord := by
    rw [holdsFault, holdsFault, same.records, same.first]
  exact ⟨same.config ▸ pointed.ring, by rw [same.records, same.config, pointed.size],
    by rw [same.first, same.config]; exact pointed.inside,
    by rw [pending, holds]; exact pointed.held⟩

/-- A fault that is raised while none is pending is the first one; otherwise the first one stays. -/
theorem raise (pointed : unit.Pointed) (raised : unit.raiseFault slot record = .ok next) :
    next.Pointed ∧ next.config = unit.config := by
  obtain ⟨here, others⟩ := holdsFault_raise raised
  unfold raiseFault at raised
  split at raised
  case isFalse => cases raised
  case isTrue inside =>
    cases raised
    refine ⟨⟨pointed.ring, by simpa using pointed.size, ?inside, fun _ => ?held⟩, rfl⟩
    case inside =>
      have place : slot < unit.config.records := pointed.size ▸ inside
      cases pending : unit.faultPending with
      | true => simpa [pending] using pointed.inside
      | false => simpa [pending] using place
    case held =>
      cases pending : unit.faultPending with
      | true => simpa [pending] using others _ (pointed.held pending)
      | false => simpa [pending] using here

theorem first_faultStatus (pointed : unit.Pointed) : unit.faultStatus.first = unit.firstRecord := by
  rw [faultStatus, FaultStatus.first_report]
  exact Nat.mod_eq_of_lt (pointed.inside.trans_le pointed.ring.most)

theorem slotAt_zero (pointed : unit.Pointed) : unit.slotAt 0 = unit.firstRecord :=
  Nat.mod_eq_of_lt pointed.inside

theorem exists_slotAt (pointed : unit.Pointed) (inside : slot < unit.config.records) :
    ∃ step < unit.config.records, unit.slotAt step = slot := by
  have first := pointed.inside
  refine ⟨(slot + (unit.config.records - unit.firstRecord)) % unit.config.records,
    Nat.mod_lt _ pointed.ring.some, ?_⟩
  rw [slotAt, Nat.add_mod_mod,
    show unit.firstRecord + (slot + (unit.config.records - unit.firstRecord)) =
      slot + unit.config.records by omega, Nat.add_mod_right, Nat.mod_eq_of_lt inside]

theorem leads_pos (pointed : unit.Pointed) (pending : unit.faultPending = true)
    (leads : unit.Leads count) : 0 < count := by
  by_contra none
  obtain rfl : count = 0 := Nat.eq_zero_of_not_pos none
  have empty := leads.ends pointed.ring.some
  rw [pointed.slotAt_zero, pointed.held pending] at empty
  cases empty

theorem records_ne_nil (pointed : unit.Pointed) (pending : unit.faultPending = true)
    (served : unit.Served report last count) : report.records ≠ [] := by
  intro empty
  have lengths := congrArg List.length served.records
  rw [empty] at lengths
  have some := pointed.leads_pos pending served.leads
  simp only [List.map_nil, List.length_nil, List.length_map, slotsFrom, List.length_range]
    at lengths
  omega

/-- Serving a fault event leaves a fault behind exactly if there was a gap before one. -/
theorem idle_iff_gapless (pointed : unit.Pointed) (served : unit.Served report last count) :
    last.faultPending = false ↔ unit.Gapless := by
  have left (slot : Nat) : last.holdsFault slot =
      (unit.holdsFault slot && decide (slot ∉ unit.slotsFrom count)) := by
    rw [served.left]
    exact holdsFault_cleared pointed.ring.clears _
  rw [faultPending_eq_false_iff]
  constructor
  · intro idle step inside holds earlier before
    have gone := idle (unit.slotAt step)
    rw [left, holds, Bool.true_and, decide_eq_false_iff_not, not_not] at gone
    obtain ⟨other, within, same⟩ := List.mem_map.mp gone
    rw [List.mem_range] at within
    have close : other ≡ step [MOD unit.config.records] :=
      Nat.ModEq.add_left_cancel' unit.firstRecord same
    have equal := close.eq_of_lt_of_lt (within.trans_le served.leads.most) inside
    exact served.leads.faults earlier (before.trans (equal ▸ within))
  · intro gapless slot
    rw [left]
    cases holds : unit.holdsFault slot with
    | false => rfl
    | true =>
      obtain ⟨step, inside, rfl⟩ := pointed.exists_slotAt (pointed.size ▸ lt_of_holdsFault holds)
      rw [Bool.true_and, decide_eq_false_iff_not, not_not]
      refine List.mem_map_of_mem (List.mem_range.mpr ?_)
      by_contra behind
      -- The slot at which serving stopped is empty, and this one lies behind it.
      have stopped := served.leads.ends (lt_of_le_of_lt (Nat.le_of_not_lt behind) inside)
      rcases Nat.eq_or_lt_of_le (Nat.le_of_not_lt behind) with same | before
      · rw [same, holds] at stopped
        cases stopped
      · rw [gapless step inside holds count before] at stopped
        cases stopped

end Pointed

end EmulatedUnit

/-- A machine after a fault event was served. -/
def Machine.served (start : Journaled (Machine EmulatedUnit)) : Journaled (Machine EmulatedUnit) :=
  (handleFaults : Action (Machine EmulatedUnit) Empty FaultReport).finish start

/-- A run of a unit from its reset on, and of the controllers that take it over. Faults are raised
in any slots of the ring, and a fault event is served when the unit is `ready` for it. -/
inductive FaultTraffic (ready : EmulatedUnit → Prop) (config : EmulatedConfig) :
    Option Controller → EmulatedUnit → Prop where
  | start : FaultTraffic ready config none (.create config)
  | raise {controller? : Option Controller} {unit next : EmulatedUnit} {slot : Nat}
      {record : FaultRecord} (traffic : FaultTraffic ready config controller? unit)
      (raised : unit.raiseFault slot record = .ok next) :
      FaultTraffic ready config controller? next
  | takeOver {controller? : Option Controller} {unit : EmulatedUnit}
      (traffic : FaultTraffic ready config controller? unit) (name : String) (pool : Pool)
      (interrupt : Option FaultInterrupt) (driven : Config) (journal : Journal) :
      FaultTraffic ready config
        ((Controller.takeOver name pool interrupt driven).outcome ⟨unit, journal⟩).toOption
        ((Controller.takeOver name pool interrupt driven).finish ⟨unit, journal⟩).state
  | handle {controller : Controller} {unit : EmulatedUnit}
      (traffic : FaultTraffic ready config (some controller) unit) (calm : ready unit)
      (journal : Journal) {last : Machine EmulatedUnit}
      (left : (Machine.served ⟨⟨controller, unit⟩, journal⟩).state = last) :
      FaultTraffic ready config (some last.controller) last.page

namespace FaultTraffic

variable {config : EmulatedConfig} {controller? : Option Controller} {unit : EmulatedUnit}

/-- What a controller knows of a unit whose status shows the first fault. -/
structure Sound (config : EmulatedConfig) (controller? : Option Controller) (unit : EmulatedUnit) :
    Prop where
  pointed : unit.Pointed
  config : unit.config = config
  known : ∀ controller ∈ controller?, controller.unit.capability = unit.config.capability

/-- Serving a fault event reports a fault if one is pending, and leaves none behind exactly if there
was no gap. Then the status is right again. -/
theorem Sound.handle_returns {controller : Controller}
    (sound : Sound config (some controller) unit) (journal : Journal) :
    (Machine.handleFaults : Action (Machine EmulatedUnit) Empty FaultReport).Returns
      ⟨⟨controller, unit⟩, journal⟩ fun report last =>
        (unit.faultPending = true → report.records ≠ []) ∧
        (last.state.page.faultPending = false ↔ unit.Gapless) ∧
        (unit.Gapless → Sound config (some last.state.controller) last.state.page) := by
  obtain ⟨pointed, same, known⟩ := sound
  apply Machine.handleFaults_turn
  apply (RemappingUnit.serveFaults_ends (known _ rfl) pointed.ring.toLayout pointed.inside
    journal).mono _ fun _ _ => id
  rintro report ⟨page, journal⟩ ⟨idle, served⟩
  cases pending : unit.faultPending with
  | false =>
    obtain ⟨rfl, rfl⟩ := idle pending
    have gapless : page.Gapless := fun step _ holds =>
      absurd holds (by simp [EmulatedUnit.faultPending_eq_false_iff.mp pending])
    refine ⟨nofun, iff_of_true pending gapless, fun _ => ⟨pointed, same, ?_⟩⟩
    rintro _ ⟨⟩
    exact known controller rfl
  | true =>
    obtain ⟨count, served⟩ := served pending
    have drained := pointed.idle_iff_gapless served
    refine ⟨fun _ => pointed.records_ne_nil pending served, drained, fun gapless => ?_⟩
    have quiet := drained.mpr gapless
    obtain rfl := served.left
    refine ⟨⟨pointed.ring, ?_, pointed.inside, fun later => ?_⟩, same, ?_⟩
    · simp [EmulatedUnit.cleared, pointed.ring.clears, pointed.size]
    · exact Bool.noConfusion (quiet.symm.trans later)
    · rintro _ ⟨⟩
      exact known controller rfl

/-- The status stays right as long as each event is served without a gap. -/
theorem sound (ring : config.Ring)
    (traffic : FaultTraffic EmulatedUnit.Gapless config controller? unit) :
    Sound config controller? unit := by
  induction traffic with
  | start => exact ⟨.create ring, rfl, by simp⟩
  | raise traffic raised ih =>
    obtain ⟨pointed, same⟩ := ih.pointed.raise raised
    exact ⟨pointed, same.trans ih.config, same ▸ ih.known⟩
  | @takeOver _ unit traffic name pool interrupt driven journal ih =>
    have ends := Controller.takeOver_ends name pool interrupt driven ⟨unit, journal⟩
    rcases ends.outcome_finish with ⟨controller, taken, same, knows⟩ | ⟨cause, failed, same⟩
    · refine ⟨ih.pointed.of_same same, same.config.trans ih.config, fun other taken' => ?_⟩
      rw [taken] at taken'
      cases taken'
      exact knows.trans (congrArg EmulatedConfig.capability same.config.symm)
    · refine ⟨ih.pointed.of_same same, same.config.trans ih.config, fun other taken => ?_⟩
      rw [failed] at taken
      cases taken
  | handle traffic gapless journal left ih =>
    obtain ⟨_, _, _, _, kept⟩ := (ih.handle_returns journal).exists_outcome
    exact left ▸ kept gapless

/-- Once the faults stand without a gap, one event leaves none, and no more come by themselves. -/
theorem Sound.idle_of_gapless {controller : Controller}
    (sound : Sound config (some controller) unit) (gapless : unit.Gapless) (journal : Journal)
    (events : Nat) :
    (Machine.served^[events + 1] ⟨⟨controller, unit⟩, journal⟩).state.page.faultPending =
      false := by
  induction events generalizing controller unit journal with
  | zero =>
    obtain ⟨_, _, _, drained, _⟩ := (sound.handle_returns journal).exists_outcome
    exact drained.mpr gapless
  | succ events ih =>
    obtain ⟨_, _, _, drained, kept⟩ := (sound.handle_returns journal).exists_outcome
    rw [Function.iterate_succ_apply]
    refine ih (kept gapless) (fun step _ holds => ?_) _
    have idle := EmulatedUnit.faultPending_eq_false_iff.mp (drained.mpr gapless)
    exact absurd holds (by simp [idle])

/-- If every fault event is served while the faults stand without a gap, the status always shows a
slot that holds a fault, every event that is served while a fault is pending reports one, and it
leaves none exactly if there is no gap again; then as many events as there are slots leave none. -/
theorem shows_and_drains (ring : config.Ring)
    (traffic : FaultTraffic EmulatedUnit.Gapless config controller? unit) :
    (unit.faultStatus.pending = true → unit.holdsFault unit.faultStatus.first = true) ∧
      ∀ controller ∈ controller?, ∀ journal,
        (Machine.handleFaults : Action (Machine EmulatedUnit) Empty FaultReport).Returns
          ⟨⟨controller, unit⟩, journal⟩ (fun report last =>
            (unit.faultStatus.pending = true → report.records ≠ []) ∧
            (last.state.page.faultStatus.pending = false ↔ unit.Gapless)) ∧
        (unit.Gapless → (Machine.served^[config.records]
          ⟨⟨controller, unit⟩, journal⟩).state.page.faultStatus.pending = false) := by
  have sound := traffic.sound ring
  simp only [EmulatedUnit.pending_faultStatus]
  refine ⟨by rw [sound.pointed.first_faultStatus]; exact sound.pointed.held, ?_⟩
  intro controller taken journal
  cases Option.mem_def.mp taken
  constructor
  · apply (sound.handle_returns journal).mono _ fun _ _ => id
    exact fun report last ended => ⟨ended.1, ended.2.1⟩
  · intro gapless
    obtain ⟨events, slots⟩ := Nat.exists_eq_succ_of_ne_zero ring.some.ne'
    rw [slots]
    exact sound.idle_of_gapless gapless journal events

def trafficConfig : EmulatedConfig := { records := 4 }

/-- A unit with faults in two slots that are not neighbours. -/
def gapSample : EmulatedUnit :=
  (((EmulatedUnit.create trafficConfig).raiseFault 2 FaultRun.faultSample).bind
    fun unit => unit.raiseFault 0 FaultRun.faultSample).toOption.get (by decide +kernel)

/-- The controller that took the unit over, and the unit. -/
def gapMachine : Machine EmulatedUnit :=
  ⟨(FaultRun.takeOverSample.outcome ⟨gapSample, FaultRun.silent⟩).toOption.get (by decide +kernel),
    (FaultRun.takeOverSample.finish ⟨gapSample, FaultRun.silent⟩).state⟩

theorem traffic_gapMachine (ready : EmulatedUnit → Prop) :
    FaultTraffic ready trafficConfig (some gapMachine.controller) gapMachine.page := by
  have first : (EmulatedUnit.create trafficConfig).raiseFault 2 FaultRun.faultSample = .ok _ :=
    eq_ok_get (by decide +kernel)
  have second : ((EmulatedUnit.create trafficConfig).raiseFault 2 FaultRun.faultSample).bind
      (fun unit => unit.raiseFault 0 FaultRun.faultSample) = .ok gapSample := eq_ok_get _
  rw [first, Except.bind] at second
  have raised : FaultTraffic ready trafficConfig none gapSample :=
    .raise (.raise .start first) second
  have returned : (FaultRun.takeOverSample.outcome ⟨gapSample, FaultRun.silent⟩).toOption =
      some gapMachine.controller := (Option.some_get _).symm
  exact returned ▸ raised.takeOver "unit" FaultRun.poolSample none (.strict 4) FaultRun.silent

/-- The unit once the slot between the two holds a fault, too. -/
def bridgedSample : EmulatedUnit :=
  (gapMachine.page.raiseFault 3 FaultRun.faultSample).toOption.get (by decide +kernel)

/-- The machine once these faults were served. -/
def drainedSample : Machine EmulatedUnit :=
  (Machine.served ⟨⟨gapMachine.controller, bridgedSample⟩, FaultRun.silent⟩).state

/-- The unit with the next fault, in a slot that no fault was in. -/
def onwardSample : EmulatedUnit :=
  (drainedSample.page.raiseFault 1 FaultRun.faultSample).toOption.get (by decide +kernel)

theorem shows_and_drains_onwardSample :
    FaultTraffic EmulatedUnit.Gapless trafficConfig (some drainedSample.controller) onwardSample ∧
      onwardSample.faultStatus.pending = true ∧ onwardSample.Gapless ∧
        onwardSample.holdsFault onwardSample.faultStatus.first = true ∧ ∀ journal,
          (Machine.served^[trafficConfig.records]
            ⟨⟨drainedSample.controller, onwardSample⟩, journal⟩).state.page.faultStatus.pending =
              false := by
  have ring : trafficConfig.Ring := ⟨⟨by decide, by decide, by decide +kernel⟩, rfl⟩
  have bridge : gapMachine.page.raiseFault 3 FaultRun.faultSample = .ok bridgedSample :=
    eq_ok_get _
  have bridged : FaultTraffic EmulatedUnit.Gapless trafficConfig (some gapMachine.controller)
      bridgedSample :=
    .raise (traffic_gapMachine _) bridge
  have drained : FaultTraffic EmulatedUnit.Gapless trafficConfig (some drainedSample.controller)
      drainedSample.page :=
    bridged.handle (by decide +kernel) FaultRun.silent rfl
  have onward : drainedSample.page.raiseFault 1 FaultRun.faultSample = .ok onwardSample :=
    eq_ok_get _
  have traffic : FaultTraffic EmulatedUnit.Gapless trafficConfig (some drainedSample.controller)
      onwardSample :=
    .raise drained onward
  have pending : onwardSample.faultStatus.pending = true := by decide +kernel
  have gapless : onwardSample.Gapless := by decide +kernel
  obtain ⟨shown, drains⟩ := traffic.shows_and_drains ring
  exact ⟨traffic, pending, gapless, shown pending, fun journal => (drains _ rfl journal).2 gapless⟩

/-- The machine once a fault event was served in spite of the gap. -/
def strandedSample : Machine EmulatedUnit :=
  (Machine.served ⟨gapMachine, FaultRun.silent⟩).state

/-- Behind a gap a fault stays pending: the status shows an empty slot, and as many events as there
are slots report nothing. -/
theorem stranded_behind_gap :
    FaultTraffic (fun _ => True) trafficConfig (some strandedSample.controller)
        strandedSample.page ∧
      strandedSample.page.faultStatus.pending = true ∧
        strandedSample.page.holdsFault strandedSample.page.faultStatus.first = false ∧
          (Machine.handleFaults : Action (Machine EmulatedUnit) Empty FaultReport).outcome
            ⟨strandedSample, FaultRun.silent⟩ = .ok {} ∧
          (Machine.served^[trafficConfig.records]
            ⟨strandedSample, FaultRun.silent⟩).state.page.faultStatus.pending = true := by
  refine ⟨(traffic_gapMachine _).handle trivial FaultRun.silent rfl, ?_⟩
  decide +kernel

end FaultTraffic

end DmaRemap

import DmaRemap.Proofs.FaultRing

namespace DmaRemap

open RegisterPage (get32 get64 put32 put64)

namespace EmulatedUnit

variable {unit : EmulatedUnit} {slot step count : Nat} {slots : List Nat}

/-- Whether a slot of the ring holds a fault. -/
def holdsFault (unit : EmulatedUnit) (slot : Nat) : Bool :=
  unit.records[slot]?.any fun words => FaultRecord.isFault words.high

/-- The fault in a slot of the ring. -/
def decodeSlot? (unit : EmulatedUnit) (slot : Nat) : Option FaultRecord :=
  unit.records[slot]?.bind fun words => FaultRecord.decode? slot words.low words.high

/-- The slot that lies some steps from the first one around the ring. -/
def slotAt (unit : EmulatedUnit) (step : Nat) : Nat :=
  (unit.firstRecord + step) % unit.config.records

/-- So many slots from the first one on. -/
def slotsFrom (unit : EmulatedUnit) (count : Nat) : List Nat :=
  (List.range count).map unit.slotAt

/-- The slots from the first one on that hold faults are so many: either the next slot holds none,
or they are once around the ring. -/
structure Leads (unit : EmulatedUnit) (count : Nat) : Prop where
  most : count ≤ unit.config.records
  faults : ∀ step < count, unit.holdsFault (unit.slotAt step) = true
  ends : count < unit.config.records → unit.holdsFault (unit.slotAt count) = false

/-- The unit with some slots cleared, unless its records are sticky. -/
def cleared (unit : EmulatedUnit) (slots : List Nat) : EmulatedUnit :=
  { unit with
    records :=
      if unit.config.stickyFaults then unit.records
      else unit.records.mapIdx fun slot words => if slot ∈ slots then {} else words }

/-- What serving a fault event reports and leaves behind, if so many slots lead the ring: their
faults in order, each slot once, and whether faults were lost. The slots are cleared, and so is the
overflow. -/
structure Served (unit : EmulatedUnit) (report : FaultReport) (last : EmulatedUnit) (count : Nat) :
    Prop where
  leads : unit.Leads count
  distinct : (unit.slotsFrom count).Nodup
  records : report.records.map some = (unit.slotsFrom count).map unit.decodeSlot?
  overflow : report.overflow = unit.overflow
  queueError : report.queueError = false
  left : last = { unit.cleared (unit.slotsFrom count) with overflow := false }

theorem isSome_decodeSlot? (unit : EmulatedUnit) (slot : Nat) :
    (unit.decodeSlot? slot).isSome = unit.holdsFault slot := by
  unfold decodeSlot? holdsFault
  cases unit.records[slot]? with
  | none => rfl
  | some words =>
    rw [Option.bind_some, FaultRecord.decode?]
    cases fault : FaultRecord.isFault words.high <;> simp [fault]

/-- The words that software reads of a slot are those that say its fault. -/
theorem decode?_value64 (unit : EmulatedUnit) (slot : Nat) :
    FaultRecord.decode? slot (unit.value64 (.record slot false))
      (unit.value64 (.record slot true)) = unit.decodeSlot? slot := by
  simp only [decodeSlot?, value64]
  cases unit.records[slot]? with
  | none => exact FaultRecord.decode?_of_not_isFault (by decide) slot
  | some words => rfl

theorem slotAt_lt (some : 0 < unit.config.records) (step : Nat) :
    unit.slotAt step < unit.config.records :=
  Nat.mod_lt _ some

theorem nodup_slotsFrom (most : count ≤ unit.config.records) : (unit.slotsFrom count).Nodup := by
  apply List.nodup_range.map_on
  intro step inside other inside' same
  rw [List.mem_range] at inside inside'
  have close : step ≡ other [MOD unit.config.records] :=
    Nat.ModEq.add_left_cancel' unit.firstRecord same
  exact close.eq_of_lt_of_lt (by omega) (by omega)

theorem slotsFrom_succ :
    unit.slotsFrom (count + 1) = unit.slotsFrom count ++ [unit.slotAt count] := by
  simp [slotsFrom, List.range_succ]

theorem slotAt_not_mem_slotsFrom (inside : count < unit.config.records) :
    unit.slotAt count ∉ unit.slotsFrom count := by
  have unique := nodup_slotsFrom (Nat.succ_le_of_lt inside)
  rw [slotsFrom_succ, List.nodup_append] at unique
  exact fun earlier => unique.2.2 _ earlier _ List.mem_cons_self rfl

theorem getElem?_cleared (unit : EmulatedUnit) (slots : List Nat) (slot : Nat) :
    (unit.cleared slots).records[slot]? =
      if unit.config.stickyFaults = false ∧ slot ∈ slots then unit.records[slot]?.map fun _ => {}
      else unit.records[slot]? := by
  unfold cleared
  by_cases member : slot ∈ slots
  · cases unit.config.stickyFaults <;> simp [member]
  · cases unit.config.stickyFaults <;> simp [member]

theorem cleared_nil (unit : EmulatedUnit) : unit.cleared [] = unit := by
  have same : (unit.cleared []).records = unit.records := by
    apply Array.ext_getElem?
    intro slot
    rw [getElem?_cleared, if_neg (by simp)]
  exact congrArg (fun records => { unit with records }) same

theorem clear_cleared (unit : EmulatedUnit) (slots : List Nat) (slot : Nat) :
    (unit.cleared slots).clear slot = unit.cleared (slots ++ [slot]) := by
  have same : ((unit.cleared slots).clear slot).records =
      (unit.cleared (slots ++ [slot])).records := by
    apply Array.ext_getElem?
    intro other
    rw [getElem?_cleared]
    cases sticky : unit.config.stickyFaults with
    | true => simp [clear, cleared, sticky]
    | false =>
      have sticky' : (unit.cleared slots).config.stickyFaults = false := sticky
      rw [clear_records sticky']
      by_cases here : slot = other
      · subst here
        have size : (unit.cleared slots).records.size = unit.records.size := by
          simp [cleared, sticky]
        rw [if_pos (by simp), Array.getElem?_setIfInBounds_self, size]
        by_cases bound : slot < unit.records.size <;> simp [bound]
      · rw [Array.getElem?_setIfInBounds_ne here, getElem?_cleared, sticky]
        simp [Ne.symm here]
  exact congrArg (fun records => { unit with records }) same

theorem decodeSlot?_cleared (absent : slot ∉ slots) :
    (unit.cleared slots).decodeSlot? slot = unit.decodeSlot? slot := by
  unfold decodeSlot? cleared
  cases unit.config.stickyFaults with
  | true => rfl
  | false => simp [absent]

end EmulatedUnit

namespace RemappingUnit

variable {ε : Type} {unit : RemappingUnit} {page : EmulatedUnit}

/-- Draining from some slot on, with the slots before it cleared: it gives the faults of the slots
up to one without a fault, or up to the end of its pass, and clears these slots. -/
theorem drain_ends (known : unit.capability = page.config.capability) (layout : page.config.Layout)
    (limit taken : Nat) (pass : taken + limit = page.config.records) (journal : Journal) :
    (unit.drain limit (page.slotAt taken) : Action EmulatedUnit ε (List FaultRecord)).Returns
      ⟨page.cleared (page.slotsFrom taken), journal⟩ fun records last =>
        ∃ more ≤ limit, last.state = page.cleared (page.slotsFrom (taken + more)) ∧
          records.map some =
            (List.range' taken more).map (fun step => page.decodeSlot? (page.slotAt step)) ∧
          (more < limit → page.holdsFault (page.slotAt (taken + more)) = false) := by
  induction limit generalizing taken journal with
  | zero =>
    exact (Action.ends_pure _).mpr ⟨0, Nat.le_refl _, rfl, rfl, fun some => absurd some (by simp)⟩
  | succ limit ih =>
    have inside : taken < page.config.records := by omega
    have place := page.slotAt_lt layout.some taken
    have fresh := EmulatedUnit.slotAt_not_mem_slotsFrom inside
    have onward : (page.slotAt taken + 1) % page.config.records = page.slotAt (taken + 1) :=
      Nat.mod_add_mod ..
    let now : EmulatedUnit := page.cleared (page.slotsFrom taken)
    have known' : unit.capability = now.config.capability := known
    apply drain_turn known' layout place
    case stops =>
      intro said journal
      rw [EmulatedUnit.decode?_value64, EmulatedUnit.decodeSlot?_cleared fresh] at said
      refine ⟨0, Nat.zero_le _, rfl, rfl, fun _ => ?_⟩
      rw [← EmulatedUnit.isSome_decodeSlot?, Nat.add_zero, said]
      rfl
    case goesOn =>
      intro record said journal
      rw [EmulatedUnit.decode?_value64, EmulatedUnit.decodeSlot?_cleared fresh] at said
      rw [EmulatedUnit.clear_cleared, ← EmulatedUnit.slotsFrom_succ]
      apply (onward ▸ ih (taken + 1) (by omega) journal).mono _ fun _ _ => id
      rintro records last ⟨more, most, left, given, ends⟩
      refine ⟨more + 1, Nat.succ_le_succ most, ?_, ?_, fun short => ?_⟩
      · rw [left, Nat.add_right_comm, Nat.add_assoc]
      · rw [List.map_cons, given, List.range'_succ, List.map_cons, said]
      · rw [← Nat.add_assoc, Nat.add_right_comm]
        exact ends (Nat.lt_of_succ_lt_succ short)

/-- Draining from the first slot on gives the faults of the slots that lead the ring, and clears
these slots. -/
theorem drain_whole (known : unit.capability = page.config.capability)
    (layout : page.config.Layout) (journal : Journal) :
    (unit.drain unit.capability.records (page.firstRecord % unit.capability.records) :
      Action EmulatedUnit ε (List FaultRecord)).Returns ⟨page, journal⟩ fun records last =>
        ∃ count, page.Leads count ∧
          records.map some = (page.slotsFrom count).map page.decodeSlot? ∧
          last.state = page.cleared (page.slotsFrom count) := by
  have drains : (unit.drain page.config.records (page.slotAt 0) : Action _ ε _).Returns _ _ :=
    drain_ends known layout page.config.records 0 (Nat.zero_add _) journal
  have none : page.slotsFrom 0 = [] := rfl
  rw [none, EmulatedUnit.cleared_nil] at drains
  rw [known, layout.records_capability]
  apply drains.mono _ fun _ _ => id
  rintro records last ⟨count, most, left, given, ends⟩
  rw [Nat.zero_add] at left ends
  rw [← List.range_eq_range'] at given
  refine ⟨count, ⟨most, fun step inside => ?_, ends⟩, ?_, left⟩
  · have member := List.mem_map_of_mem (f := fun step => page.decodeSlot? (page.slotAt step))
      (List.mem_range.mpr inside)
    rw [← given] at member
    obtain ⟨record, _, said⟩ := List.mem_map.mp member
    rw [← EmulatedUnit.isSome_decodeSlot?, ← said]
    rfl
  · rw [given, EmulatedUnit.slotsFrom, List.map_map]
    rfl

theorem serveFaults_ends (known : unit.capability = page.config.capability)
    (layout : page.config.Layout) (first : page.firstRecord < page.config.records)
    (journal : Journal) :
    (unit.serveFaults : Action EmulatedUnit ε FaultReport).Returns ⟨page, journal⟩
      fun report last =>
        (page.faultPending = false → report = {} ∧ last.state = page) ∧
        (page.faultPending = true → ∃ count, page.Served report last.state count) := by
  have narrow : page.firstRecord < 256 := Nat.lt_of_lt_of_le first layout.most
  apply serveFaults_turn
  case idle =>
    intro idle journal
    exact ⟨fun _ => ⟨rfl, rfl⟩, fun some => Bool.noConfusion (idle.symm.trans some)⟩
  case drains =>
    intro pending journal
    -- The drain works on the unit that has forgotten its overflow.
    let calm : EmulatedUnit := { page with overflow := false }
    have drains : (unit.drain unit.capability.records
        (calm.firstRecord % unit.capability.records) : Action EmulatedUnit ε _).Returns
          ⟨calm, journal⟩ _ :=
      drain_whole (show unit.capability = calm.config.capability from known) layout journal
    rw [Nat.mod_eq_of_lt narrow]
    apply drains.mono _ fun _ _ => id
    rintro records last ⟨count, leads, given, left⟩
    refine ⟨fun idle => Bool.noConfusion (pending.symm.trans idle), fun _ => ⟨count, ?_⟩⟩
    exact ⟨⟨leads.most, leads.faults, leads.ends⟩, EmulatedUnit.nodup_slotsFrom leads.most, given,
      rfl, rfl, left⟩

end RemappingUnit

/-- Serving a fault event of a unit whose ring holds anything at all. If no slot holds a fault,
there is nothing to report. Otherwise the report has the faults of the slots that lead the ring, and
these slots are cleared, unless they are sticky. Nothing else changes, but the interrupt is
acknowledged. -/
theorem Machine.handleFaults_ends {ε : Type} {controller : Controller} {page : EmulatedUnit}
    (known : controller.unit.capability = page.config.capability) (layout : page.config.Layout)
    (first : page.firstRecord < page.config.records) (journal : Journal) :
    (handleFaults : Action (Machine EmulatedUnit) ε FaultReport).Returns
      ⟨⟨controller, page⟩, journal⟩ fun report last =>
        last.state.controller = { controller with
          interrupt := controller.interrupt.map FaultInterrupt.acknowledge } ∧
        (page.faultPending = false → report = {} ∧ last.state.page = page) ∧
        (page.faultPending = true → ∃ count, page.Served report last.state.page count) := by
  rw [Action.Returns, handleFaults, Action.ends_bind, Action.ends_update, Action.ends_bind,
    Machine.unit, Action.ends_bind, Action.ends_state, Action.ends_pure, Action.ends_on]
  apply (RemappingUnit.serveFaults_ends known layout first _).mono _ fun _ _ => id
  rintro report last ⟨idle, served⟩
  exact ⟨rfl, idle, served⟩

/-- A unit that lost faults and ignores that records are cleared. Its last record and the first one
hold faults, and the one between says something else. -/
def stickySample : EmulatedUnit :=
  { EmulatedUnit.create { records := 3, stickyFaults := true } with
    overflow := true
    firstRecord := 2
    records := #[⟨0x5000, FaultRecord.clearing⟩, ⟨0x6000, 0xff⟩, ⟨0xfff, 0xffffffffffffffff⟩] }

/-- The controller that takes this unit over. -/
def stickyController : Controller :=
  (FaultRun.takeOverSample.outcome ⟨stickySample, FaultRun.silent⟩).toOption.get (by decide +kernel)

theorem Machine.handleFaults_ends_sample :
    stickySample.faultPending = true ∧ stickySample.holdsFault 1 = false ∧ ∀ journal,
      (handleFaults : Action (Machine EmulatedUnit) Empty FaultReport).Returns
        ⟨⟨stickyController, stickySample⟩, journal⟩ fun report last =>
          ∃ count, stickySample.Served report last.state.page count := by
  have known : stickyController.unit.capability = stickySample.config.capability := by
    decide +kernel
  have layout : stickySample.config.Layout := ⟨by decide, by decide, by decide +kernel⟩
  have pending : stickySample.faultPending = true := by decide +kernel
  refine ⟨pending, by decide +kernel, fun journal => ?_⟩
  apply (handleFaults_ends known layout (by decide) journal).mono _ fun _ _ => id
  exact fun report last ended => ended.2.2 pending

end DmaRemap

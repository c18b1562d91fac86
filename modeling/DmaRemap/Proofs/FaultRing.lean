import DmaRemap.Controller.Faults
import DmaRemap.Proofs.Emulated

namespace DmaRemap

open RegisterPage (get32 get64 put32 put64)

theorem RequestType.ofBits_low_high (request : RequestType) :
    ofBits request.low request.high = request := by
  cases request <;> rfl

namespace FaultRecord

variable {record : FaultRecord}

/-- Whether a record says nothing that its words have no room for: the reason is that of its code,
and the address is that of a page. -/
structure Fits (record : FaultRecord) : Prop where
  reason : record.reason = .ofCode record.reason.code
  addressType : record.addressType.toNat < 4
  pasid : ∀ pasid ∈ record.pasid, pasid.toNat < 1024
  address : 4096 ∣ record.address.toNat

theorem isFault_encodeHigh (record : FaultRecord) : isFault record.encodeHigh = true := by
  simp (disch := decide) only [isFault, Field.isSet, encodeHigh, Field.put,
    Field.get_set_of_disjoint, Field.get_set]
  rfl

private theorem ofNat_mod {size bits : Nat} {word : BitVec size} (fits : word.toNat < 1 <<< bits) :
    BitVec.ofNat size (word.toNat % 1 <<< bits) = word := by
  rw [Nat.mod_eq_of_lt fits, BitVec.ofNat_toNat, BitVec.setWidth_eq]

theorem info_encodeLow (fits : record.Fits) :
    BitVec.ofNat 64 (infoField.get record.encodeLow <<< 12) = record.address := by
  have bound := record.address.isLt
  have aligned := fits.address
  apply BitVec.eq_of_toNat_eq
  rw [encodeLow, Field.get_set _ _ _ (by decide), BitVec.toNat_ofNat]
  simp only [infoField, Nat.shiftLeft_eq, Nat.shiftRight_eq_div_pow]
  omega

theorem decode?_encode (fits : record.Fits) (index : Nat) :
    decode? index record.encodeLow record.encodeHigh = some { record with index } := by
  have bit (value : Bool) : (value.toNat % 1 <<< 1 != 0) = value := by
    cases value <;> rfl
  have reason :
      FaultReason.ofCode (BitVec.ofNat 8 (record.reason.code.toNat % 1 <<< 8)) = record.reason := by
    rw [ofNat_mod record.reason.code.isLt, ← fits.reason]
  have type : BitVec.ofNat 8 (record.addressType.toNat % 1 <<< 2) = record.addressType :=
    ofNat_mod fits.addressType
  have source : RoutingId.ofNat (record.source.val.val % 1 <<< 16) = record.source := by
    rw [Nat.mod_eq_of_lt (show record.source.val.val < 1 <<< 16 from record.source.val.isLt),
      RoutingId.ofNat_val]
  have pasid : (if record.pasid.isSome then
      some (BitVec.ofNat 16 ((record.pasid.getD 0).toNat % 1 <<< 10)) else none) =
        record.pasid := by
    cases given : record.pasid with
    | none => rfl
    | some pasid => exact congrArg some (ofNat_mod (fits.pasid pasid given))
  rw [decode?, if_pos record.isFault_encodeHigh, info_encodeLow fits]
  simp (disch := decide) only [encodeHigh, Field.isSet, Field.put, Field.get_set_of_disjoint,
    Field.get_set]
  simp only [reasonField, addressTypeField, sourceField, pasidField, privilegedField, executeField,
    pasidPresentField, typeHighField, typeLowField, bit, reason, type, source, pasid,
    RequestType.ofBits_low_high]

theorem decode?_of_not_isFault {low high : Word} (idle : isFault high = false) (index : Nat) :
    decode? index low high = none := by
  rw [decode?, idle]
  rfl

end FaultRecord

namespace FaultStatus

variable {overflow pending : Bool} {first : Nat}

theorem pending_report : (report overflow pending first).pending = pending := by
  simp (disch := decide) only [FaultStatus.pending, report, Field.isSet, Field.put,
    Field.get_set_of_disjoint, Field.get_set]
  cases pending <;> rfl

theorem first_report : (report overflow pending first).first = first % 256 := by
  simp (disch := decide) only [FaultStatus.first, report, Field.get_set]
  rfl

theorem overflow_report : (report overflow pending first).overflow = overflow := by
  simp (disch := decide) only [FaultStatus.overflow, report, Field.isSet, Field.put,
    Field.get_set_of_disjoint, Field.get_set]
  cases overflow <;> rfl

theorem queueError_report : (report overflow pending first).queueError = false := by
  simp (disch := decide) only [FaultStatus.queueError, report, Field.isSet, Field.put,
    Field.get_set_of_disjoint]
  rfl

end FaultStatus

/-- Whether software can tell the fault records of a unit from the other registers of their width:
none of them overlaps the records. -/
structure EmulatedConfig.Layout (config : EmulatedConfig) : Prop where
  some : 0 < config.records
  most : config.records ≤ 256
  apart : ∀ offset ∈ RegisterOffset.capability :: RegisterOffset.extendedCapability ::
      EmulatedUnit.commandOffsets config.extendedCapability,
    offset + 8 ≤ config.capability.recordOffset ∨
      config.capability.recordOffset + 16 * config.records ≤ offset

theorem EmulatedConfig.Layout.records_capability {config : EmulatedConfig}
    (layout : config.Layout) : config.capability.records = config.records := by
  have least := layout.some
  have most := layout.most
  have fits : config.records - 1 < 256 := by omega
  simp (disch := decide) only [Capability.records, capability, Field.put,
    Field.get_set_of_disjoint, Field.get_set]
  rw [Nat.mod_eq_of_lt (show config.records - 1 < 1 <<< Capability.recordsField.width from fits)]
  omega

/-- Whether a unit has a ring of fault records that software can read and clear: the records overlap
none of the other registers of their width, and no record ignores that it is cleared. -/
structure EmulatedConfig.Ring (config : EmulatedConfig) : Prop extends config.Layout where
  clears : config.stickyFaults = false

namespace EmulatedUnit

variable {unit : EmulatedUnit} {index : Nat}

/-- The offset of a word of a fault record. -/
def recordWord (unit : EmulatedUnit) (index : Nat) (high : Bool) : Nat :=
  unit.config.capability.recordOffset + index * 16 + if high then 8 else 0

/-- No other register lies at the offset of a fault record. -/
theorem register64?_record (layout : unit.config.Layout) (inside : index < unit.config.records)
    (high : Bool) : unit.register64? (unit.recordWord index high) = some (.record index high) ∧
      unit.written64? (unit.recordWord index high) = some (.record index high) := by
  have apart : ∀ offset ∈ RegisterOffset.capability :: RegisterOffset.extendedCapability ::
      commandOffsets unit.config.extendedCapability, unit.recordWord index high ≠ offset := by
    intro offset member
    have outside := layout.apart offset member
    unfold recordWord
    split <;> omega
  simp only [commandOffsets, List.forall_mem_cons, List.not_mem_nil, false_imp_iff, implies_true,
    and_true] at apart
  obtain ⟨capability, extended, root, context, iotlb⟩ := apart
  have place : unit.recordAt? (unit.recordWord index high) = some (index, high) := by
    have whole : unit.config.capability.recordOffset % 16 = 0 := Nat.mul_mod_left ..
    have block : (unit.recordWord index high - unit.config.capability.recordOffset) / 16 =
        index := by
      unfold recordWord
      split <;> omega
    have word : (unit.recordWord index high % 16 == 8) = high := by
      cases high <;> simp [recordWord] <;> omega
    have least : unit.config.capability.recordOffset ≤ unit.recordWord index high := by
      unfold recordWord
      omega
    simp only [recordAt?, block, word, least, inside, and_self, if_true]
  have written :
      unit.written64? (unit.recordWord index high) = some (.record index high) := by
    rw [written64?, if_neg root, if_neg context, if_neg iotlb, place, Option.map_some]
  exact ⟨by rw [register64?, if_neg capability, if_neg extended, written], written⟩

variable {ε : Type} {start : Journaled EmulatedUnit}

theorem get64_record (layout : unit.config.Layout) (inside : index < unit.config.records)
    (high : Bool) (journal : Journal) :
    (get64 (unit.recordWord index high) : Action EmulatedUnit ε Word).Returns ⟨unit, journal⟩
      fun value last => last.state = unit ∧ value = unit.value64 (.record index high) := by
  apply (get64_returns _ ⟨unit, journal⟩).mono _ fun _ _ => id
  intro value last read
  rw [(register64?_record layout inside high).1] at read
  have same : last.state = unit := read.1
  exact ⟨same, by rw [read.2, same]; rfl⟩

/-- The unit after software clears a fault record, which a sticky one ignores. -/
def clear (unit : EmulatedUnit) (index : Nat) : EmulatedUnit :=
  { unit with
    records :=
      if unit.config.stickyFaults then unit.records else unit.records.setIfInBounds index {} }

@[simp] theorem clear_config (unit : EmulatedUnit) (index : Nat) :
    (unit.clear index).config = unit.config :=
  rfl

theorem clear_records (clears : unit.config.stickyFaults = false) (index : Nat) :
    (unit.clear index).records = unit.records.setIfInBounds index {} := by
  simp [clear, clears]

theorem put64_clearing (layout : unit.config.Layout) (inside : index < unit.config.records)
    (journal : Journal) :
    (put64 (unit.recordWord index true) FaultRecord.clearing :
      Action EmulatedUnit ε Unit).Returns ⟨unit, journal⟩ fun _ last =>
        last.state = unit.clear index := by
  apply (put64_returns _ _ ⟨unit, journal⟩).mono _ fun _ _ => id
  intro _ last written
  have fault : FaultRecord.isFault FaultRecord.clearing = true := by decide
  rw [written, write64?, (register64?_record layout inside true).2, clear]
  cases unit.config.stickyFaults <;> simp [fault]

theorem write32?_clearAll (unit : EmulatedUnit) :
    unit.write32? RegisterOffset.faultStatus FaultStatus.clearAll =
      some { unit with overflow := false } := by
  have cleared : (FaultStatus.mk FaultStatus.clearAll).overflow = true := by decide
  rw [write32?, if_neg (by decide), if_pos rfl, cleared, Bool.not_true, Bool.and_false]

/-- A unit has a ring of fault records, holds faults in consecutive slots of it, and no others. -/
structure Holds (unit : EmulatedUnit) (waiting : List FaultRecord) : Prop where
  ring : unit.config.Ring
  size : unit.records.size = unit.config.records
  consecutive : waiting.IsChain fun record later =>
    later.index = (record.index + 1) % unit.config.records
  fits : ∀ record ∈ waiting, record.Fits
  distinct : (waiting.map FaultRecord.index).Nodup
  words : ∀ record ∈ waiting,
    unit.records[record.index]? = some ⟨record.encodeLow, record.encodeHigh⟩
  idle : ∀ slot ∉ waiting.map FaultRecord.index, ∀ words, unit.records[slot]? = some words →
    FaultRecord.isFault words.high = false

namespace Holds

variable {waiting later : List FaultRecord} {record : FaultRecord}

theorem inside (holds : unit.Holds waiting) (member : record ∈ waiting) :
    record.index < unit.config.records := by
  obtain ⟨bound, _⟩ := Array.getElem?_eq_some_iff.mp (holds.words record member)
  exact holds.size ▸ bound

theorem length_le (holds : unit.Holds waiting) : waiting.length ≤ unit.config.records := by
  rw [← List.length_map FaultRecord.index, ← List.length_range (n := unit.config.records)]
  apply (List.subperm_of_subset holds.distinct _).length_le
  intro slot member
  obtain ⟨record, within, rfl⟩ := List.mem_map.mp member
  exact List.mem_range.mpr (holds.inside within)

theorem faultPending (holds : unit.Holds waiting) :
    unit.faultPending = !waiting.isEmpty := by
  cases waiting with
  | nil =>
    apply Array.any_eq_false.mpr
    intro slot bound
    simp [holds.idle slot (by simp) unit.records[slot] (by simp)]
  | cons record later =>
    have words := holds.words record List.mem_cons_self
    apply Array.any_eq_true'.mpr
    exact ⟨_, Array.mem_of_getElem? words, record.isFault_encodeHigh⟩

/-- The words of the first fault say it; if there is none, no words say one. -/
theorem decode?_head (holds : unit.Holds waiting)
    (first : ∀ record ∈ waiting.head?, record.index = index) :
    FaultRecord.decode? index (unit.value64 (.record index false))
      (unit.value64 (.record index true)) = waiting.head? := by
  cases waiting with
  | nil =>
    apply FaultRecord.decode?_of_not_isFault
    cases at_index : unit.records[index]? with
    | none =>
      rw [value64, at_index]
      decide
    | some words =>
      rw [value64, at_index]
      exact holds.idle index List.not_mem_nil words at_index
  | cons record later =>
    cases first record rfl
    simp only [value64, holds.words record List.mem_cons_self, Option.getD_some]
    exact FaultRecord.decode?_encode (holds.fits record List.mem_cons_self) record.index

theorem of_idle (ring : unit.config.Ring) (size : unit.records.size = unit.config.records)
    (idle : unit.faultPending = false) : unit.Holds [] where
  ring := ring
  size := size
  consecutive := .nil
  fits := by simp
  distinct := List.nodup_nil
  words := by simp
  idle slot _ words at_slot := by
    obtain ⟨bound, rfl⟩ := Array.getElem?_eq_some_iff.mp at_slot
    simpa using Array.any_eq_false.mp idle slot bound

theorem of_same (holds : unit.Holds waiting) (same : unit.SameFaults next) :
    next.Holds waiting := by
  obtain ⟨config, records, -⟩ := same
  obtain ⟨ring, size, consecutive, fits, distinct, words, idle⟩ := holds
  rw [← config] at ring size consecutive
  rw [← records] at size words idle
  exact ⟨ring, size, consecutive, fits, distinct, words, idle⟩

/-- Clearing the first of the faults leaves the others. -/
theorem clear (holds : unit.Holds (record :: later)) : (unit.clear record.index).Holds later where
  ring := holds.ring
  size := by simpa [clear_records holds.ring.clears] using holds.size
  consecutive := holds.consecutive.tail
  fits := (List.forall_mem_cons.mp holds.fits).2
  distinct := (List.nodup_cons.mp holds.distinct).2
  words other member := by
    have apart : record.index ≠ other.index := by
      intro same
      exact (List.nodup_cons.mp holds.distinct).1 (same ▸ List.mem_map_of_mem member)
    rw [clear_records holds.ring.clears, Array.getElem?_setIfInBounds_ne apart]
    exact holds.words other (List.mem_cons_of_mem _ member)
  idle slot unused words at_slot := by
    rw [clear_records holds.ring.clears] at at_slot
    by_cases same : record.index = slot
    · subst same
      rw [Array.getElem?_setIfInBounds_self_of_lt
        (holds.size ▸ holds.inside List.mem_cons_self)] at at_slot
      cases at_slot
      decide
    · rw [Array.getElem?_setIfInBounds_ne same] at at_slot
      apply holds.idle slot _ words at_slot
      simp [Ne.symm same, unused]

/-- A fault is added to the others in the slot after the last of them, which must be free. -/
theorem raise (holds : unit.Holds waiting) {slot : Nat}
    (after : ∀ last ∈ waiting.getLast?, slot = (last.index + 1) % unit.config.records)
    (free : FaultRecord.isFault (unit.value64 (.record slot true)) = false)
    (fits : record.Fits) (raised : unit.raiseFault slot record = .ok next) :
    next.Holds (waiting ++ [{ record with index := slot }]) ∧ next.config = unit.config ∧
      next.firstRecord = if waiting = [] then slot else unit.firstRecord := by
  have bound : slot < unit.records.size := by
    by_contra outside
    rw [raiseFault, if_neg outside] at raised
    cases raised
  rw [raiseFault, if_pos bound, holds.faultPending] at raised
  cases raised
  have unused : slot ∉ waiting.map FaultRecord.index := by
    intro member
    obtain ⟨other, within, rfl⟩ := List.mem_map.mp member
    rw [value64, holds.words other within] at free
    cases other.isFault_encodeHigh.symm.trans free
  refine ⟨?holds, rfl, by cases waiting <;> rfl⟩
  exact {
    ring := holds.ring
    size := by simpa using holds.size
    consecutive := by
      apply List.isChain_append.mpr
      refine ⟨holds.consecutive, .singleton _, ?_⟩
      simpa using after
    fits := by
      intro other member
      rcases List.mem_append.mp member with within | last
      · exact holds.fits other within
      · cases List.mem_singleton.mp last
        exact ⟨fits.reason, fits.addressType, fits.pasid, fits.address⟩
    distinct := by
      rw [List.map_append]
      exact List.nodup_append.mpr ⟨holds.distinct, List.nodup_singleton _, by simp_all⟩
    words := by
      intro other member
      rcases List.mem_append.mp member with within | last
      · have apart : slot ≠ other.index := by
          rintro rfl
          exact unused (List.mem_map_of_mem within)
        rw [Array.getElem?_setIfInBounds_ne apart]
        exact holds.words other within
      · cases List.mem_singleton.mp last
        exact Array.getElem?_setIfInBounds_self_of_lt bound
    idle := by
      intro other absent words at_slot
      rw [List.map_append, List.mem_append, not_or] at absent
      have apart : slot ≠ other := by simpa using Ne.symm (List.ne_of_not_mem_cons absent.2)
      rw [Array.getElem?_setIfInBounds_ne apart] at at_slot
      exact holds.idle other absent.1 words at_slot }

end Holds

end EmulatedUnit

/-- A unit holds faults in consecutive slots, and says which is the first of them. -/
structure EmulatedUnit.Queues (unit : EmulatedUnit) (waiting : List FaultRecord) : Prop where
  holds : unit.Holds waiting
  first : ∀ record ∈ waiting.head?, record.index = unit.firstRecord

namespace EmulatedUnit.Queues

variable {unit next : EmulatedUnit} {waiting : List FaultRecord}

theorem of_holds (holds : unit.Holds []) : unit.Queues [] :=
  ⟨holds, by simp⟩

theorem of_same (queues : unit.Queues waiting) (same : unit.SameFaults next) :
    next.Queues waiting :=
  ⟨queues.holds.of_same same, same.first ▸ queues.first⟩

theorem raise (queues : unit.Queues waiting) {slot : Nat} {record : FaultRecord}
    (after : ∀ last ∈ waiting.getLast?, slot = (last.index + 1) % unit.config.records)
    (free : FaultRecord.isFault (unit.value64 (.record slot true)) = false)
    (fits : record.Fits) (raised : unit.raiseFault slot record = .ok next) :
    next.Queues (waiting ++ [{ record with index := slot }]) ∧ next.config = unit.config := by
  obtain ⟨holds, same, first⟩ := queues.holds.raise after free fits raised
  refine ⟨⟨holds, ?_⟩, same⟩
  cases waiting with
  | nil => simp [first]
  | cons oldest later => simpa [first] using queues.first

end EmulatedUnit.Queues

namespace RemappingUnit

variable {ε : Type} {unit : RemappingUnit} {page : EmulatedUnit} {waiting : List FaultRecord}

/-- One turn of the drain. At a slot without a fault it stops; otherwise it takes the fault, clears
the slot and goes on behind it. -/
theorem drain_turn (known : unit.capability = page.config.capability) (layout : page.config.Layout)
    {limit index : Nat} (inside : index < page.config.records)
    {returns : List FaultRecord → Journaled EmulatedUnit → Prop}
    (stops : FaultRecord.decode? index (page.value64 (.record index false))
      (page.value64 (.record index true)) = none → ∀ journal, returns [] ⟨page, journal⟩)
    (goesOn : ∀ record, FaultRecord.decode? index (page.value64 (.record index false))
      (page.value64 (.record index true)) = some record → ∀ journal,
        (unit.drain limit ((index + 1) % page.config.records) : Action EmulatedUnit ε _).Returns
          ⟨page.clear index, journal⟩ fun later => returns (record :: later))
    (journal : Journal) :
    (unit.drain (limit + 1) index : Action EmulatedUnit ε (List FaultRecord)).Returns
      ⟨page, journal⟩ returns := by
  have count : unit.capability.records = page.config.records :=
    known ▸ layout.records_capability
  have low : unit.recordOffset index = page.recordWord index false := by
    rw [recordOffset, known, EmulatedUnit.recordWord]
    rfl
  have high : unit.recordOffset index + 8 = page.recordWord index true := by
    rw [low]
    rfl
  rw [Action.Returns, drain, high, low, count, Action.ends_bind]
  apply (EmulatedUnit.get64_record layout inside true journal).mono _ fun _ _ => id
  rintro _ ⟨_, journal⟩ ⟨rfl, rfl⟩
  rw [Action.ends_bind]
  apply (EmulatedUnit.get64_record layout inside false journal).mono _ fun _ _ => id
  rintro _ ⟨_, journal⟩ ⟨rfl, rfl⟩
  cases said : FaultRecord.decode? index _ _ with
  | none => exact (Action.ends_pure _).mpr (stops said journal)
  | some record =>
    rw [Action.ends_bind, Action.ends_record, Action.ends_bind]
    apply (EmulatedUnit.put64_clearing layout inside _).mono _ fun _ _ => id
    rintro _ ⟨_, journal⟩ rfl
    rw [Action.ends_bind]
    apply (goesOn record said journal).mono _ fun _ _ => id
    exact fun later last ended => (Action.ends_pure _).mpr ended

/-- Serving a fault event. If no slot holds a fault, it does nothing; otherwise it forgets that
faults were lost and drains the ring from the first slot on, which the status tells in eight
bits. -/
theorem serveFaults_turn {returns : FaultReport → Journaled EmulatedUnit → Prop}
    (idle : page.faultPending = false → ∀ journal, returns {} ⟨page, journal⟩)
    (drains : page.faultPending = true → ∀ journal,
      (unit.drain unit.capability.records (page.firstRecord % 256 % unit.capability.records) :
        Action EmulatedUnit ε (List FaultRecord)).Returns
          ⟨{ page with overflow := false }, journal⟩ fun records =>
            returns { overflow := page.overflow, records })
    (journal : Journal) :
    (unit.serveFaults : Action EmulatedUnit ε FaultReport).Returns ⟨page, journal⟩ returns := by
  rw [Action.Returns, serveFaults, Action.ends_bind]
  apply (EmulatedUnit.get32_returns _ ⟨page, journal⟩).mono _ fun _ _ => id
  rintro status ⟨now, journal⟩ ⟨same, rfl⟩
  obtain rfl : page = now := same.symm
  have reported : FaultStatus.mk ((page.answer32? RegisterOffset.faultStatus).getD 0) =
      page.faultStatus := rfl
  simp only [reported]
  rw [EmulatedUnit.faultStatus, FaultStatus.pending_report, FaultStatus.overflow_report,
    FaultStatus.queueError_report, FaultStatus.first_report]
  cases pending : page.faultPending with
  | false => exact (Action.ends_pure _).mpr (idle pending journal)
  | true =>
    rw [if_neg (by simp)]
    apply Action.ends_ite_record
    intro journal
    apply Action.ends_ite_record
    intro journal
    rw [Action.ends_bind]
    apply (EmulatedUnit.put32_returns _ _ ⟨page, journal⟩).mono _ fun _ _ => id
    rintro _ ⟨_, journal⟩ written
    rw [EmulatedUnit.write32?_clearAll, Option.getD_some] at written
    cases written
    rw [Action.ends_bind, Action.ends_record, Action.ends_bind]
    apply (drains pending _).mono _ fun _ _ => id
    exact fun records last ended => (Action.ends_pure _).mpr ended

/-- Draining returns the faults that the unit holds and clears them, if it begins at the first. -/
theorem drain_returns (limit index : Nat)
    (known : unit.capability = page.config.capability) (inside : index < page.config.records)
    (holds : page.Holds waiting)
    (first : ∀ record ∈ waiting.head?, record.index = index) (room : waiting.length ≤ limit)
    (journal : Journal) :
    (unit.drain limit index : Action EmulatedUnit ε (List FaultRecord)).Returns ⟨page, journal⟩
      fun records last => records = waiting ∧ last.state.Holds [] ∧
        last.state.config = page.config := by
  induction limit generalizing index waiting page journal with
  | zero =>
    cases List.eq_nil_of_length_eq_zero (Nat.le_zero.mp room)
    exact (Action.ends_pure _).mpr ⟨rfl, holds, rfl⟩
  | succ limit ih =>
    apply drain_turn known holds.ring.toLayout inside
    case stops =>
      intro none journal
      rw [holds.decode?_head first, List.head?_eq_none_iff] at none
      exact none ▸ ⟨rfl, none ▸ holds, rfl⟩
    case goesOn =>
      intro record some journal
      rw [holds.decode?_head first] at some
      obtain ⟨later, rfl⟩ := List.head?_eq_some_iff.mp some
      cases first record rfl
      have same : (page.clear record.index).config = page.config :=
        EmulatedUnit.clear_config ..
      have inside' : (record.index + 1) % page.config.records <
          (page.clear record.index).config.records := by
        rw [same]
        exact Nat.mod_lt _ holds.ring.some
      have first' : ∀ next ∈ later.head?,
          next.index = (record.index + 1) % page.config.records :=
        (List.isChain_cons.mp holds.consecutive).1
      apply (ih _ (same ▸ known) inside' holds.clear first' (Nat.le_of_succ_le_succ room)
        journal).mono _ fun _ _ => id
      rintro _ last ⟨rfl, drained, same'⟩
      exact ⟨rfl, drained, same'.trans same⟩

/-- Serving a fault event returns the faults that the unit holds and clears them. -/
theorem serveFaults_returns (known : unit.capability = page.config.capability)
    (queues : page.Queues waiting) (journal : Journal) :
    (unit.serveFaults : Action EmulatedUnit ε FaultReport).Returns ⟨page, journal⟩
      fun report last => report.records = waiting ∧ last.state.Queues [] ∧
        last.state.config = page.config := by
  apply serveFaults_turn
  case idle =>
    intro idle journal
    rw [queues.holds.faultPending, Bool.not_eq_false', List.isEmpty_iff] at idle
    cases idle
    exact ⟨rfl, queues, rfl⟩
  case drains =>
    intro pending journal
    let calm : EmulatedUnit := { page with overflow := false }
    have known' : unit.capability = calm.config.capability := known
    have same : page.SameFaults calm := ⟨rfl, rfl, rfl⟩
    cases waiting with
    | nil => cases queues.holds.faultPending.symm.trans pending
    | cons record later =>
      have first : record.index = page.firstRecord := queues.first record rfl
      have inside : record.index < page.config.records := queues.holds.inside List.mem_cons_self
      have narrow : record.index < 256 := inside.trans_le queues.holds.ring.most
      have index : page.firstRecord % 256 % unit.capability.records = record.index := by
        rw [← first, Nat.mod_eq_of_lt narrow, known,
          queues.holds.ring.toLayout.records_capability, Nat.mod_eq_of_lt inside]
      rw [index, known, queues.holds.ring.toLayout.records_capability]
      apply (drain_returns _ _ known' inside (queues.holds.of_same same) (by simp)
        queues.holds.length_le journal).mono _ fun _ _ => id
      rintro records last ⟨rfl, drained, same⟩
      exact ⟨rfl, .of_holds drained, same⟩

end RemappingUnit

theorem Machine.handleFaults_turn {ρ ε : Type} [RegisterPage ρ] {controller : Controller} {page : ρ}
    {journal : Journal} {returns : FaultReport → Journaled (Machine ρ) → Prop}
    (serves : (controller.unit.serveFaults : Action ρ ε FaultReport).Returns ⟨page, journal⟩
      fun report last => returns report ⟨⟨{ controller with
        interrupt := controller.interrupt.map FaultInterrupt.acknowledge }, last.state⟩,
          last.journal⟩) :
    (handleFaults : Action (Machine ρ) ε FaultReport).Returns ⟨⟨controller, page⟩, journal⟩
      returns := by
  rw [Action.Returns, handleFaults, Action.ends_bind, Action.ends_update, Action.ends_bind,
    Machine.unit, Action.ends_bind, Action.ends_state, Action.ends_pure, Action.ends_on]
  exact serves

theorem Machine.handleFaults_returns {ε : Type} {controller : Controller} {page : EmulatedUnit}
    {waiting : List FaultRecord} (known : controller.unit.capability = page.config.capability)
    (queues : page.Queues waiting) (journal : Journal) :
    (handleFaults : Action (Machine EmulatedUnit) ε FaultReport).Returns
      ⟨⟨controller, page⟩, journal⟩ fun report last =>
        report.records = waiting ∧ last.state.page.Queues [] ∧
          last.state.controller.unit.capability = last.state.page.config.capability := by
  apply handleFaults_turn
  apply (RemappingUnit.serveFaults_returns known queues _).mono _ fun _ _ => id
  rintro report last ⟨records, drained, same⟩
  exact ⟨records, drained, known.trans (congrArg EmulatedConfig.capability same.symm)⟩

/-- A run of a unit and the controllers that take it over. Faults are raised in one slot after the
other, whatever happens between, and never in a slot that still holds a fault. Those that are
`settled` were raised before the last fault event was served, those that are `waiting` since then;
`reports` are what the fault events gave. -/
inductive FaultRun : Option Controller → EmulatedUnit → (settled waiting : List FaultRecord) →
    List FaultReport → Prop where
  | start {unit : EmulatedUnit} (ring : unit.config.Ring)
      (size : unit.records.size = unit.config.records) (idle : unit.faultPending = false) :
      FaultRun none unit [] [] []
  | raise {controller? : Option Controller} {unit next : EmulatedUnit}
      {settled waiting : List FaultRecord} {reports : List FaultReport} {slot : Nat}
      {record : FaultRecord} (run : FaultRun controller? unit settled waiting reports)
      (after : ∀ last ∈ (settled ++ waiting).getLast?,
        slot = (last.index + 1) % unit.config.records)
      (free : FaultRecord.isFault (unit.value64 (.record slot true)) = false)
      (fits : record.Fits) (raised : unit.raiseFault slot record = .ok next) :
      FaultRun controller? next settled (waiting ++ [{ record with index := slot }]) reports
  | takeOver {controller? : Option Controller} {unit : EmulatedUnit}
      {settled waiting : List FaultRecord} {reports : List FaultReport}
      (run : FaultRun controller? unit settled waiting reports) (name : String) (pool : Pool)
      (interrupt : Option FaultInterrupt) (config : Config) (journal : Journal) :
      FaultRun ((Controller.takeOver name pool interrupt config).outcome ⟨unit, journal⟩).toOption
        ((Controller.takeOver name pool interrupt config).finish ⟨unit, journal⟩).state
        settled waiting reports
  | handle {controller : Controller} {unit : EmulatedUnit}
      {settled waiting : List FaultRecord} {reports : List FaultReport}
      (run : FaultRun (some controller) unit settled waiting reports) (journal : Journal)
      {report : FaultReport}
      (served : (Machine.handleFaults : Action (Machine EmulatedUnit) Empty FaultReport).outcome
        ⟨⟨controller, unit⟩, journal⟩ = .ok report)
      {last : Machine EmulatedUnit}
      (left : ((Machine.handleFaults : Action (Machine EmulatedUnit) Empty FaultReport).finish
        ⟨⟨controller, unit⟩, journal⟩).state = last) :
      FaultRun (some last.controller) last.page (settled ++ waiting) [] (reports ++ [report])

namespace FaultRun

variable {controller? : Option Controller} {unit : EmulatedUnit}
  {settled waiting : List FaultRecord} {reports : List FaultReport}

/-- What has not been reported is what the unit holds, and a controller knows its unit. -/
theorem invariant (run : FaultRun controller? unit settled waiting reports) :
    unit.Queues waiting ∧ reports.flatMap FaultReport.records = settled ∧
      ∀ controller ∈ controller?, controller.unit.capability = unit.config.capability := by
  induction run with
  | start ring size idle =>
    exact ⟨.of_holds (.of_idle ring size idle), rfl, by simp⟩
  | raise run after free fits raised ih =>
    obtain ⟨queues, reported, known⟩ := ih
    have follows (last) (member : last ∈ List.getLast? _) :=
      after last (by rw [List.getLast?_append, member, Option.some_or]; rfl)
    obtain ⟨queues', same⟩ := queues.raise follows free fits raised
    exact ⟨queues', reported, same ▸ known⟩
  | @takeOver _ unit _ _ _ run name pool interrupt config journal ih =>
    obtain ⟨queues, reported, -⟩ := ih
    have ends := Controller.takeOver_ends name pool interrupt config ⟨unit, journal⟩
    rcases ends.outcome_finish with ⟨controller, taken, same, knows⟩ | ⟨cause, failed, same⟩
    · refine ⟨queues.of_same same, reported, fun other taken' => ?_⟩
      rw [taken] at taken'
      cases taken'
      exact knows.trans (congrArg EmulatedConfig.capability same.config.symm)
    · refine ⟨queues.of_same same, reported, fun other taken => ?_⟩
      rw [failed] at taken
      cases taken
  | handle run journal served left ih =>
    obtain ⟨queues, reported, known⟩ := ih
    obtain ⟨records, drained, knows⟩ :=
      (Machine.handleFaults_returns (known _ rfl) queues journal).returned served
    rw [left] at drained knows
    refine ⟨drained, by simp [reported, records], fun other same => ?_⟩
    cases same
    exact knows

/-- No fault is lost, reported twice or out of order: the reports hold exactly the faults raised
before the last event was served, and serving the next event reports the rest and leaves none. -/
theorem reports_settled (run : FaultRun controller? unit settled waiting reports) :
    reports.flatMap FaultReport.records = settled ∧
      unit.faultPending = !waiting.isEmpty ∧
        ∀ controller ∈ controller?, ∀ journal,
          (Machine.handleFaults : Action (Machine EmulatedUnit) Empty FaultReport).Returns
            ⟨⟨controller, unit⟩, journal⟩ fun report last =>
              report.records = waiting ∧ last.state.page.faultPending = false := by
  obtain ⟨queues, reported, known⟩ := run.invariant
  refine ⟨reported, queues.holds.faultPending, fun controller taken journal => ?_⟩
  apply (Machine.handleFaults_returns (known controller taken) queues journal).mono _
    fun _ _ => id
  rintro report last ⟨records, drained, -⟩
  exact ⟨records, drained.holds.faultPending⟩

/-- A fault whose words are full: a write by a device of a process. -/
def faultSample : FaultRecord where
  index := 0
  reason := .writeToReadOnly
  request := .write
  addressType := 3
  execute := true
  privileged := true
  pasid := some 1023
  source := .ofNat 8
  address := 0x5000

theorem fits_faultSample : faultSample.Fits where
  reason := rfl
  addressType := by decide
  pasid pasid member := by
    cases member
    decide
  address := by decide

def poolSample : Pool :=
  .fresh ⟨1 <<< 20, by decide⟩ 1 (by decide) (by decide)

def silent : Journal := { threshold := none }

/-- A unit with two fault records, the second of which holds a fault. -/
def raisedSample : EmulatedUnit :=
  ((EmulatedUnit.create { records := 2 }).raiseFault 1 faultSample).toOption.get (by decide +kernel)

def takeOverSample : Action EmulatedUnit IommuError Controller :=
  Controller.takeOver "unit" poolSample none (.strict 4)

/-- The controller that took the unit over, and the unit. -/
def takenSample : Machine EmulatedUnit :=
  ⟨(takeOverSample.outcome ⟨raisedSample, silent⟩).toOption.get (by decide +kernel),
    (takeOverSample.finish ⟨raisedSample, silent⟩).state⟩

/-- The unit with both records taken: the ring goes on with the first. -/
def fullSample : Journaled (Machine EmulatedUnit) :=
  ⟨⟨takenSample.controller,
    (takenSample.page.raiseFault 0 faultSample).toOption.get (by decide +kernel)⟩, silent⟩

def handleSample : Action (Machine EmulatedUnit) Empty FaultReport := Machine.handleFaults

/-- The machine once the fault event was served. -/
def servedSample : Machine EmulatedUnit := (handleSample.finish fullSample).state

def reportSample : FaultReport :=
  (handleSample.outcome fullSample).toOption.get (by decide +kernel)

/-- The unit with the next fault, again in the second record. -/
def againSample : EmulatedUnit :=
  (servedSample.page.raiseFault 1 faultSample).toOption.get (by decide +kernel)

theorem run_againSample :
    FaultRun (some servedSample.controller) againSample
      [{ faultSample with index := 1 }, { faultSample with index := 0 }]
      [{ faultSample with index := 1 }] [reportSample] := by
  have ring : (EmulatedUnit.create { records := 2 }).config.Ring :=
    ⟨⟨by decide, by decide, by decide +kernel⟩, rfl⟩
  have raises : (EmulatedUnit.create { records := 2 }).raiseFault 1 faultSample =
      .ok raisedSample := eq_ok_get _
  have idle : (EmulatedUnit.create { records := 2 }).faultPending = false := by decide +kernel
  have raised : FaultRun none raisedSample [] [{ faultSample with index := 1 }] [] :=
    .raise (.start ring (Array.size_replicate ..) idle) (by simp) (by decide +kernel)
      fits_faultSample raises
  have taken : FaultRun (some takenSample.controller) takenSample.page []
      [{ faultSample with index := 1 }] [] := by
    have returned : (takeOverSample.outcome ⟨raisedSample, silent⟩).toOption =
        some takenSample.controller := (Option.some_get _).symm
    exact returned ▸ raised.takeOver "unit" poolSample none (.strict 4) silent
  have full : FaultRun (some takenSample.controller) fullSample.state.page []
      [{ faultSample with index := 1 }, { faultSample with index := 0 }] [] :=
    .raise taken (by decide +kernel) (by decide +kernel) fits_faultSample (eq_ok_get _)
  have served : FaultRun (some servedSample.controller) servedSample.page
      [{ faultSample with index := 1 }, { faultSample with index := 0 }] [] [reportSample] :=
    full.handle silent (eq_ok_get _) rfl
  exact .raise served (by decide +kernel) (by decide +kernel) fits_faultSample (eq_ok_get _)

theorem reports_settled_againSample :
    FaultRun (some servedSample.controller) againSample
        [{ faultSample with index := 1 }, { faultSample with index := 0 }]
        [{ faultSample with index := 1 }] [reportSample] ∧
      [reportSample].flatMap FaultReport.records =
          [{ faultSample with index := 1 }, { faultSample with index := 0 }] ∧
        againSample.faultPending = true ∧
          ∀ controller ∈ some servedSample.controller, ∀ journal,
            (Machine.handleFaults : Action (Machine EmulatedUnit) Empty FaultReport).Returns
              ⟨⟨controller, againSample⟩, journal⟩ fun report last =>
                report.records = [{ faultSample with index := 1 }] ∧
                  last.state.page.faultPending = false :=
  ⟨run_againSample, run_againSample.reports_settled⟩

end FaultRun

end DmaRemap

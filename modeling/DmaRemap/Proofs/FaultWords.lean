import DmaRemap.Proofs.FaultRing

namespace DmaRemap

namespace Field

variable {size : Nat}

/-- Whether a bit is one of a field. -/
def covers (field : Field) (place : Nat) : Bool :=
  field.offset ≤ place ∧ place < field.offset + field.width

/-- Copies what some fields of a word hold to another. -/
def copy (fields : List Field) (source word : BitVec size) : BitVec size :=
  fields.foldr (fun field word => field.set word (field.get source)) word

/-- Writes zero to some fields of a word. -/
def clear (fields : List Field) (word : BitVec size) : BitVec size :=
  fields.foldr (fun field word => field.set word 0) word

theorem getLsbD_set_get (field : Field) (word source : BitVec size) (place : Nat) :
    (field.set word (field.get source)).getLsbD place =
      if field.covers place then source.getLsbD place else word.getLsbD place := by
  simp only [getLsbD_set, covers, decide_eq_true_eq]
  split
  case isFalse => rfl
  case isTrue inside =>
    have within : place - field.offset < field.width := by omega
    rw [testBit_get, decide_eq_true within, Nat.add_sub_cancel' inside.1, Bool.true_and]
    by_cases real : place < size
    · rw [decide_eq_true real, Bool.true_and]
    · rw [BitVec.getLsbD_of_ge _ _ (Nat.le_of_not_lt real), Bool.and_false]

theorem getLsbD_set_zero (field : Field) (word : BitVec size) (place : Nat) :
    (field.set word 0).getLsbD place =
      if field.covers place then false else word.getLsbD place := by
  simp only [getLsbD_set, covers, decide_eq_true_eq, Nat.zero_testBit, Bool.and_false]

theorem getLsbD_copy (fields : List Field) (source word : BitVec size) (place : Nat) :
    (copy fields source word).getLsbD place =
      if fields.any (·.covers place) then source.getLsbD place else word.getLsbD place := by
  induction fields with
  | nil => rfl
  | cons field fields ih =>
    rw [copy, List.foldr_cons, getLsbD_set_get, List.any_cons]
    cases field.covers place with
    | true => rfl
    | false => exact ih

theorem getLsbD_clear (fields : List Field) (word : BitVec size) (place : Nat) :
    (clear fields word).getLsbD place =
      if fields.any (·.covers place) then false else word.getLsbD place := by
  induction fields with
  | nil => rfl
  | cons field fields ih =>
    rw [clear, List.foldr_cons, getLsbD_set_zero, List.any_cons]
    cases field.covers place with
    | true => rfl
    | false => exact ih

theorem set_zero_copy {field : Field} {fields : List Field}
    (apart : ∀ place < size, field.covers place = true → fields.any (·.covers place) = false)
    (source : BitVec size) : field.set (copy fields source 0) 0 = copy fields source 0 := by
  apply BitVec.eq_of_getLsbD_eq
  intro place within
  rw [getLsbD_set_zero]
  split
  case isTrue inside =>
    rw [getLsbD_copy, apart place within inside]
    exact BitVec.getLsbD_zero.symm
  case isFalse => rfl

/-- Copying all bits but some clears these. -/
theorem copy_eq_clear {kept cleared : List Field}
    (others : ∀ place < size, kept.any (·.covers place) = !cleared.any (·.covers place))
    (word : BitVec size) : copy kept word 0 = clear cleared word := by
  apply BitVec.eq_of_getLsbD_eq
  intro place within
  rw [getLsbD_copy, getLsbD_clear, others place within]
  cases cleared.any (·.covers place) with
  | true => exact BitVec.getLsbD_zero
  | false => rfl

variable {field : Field}

/-- The number in a field is not cut where there is room for the field. -/
theorem toNat_ofNat_get {bits : Nat} (word : BitVec size) (fits : field.width ≤ bits) :
    (BitVec.ofNat bits (field.get word)).toNat = field.get word := by
  have small := field.get_lt word
  rw [Nat.one_shiftLeft] at small
  exact Nat.mod_eq_of_lt (small.trans_le (Nat.pow_le_pow_right (by decide) fits))

theorem toNat_isSet (word : BitVec size) (bit : field.width = 1) :
    (field.isSet word).toNat = field.get word := by
  have few : field.get word < 2 := (bit ▸ field.get_lt word :)
  rw [isSet]
  interval_cases number : field.get word <;> rfl

theorem put_isSet (word other : BitVec size) (bit : field.width = 1) :
    field.put word (field.isSet other) = field.set word (field.get other) := by
  rw [put, toNat_isSet other bit]

theorem isSet_eq (word : BitVec size) (bit : field.width = 1) :
    field.isSet word = word.getLsbD field.offset := by
  have first := testBit_get field word 0
  rw [bit, ← toNat_isSet word bit] at first
  cases set : field.isSet word <;> simpa [set] using first

end Field

namespace FaultReason

theorem code_ofCode (code : BitVec 8) : (ofCode code).code = code := by
  revert code
  decide

theorem eq_ofCode_code_iff (reason : FaultReason) :
    reason = .ofCode reason.code ↔
      ∀ code, reason = .unknown code → ofCode code = .unknown code := by
  cases reason with
  | unknown code =>
    refine ⟨?_, fun unnamed => (unnamed code rfl).symm⟩
    rintro same _ ⟨⟩
    exact same.symm
  | _ => exact ⟨nofun, fun _ => rfl⟩

end FaultReason

theorem RequestType.low_ofBits (low high : Bool) : (ofBits low high).low = low := by
  cases low <;> cases high <;> rfl

theorem RequestType.high_ofBits (low high : Bool) : (ofBits low high).high = high := by
  cases low <;> cases high <;> rfl

namespace FaultRecord

variable {record : FaultRecord} {index : Nat} {low high : Word}

/-- A low word without the offset in the page, which no record has. -/
def canonicalLow (low : Word) : Word := Field.clear [⟨0, 12⟩] low

/-- A high word without the bits that are not defined, and without a process where none is said to
be present. -/
def canonicalHigh (high : Word) : Word :=
  let undefined : List Field := [⟨16, 12⟩, ⟨50, 10⟩]
  Field.clear (if high.getLsbD 31 then undefined else ⟨40, 10⟩ :: undefined) high

theorem isFault_eq (high : Word) : isFault high = high.getLsbD 63 :=
  Field.isSet_eq high rfl

theorem decode?_eq_none_iff : decode? index low high = none ↔ high.getLsbD 63 = false := by
  rw [decode?, ← isFault_eq]
  cases isFault high <;> simp

theorem index_of_decode? (decoded : decode? index low high = some record) :
    record.index = index := by
  rw [decode?] at decoded
  split at decoded
  case isFalse => cases decoded
  case isTrue =>
    cases decoded
    rfl

theorem encodeLow_of_decode? (decoded : decode? index low high = some record) :
    record.encodeLow = canonicalLow low := by
  rw [decode?] at decoded
  split at decoded
  case isFalse => cases decoded
  case isTrue fault =>
    cases decoded
    have page : (BitVec.ofNat 64 (infoField.get low <<< 12)).toNat >>> 12 = infoField.get low := by
      have small := infoField.get_lt low
      simp only [infoField, Nat.shiftLeft_eq, Nat.shiftRight_eq_div_pow] at small ⊢
      rw [BitVec.toNat_ofNat]
      omega
    simp only [encodeLow, page]
    change Field.copy [infoField] low 0 = Field.clear [⟨0, 12⟩] low
    exact Field.copy_eq_clear (by decide) low

/-- The fields of a high word that are written last, and those that are written first. -/
def lastFields : List Field :=
  [sourceField, typeHighField, privilegedField, executeField, pasidPresentField, reasonField]

def firstFields : List Field := [addressTypeField, typeLowField, faultField]

/-- What a record is reported in is the word that it was read from, field by field. -/
theorem encodeHigh_of_decode? (decoded : decode? index low high = some record) :
    record.encodeHigh = canonicalHigh high := by
  rw [decode?] at decoded
  split at decoded
  case isFalse => cases decoded
  case isTrue fault =>
    cases decoded
    have flag : faultField.put (0 : Word) true = faultField.set 0 (faultField.get high) := by
      rw [← Field.put_isSet 0 high rfl]
      exact congrArg (faultField.put 0) fault.symm
    have source : (RoutingId.ofNat (sourceField.get high)).val.val = sourceField.get high :=
      Nat.mod_eq_of_lt (sourceField.get_lt high)
    let process :=
      if pasidPresentField.isSet high then some (BitVec.ofNat 16 (pasidField.get high)) else none
    have given : process.isSome = pasidPresentField.isSet high := by
      cases set : pasidPresentField.isSet high <;> simp [process, set]
    have number : (process.getD 0).toNat =
        if pasidPresentField.isSet high then pasidField.get high else 0 := by
      simp only [process]
      split
      · exact Field.toNat_ofNat_get high (by decide)
      · rfl
    simp (disch := first | rfl | decide) only [encodeHigh, RequestType.low_ofBits,
      RequestType.high_ofBits, FaultReason.code_ofCode, Field.put_isSet, Field.toNat_ofNat_get,
      flag, source, given, number, process]
    change Field.copy lastFields high (pasidField.set (Field.copy firstFields high 0) _) = _
    have present : pasidPresentField.isSet high = high.getLsbD 31 := Field.isSet_eq high rfl
    rw [present, canonicalHigh]
    cases high.getLsbD 31 with
    | true =>
      change Field.copy (lastFields ++ pasidField :: firstFields) high 0 = _
      exact Field.copy_eq_clear (by decide) high
    | false =>
      rw [if_neg Bool.false_ne_true, Field.set_zero_copy (by decide)]
      change Field.copy (lastFields ++ firstFields) high 0 = _
      exact Field.copy_eq_clear (by decide) high

theorem fits_of_decode? (decoded : decode? index low high = some record) : record.Fits := by
  rw [decode?] at decoded
  split at decoded
  case isFalse => cases decoded
  case isTrue =>
    cases decoded
    refine ⟨?_, ?_, ?_, ?_⟩
    · simp only [FaultReason.code_ofCode]
    · rw [Field.toNat_ofNat_get high (by decide)]
      exact addressTypeField.get_lt high
    · intro pasid given
      simp only [Option.mem_def, Option.ite_none_right_eq_some, Option.some.injEq] at given
      rw [← given.2, Field.toNat_ofNat_get high (by decide)]
      exact pasidField.get_lt high
    · have small := infoField.get_lt low
      simp only [infoField, Nat.shiftLeft_eq] at small ⊢
      rw [BitVec.toNat_ofNat]
      omega

theorem fits_iff : record.Fits ↔
    (∀ code, record.reason = .unknown code → FaultReason.ofCode code = .unknown code) ∧
      record.addressType.toNat < 4 ∧ (∀ pasid ∈ record.pasid, pasid.toNat < 1024) ∧
      4096 ∣ record.address.toNat := by
  rw [← FaultReason.eq_ofCode_code_iff]
  exact ⟨fun fits => ⟨fits.reason, fits.addressType, fits.pasid, fits.address⟩,
    fun ⟨reason, addressType, pasid, address⟩ => ⟨reason, addressType, pasid, address⟩⟩

/-- Records and words say the same of a fault. A record reads back from its words exactly if these
have room for it and its reason is called by its name. Words without a fault are no record, and what
the record of other words is reported in are these words, but for the bits that mean nothing. -/
theorem words_faithful :
    (∀ record : FaultRecord,
      decode? record.index record.encodeLow record.encodeHigh = some record ↔
        (∀ code, record.reason = .unknown code → FaultReason.ofCode code = .unknown code) ∧
          record.addressType.toNat < 4 ∧ (∀ pasid ∈ record.pasid, pasid.toNat < 1024) ∧
          4096 ∣ record.address.toNat) ∧
    ∀ index low high, (decode? index low high = none ↔ high.getLsbD 63 = false) ∧
      ∀ record, decode? index low high = some record → record.index = index ∧
        record.encodeLow = canonicalLow low ∧ record.encodeHigh = canonicalHigh high := by
  constructor
  · intro record
    rw [← fits_iff]
    exact ⟨fits_of_decode?, fun fits => decode?_encode fits record.index⟩
  · intro index low high
    refine ⟨decode?_eq_none_iff, fun record decoded => ⟨?_, ?_, ?_⟩⟩
    · exact index_of_decode? decoded
    · exact encodeLow_of_decode? decoded
    · exact encodeHigh_of_decode? decoded

/-- A blocked write of the process 0x3ff, for a reason without a name. -/
def processSample : FaultRecord where
  index := 3
  reason := .unknown 0x30
  request := .page
  addressType := 2
  execute := true
  privileged := false
  pasid := some 0x3ff
  source := .ofNat 0x1234
  address := 0xfedcba9876543000

/-- The record of the sample reads back, and so do words with all bits set, but for those that mean
nothing. -/
theorem words_faithful_sample :
    decode? 3 processSample.encodeLow processSample.encodeHigh = some processSample ∧
      ∃ record, decode? 0 (.allOnes 64) (.allOnes 64) = some record ∧
        record.encodeLow = 0xfffffffffffff000 ∧ record.encodeHigh = 0xf003fffff000ffff := by
  constructor
  · exact (words_faithful.1 processSample).mpr (by
      refine ⟨?_, by decide, ?_, by decide⟩
      · rintro code ⟨⟩
        rfl
      · rintro pasid ⟨⟩
        decide)
  · obtain ⟨_, found⟩ := words_faithful.2 0 (.allOnes 64) (.allOnes 64)
    obtain ⟨_, low, high⟩ := found _ rfl
    exact ⟨_, rfl, low.trans (by decide), high.trans (by decide)⟩

end FaultRecord

end DmaRemap

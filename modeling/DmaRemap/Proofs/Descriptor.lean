import Mathlib
import DmaRemap.Format

namespace DmaRemap

theorem getLsbD_bitIf (index : Nat) (present : Bool) (i : Nat) :
    (bitIf index present).getLsbD i = (present && decide (i = index) && decide (i < 64)) := by
  unfold bitIf
  cases present
  · simp
  · by_cases same : i = index
    · subst same
      simp [BitVec.getLsbD_twoPow]
    · simp [BitVec.getLsbD_twoPow, same, Ne.symm same]

namespace Format

variable {format : Format} {level : Level} {word : Word} {flags : PageFlags} {target low i : Nat}

/-- The attributes of a request that a descriptor can express: second-level descriptors express
write access alone, those of a CPU every attribute there is. -/
def expressed : Format → PageFlags → PageFlags
  | secondLevel, flags => PageFlags.dmaBuffer.set .writable (flags.has .writable)
  | cpu, flags => ⟨flags.bits &&& 31⟩

/-- The word of a page that starts at `target`. -/
def pageWord (format : Format) (target : Nat) (flags : PageFlags) (level : Level) : Word :=
  format.encodeFlags flags ||| bitIf 7 (level.kind == .largePages) |||
    BitVec.ofNat 64 (format.addressBits (pageAddressLow level) target)

theorem pageDescriptor_eq (format : Format) (target : PhysicalAddress) (flags : PageFlags)
    (level : Level) :
    format.pageDescriptor target flags level = format.pageWord target.val flags level :=
  rfl

/-- The table that a descriptor links, if it is a link. -/
def linkTarget (format : Format) (word : Word) : PhysicalAddress :=
  ⟨format.addressBits 12 word.toNat, format.addressBits_lt ..⟩

theorem address_of_not_isPage (link : format.isPage level word = false) :
    format.address level word = format.linkTarget word := by
  simp [address, linkTarget, link]

theorem testBit_addressBits (value : Nat) :
    (format.addressBits low value).testBit i =
      (decide (low ≤ i) && decide (i < format.outputBits) && value.testBit i) := by
  rw [addressBits, Nat.testBit_shiftLeft, Nat.testBit_shiftRight, Nat.one_shiftLeft,
    Nat.testBit_mod_two_pow]
  by_cases above : low ≤ i
  · simp [above, Nat.add_sub_of_le above]
  · simp [above]

theorem addressBits_congr {value value' : Nat}
    (same : ∀ i, low ≤ i → i < format.outputBits → value.testBit i = value'.testBit i) :
    format.addressBits low value = format.addressBits low value' := by
  apply Nat.eq_of_testBit_eq
  intro i
  rw [testBit_addressBits, testBit_addressBits]
  by_cases inside : low ≤ i ∧ i < format.outputBits
  · rw [same i inside.1 inside.2]
  · by_cases above : low ≤ i
    · simp [above, show ¬i < format.outputBits from fun below => inside ⟨above, below⟩]
    · simp [above]

theorem addressBits_of_aligned (aligned : target % 2 ^ low = 0)
    (fits : target < 1 <<< format.outputBits) : format.addressBits low target = target := by
  rw [addressBits, Nat.mod_eq_of_lt fits, Nat.shiftLeft_eq, Nat.shiftRight_eq_div_pow]
  exact Nat.div_mul_cancel (Nat.dvd_of_mod_eq_zero aligned)

theorem getLsbD_encodeFlags (low : 12 ≤ i) (high : i < format.outputBits) :
    (format.encodeFlags flags).getLsbD i = false := by
  have := format.outputBits_le
  cases format <;> simp only [encodeFlags, BitVec.getLsbD_or, getLsbD_bitIf] <;>
    simp <;> omega

theorem getLsbD_linkFlags (low : 12 ≤ i) : format.linkFlags.getLsbD i = false := by
  cases format <;> simp only [linkFlags, BitVec.getLsbD_or, getLsbD_bitIf] <;>
    simp <;> omega

theorem getLsbD_hardwareBits (low : 12 ≤ i) : format.hardwareBits.getLsbD i = false := by
  cases format <;> simp only [hardwareBits, BitVec.getLsbD_or, getLsbD_bitIf] <;>
    simp <;> omega

private theorem getLsbD_pageWord (low : 12 ≤ i) (high : i < format.outputBits) :
    (format.pageWord target flags level).getLsbD i =
      (format.addressBits (pageAddressLow level) target).testBit i := by
  have := format.outputBits_le
  have within : i < 64 := by omega
  simp only [pageWord, BitVec.getLsbD_or, getLsbD_encodeFlags low high, getLsbD_bitIf,
    BitVec.getLsbD_ofNat]
  simp [within, show i ≠ 7 by omega]

private theorem getLsbD_pageWord_flags (level : Level) (low : i < 12 ∨ i = 63) :
    (format.pageWord target flags level).getLsbD i =
      ((format.encodeFlags flags).getLsbD i ||
        (level.kind == .largePages && decide (i = 7))) := by
  have := format.outputBits_le
  have outside : (format.addressBits (pageAddressLow level) target).testBit i = false := by
    rw [testBit_addressBits, pageAddressLow]
    rcases low with low | rfl
    · simp
      omega
    · simp [show ¬63 < format.outputBits by omega]
  simp only [pageWord, BitVec.getLsbD_or, getLsbD_bitIf, BitVec.getLsbD_ofNat, outside]
  simp [show i < 64 by omega]

theorem isPresent_pageWord : format.isPresent (format.pageWord target flags level) = true := by
  cases format <;> simp [-BitVec.getLsbD_eq_getElem, isPresent, getLsbD_pageWord_flags,
    encodeFlags, getLsbD_bitIf]

theorem isPage_pageWord (maps : level.mapsPages = true) :
    format.isPage level (format.pageWord target flags level) = true := by
  unfold isPage
  cases kind : level.kind
  · simp [Level.mapsPages, kind] at maps
  · simp [-BitVec.getLsbD_eq_getElem, getLsbD_pageWord_flags, kind]
  · rfl

theorem pageFlags_pageWord :
    format.pageFlags (format.pageWord target flags level) = format.expressed flags := by
  cases format
  · simp [-BitVec.getLsbD_eq_getElem, pageFlags, expressed, getLsbD_pageWord_flags, encodeFlags,
      getLsbD_bitIf]
  · have gather : ∀ bits : BitVec 8,
        ((((PageFlags.empty.set .writable (bits.getLsbD 0)).set .user (bits.getLsbD 1)).set
          .noExecute (bits.getLsbD 2)).set .global (bits.getLsbD 3)).set
          .uncached (bits.getLsbD 4) = ⟨bits &&& 31⟩ := by
      decide +kernel
    rw [expressed, ← gather]
    simp [-BitVec.getLsbD_eq_getElem, pageFlags, getLsbD_pageWord_flags, encodeFlags,
      getLsbD_bitIf, PageFlags.has, PageAttribute.index]

theorem address_pageWord (maps : level.mapsPages = true) (least : 12 ≤ level.pageBits)
    (aligned : target % level.pageSize = 0) (fits : target < 1 <<< format.outputBits) :
    (format.address level (format.pageWord target flags level)).val = target := by
  have page : format.isPage level (format.pageWord target flags level) = true :=
    isPage_pageWord maps
  have whole : target % 2 ^ pageAddressLow level = 0 := by
    rw [pageAddressLow, Nat.max_eq_right least, ← Nat.one_shiftLeft]
    exact aligned
  simp only [address, page, if_true]
  rw [← addressBits_of_aligned whole fits]
  apply addressBits_congr
  intro i low high
  rw [BitVec.testBit_toNat, addressBits_of_aligned whole fits,
    getLsbD_pageWord (by unfold pageAddressLow at low; omega) high,
    addressBits_of_aligned whole fits]

theorem isPresent_tableDescriptor (table : PhysicalAddress) :
    format.isPresent (format.tableDescriptor table) = true := by
  cases format <;> simp [-BitVec.getLsbD_eq_getElem, isPresent, tableDescriptor, linkFlags,
    getLsbD_bitIf]

theorem isPage_tableDescriptor (above : level.kind ≠ .leaf) (table : PhysicalAddress) :
    format.isPage level (format.tableDescriptor table) = false := by
  have low : (format.addressBits 12 table.val).testBit 7 = false := by
    simp [testBit_addressBits]
  unfold isPage
  cases kind : level.kind
  · rfl
  · cases format <;> simp [-BitVec.getLsbD_eq_getElem, tableDescriptor, linkFlags, getLsbD_bitIf,
      BitVec.getLsbD_ofNat, low]
  · exact absurd kind above

theorem linkTarget_tableDescriptor {table : PhysicalAddress} (aligned : table.val % 4096 = 0)
    (fits : table.val < 1 <<< format.outputBits) :
    format.linkTarget (format.tableDescriptor table) = table := by
  apply Address.ext_val
  have whole : table.val % 2 ^ 12 = 0 := aligned
  have same : format.addressBits 12 table.val = table.val := addressBits_of_aligned whole fits
  simp only [linkTarget]
  conv_rhs => rw [← same]
  apply addressBits_congr
  intro i low high
  have := format.outputBits_le
  rw [BitVec.testBit_toNat, tableDescriptor, BitVec.getLsbD_or, getLsbD_linkFlags low,
    BitVec.getLsbD_ofNat, same]
  simp [show i < 64 by omega]

theorem getLsbD_strip (inside : i < 64) :
    (format.strip word).getLsbD i = (word.getLsbD i && !format.hardwareBits.getLsbD i) := by
  simp [strip, inside]

@[simp] theorem isPresent_strip : format.isPresent (format.strip word) = format.isPresent word := by
  cases format <;> simp [-BitVec.getLsbD_eq_getElem, isPresent, getLsbD_strip, hardwareBits,
    getLsbD_bitIf]

@[simp] theorem isPage_strip :
    format.isPage level (format.strip word) = format.isPage level word := by
  unfold isPage
  cases level.kind
  · rfl
  · cases format <;> simp [-BitVec.getLsbD_eq_getElem, getLsbD_strip, hardwareBits, getLsbD_bitIf]
  · rfl

@[simp] theorem pageFlags_strip : format.pageFlags (format.strip word) = format.pageFlags word := by
  cases format <;> simp [-BitVec.getLsbD_eq_getElem, pageFlags, getLsbD_strip, hardwareBits,
    getLsbD_bitIf]

@[simp] theorem address_strip :
    format.address level (format.strip word) = format.address level word := by
  apply Address.ext_val
  simp only [address, isPage_strip]
  apply addressBits_congr
  intro i low high
  have := format.outputBits_le
  have above : 12 ≤ i := by
    unfold pageAddressLow at low
    split at low <;> omega
  rw [BitVec.testBit_toNat, BitVec.testBit_toNat, getLsbD_strip (by omega),
    getLsbD_hardwareBits above]
  simp

theorem strip_pageWord (format : Format) (target : Nat) (flags : PageFlags) (level : Level) :
    format.strip (format.pageWord target flags level) = format.pageWord target flags level := by
  apply BitVec.eq_of_getLsbD_eq
  intro i inside
  rw [getLsbD_strip inside]
  by_cases low : 12 ≤ i
  · simp [getLsbD_hardwareBits low]
  · rw [getLsbD_pageWord_flags level (.inl (by omega))]
    cases format <;> simp [-BitVec.getLsbD_eq_getElem, encodeFlags, hardwareBits,
      getLsbD_bitIf] <;> omega

@[simp] theorem isPresent_zero : format.isPresent 0#64 = false := by
  cases format <;> simp [isPresent]

end Format

end DmaRemap

import DmaRemap.Proofs.Descriptor

namespace DmaRemap

namespace Format

variable {format : Format} {level : Level} {target target' table : PhysicalAddress}
  {flags flags' : PageFlags} {word marks marks' : Word}

/-- Whether a word holds nothing but bits that hardware sets on its own. -/
def Marks (format : Format) (marks : Word) : Prop :=
  format.strip marks = 0#64

instance (format : Format) (marks : Word) : Decidable (format.Marks marks) :=
  inferInstanceAs (Decidable (_ = _))

/-- What a word says of a page, in every way that it is read. -/
structure ReadsPage (format : Format) (level : Level) (target : PhysicalAddress)
    (flags : PageFlags) (word : Word) : Prop where
  present : format.isPresent word = true
  page : format.isPage level word = true
  address : format.address level word = target
  flags : format.pageFlags word = flags

/-- What a word says of a link, in every way that it is read and at every level that has links. -/
structure ReadsLink (format : Format) (table : PhysicalAddress) (word : Word) : Prop where
  present : format.isPresent word = true
  link : ∀ level ∈ format.levels, level.kind ≠ .leaf → format.isPage level word = false
  address : ∀ level ∈ format.levels, level.kind ≠ .leaf → format.address level word = table

/-- Whether a page of a level may start at an address. -/
structure PageAt (format : Format) (level : Level) (target : PhysicalAddress) : Prop where
  among : level ∈ format.levels
  maps : level.mapsPages = true
  aligned : level.pageSize ∣ target.val
  fits : target.val < 1 <<< format.outputBits

/-- Whether a table may be at an address. -/
structure TableAt (format : Format) (table : PhysicalAddress) : Prop where
  aligned : 4096 ∣ table.val
  fits : table.val < 1 <<< format.outputBits

section Marks

variable (marked : format.Marks marks)
include marked

theorem Marks.strip_or : format.strip (word ||| marks) = format.strip word := by
  apply BitVec.eq_of_getLsbD_eq
  intro place inside
  have bit := congrArg (·.getLsbD place) marked
  simp only [getLsbD_strip inside, BitVec.getLsbD_zero] at bit
  rw [getLsbD_strip inside, getLsbD_strip inside, BitVec.getLsbD_or, Bool.and_or_distrib_right,
    bit, Bool.or_false]

theorem Marks.isPresent_or : format.isPresent (word ||| marks) = format.isPresent word := by
  rw [← isPresent_strip, marked.strip_or, isPresent_strip]

theorem Marks.isPage_or : format.isPage level (word ||| marks) = format.isPage level word := by
  rw [← isPage_strip, marked.strip_or, isPage_strip]

theorem Marks.address_or : format.address level (word ||| marks) = format.address level word := by
  rw [← address_strip, marked.strip_or, address_strip]

theorem Marks.pageFlags_or : format.pageFlags (word ||| marks) = format.pageFlags word := by
  rw [← pageFlags_strip, marked.strip_or, pageFlags_strip]

theorem Marks.eq_of_or (bare : format.strip word = word) :
    (word ||| marks) &&& format.hardwareBits = marks := by
  apply BitVec.eq_of_getLsbD_eq
  intro place inside
  have bit := congrArg (·.getLsbD place) marked
  have bit' := congrArg (·.getLsbD place) bare
  simp only [getLsbD_strip inside, BitVec.getLsbD_zero] at bit bit'
  rw [BitVec.getLsbD_and, BitVec.getLsbD_or, ← bit']
  revert bit
  cases format.hardwareBits.getLsbD place <;> cases marks.getLsbD place <;> simp

end Marks

theorem strip_tableDescriptor (table : PhysicalAddress) :
    format.strip (format.tableDescriptor table) = format.tableDescriptor table := by
  apply BitVec.eq_of_getLsbD_eq
  intro i inside
  rw [getLsbD_strip inside]
  by_cases low : 12 ≤ i
  · simp [getLsbD_hardwareBits low]
  · have outside : (format.addressBits 12 table.val).testBit i = false := by
      simp [testBit_addressBits, low]
    cases format <;> simp [-BitVec.getLsbD_eq_getElem, tableDescriptor, linkFlags, hardwareBits,
      getLsbD_bitIf, outside, BitVec.getLsbD_ofNat] <;> omega

/-- What a format cannot express of the attributes is not in its words. -/
theorem encodeFlags_expressed (flags : PageFlags) :
    format.encodeFlags (format.expressed flags) = format.encodeFlags flags := by
  cases format with
  | secondLevel => simp [encodeFlags, expressed, PageFlags.has_set]
  | cpu =>
    have kept (which : PageAttribute) :
        PageFlags.has ⟨flags.bits &&& 31⟩ which = flags.has which := by
      cases which <;> simp [PageFlags.has, PageAttribute.index]
    simp only [encodeFlags, expressed, kept]

/-- Every level of a format that maps pages maps some of 4096 bytes or more. -/
theorem PageAt.least (page : format.PageAt level target) : 12 ≤ level.pageBits := by
  have least : ∀ level ∈ Level.four, 12 ≤ level.pageBits := by decide
  exact least level page.among

theorem PageAt.reads (page : format.PageAt level target) (marked : format.Marks marks)
    (flags : PageFlags) : format.ReadsPage level target (format.expressed flags)
      (format.pageDescriptor target flags level ||| marks) where
  present := marked.isPresent_or.trans isPresent_pageWord
  page := marked.isPage_or.trans (isPage_pageWord page.maps)
  address := marked.address_or.trans <| Address.ext_val <|
    address_pageWord page.maps page.least (Nat.mod_eq_zero_of_dvd page.aligned) page.fits
  flags := marked.pageFlags_or.trans pageFlags_pageWord

theorem TableAt.reads (held : format.TableAt table) (marked : format.Marks marks) :
    format.ReadsLink table (format.tableDescriptor table ||| marks) where
  present := marked.isPresent_or.trans (isPresent_tableDescriptor table)
  link _ _ above := marked.isPage_or.trans (isPage_tableDescriptor above table)
  address level _ above := by
    rw [marked.address_or, address_of_not_isPage (isPage_tableDescriptor above table)]
    exact linkTarget_tableDescriptor (Nat.mod_eq_zero_of_dvd held.aligned) held.fits

theorem strip_marked_page (marked : format.Marks marks) :
    format.strip (format.pageDescriptor target flags level ||| marks) =
      format.pageDescriptor target flags level :=
  marked.strip_or.trans (strip_pageWord ..)

theorem pageDescriptor_or_inj (page : format.PageAt level target)
    (page' : format.PageAt level target') (marked : format.Marks marks)
    (marked' : format.Marks marks') :
    format.pageDescriptor target flags level ||| marks =
        format.pageDescriptor target' flags' level ||| marks' ↔
      target = target' ∧ format.expressed flags = format.expressed flags' ∧ marks = marks' := by
  constructor
  · intro same
    have reads := page.reads marked flags
    have reads' := page'.reads marked' flags'
    rw [← same] at reads'
    refine ⟨reads.address.symm.trans reads'.address, reads.flags.symm.trans reads'.flags, ?_⟩
    rw [← marked.eq_of_or (strip_pageWord format target.val flags level),
      ← marked'.eq_of_or (strip_pageWord format target'.val flags' level)]
    exact congrArg (· &&& format.hardwareBits) same
  · rintro ⟨rfl, same, rfl⟩
    have encoded : format.encodeFlags flags = format.encodeFlags flags' := by
      rw [← encodeFlags_expressed flags, same, encodeFlags_expressed]
    simp only [pageDescriptor, encoded]

/-- The word of a page is never that of a link, where both may stand. -/
theorem pageDescriptor_or_ne_tableDescriptor_or (maps : level.mapsPages = true)
    (above : level.kind ≠ .leaf) (marked : format.Marks marks) (marked' : format.Marks marks') :
    format.pageDescriptor target flags level ||| marks ≠
      format.tableDescriptor table ||| marks' := by
  intro same
  have page : format.isPage level (format.pageDescriptor target flags level ||| marks) = true :=
    marked.isPage_or.trans (isPage_pageWord maps)
  rw [same, marked'.isPage_or, isPage_tableDescriptor above] at page
  cases page

/-- In both formats the words of pages and links read back as what was encoded, whatever bits
hardware sets on them, and without these bits they are the words that were written. The words of two
pages of a level are the same exactly if their addresses, what the format expresses of their
attributes, and the bits of the hardware are. Where a level has both, no page is a link. -/
theorem codec_faithful (format : Format) :
    (∀ level target flags marks, format.PageAt level target → format.Marks marks →
      format.ReadsPage level target (format.expressed flags)
          (format.pageDescriptor target flags level ||| marks) ∧
        format.strip (format.pageDescriptor target flags level ||| marks) =
          format.pageDescriptor target flags level) ∧
    (∀ table marks, format.TableAt table → format.Marks marks →
      format.ReadsLink table (format.tableDescriptor table ||| marks) ∧
        format.strip (format.tableDescriptor table ||| marks) = format.tableDescriptor table) ∧
    (∀ level target target' flags flags' marks marks', format.PageAt level target →
      format.PageAt level target' → format.Marks marks → format.Marks marks' →
        (format.pageDescriptor target flags level ||| marks =
            format.pageDescriptor target' flags' level ||| marks' ↔
          target = target' ∧ format.expressed flags = format.expressed flags' ∧
            marks = marks')) ∧
    ∀ level target flags table marks marks', level.mapsPages = true → level.kind ≠ .leaf →
      format.Marks marks → format.Marks marks' →
        format.pageDescriptor target flags level ||| marks ≠
          format.tableDescriptor table ||| marks' := by
  refine ⟨fun level target flags marks page marked => ?pages,
    fun table marks held marked => ?links,
    fun level target target' flags flags' marks marks' page page' marked marked' => ?equal,
    fun level target flags table marks marks' maps above marked marked' => ?apart⟩
  case pages => exact ⟨page.reads marked flags, strip_marked_page marked⟩
  case links => exact ⟨held.reads marked, marked.strip_or.trans (strip_tableDescriptor table)⟩
  case equal => exact pageDescriptor_or_inj page page' marked marked'
  case apart => exact pageDescriptor_or_ne_tableDescriptor_or maps above marked marked'

/-- A level of large pages. -/
def largeSample : Level := { pageBits := 30, kind := .largePages }

/-- The last large page and the last table that a CPU can address, with all attributes and both bits
of the hardware. -/
theorem codec_faithful_sample :
    let target : PhysicalAddress := ⟨0xfffffc0000000, by decide⟩
    let table : PhysicalAddress := ⟨0xffffffffff000, by decide⟩
    let page := cpu.pageDescriptor target ⟨0xff⟩ largeSample
    let link := cpu.tableDescriptor table ||| cpu.hardwareBits
    cpu.ReadsPage largeSample target ⟨0x1f⟩ (page ||| cpu.hardwareBits) ∧
      cpu.strip (page ||| cpu.hardwareBits) = page ∧ cpu.ReadsLink table link ∧
      page ||| cpu.hardwareBits ≠ link ∧
      page ||| cpu.hardwareBits ≠ cpu.pageDescriptor target ⟨0xfe⟩ largeSample ||| 0 := by
  intro target table page link
  have start : cpu.PageAt largeSample target :=
    ⟨by decide, by decide, by decide, by decide⟩
  have held : cpu.TableAt table := ⟨by decide, by decide⟩
  have marked : cpu.Marks cpu.hardwareBits := by decide
  have unmarked : cpu.Marks 0 := by decide
  obtain ⟨pages, links, equal, apart⟩ := codec_faithful cpu
  obtain ⟨reads, bare⟩ := pages largeSample target ⟨0xff⟩ _ start marked
  refine ⟨reads, bare, (links table _ held marked).1, ?_, fun same => ?_⟩
  · exact apart largeSample target _ table _ _ (by decide) (by decide) marked marked
  · obtain ⟨_, same, _⟩ := (equal _ _ _ _ _ _ _ start start marked unmarked).mp same
    exact absurd same (by decide)

end Format

end DmaRemap

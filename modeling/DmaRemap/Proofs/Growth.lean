import DmaRemap.Proofs.Lookup

/-! How a tree grows while a request is carried out. `Grown` describes the tree after the first
bytes of a request, block by block; from it follows what every offset translates to. -/

namespace DmaRemap

namespace Request

variable {request : Request} {width block offset done : Nat} {level : Level} {deeper : List Level}

/-- How many bytes of the part in a block have been carried out once `done` of the whole have. -/
def progress (request : Request) (width block done : Nat) : Nat :=
  min (request.within width block).range.size (done - (block * width - request.range.start))

/-- Whether one page of a level maps a request that lies in one of its blocks. -/
def Fills (request : Request) (level : Level) : Prop :=
  level.mapsPages = true ∧ request.Covers level.pageSize 0

theorem Fills.size_pos (fills : request.Fills level) : 0 < request.range.size := by
  have positive := level.pageSize_pos
  have start := fills.2.1
  have stop := fills.2.2.1
  simp only [Extent.stop, Nat.zero_div, Nat.zero_mul] at start stop
  omega

/-- The level of the largest page that a request allows at an offset. -/
def pageLevel (request : Request) (levels : List Level) (offset : Nat) : Option Level :=
  levels.find? fun level => level.mapsPages && decide (request.Covers level.pageSize offset)

/-- Whether an offset lies in the first `done` bytes of a request. -/
def Reaches (request : Request) (done offset : Nat) : Prop :=
  request.range.start ≤ offset ∧ offset < request.range.start + done

theorem fills_within_iff :
    (request.within level.pageSize (offset / level.pageSize)).Fills level ↔
      level.mapsPages = true ∧ request.Covers level.pageSize offset := by
  rw [Fills, ← covers_within level.pageSize_pos (Nat.dvd_refl _) offset]
  have first : offset % level.pageSize / level.pageSize = 0 :=
    Nat.div_eq_of_lt (Nat.mod_lt offset level.pageSize_pos)
  simp only [Covers, first, Nat.zero_div]

theorem reaches_within_iff (positive : 0 < width) (most : done ≤ request.range.size) :
    (request.within width (offset / width)).Reaches (request.progress width (offset / width) done)
      (offset % width) ↔ request.Reaches done offset := by
  have split := Nat.div_add_mod' offset width
  have below := Nat.mod_lt offset positive
  simp only [Reaches, progress, within, Extent.within, Extent.stop]
  omega

theorem progress_le : request.progress width block done ≤ (request.within width block).range.size :=
  Nat.min_le_left ..

theorem progress_untouched (untouched : ¬0 < (request.within width block).range.size) :
    request.progress width block done = 0 := by
  unfold progress
  omega

theorem progress_whole : request.progress width block request.range.size =
    (request.within width block).range.size := by
  simp only [progress, within, Extent.within, Extent.stop]
  omega

/-- When the request has come some way into a block, the blocks before it are complete. -/
theorem progress_before {current : Nat} (earlier : block < current) :
    request.progress width block (current * width - request.range.start + done) =
      (request.within width block).range.size := by
  have next : block * width + width ≤ current * width := by
    rw [← Nat.succ_mul]
    exact Nat.mul_le_mul_right width earlier
  simp only [progress, within, Extent.within, Extent.stop]
  omega

theorem progress_here (most : done ≤ (request.within width block).range.size) :
    request.progress width block (block * width - request.range.start + done) = done := by
  unfold progress
  omega

theorem progress_behind {current : Nat} (later : current < block)
    (most : done < (request.within width current).range.size) :
    request.progress width block (current * width - request.range.start + done) = 0 := by
  have next : current * width + width ≤ block * width := by
    rw [← Nat.succ_mul]
    exact Nat.mul_le_mul_right width later
  simp only [progress, within, Extent.within, Extent.stop] at most ⊢
  omega

theorem pageLevel_within (nested : Level.Nested (level :: deeper)) :
    (request.within level.pageSize (offset / level.pageSize)).pageLevel deeper
      (offset % level.pageSize) = request.pageLevel deeper offset := by
  apply List.find?_congr
  intro inner member
  simp only [covers_within level.pageSize_pos (nested.pageSize_dvd member)]

theorem within_target {inner : Nat} (divides : inner ∣ width)
    (covers : request.Covers inner offset) :
    (request.within width (offset / width)).target +
        (offset % width / inner * inner - (request.within width (offset / width)).range.start) =
      request.target + (offset / inner * inner - request.range.start) := by
  have start := mod_div_mul divides offset
  have least := covers.1
  simp only [within, Extent.within]
  omega

end Request

namespace Format

variable {format : Format} {level : Level} {deeper levels : List Level} {request piece : Request}
  {branches branches' : Branches} {tree tree' : Tree} {offset done : Nat} {word : Word}
  {short : Prop} {grown : Branches → Branches → Prop}

/-- What becomes of one branch by the first `done` bytes of the piece of a request in its block.
`grown` says what becomes of a table below it. Only if the pool runs short of nodes may a new table
be left without a page. -/
inductive BranchGrown (format : Format) (level : Level) (piece : Request) (done : Nat)
    (short : Prop) (grown : Branches → Branches → Prop) : Tree → Tree → Prop where
  | untouched (none : done = 0) (tree : Tree) :
      BranchGrown format level piece done short grown tree tree
  | mapped {word : Word} (fills : piece.Fills level) (complete : done = piece.range.size)
      (vacant : format.isPresent word = false) :
      BranchGrown format level piece done short grown (.word word)
        (.word (format.pageWord piece.target piece.flags level))
  | kept {word : Word} (fills : piece.Fills level) (complete : done = piece.range.size)
      (present : format.isPresent word = true)
      (same : format.strip word = format.pageWord piece.target piece.flags level) :
      BranchGrown format level piece done short grown (.word word) (.word word)
  | linked {word : Word} (partly : ¬piece.Fills level) (touched : 0 < piece.range.size)
      (barren : done = 0 → short) (vacant : format.isPresent word = false)
      (table : PhysicalAddress) {below : Branches} (inside : grown blank below) :
      BranchGrown format level piece done short grown (.word word)
        (.link (format.tableDescriptor table) below)
  | descended {word : Word} (partly : ¬piece.Fills level) (touched : 0 < piece.range.size)
      {below below' : Branches} (inside : grown below below') :
      BranchGrown format level piece done short grown (.link word below) (.link word below')

/-- What becomes of a table by the first `done` bytes of a request. -/
def Grown (format : Format) :
    List Level → Request → (done : Nat) → (short : Prop) → Branches → Branches → Prop
  | [], _, _, _, _, _ => False
  | level :: deeper, request, done, short, branches, branches' => ∀ slot : Slot,
    format.BranchGrown level (request.within level.pageSize slot.val)
      (request.progress level.pageSize slot.val done) short
      (Grown format deeper (request.within level.pageSize slot.val)
        (request.progress level.pageSize slot.val done) short)
      (branches slot) (branches' slot)

theorem BranchGrown.imp {short' : Prop} {grown' : Branches → Branches → Prop}
    (branch : format.BranchGrown level piece done short grown tree tree') (weaken : short → short')
    (inner : ∀ below below', grown below below' → grown' below below') :
    format.BranchGrown level piece done short' grown' tree tree' := by
  cases branch with
  | untouched none tree => exact .untouched none tree
  | mapped fills complete vacant => exact .mapped fills complete vacant
  | kept fills complete present same => exact .kept fills complete present same
  | linked partly touched barren vacant table inside =>
    exact .linked partly touched (weaken ∘ barren) vacant table (inner _ _ inside)
  | descended partly touched inside => exact .descended partly touched (inner _ _ inside)

theorem Grown.imp {short' : Prop} (weaken : short → short')
    (grown : format.Grown levels request done short branches branches') :
    format.Grown levels request done short' branches branches' := by
  induction levels generalizing request done branches branches' with
  | nil => exact grown.elim
  | cons level deeper ih =>
    intro slot
    exact (grown slot).imp weaken fun _ _ => ih

/-- Whether a page is the one that a request asks for at an offset: it has the level of the largest
page allowed there, and up to the hardware's bits it is the word of that page. -/
structure Answers (format : Format) (levels : List Level) (request : Request) (offset : Nat)
    (level : Level) (word : Word) : Prop where
  chosen : request.pageLevel levels offset = some level
  present : format.isPresent word = true
  encoded : format.strip word = format.pageWord
    (request.target + (offset / level.pageSize * level.pageSize - request.range.start))
    request.flags level

theorem find_blank (levels : List Level) (offset : Nat) :
    format.find levels blank offset = none := by
  cases levels with
  | nil => rfl
  | cons => simp [find, blank]

/-- The answer of a part below a table is the answer of the whole. -/
private theorem Answers.ofWithin {found : Level} (nested : Level.Nested (level :: deeper))
    (partly : ¬(request.within level.pageSize (offset / level.pageSize)).Fills level)
    (answers : format.Answers deeper (request.within level.pageSize (offset / level.pageSize))
      (offset % level.pageSize) found word) :
    format.Answers (level :: deeper) request offset found word := by
  have chosen := answers.chosen
  rw [Request.pageLevel_within nested] at chosen
  have member := List.mem_of_find?_eq_some chosen
  have covers : request.Covers found.pageSize offset := by
    have both := List.find?_some chosen
    simp only [Bool.and_eq_true, decide_eq_true_eq] at both
    exact both.2
  refine ⟨?_, answers.present, ?_⟩
  · rw [Request.pageLevel, List.find?_cons_of_neg, ← Request.pageLevel, chosen]
    rw [Request.fills_within_iff] at partly
    simpa using partly
  · rw [answers.encoded, Request.within_target (nested.pageSize_dvd member) covers]
    rfl

/-- A page that fills a block answers the request at every offset of the block. -/
private theorem Answers.ofFills
    (fills : (request.within level.pageSize (offset / level.pageSize)).Fills level)
    (present : format.isPresent word = true)
    (encoded : format.strip word = format.pageWord
      (request.within level.pageSize (offset / level.pageSize)).target request.flags level) :
    format.Answers (level :: deeper) request offset level word := by
  have covers := Request.fills_within_iff.mp fills
  refine ⟨?_, present, encoded⟩
  rw [Request.pageLevel, List.find?_cons_of_pos]
  simpa using covers

private theorem reaches_of_fills
    (fills : (request.within level.pageSize (offset / level.pageSize)).Fills level)
    (complete : done = (request.within level.pageSize (offset / level.pageSize)).range.size) :
    (request.within level.pageSize (offset / level.pageSize)).Reaches done
      (offset % level.pageSize) := by
  have below := Nat.mod_lt offset level.pageSize_pos
  have start := fills.2.1
  have stop := fills.2.2.1
  simp only [Nat.zero_div, Nat.zero_mul, Extent.stop] at start stop
  unfold Request.Reaches
  omega

/-- The first bytes of a request are answered, and every other offset finds what it found before. -/
theorem find_grown (nested : Level.Nested levels) (most : done ≤ request.range.size)
    (grown : format.Grown levels request done short branches branches')
    (inside : offset < Level.span levels) :
    (request.Reaches done offset → ∃ level word,
        format.find levels branches' offset = some (level, word) ∧
          format.Answers levels request offset level word) ∧
      (¬request.Reaches done offset →
        format.find levels branches' offset = format.find levels branches offset) := by
  induction levels generalizing request done branches branches' offset with
  | nil => exact grown.elim
  | cons level deeper ih =>
    have positive := level.pageSize_pos
    have index : offset / level.pageSize < 512 := (Nat.div_lt_iff_lt_mul positive).mpr inside
    have branch := grown ⟨offset / level.pageSize, index⟩
    have below := nested.1.mod_lt offset
    rw [← Request.reaches_within_iff positive most]
    simp only [find, Level.slot_eq index rfl]
    generalize branches ⟨offset / level.pageSize, index⟩ = tree at branch ⊢
    generalize branches' ⟨offset / level.pageSize, index⟩ = tree' at branch ⊢
    cases branch with
    | untouched none tree =>
      rw [none]
      refine ⟨fun reaches => ?_, fun _ => rfl⟩
      have least := reaches.1
      have below := reaches.2
      omega
    | mapped fills complete vacant =>
      refine ⟨fun _ => ⟨level, _, if_pos isPresent_pageWord, ?_⟩, fun outside => ?_⟩
      · exact .ofFills fills isPresent_pageWord (strip_pageWord ..)
      · exact absurd (reaches_of_fills fills complete) outside
    | kept fills complete present same =>
      refine ⟨fun _ => ⟨level, _, if_pos present, ?_⟩, fun _ => rfl⟩
      exact .ofFills fills present same
    | linked partly touched barren vacant table within =>
      obtain ⟨answered, unchanged⟩ := ih nested.2 Request.progress_le within below
      refine ⟨fun reaches => ?_, fun outside => ?_⟩
      · obtain ⟨found, word, same, answers⟩ := answered reaches
        exact ⟨found, word, same, answers.ofWithin nested partly⟩
      · exact (unchanged outside).trans ((find_blank ..).trans (by simp [vacant]))
    | descended partly touched within =>
      obtain ⟨answered, unchanged⟩ := ih nested.2 Request.progress_le within below
      refine ⟨fun reaches => ?_, unchanged⟩
      obtain ⟨found, word, same, answers⟩ := answered reaches
      exact ⟨found, word, same, answers.ofWithin nested partly⟩

theorem find_grown_of_some (grown : format.Grown levels request done short branches branches')
    {found : Level × Word} (before : format.find levels branches offset = some found) :
    format.find levels branches' offset = some found := by
  induction levels generalizing request done branches branches' offset with
  | nil => exact grown.elim
  | cons level deeper ih =>
    have branch := grown (level.slot offset)
    rw [find] at before ⊢
    generalize branches (level.slot offset) = tree at branch before
    generalize branches' (level.slot offset) = tree' at branch ⊢
    cases branch with
    | untouched none tree => exact before
    | mapped fills complete vacant => simp [vacant] at before
    | kept fills complete present same => exact before
    | linked partly touched barren vacant table within => simp [vacant] at before
    | descended partly touched within => exact ih within before

end Format

end DmaRemap

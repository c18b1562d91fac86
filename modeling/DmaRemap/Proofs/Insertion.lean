import DmaRemap.Table.Insert
import DmaRemap.Proofs.Need

namespace DmaRemap

variable {format : Format} {pool before middle after : Pool} {level : Level}
  {deeper levels : List Level} {request : Request} {table address : PhysicalAddress}
  {branches branches' below : Branches} {tree : Tree} {slot : Slot} {word : Word}
  {done base block : Nat} {short : Prop} {blocked : Branches → Prop}

/-- A request that the table of some level can carry out, if its first entry covers `base`. -/
structure Request.Sited (request : Request) (format : Format) (levels : List Level) (base : Nat) :
    Prop where
  aligned : request.Aligned
  inside : request.range.stop ≤ Level.span levels
  target : request.target + request.range.size ≤ 1 <<< format.outputBits
  origin : Level.span levels ∣ base
  limit : base + Level.span levels ≤ 1 <<< 48

theorem Request.Sited.stop_le (sited : request.Sited format levels base) :
    request.range.stop ≤ 1 <<< 48 :=
  calc request.range.stop ≤ Level.span levels := sited.inside
    _ ≤ base + Level.span levels := Nat.le_add_left ..
    _ ≤ 1 <<< 48 := sited.limit

theorem Request.Sited.within (sited : request.Sited format (level :: deeper) base)
    (divided : Level.Divided level deeper) (touched : block ∈ level.blocks request.range) :
    (request.within level.pageSize block).Sited format deeper (base + block * level.pageSize) := by
  have some := Level.mem_blocks_iff_within.mp touched
  have last := level.block_stop_le (Level.lt_of_mem_blocks touched sited.inside)
  have target := sited.target
  have limit := sited.limit
  rw [Level.span] at limit
  refine ⟨sited.aligned.within divided.dvd_pageSize, divided.within_stop_le some, ?_, ?_, ?_⟩
  · simp only [Request.within, Extent.within, Extent.stop] at some ⊢
    omega
  · rw [← divided.pageSize]
    exact ((Nat.dvd_mul_left ..).trans sited.origin).add (Nat.dvd_mul_left ..)
  · rw [← divided.pageSize]
    omega

theorem Request.target_add_within (request : Request) (width block : Nat) :
    request.target + (block * width + (request.range.within width block).start -
        request.range.start) = (request.within width block).target := by
  rw [Extent.mul_add_within_start]
  simp only [Request.within]
  omega

theorem Request.Sited.address_lt (sited : request.Sited format (level :: deeper) base)
    (touched : block ∈ level.blocks request.range) :
    base + (block * level.pageSize + (request.range.within level.pageSize block).start) <
      1 <<< 64 := by
  have some := Level.mem_blocks_iff_within.mp touched
  have inside := Extent.within_stop_le some
  have last := level.block_stop_le (Level.lt_of_mem_blocks touched sited.inside)
  have limit := sited.limit
  rw [Level.span] at limit
  unfold Extent.stop at inside
  omega

theorem Request.Sited.target_lt (sited : request.Sited format levels base) :
    request.target + request.range.size ≤ 1 <<< 52 := by
  apply Nat.le_trans sited.target
  rw [Nat.one_shiftLeft, Nat.one_shiftLeft]
  exact Nat.pow_le_pow_right (Nat.two_pos) format.outputBits_le

/-- The part of a request in one block starts at an input address and at a target that there are. -/
theorem Request.Sited.addresses {base : VirtualAddress} {target : PhysicalAddress}
    (sited : request.Sited format (level :: deeper) base.val)
    (divided : Level.Divided level deeper) (same : target.val = request.target)
    (touched : block ∈ level.blocks request.range) :
    ∃ (address : VirtualAddress) (pieceTarget : PhysicalAddress),
      base.add (block * level.pageSize + (request.range.within level.pageSize block).start) =
        .ok address ∧
      target.add (block * level.pageSize + (request.range.within level.pageSize block).start -
        request.range.start) = .ok pieceTarget ∧
      address.val = base.val + block * level.pageSize +
        (request.within level.pageSize block).range.start ∧
      pieceTarget.val = (request.within level.pageSize block).target ∧
      (address.floor level.pageSize).val = base.val + block * level.pageSize := by
  have some : 0 < (request.within level.pageSize block).range.size :=
    Level.mem_blocks_iff_within.mp touched
  have address := sited.address_lt touched
  have moved := request.target_add_within level.pageSize block
  rw [← same] at moved
  have memory : target.val + (block * level.pageSize +
      (request.range.within level.pageSize block).start - request.range.start) < 1 <<< 52 := by
    have room := (sited.within divided touched).target_lt
    rw [moved]
    exact Nat.lt_of_lt_of_le (Nat.lt_add_of_pos_right some) room
  refine ⟨⟨_, address⟩, ⟨_, memory⟩, Address.add_eq_ok address (Nat.le_refl 64),
    Address.add_eq_ok memory (by decide), (Nat.add_assoc ..).symm, moved, ?_⟩
  exact Level.floor_within touched ((Nat.dvd_mul_left ..).trans sited.origin) rfl

theorem Request.fills_iff {part : Request} (some : 0 < part.range.size)
    (inside : part.range.stop ≤ level.pageSize) (block : Nat) :
    (level.mapsPages && (block * level.pageSize + part.range.start) % level.pageSize == 0 &&
        part.target % level.pageSize == 0 && decide (level.pageSize ≤ part.range.size)) = true ↔
      part.Fills level := by
  have positive := level.pageSize_pos
  unfold Extent.stop at inside
  have start : (block * level.pageSize + part.range.start) % level.pageSize = part.range.start := by
    rw [Nat.mul_add_mod', Nat.mod_eq_of_lt (by omega)]
  simp only [Fills, Covers, start, Bool.and_eq_true, beq_iff_eq, decide_eq_true_eq, Nat.zero_div,
    Nat.zero_mul, Extent.stop, and_assoc]
  constructor
  · intro holds
    obtain ⟨maps, first, target, whole⟩ := holds
    exact ⟨maps, by omega, by omega, by rw [first, target, Nat.zero_mod]⟩
  · intro holds
    obtain ⟨maps, first, whole, target⟩ := holds
    have first : part.range.start = 0 := by omega
    rw [first, Nat.zero_mod] at target
    exact ⟨maps, first, target, by omega⟩

/-- In the last level every part of a request for whole pages fills its block. -/
theorem Request.Aligned.fills {part : Request} (aligned : part.Aligned)
    (divided : Level.Divided level deeper) (leaf : level.kind = .leaf)
    (some : 0 < part.range.size) (inside : part.range.stop ≤ level.pageSize) :
    part.Fills level := by
  have size : level.pageSize = 4096 := by
    rw [divided.pageSize, divided.leaf.mp leaf]
    rfl
  have start := aligned.start
  have whole := aligned.size
  have target := aligned.target
  have maps : level.mapsPages = true := by simp [Level.mapsPages, leaf]
  simp only [Extent.stop, size] at inside
  simp only [Fills, Covers, size, maps, Extent.stop, Nat.zero_div, Nat.zero_mul, true_and]
  omega

/-- Why an insertion stopped at a place: something is in the way, or the pool has no free node. -/
inductive Stopped (pool : Pool) (place : Nat) (blocked : Prop) : Failure TableError → Prop where
  | conflict {address : VirtualAddress} (here : address.val = place) (inTheWay : blocked) :
      Stopped pool place blocked (.error (.doubleInsertion address))
  | exhausted (full : pool.Exhausted) : Stopped pool place blocked (.error .outOfMemory)

theorem Stopped.imp {place : Nat} {cause : Failure TableError} {blocked blocked' : Prop}
    (stopped : Stopped pool place blocked cause) (weaken : blocked → blocked') :
    Stopped pool place blocked' cause := by
  cases stopped with
  | conflict here inTheWay => exact .conflict here (weaken inTheWay)
  | exhausted full => exact .exhausted full

theorem Stopped.outOfMemory {place : Nat} {cause : Failure TableError} {blocked : Prop}
    (stopped : Stopped pool place blocked cause) (free : ¬blocked) :
    cause = .error .outOfMemory := by
  cases stopped with
  | conflict here inTheWay => exact absurd inTheWay free
  | exhausted full => rfl

namespace Format

/-- What is in the way of a part of a request after its first `done` bytes: a page, a table where
one page should be, or something in the table below. -/
inductive BranchBlocked (format : Format) (level : Level) (part : Request) (done : Nat)
    (blocked : Branches → Prop) : Tree → Prop where
  | page {word : Word} (present : format.isPresent word = true) :
      BranchBlocked format level part done blocked (.word word)
  | table {word : Word} {below : Branches} (fills : part.Fills level) (first : done = 0) :
      BranchBlocked format level part done blocked (.link word below)
  | below {word : Word} {below : Branches} (inside : blocked below) :
      BranchBlocked format level part done blocked (.link word below)

/-- Whether something is in the way of a request after its first `done` bytes. -/
def Blocked (format : Format) : List Level → Request → (done : Nat) → Branches → Prop
  | [], _, _, _ => False
  | level :: deeper, request, done, branches => ∃ slot : Slot,
    (request.range.start + done) / level.pageSize = slot.val ∧
      format.BranchBlocked level (request.within level.pageSize slot.val)
        (request.progress level.pageSize slot.val done)
        (Blocked format deeper (request.within level.pageSize slot.val)
          (request.progress level.pageSize slot.val done))
        (branches slot)

theorem not_blocked_blank : ¬format.Blocked levels request done blank := by
  cases levels with
  | nil => exact id
  | cons level deeper =>
    intro blocked
    obtain ⟨_, _, inTheWay⟩ := blocked
    cases inTheWay with
    | page present => simp at present

/-- The first `done` bytes of a request were carried out on a table. If the pool ran short of nodes,
the request needs more. -/
def Carried (format : Format) (levels : List Level) (table : PhysicalAddress) (request : Request)
    (branches : Branches) (done : Nat) (short : Prop) (before after : Pool) : Prop :=
  ∃ branches', format.Edited before after levels table branches branches' ∧
    format.Grown levels request done short branches branches' ∧
    (short → 0 < request.need levels branches')

/-- How an insertion may end: it carries out the whole request, or stops before one of its pages. -/
def Inserts (format : Format) (levels : List Level) (table : PhysicalAddress) (request : Request)
    (base : Nat) (branches : Branches) (start : Journaled Pool)
    (action : Action Pool TableError Unit) : Prop :=
  action.Ends start
    (fun _ last =>
      format.Carried levels table request branches request.range.size False start.state last.state)
    fun cause last => ∃ done < request.range.size, 4096 ∣ done ∧
      format.Carried levels table request branches done (cause = .error .outOfMemory) start.state
        last.state ∧
      Stopped last.state (base + request.range.start + done)
        (format.Blocked levels request done branches) cause

theorem Held.store_new {start middle : Journaled Pool} {child : PhysicalAddress} {old : Word}
    (held : format.Held start.state (level :: deeper) table branches)
    (plain : branches slot = .word old) (divided : Level.Divided level deeper)
    (above : level.kind ≠ .leaf) (linked : format.linkTarget (format.tableDescriptor child) = child)
    (taken : start.state.Exchanges middle.state [] [child])
    (zero : middle.state.node? child = some Node.zero) :
    (format.store table slot (format.tableDescriptor child)).Returns middle fun _ last =>
      format.Edited start.state last.state (level :: deeper) table branches
        (Function.update branches slot (.link (format.tableDescriptor child) blank)) := by
  obtain ⟨absent, node⟩ := taken.kept held.node List.not_mem_nil
  have apart : child ≠ table := fun same => absent (by simp [same])
  apply (store_ends slot (.link (format.tableDescriptor child) blank) node).mono _
    fun _ _ => False.elim
  intro _ last ended
  obtain ⟨written, node⟩ := ended
  apply held.replace _ node
  · refine ⟨?_, fun slot => trivial⟩
    rw [linked, of_blank, ← zero]
    exact written.elsewhere child (by simpa using apart) (by simpa using apart)
  · exact ⟨isPresent_tableDescriptor child, isPage_tableDescriptor above child,
      shaped_blank fun last => above (divided.leaf.mpr last)⟩
  · rw [nodes_link, linked, tablesFrom_blank]
    simpa using apart.symm
  · rw [plain, nodes_link, linked, tablesFrom_blank]
    exact (taken.keep table).trans
      (written.widen (by simp) (by simp) (fun _ _ => id) (fun _ _ => id))

/-- The link that leads on from a slot is the one already there, or a new one to an empty table. -/
theorem nextTable_ends {start : Journaled Pool}
    (held : format.Held start.state (level :: deeper) table branches)
    (divided : Level.Divided level deeper) (above : level.kind ≠ .leaf)
    (fits : format.Fits start.state) (input : VirtualAddress) {part : Request} :
    (format.nextTable level table slot (branches slot).descriptor input).Ends start
      (fun child last => ∃ word below, format.linkTarget word = child ∧
        format.Edited start.state last.state (level :: deeper) table branches
          (Function.update branches slot (.link word below)) ∧
        (branches slot = .link word below ∨
          ∃ old, branches slot = .word old ∧ format.isPresent old = false ∧
            word = format.tableDescriptor child ∧ below = blank))
      (fun cause last => last.state = start.state ∧ Stopped start.state input.val
          (format.BranchBlocked level part 0 blocked (branches slot)) cause ∧
        (cause = .error .outOfMemory → ∃ old, branches slot = .word old)) := by
  have shaped := held.shaped slot
  unfold nextTable
  cases branch : branches slot with
  | link word below =>
    rw [branch] at shaped
    obtain ⟨present, link, _⟩ := shaped
    simp only [Tree.descriptor, present, link, Bool.not_true, Bool.false_eq_true, if_false,
      Action.ends_pure, address_of_not_isPage link]
    refine ⟨word, below, rfl, ?_, .inl rfl⟩
    rw [← branch, Function.update_eq_self]
    exact held.unedited
  | word old =>
    rw [branch] at shaped
    by_cases present : format.isPresent old = true
    · have page := shaped present
      simp only [Tree.descriptor, present, page, Bool.not_true, Bool.false_eq_true, if_false,
        if_true, Action.ends_fail]
      refine ⟨trivial, .conflict rfl (.page present), fun short => ?_⟩
      cases short
    · have vacant : format.isPresent old = false := by simpa using present
      simp only [Tree.descriptor, vacant, Bool.not_false, if_true, Action.ends_bind,
        Action.ends_pure]
      apply (Pool.construct_ends start).mono
      · intro child middle ended
        obtain ⟨taken, zero⟩ := ended
        have linked : format.linkTarget (format.tableDescriptor child) = child :=
          (fits.exchange taken).linkTarget zero
        apply (held.store_new branch divided above linked taken zero).mono _ fun _ _ => False.elim
        intro _ last edited
        exact ⟨_, blank, linked, edited, .inr ⟨old, rfl, vacant, rfl, rfl⟩⟩
      · intro cause last ended
        obtain ⟨rfl, same, full⟩ := ended
        exact ⟨same, .exhausted full, fun _ => ⟨old, rfl⟩⟩

/-- One branch was made to carry out the first `done` bytes of the part in its block. -/
def BranchCarried (format : Format) (level : Level) (deeper : List Level) (table : PhysicalAddress)
    (part : Request) (branches : Branches) (slot : Slot) (done : Nat) (short : Prop)
    (before after : Pool) : Prop :=
  ∃ tree, format.Edited before after (level :: deeper) table branches
      (Function.update branches slot tree) ∧
    format.BranchGrown level part done short (format.Grown deeper part done short) (branches slot)
      tree ∧
    (short → 0 < Request.branchNeed level part (part.need deeper) tree)

theorem Held.branch_untouched (held : format.Held before (level :: deeper) table branches)
    (part : Request) (slot : Slot)
    (needs : short → 0 < Request.branchNeed level part (part.need deeper) (branches slot)) :
    format.BranchCarried level deeper table part branches slot 0 short before before := by
  refine ⟨branches slot, ?_, .untouched rfl _, needs⟩
  rw [Function.update_eq_self]
  exact held.unedited

theorem Carried.ascend {part : Request} (partly : ¬part.Fills level)
    (touched : 0 < part.range.size) (barren : below = blank → done = 0 → short)
    (edited : format.Edited before middle (level :: deeper) table branches
      (Function.update branches slot (.link word below)))
    (link : branches slot = .link word below ∨
      ∃ old, branches slot = .word old ∧ format.isPresent old = false ∧
        word = format.tableDescriptor address ∧ below = blank)
    (carried : format.Carried deeper (format.linkTarget word) part below done short middle
      after) :
    format.BranchCarried level deeper table part branches slot done short before after := by
  obtain ⟨below', inner, grown, needs⟩ := carried
  have outer := edited.held.replaceBelow (Function.update_self ..) inner
  rw [Function.update_idem] at outer
  refine ⟨_, edited.trans outer, ?_, fun short => ?_⟩
  case refine_2 =>
    rw [Request.branchNeed, if_pos ⟨touched, partly⟩]
    exact needs short
  rcases link with same | ⟨old, same, vacant, rfl, rfl⟩
  · rw [same]
    exact .descended partly touched grown
  · rw [same]
    exact .linked partly touched (barren rfl) vacant address grown

/-- One page maps a part that fills its block, unless something else is there. -/
theorem insertPage_ends {start : Journaled Pool}
    (held : format.Held start.state (level :: deeper) table branches) {part : Request}
    (fills : part.Fills level) {refuse : Action Pool TableError Unit}
    {fails : Failure TableError → Journaled Pool → Prop}
    (refuses : format.BranchBlocked level part 0 blocked (branches slot) →
      refuse.Ends start (fun _ _ => False) fails) :
    (if !format.isPresent (branches slot).descriptor then
        format.store table slot (format.pageWord part.target part.flags level)
      else if format.strip (branches slot).descriptor !=
          format.pageWord part.target part.flags level then
        refuse
      else
        pure ()).Ends start
      (fun _ last => format.BranchCarried level deeper table part branches slot part.range.size
        False start.state last.state)
      fails := by
  have shaped := held.shaped slot
  have page : format.isPage level (format.pageWord part.target part.flags level) = true :=
    isPage_pageWord fills.1
  cases branch : branches slot with
  | word old =>
    rw [branch] at shaped
    by_cases present : format.isPresent old = true
    · by_cases encoded : format.strip old = format.pageWord part.target part.flags level
      · simp only [Tree.descriptor, present, encoded, Bool.not_true, bne_self_eq_false,
          Bool.false_eq_true, if_false, Action.ends_pure]
        refine ⟨branches slot, ?_, ?_, False.elim⟩
        · rw [Function.update_eq_self]
          exact held.unedited
        · rw [branch]
          exact .kept fills rfl present encoded
      · simp only [Tree.descriptor, present, bne_iff_ne.mpr encoded, Bool.not_true,
          Bool.false_eq_true, if_false, if_true]
        exact (refuses (branch ▸ .page present)).mono (fun _ _ => False.elim) fun _ _ => id
    · have vacant : format.isPresent old = false := by simpa using present
      simp only [Tree.descriptor, vacant, Bool.not_false, if_true]
      apply (held.store_word branch fun _ => page).mono _ fun _ _ => False.elim
      intro _ last edited
      refine ⟨_, edited, ?_, False.elim⟩
      rw [branch]
      exact .mapped fills rfl vacant
  | link descriptor below =>
    rw [branch] at shaped
    obtain ⟨present, link, _⟩ := shaped
    have different : format.strip descriptor ≠ format.pageWord part.target part.flags level := by
      intro same
      rw [← same, isPage_strip, link] at page
      cases page
    simp only [Tree.descriptor, present, bne_iff_ne.mpr different, Bool.not_true,
      Bool.false_eq_true, if_false, if_true]
    exact (refuses (branch ▸ .table fills rfl)).mono (fun _ _ => False.elim) fun _ _ => id

/-- A piece is mapped by one page or, if it does not fill its block, below a link. -/
theorem insertPiece_ends {start : Journaled Pool}
    (held : format.Held start.state (level :: deeper) table branches)
    (divided : Level.Divided level deeper) (fits : format.Fits start.state) {part : Request}
    (aligned : part.Aligned) (some : 0 < part.range.size)
    (inside : part.range.stop ≤ level.pageSize) {input : VirtualAddress}
    (place : input.val = base + part.range.start) {target : PhysicalAddress}
    (same : target.val = part.target) {descend : PhysicalAddress → Action Pool TableError Unit}
    (descends : ∀ child below now, format.Held now.state deeper child below →
      format.Fits now.state → format.Inserts deeper child part base below now (descend child)) :
    (format.insertPiece level part.flags table input
        ⟨slot.val * level.pageSize + part.range.start, part.range.size⟩ target descend).Ends start
      (fun _ last => format.BranchCarried level deeper table part branches slot part.range.size
        False start.state last.state)
      fun cause last => ∃ done < part.range.size, 4096 ∣ done ∧
        format.BranchCarried level deeper table part branches slot done
          (cause = .error .outOfMemory) start.state last.state ∧
        Stopped last.state (base + part.range.start + done)
          (format.BranchBlocked level part done (format.Blocked deeper part done) (branches slot))
          cause := by
  have here : level.slot (slot.val * level.pageSize + part.range.start) = slot := by
    unfold Extent.stop at inside
    exact Level.slot_mul_add (by omega) slot
  unfold insertPiece
  simp only [here, Action.ends_bind, ends_load held, same, pageDescriptor_eq]
  rw [Action.ends_ite]
  rw [Request.fills_iff some inside]
  constructor
  · intro fills
    apply insertPage_ends held fills
    intro inTheWay
    simp only [Action.ends_bind, Action.ends_record, Action.ends_fail]
    refine ⟨0, some, Nat.dvd_zero _, held.branch_untouched part slot fun short => ?_,
      .conflict place inTheWay⟩
    cases short
  · intro partly
    have above : level.kind ≠ .leaf := fun leaf => partly (aligned.fills divided leaf some inside)
    rw [Action.ends_bind]
    apply (nextTable_ends held divided above fits input).mono
    · intro child middle ended
      obtain ⟨word, below, rfl, edited, link⟩ := ended
      have inner := edited.held.child (Function.update_self ..)
      apply (descends _ below middle inner (fits.exchange edited.exchange)).mono
      · intro _ last carried
        exact carried.ascend partly some (fun _ none => some.ne' none) edited link
      · intro cause last ended
        obtain ⟨done, most, whole, carried, stopped⟩ := ended
        refine ⟨done, most, whole, carried.ascend partly some ?_ edited link, ?_⟩
        · rintro rfl _
          exact stopped.outOfMemory not_blocked_blank
        · apply stopped.imp
          intro inside
          rcases link with same | ⟨_, _, _, _, rfl⟩
          · exact same ▸ .below inside
          · exact absurd inside not_blocked_blank
    · intro cause last ended
      obtain ⟨unchanged, stopped, missing⟩ := ended
      rw [unchanged]
      refine ⟨0, some, Nat.dvd_zero _, held.branch_untouched part slot fun short => ?_,
        place ▸ stopped⟩
      obtain ⟨old, plain⟩ := missing short
      rw [plain, Request.branchNeed, if_pos ⟨some, partly⟩]
      exact Nat.lt_add_right _ Nat.one_pos

/-- The blocks in `past` have carried out their parts of a request, and the others nothing. -/
def BlocksCarried (format : Format) (level : Level) (deeper : List Level) (request : Request)
    (branches : Branches) (past : List Nat) (branches' : Branches) : Prop :=
  ∀ slot : Slot,
    (slot.val ∈ past → format.BranchGrown level (request.within level.pageSize slot.val)
      (request.within level.pageSize slot.val).range.size False
      (format.Grown deeper (request.within level.pageSize slot.val)
        (request.within level.pageSize slot.val).range.size False)
      (branches slot) (branches' slot)) ∧
    (slot.val ∉ past → branches' slot = branches slot)

theorem BlocksCarried.grown
    (carried : format.BlocksCarried level deeper request branches (level.blocks request.range)
      branches') :
    format.Grown (level :: deeper) request request.range.size False branches branches' := by
  intro slot
  rw [Request.progress_whole]
  by_cases touched : slot.val ∈ level.blocks request.range
  · exact (carried slot).1 touched
  · rw [(carried slot).2 touched]
    apply BranchGrown.untouched
    have none := mt Level.mem_blocks_iff_within.mpr touched
    simp only [Request.within]
    omega

/-- If one block stops, the request has come as far as that block has. -/
theorem BlocksCarried.grown_stopped {past later : List Nat}
    (split : level.blocks request.range = past ++ slot.val :: later)
    (carried : format.BlocksCarried level deeper request branches past branches')
    (most : done < (request.within level.pageSize slot.val).range.size)
    (branch : format.BranchGrown level (request.within level.pageSize slot.val) done short
      (format.Grown deeper (request.within level.pageSize slot.val) done short) (branches slot)
        tree) :
    format.Grown (level :: deeper) request
      (slot.val * level.pageSize - request.range.start + done) short branches
      (Function.update branches' slot tree) := by
  have ascending := level.pairwise_blocks request.range
  rw [split, List.pairwise_append] at ascending
  intro other
  by_cases same : other = slot
  · rw [same, Request.progress_here (Nat.le_of_lt most), Function.update_self]
    exact branch
  · rw [Function.update_of_ne same]
    by_cases before : other.val ∈ past
    · rw [Request.progress_before (ascending.2.2 _ before _ List.mem_cons_self)]
      exact ((carried other).1 before).imp False.elim fun _ _ => Grown.imp False.elim
    · rw [(carried other).2 before]
      apply BranchGrown.untouched
      by_cases touched : other.val ∈ level.blocks request.range
      · have behind : other.val ∈ later := by
          rw [split] at touched
          simpa [before, Fin.val_inj, same] using touched
        exact Request.progress_behind
          ((List.pairwise_cons.mp ascending.2.1).1 _ behind) most
      · exact Request.progress_untouched fun some =>
          touched (Level.mem_blocks_iff_within.mpr some)

/-- What is in the way of the part in a block is in the way of the whole request. -/
theorem BranchBlocked.ascend
    (most : done < (request.within level.pageSize slot.val).range.size)
    (inTheWay : format.BranchBlocked level (request.within level.pageSize slot.val) done
      (format.Blocked deeper (request.within level.pageSize slot.val) done) (branches slot)) :
    format.Blocked (level :: deeper) request
      (slot.val * level.pageSize - request.range.start + done) branches := by
  refine ⟨slot, ?_, ?_⟩
  · have below := Extent.within_stop_le (Nat.lt_of_le_of_lt (Nat.zero_le done) most)
    have start := request.range.mul_add_within_start level.pageSize slot.val
    simp only [Request.within, Extent.stop] at most below
    have place : request.range.start + (slot.val * level.pageSize - request.range.start + done) =
        slot.val * level.pageSize +
          ((request.range.within level.pageSize slot.val).start + done) := by
      omega
    rw [place]
    exact Level.div_pageSize (by omega) slot.val
  · rwa [Request.progress_here (Nat.le_of_lt most)]

theorem BlocksCarried.unvisited {past later : List Nat}
    (split : level.blocks request.range = past ++ slot.val :: later)
    (carried : format.BlocksCarried level deeper request branches past branches') :
    branches' slot = branches slot :=
  (carried slot).2 (Action.not_mem_past (level.nodup_blocks _) split)

theorem BlocksCarried.next {past : List Nat}
    (carried : format.BlocksCarried level deeper request branches past branches')
    (branch : format.BranchGrown level (request.within level.pageSize slot.val)
      (request.within level.pageSize slot.val).range.size False
      (format.Grown deeper (request.within level.pageSize slot.val)
        (request.within level.pageSize slot.val).range.size False) (branches slot) tree) :
    format.BlocksCarried level deeper request branches (past ++ [slot.val])
      (Function.update branches' slot tree) := by
  intro other
  by_cases same : other = slot
  · rw [same, Function.update_self]
    exact ⟨fun _ => branch, fun absent => absurd (by simp) absent⟩
  · rw [Function.update_of_ne same]
    have elsewhere : other.val ∈ past ++ [slot.val] ↔ other.val ∈ past := by
      simp [Fin.val_inj, same]
    rw [elsewhere]
    exact carried other

/-- An insertion carries out the whole request, or stops at the first page that it cannot map. -/
theorem insertAt_ends {start : Journaled Pool} {base : VirtualAddress} {target : PhysicalAddress}
    (nested : Level.Nested levels) (held : format.Held start.state levels table branches)
    (fits : format.Fits start.state) (sited : request.Sited format levels base.val)
    (same : target.val = request.target) (depth : Nat) :
    format.Inserts levels table request base.val branches start
      (format.insertAt request.flags levels depth table base request.range target) := by
  induction levels generalizing start table branches base request target depth with
  | nil => exact absurd (held.shaped 0) (by simp [Shaped])
  | cons level deeper ih =>
    have divided := nested.1
    have inside := sited.stop_le
    rw [insertAt]
    apply Action.ends_forM fun past now => ∃ branches',
      format.Edited start.state now.state (level :: deeper) table branches branches' ∧
        format.BlocksCarried level deeper request branches past branches'
    case initial =>
      refine ⟨branches, held.unedited, fun slot => ⟨fun member => ?_, fun _ => rfl⟩⟩
      exact absurd member List.not_mem_nil
    case final =>
      intro last kept
      obtain ⟨branches', edited, carried⟩ := kept
      exact ⟨branches', edited, carried.grown, False.elim⟩
    case turn =>
      intro past next later now split kept
      obtain ⟨branches', edited, carried⟩ := kept
      have touched : next ∈ level.blocks request.range := by simp [split]
      have part := sited.within divided touched
      have some : 0 < (request.within level.pageSize next).range.size :=
        Level.mem_blocks_iff_within.mp touched
      obtain ⟨slot, rfl⟩ := Level.exists_slot touched sited.inside
      obtain ⟨address, pieceTarget, added, advanced, place, moved, floored⟩ :=
        sited.addresses divided same touched
      simp only [Level.piece_eq touched divided.pageSize_le inside, added, advanced,
        Action.ends_bind, Action.ends_lift_ok, Level.mod_pageSize_within touched]
      apply (insertPiece_ends edited.held divided (fits.exchange edited.exchange) part.aligned some
        (Extent.within_stop_le some) place moved fun child below now held fits => ?_).mono
      · intro _ last ended
        obtain ⟨tree, grafted, grown, _⟩ := ended
        rw [carried.unvisited split] at grown
        have ends := Level.within_ends touched sited.inside
        rw [if_pos, Action.ends_pure]
        · exact ⟨_, edited.trans grafted, carried.next grown⟩
        · rw [Bool.or_eq_true, decide_eq_true_eq, decide_eq_true_eq, divided.entries]
          exact ends
      · intro cause last ended
        obtain ⟨done, most, whole, ⟨tree, grafted, grown, needs⟩, stopped⟩ := ended
        rw [carried.unvisited split] at grown stopped
        refine ⟨_, ?_, ?_, ⟨_, edited.trans grafted, carried.grown_stopped split most grown,
          fun short => ?_⟩, ?_⟩
        · simp only [Request.within, Extent.within, Extent.stop] at most some ⊢
          omega
        · exact (Nat.dvd_sub (divided.dvd_pageSize.mul_left _) sited.aligned.start).add whole
        · apply Nat.lt_of_lt_of_le _ (Request.branchNeed_le_need slot)
          rw [Function.update_self]
          exact needs short
        · convert stopped.imp fun inTheWay => inTheWay.ascend most using 1
          simp only [Request.within, Extent.within]
          omega
      · rw [← floored]
        apply ih nested.2 held fits
        · rw [floored]
          exact part
        · exact moved

end Format

/-- A request is valid if it is made of whole pages of the input and of the output space. -/
structure Format.Admits (format : Format) (start : VirtualAddress) (target : PhysicalAddress)
    (size : Nat) : Prop where
  input : format.Accepts start size
  aligned : 4096 ∣ target.val
  output : target.val + size ≤ 1 <<< format.outputBits

/-- The request that an insertion makes. -/
abbrev Request.mapping (start : VirtualAddress) (target : PhysicalAddress) (size : Nat)
    (flags : PageFlags) : Request :=
  ⟨⟨start.val, size⟩, target.val, flags⟩

theorem Format.Admits.sited {start : VirtualAddress} {target : PhysicalAddress} {size : Nat}
    (admitted : format.Admits start target size) (flags : PageFlags) :
    (Request.mapping start target size flags).Sited format format.levels
      (Address.zero : VirtualAddress).val := by
  have accepts := admitted.input
  have origin : (Address.zero : VirtualAddress).val = 0 := rfl
  refine ⟨⟨accepts.aligned, accepts.whole, admitted.aligned⟩, accepts.inside, admitted.output,
    ?_, ?_⟩
  · rw [origin]
    exact Nat.dvd_zero _
  · rw [origin, Nat.zero_add, Format.span_levels]
    exact Nat.le_refl _

namespace TranslationTable

variable {root : TranslationTable} {now : Journaled Pool}

/-- A valid request is carried out, or up to the page where the insertion stops; any other changes
nothing. -/
theorem insert_ends (held : root.format.Held now.state root.format.levels root.root branches)
    (fits : root.format.Fits now.state) (start : VirtualAddress) (target : PhysicalAddress)
    (size : Nat) (flags : PageFlags) :
    (root.insert start target size flags).Ends now
      (fun _ last =>
        (Request.mapping start target size flags).Sited root.format root.format.levels 0 ∧
        root.format.Carried root.format.levels root.root (.mapping start target size flags) branches
          size False now.state last.state)
      (fun cause last =>
        ((last.state = now.state ∧ ¬root.format.Admits start target size) ∧
          ∃ start size, cause = .error (.invalidRange start size)) ∨
        (Request.mapping start target size flags).Sited root.format root.format.levels 0 ∧
          ∃ done < size, 4096 ∣ done ∧
            root.format.Carried root.format.levels root.root (.mapping start target size flags)
              branches done (cause = .error .outOfMemory) now.state last.state ∧
            Stopped last.state (start.val + done) (root.format.Blocked root.format.levels
              (.mapping start target size flags) done branches) cause) := by
  simp only [insert, Action.ends_bind]
  apply (Format.checkRange_ends now start size).mono
  · intro _ checked ended
    obtain ⟨same, accepts⟩ := ended
    rw [← same] at held fits ⊢
    rw [Action.ends_ite]
    constructor
    · intro rejected
      have smallest : 1 <<< root.format.minPageBits = 4096 := rfl
      rw [smallest, Bool.or_eq_true, bne_iff_ne, decide_eq_true_eq] at rejected
      simp only [Action.ends_bind, Action.ends_record, Action.ends_fail]
      refine .inl ⟨⟨trivial, fun admitted => ?_⟩, start, size, rfl⟩
      have aligned := admitted.aligned
      have output := admitted.output
      omega
    · intro accepted
      have smallest : 1 <<< root.format.minPageBits = 4096 := rfl
      rw [smallest, Bool.or_eq_true, bne_iff_ne, decide_eq_true_eq] at accepted
      have admitted : root.format.Admits start target size := ⟨accepts, by omega, by omega⟩
      have sited := admitted.sited flags
      have origin : (Address.zero : VirtualAddress).val = 0 := rfl
      have same : target.val = (Request.mapping start target size flags).target := rfl
      have inserts := Format.insertAt_ends root.format.nested_levels held fits sited same 0
      rw [origin] at sited inserts
      apply inserts.mono
      · exact fun _ _ carried => ⟨sited, carried⟩
      · intro cause last ended
        obtain ⟨done, most, whole, carried, stopped⟩ := ended
        rw [Nat.zero_add] at stopped
        exact .inr ⟨sited, done, most, whole, carried, stopped⟩
  · intro cause last ended
    obtain ⟨same, rfl, refused⟩ := ended
    exact .inl ⟨⟨same, fun admitted => refused admitted.input⟩, start, size, rfl⟩

end TranslationTable

end DmaRemap

import DmaRemap.Proofs.HardwareBits
import DmaRemap.Proofs.Ownership

/-! Links that lead where they should. A pool hands out nodes anywhere in the address width, but a
descriptor holds the address bits of its format. As long as the pool lies below what they can name,
every link leads to the node it was stored for, no operation meets a link out of the pool, and every
node stays within reach of a table. -/

namespace DmaRemap

variable {format : Format} {pool : Pool}

namespace Format

/-- The links of a format can name the nodes of every pool that ends where their address bits do. -/
theorem fits_of_stop (stop : pool.window.stop ≤ 1 <<< format.outputBits) : format.Fits pool := by
  intro index
  have inside := index.isLt
  simp only [Pool.window, Window.stop] at stop
  simp only [Pool.addressOf]
  omega

theorem Fits.of_window {after : Pool} (fits : format.Fits pool)
    (same : after.window = pool.window) : format.Fits after := by
  have base : after.base = pool.base := congrArg Window.base same
  have size : after.capacity = pool.capacity := congrArg Window.size same
  intro index
  have named := fits ⟨index.val, size ▸ index.isLt⟩
  simpa only [Pool.addressOf, base] using named

theorem Fits.address {node : PhysicalAddress} {level : Level} (fits : format.Fits pool)
    (live : pool.contains node) (above : level.kind ≠ .leaf) :
    format.address level (format.tableDescriptor node) = node := by
  obtain ⟨words, held⟩ := Pool.contains_iff.mp live
  rw [address_of_not_isPage (isPage_tableDescriptor above node)]
  exact fits.linkTarget held

theorem nextTable_links {now : Journaled Pool} {level : Level} {table : PhysicalAddress}
    {slot : Slot} {word : Word} (fits : format.Fits now.state) (above : level.kind ≠ .leaf)
    (live : now.state.contains table) (vacant : format.isPresent word = false)
    (input : VirtualAddress) :
    (format.nextTable level table slot word input).Ends now
      (fun child last => now.state.node? child = none ∧ last.state.contains child ∧
        ∃ link, last.state.read? table slot = some link ∧ format.address level link = child)
      (fun cause _ => cause = .error .outOfMemory) := by
  obtain ⟨node, held⟩ := Pool.contains_iff.mp live
  unfold nextTable
  simp only [vacant, Bool.not_false, if_true, Action.ends_bind, Action.ends_pure]
  apply (Pool.construct_ends now).mono _ fun _ _ ended => ended.1
  intro child middle ended
  obtain ⟨taken, zero⟩ := ended
  obtain ⟨absent, kept⟩ := taken.kept held List.not_mem_nil
  have fresh := taken.fresh child List.mem_cons_self List.not_mem_nil
  have contained : middle.state.contains table = true := Pool.contains_iff.mpr ⟨node, kept⟩
  unfold store
  simp only [Action.ends_bind, Action.ends_state, contained, if_true]
  apply (Pool.put_ends _ kept).mono _ fun _ _ => False.elim
  intro _ last ended
  obtain ⟨exchange, written, _⟩ := ended
  have apart : child ∉ [table] := by simpa [eq_comm] using absent
  have stays := exchange.elsewhere child apart apart
  refine ⟨fresh, Pool.contains_iff.mpr ⟨_, stays.trans zero⟩, format.tableDescriptor child, ?_, ?_⟩
  · rw [Pool.read?_of_node? written]
    simp [Node.write, Vector.get_eq_getElem]
  · exact (fits.exchange taken).address (Pool.contains_iff.mpr ⟨_, zero⟩) above

end Format

namespace Forest

variable {forest first last : Forest} {operation : Operation}
  {trace : List (Operation × Except (Failure TableError) Unit)}
  {trees : TranslationTable → Branches}

theorem window_finish (operation : Operation) (forest : Forest) (journal : Journal) :
    (operation.perform.finish ⟨forest, journal⟩).state.pool.window = forest.pool.window := by
  have onPool {α : Type} {action : Action Pool TableError α}
      (stays : action.Keeps (Pool.Stays fun _ => True)) (forest : Forest) (journal : Journal) :
      (Operation.perform.onPool action).Ends ⟨forest, journal⟩
        (fun _ last => last.state.pool.window = forest.pool.window)
        (fun _ last => last.state.pool.window = forest.pool.window) := by
    rw [Operation.perform.onPool, Action.ends_on]
    exact (stays.ends _).mono (fun _ _ now => now.window) fun _ _ now => now.window
  have wipes (table : PhysicalAddress) : (fun _ => True) (Effect.wipe table) := trivial
  have writes (table : PhysicalAddress) (slot : Slot) (word : Word) :
      (fun _ => True) (Effect.write table slot word) :=
    trivial
  have ends : operation.perform.Ends ⟨forest, journal⟩
      (fun _ last => last.state.pool.window = forest.pool.window)
      (fun _ last => last.state.pool.window = forest.pool.window) := by
    cases operation with
    | create format coherency =>
      simp only [Operation.perform, Action.ends_bind, Action.ends_update]
      exact onPool (TranslationTable.stays_create wipes format coherency) ..
    | insert table start target size flags =>
      exact onPool (table.stays_insert writes wipes start target size flags) ..
    | remove table start size => exact onPool (table.stays_remove writes wipes start size) ..
    | clear table => exact onPool (table.stays_clear wipes) ..
    | destroy table =>
      simp only [Operation.perform, Action.ends_bind, Action.ends_update]
      exact onPool (table.stays_destroy wipes) ..
  rcases ends.outcome_finish with ⟨_, _, same⟩ | ⟨_, _, same⟩
  · exact same
  · exact same

/-- What an operation of one format does is admitted if links of the format can name every node. -/
theorem Serves.admits (serves : forest.Serves format operation)
    (fits : format.Fits forest.pool) : forest.Admits operation := by
  have member := serves.member
  cases operation with
  | create format' coherency =>
    have uses : format' = format := serves.uses
    exact uses ▸ fits
  | insert table => exact member table rfl
  | remove table => exact member table rfl
  | clear table => exact member table rfl
  | destroy table => exact member table rfl

theorem Service.run {touch : Pool → Pool → Prop} (untouched : ∀ pool pool', ¬touch pool pool')
    (service : first.Service format touch trace last) (fits : format.Fits first.pool) :
    first.Run trace last ∧ last.pool.window = first.pool.window := by
  induction service with
  | start => exact ⟨.start, rfl⟩
  | step _ serves journal ih =>
    obtain ⟨run, same⟩ := ih
    exact ⟨run.step (serves.admits (fits.of_window same)) journal,
      (window_finish ..).trans same⟩
  | touched _ touches => exact absurd touches (untouched _ _)

/-- No operation on a planted forest meets a link out of the pool. -/
theorem perform_known (planted : Planted forest.pool forest.tables trees [])
    (admitted : forest.Admits operation) (journal : Journal) (address : PhysicalAddress) :
    operation.perform.outcome ⟨forest, journal⟩ ≠ .error (.error (.unknownTable address)) := by
  have known {α : Type} {action : Action Forest TableError α} {now : Journaled Forest}
      (ends : action.Ends now (fun _ _ => True)
        fun cause _ => cause ≠ .error (.unknownTable address)) :
      action.outcome now ≠ .error (.error (.unknownTable address)) :=
    fun failed => ends.failed failed rfl
  apply known
  cases operation with
  | create format coherency =>
    simp only [Operation.perform, Operation.perform.onPool, TranslationTable.create,
      Action.ends_bind, Action.ends_on, Action.ends_update]
    apply (Pool.construct_ends _).mono
    · simp
    · rintro cause last ⟨rfl, _⟩
      simp
  | insert table start target size flags =>
    simp only [Operation.perform, Operation.perform.onPool, Action.ends_on]
    apply (TranslationTable.insert_ends (planted.held table admitted) (planted.fits table admitted)
      start target size flags).mono (fun _ _ _ => trivial)
    intro cause last ended
    rcases ended with ⟨_, _, _, rfl⟩ | ⟨_, _, _, _, _, stopped⟩
    · simp
    · cases stopped <;> simp
  | remove table start size =>
    simp only [Operation.perform, Operation.perform.onPool, Action.ends_on]
    apply (TranslationTable.remove_ends (planted.held table admitted) start size).mono
      fun _ _ _ => trivial
    rintro cause last ⟨_, rfl, _⟩
    simp
  | clear table =>
    simp only [Operation.perform, Operation.perform.onPool, Action.ends_on]
    exact (TranslationTable.clear_ends (planted.held table admitted)).mono (fun _ _ _ => trivial)
      fun _ _ => False.elim
  | destroy table =>
    simp only [Operation.perform, Operation.perform.onPool, Action.ends_bind, Action.ends_on,
      Action.ends_update]
    exact (TranslationTable.destroy_ends (planted.held table admitted)).mono
      (fun _ _ _ => trivial) fun _ _ => False.elim

/-- No operation of a run meets a link out of the pool. -/
theorem Run.known (run : first.Run trace last)
    (planted : Planted first.pool first.tables trees [])
    (canonical : ∀ table ∈ first.tables, table.Canonical (trees table)) :
    ∀ entry ∈ trace, ∀ address, entry.2 ≠ .error (.error (.unknownTable address)) := by
  induction run with
  | start => exact fun _ member => absurd member List.not_mem_nil
  | step run admitted journal ih =>
    obtain ⟨_, reached, _⟩ := run.planted planted canonical
    intro entry member
    rcases List.mem_append.mp member with before | here
    · exact ih entry before
    · rw [List.mem_singleton.mp here]
      exact perform_known reached admitted journal

/-- On tables of one format, in a new pool that their links can name up to its end, no operation
ever meets a link out of the pool. The link that is stored for a new table leads to it, every link
of every table leads to a node that was handed out, and each such node is within reach of just one
table by just one link. Links of a CPU's tables can name every pool. -/
theorem links_resolve {base : PhysicalAddress} {nodes : Array Node}
    (made : Pool.over? base nodes = some pool)
    (low : format = .secondLevel → base.val + nodes.size * 4096 ≤ 1 <<< 48)
    (service : Undisturbed format ⟨pool, []⟩ trace last) :
    (∀ entry ∈ trace, ∀ address, entry.2 ≠ .error (.error (.unknownTable address))) ∧
    (∀ now : Journaled Pool, now.state.window = pool.window → ∀ level table slot word input,
      level.kind ≠ .leaf → now.state.contains table → format.isPresent word = false →
        (format.nextTable level table slot word input).Ends now
          (fun child last => now.state.node? child = none ∧ last.state.contains child ∧
            ∃ link, last.state.read? table slot = some link ∧ format.address level link = child)
          (fun cause _ => cause = .error .outOfMemory)) ∧
    (∀ table ∈ last.tables, ∃ entries : List WalkEntry,
      table.visits last.pool = .ok (entries.map .entry) ∧
        ∀ entry ∈ entries, ∀ next, entry.target = .table next → last.pool.contains next) ∧
    last.nodes.Nodup ∧
    ∀ address, last.pool.contains address ↔ address ∈ last.nodes := by
  have fits : format.Fits pool := by
    apply Format.fits_of_stop
    cases format with
    | secondLevel =>
      rw [Pool.window_of_over? made]
      exact low rfl
    | cpu => exact Nat.le_of_lt pool.fits
  obtain ⟨run, same⟩ := service.run (fun _ _ => id) fits
  obtain ⟨_, planted, _⟩ := run.planted (planted_nil made) nofun
  refine ⟨run.known (planted_nil made) nofun, ?_, fun table => planted.links_contained,
    planted.nodup_nodes, planted.contains_iff_mem_nodes⟩
  intro now window level table slot word input above live vacant
  exact Format.nextTable_links (fits.of_window window) above live vacant input

theorem serves_create (forest : Forest) (format : Format) (coherency : Coherency) :
    forest.Serves format (.create format coherency) := by
  refine ⟨rfl, fun table about => ?_⟩
  cases about

theorem made_samplePool :
    Pool.over? samplePool.base (Array.replicate 4 Node.zero) = some samplePool :=
  Pool.over?_eq_fresh Array.size_replicate _ _

/-- In the sample pool a second-level table is mapped without meeting a link out of the pool. -/
theorem links_resolve_sample :
    (sampleMapping ⟨0x200000, by decide⟩ ⟨0x400000, by decide⟩).perform.outcome
        ⟨sample, silent⟩ ≠
      .error (.error (.unknownTable Address.zero)) ∧
    mappedSample.nodes.Nodup ∧
    mappedSample.pool.contains ⟨0x102000, by decide⟩ ∧
    ⟨0x102000, by decide⟩ ∈ mappedSample.nodes := by
  have planting : Serves ⟨samplePool, []⟩ .secondLevel (.create .secondLevel .coherent) :=
    serves_create ..
  have mapping (start : VirtualAddress) (target : PhysicalAddress) :
      sample.Serves .secondLevel (sampleMapping start target) := by
    refine ⟨rfl, fun table about => ?_⟩
    cases about
    exact sampleTable_mem
  have service : Undisturbed .secondLevel ⟨samplePool, []⟩ _ mappedSample :=
    (Service.start.step planting silent).step (mapping ..) silent
  obtain ⟨known, _, _, nodup, live⟩ := links_resolve made_samplePool (fun _ => by decide) service
  have contained : mappedSample.pool.contains ⟨0x102000, by decide⟩ := by decide +kernel
  refine ⟨known (sampleMapping ⟨0x200000, by decide⟩ ⟨0x400000, by decide⟩, _) ?_ _, nodup,
    contained, (live _).mp contained⟩
  exact List.mem_append_right _ List.mem_cons_self

/-- A pool of four nodes above what the links of second-level tables can name. -/
def highPool : Pool :=
  .fresh ⟨0x1000000000000, by decide⟩ 4 (by decide) (by decide)

/-- The forest with one second-level table, whose root is the first node of this pool. -/
def highSample : Forest :=
  ((Operation.create .secondLevel .coherent).perform.finish ⟨⟨highPool, []⟩, silent⟩).state

/-- Maps one page in the table of the sample. -/
def highMapping (start : VirtualAddress) (target : PhysicalAddress) : Operation :=
  .insert ⟨.secondLevel, highPool.base, .coherent⟩ start target 0x1000 .empty

/-- The sample after one page has been mapped. -/
def highMapped (start : VirtualAddress) (target : PhysicalAddress) : Forest :=
  ((highMapping start target).perform.finish ⟨highSample, silent⟩).state

/-- In a pool above the address bits of second-level descriptors the link that is stored for a new
table leads elsewhere, and the next insertion there meets a link out of the pool. -/
theorem link_truncated :
    Pool.over? highPool.base (Array.replicate 4 Node.zero) = some highPool ∧
    ∃ trace last, Undisturbed .secondLevel ⟨highPool, []⟩ trace last ∧
      (∃ child link, last.pool.contains child ∧ last.pool.read? highPool.base 0 = some link ∧
        link = Format.secondLevel.tableDescriptor child ∧
        ∀ level, Format.secondLevel.isPage level link = false →
          Format.secondLevel.address level link ≠ child) ∧
      ∃ operation : Operation, last.Serves .secondLevel operation ∧
        operation.perform.outcome ⟨last, silent⟩ =
          .error (.error (.unknownTable ⟨0x1000, by decide⟩)) := by
  have made : Pool.over? highPool.base (Array.replicate 4 Node.zero) = some highPool :=
    Pool.over?_eq_fresh Array.size_replicate _ _
  have planting : Serves ⟨highPool, []⟩ .secondLevel (.create .secondLevel .coherent) :=
    serves_create ..
  have mapping {forest : Forest}
      (member : ⟨.secondLevel, highPool.base, .coherent⟩ ∈ forest.tables)
      (start : VirtualAddress) (target : PhysicalAddress) :
      forest.Serves .secondLevel (highMapping start target) := by
    refine ⟨rfl, fun table about => ?_⟩
    cases about
    exact member
  have mapped : Undisturbed .secondLevel ⟨highPool, []⟩ _
      (highMapped ⟨0, by decide⟩ ⟨0x5000, by decide⟩) :=
    (Service.start.step planting silent).step (mapping (by decide +kernel) ..) silent
  refine ⟨made, _, _, mapped,
    ⟨⟨0x1000000001000, by decide⟩, _, by decide +kernel, ?_, rfl, fun level link => ?_⟩,
    highMapping ⟨0x1000, by decide⟩ ⟨0x6000, by decide⟩, mapping (by decide +kernel) .., ?_⟩
  · decide +kernel
  · rw [Format.address_of_not_isPage link]
    decide
  · decide +kernel

end Forest

end DmaRemap

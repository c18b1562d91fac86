import DmaRemap.Proofs.BindingMap

/-! Tables as hardware finds them. Hardware may walk the tables between any two writes, so what it
finds while software is at work is told by the memory after each beginning of the effects. The two
words of a context entry are written one after the other: a walk finds the entry before, the entry
after, or, between the writes, the low word of the one with the high word of the other. -/

namespace DmaRemap

/-- The words that hardware reads at the addresses of tables. -/
abbrev Memory := PhysicalAddress → Node

namespace Memory

variable {memory : Memory} {root context table other : PhysicalAddress} {bdf : Bdf} {node : Node}

/-- Memory with other words at the address of one table. -/
def store (memory : Memory) (table : PhysicalAddress) (node : Node) : Memory :=
  Function.update memory table node

@[simp] theorem store_self : memory.store table node table = node :=
  Function.update_self ..

theorem store_of_ne (different : other ≠ table) : memory.store table node other = memory other :=
  Function.update_of_ne different ..

@[simp] theorem store_eq_self : memory.store table (memory table) = memory :=
  Function.update_eq_self ..

/-- Memory after an effect. -/
def after (memory : Memory) : Effect → Memory
  | .write table slot word => memory.store table ((memory table).write [(slot, word)])
  | .wipe table => memory.store table Node.zero
  | .access _ => memory

/-- Memory after effects, one after the other. -/
def replay (memory : Memory) (effects : List Effect) : Memory :=
  effects.foldl after memory

/-- The context entry that a walk from a root table finds for a device. -/
def contextEntry (memory : Memory) (root : PhysicalAddress) (bdf : Bdf) : ContextEntry :=
  match (memory root).contextTable? bdf.bus with
  | .ok (some context) => (memory context).contextEntry bdf.devfn
  | _ => .absent

theorem replay_append (memory : Memory) (first second : List Effect) :
    memory.replay (first ++ second) = (memory.replay first).replay second :=
  List.foldl_append

/-- The effects of writing words of one table. -/
def writesOf (table : PhysicalAddress) (writes : List (Slot × Word)) : List Effect :=
  writes.map fun entry => .write table entry.1 entry.2

theorem replay_writesOf (memory : Memory) (table : PhysicalAddress) (writes : List (Slot × Word)) :
    memory.replay (writesOf table writes) = memory.store table ((memory table).write writes) := by
  induction writes generalizing memory with
  | nil => exact store_eq_self.symm
  | cons entry rest ih =>
    have step : memory.replay (writesOf table (entry :: rest)) =
        (memory.after (.write table entry.1 entry.2)).replay (writesOf table rest) := rfl
    rw [step, ih, after, store_self]
    exact Function.update_idem ..

/-- A walk from a root table that links a context table finds the entry there. -/
theorem contextEntry_of_linked (held : memory root = node)
    (linked : node.contextTable? bdf.bus = .ok (some context)) :
    memory.contextEntry root bdf = (memory context).contextEntry bdf.devfn := by
  rw [contextEntry, held, linked]

theorem contextEntry_of_unlinked (held : memory root = node)
    (unlinked : node.contextTable? bdf.bus = .ok none) :
    memory.contextEntry root bdf = .absent := by
  rw [contextEntry, held, unlinked]

end Memory

/-- The memory that a pool owns. Hardware is not led to nodes that are not handed out. -/
def Pool.memory (pool : Pool) : Memory := fun address => (pool.node? address).getD Node.zero

theorem Pool.memory_of_node? {pool : Pool} {address : PhysicalAddress} {node : Node}
    (held : pool.node? address = some node) : pool.memory address = node := by
  rw [memory, held, Option.getD_some]

/-- Where nodes were exchanged at one address only, memory changed there and nowhere else. -/
theorem Pool.Exchanges.memory_eq {before after : Pool} {old new : List PhysicalAddress}
    {address : PhysicalAddress} {node : Node} (exchange : before.Exchanges after old new)
    (oldWithin : old ⊆ [address]) (newWithin : new ⊆ [address])
    (held : after.node? address = some node) :
    after.memory = before.memory.store address node := by
  funext other
  by_cases same : other = address
  · rw [same, Memory.store_self]
    exact memory_of_node? held
  · rw [Memory.store_of_ne same]
    have outside {nodes : List PhysicalAddress} (within : nodes ⊆ [address]) : other ∉ nodes :=
      fun member => same (List.mem_singleton.mp (within member))
    rw [memory, memory, exchange.elsewhere other (outside oldWithin) (outside newWithin)]

/-- Handing out a node clears it, and that is all that can be observed. -/
theorem Pool.construct_log (start : Journaled Pool) :
    construct.Ends start
      (fun address last => last.journal.log = start.journal.log ++ [.wipe address])
      (fun _ last => last.journal.log = start.journal.log) := by
  unfold construct
  simp only [Action.ends_bind, Action.ends_step]
  rcases start.state.take with ⟨_ | address, next⟩
  · rw [Action.ends_fail]
  · simp

namespace ContextEntry

variable {old new found : ContextEntry}

/-- Whether what a walk found is no entry, or one of two entries as a whole. -/
def Whole (old new found : ContextEntry) : Prop :=
  found.present = false ∨ found = old ∨ found = new

instance : Decidable (old.Whole new found) :=
  inferInstanceAs (Decidable (_ ∨ _ ∨ _))

/-- What a walk may find while an entry takes the place of another, the high word first. -/
def Between (old new found : ContextEntry) : Prop :=
  found = old ∨ found = ⟨old.low, new.high⟩ ∨ found = new

/-- Whether an entry can give way to another in two writes: it is not present, or only one of the
words changes. -/
def GivesWay (old new : ContextEntry) : Prop :=
  old.present = false ∨ old.low = new.low ∨ old.high = new.high

/-- What stands between the two writes is whole exactly if the one entry can give way to the other.
-/
theorem whole_between_iff : old.Whole new ⟨old.low, new.high⟩ ↔ old.GivesWay new := by
  have present : (⟨old.low, new.high⟩ : ContextEntry).present = old.present := rfl
  cases old with
  | mk low high =>
    cases new with
    | mk low' high' =>
      simp only [Whole, GivesWay, present, mk.injEq, true_and, and_true]
      exact or_congr_right ⟨fun holds => holds.symm.imp_right Eq.symm,
        fun holds => holds.symm.imp_left Eq.symm⟩

theorem Between.whole (between : old.Between new found) (givesWay : old.GivesWay new) :
    old.Whole new found := by
  rcases between with same | rfl | same
  · exact .inr (.inl same)
  · exact whole_between_iff.mpr givesWay
  · exact .inr (.inr same)

end ContextEntry

theorem Binding.givesWay_iff {first second : Binding} :
    first.entry.GivesWay second.entry ↔
      first.table = second.table ∨ first.domain = second.domain := by
  have present : first.entry.present = true := ContextEntry.present_binding
  rw [ContextEntry.GivesWay, present]
  simp only [Bool.true_eq_false, false_or]
  constructor
  · intro holds
    refine holds.imp (fun same => ?_) fun same => ?_
    · have tables : first.entry.table = second.entry.table := by
        rw [ContextEntry.table, ContextEntry.table, same]
      rwa [table_entry, table_entry, Except.ok.injEq] at tables
    · have domains : first.entry.domain = second.entry.domain := by
        rw [ContextEntry.domain, ContextEntry.domain, same]
      rwa [entry, entry, ContextEntry.domain_binding, ContextEntry.domain_binding] at domains
  · intro holds
    refine holds.imp (fun same => ?_) fun same => ?_
    · simp only [entry, ContextEntry.binding, same]
    · simp only [entry, ContextEntry.binding, same]

namespace Node

variable {node : Node} {devfn other : Fin 256} {entry : ContextEntry} {done : List (Slot × Word)}

theorem prefix_putWrites_iff :
    done <+: putWrites devfn entry ↔
      done = [] ∨ done = [(highSlot devfn, entry.high)] ∨ done = putWrites devfn entry := by
  simp only [putWrites, List.prefix_cons_iff, List.prefix_nil]
  constructor
  · rintro (rfl | ⟨_, rfl, rfl | ⟨_, rfl, rfl⟩⟩) <;> simp
  · rintro (rfl | rfl | rfl) <;> simp

theorem contextEntry_high :
    (node.write [(highSlot devfn, entry.high)]).contextEntry other =
      if other = devfn then ⟨(node.contextEntry devfn).low, entry.high⟩
      else node.contextEntry other := by
  simp only [write, List.foldl_cons, List.foldl_nil, contextEntry, Fin.getElem_fin,
    Vector.getElem_set, Fin.val_inj, highSlot_inj, (lowSlot_ne_highSlot _ _).symm, if_false]
  by_cases same : other = devfn
  · simp [same]
  · simp [same, Ne.symm same]

/-- While an entry is put, no other one changes, and this one is at most between the two. -/
theorem contextEntry_of_begun (begun : done <+: putWrites devfn entry) :
    (node.contextEntry devfn).Between entry ((node.write done).contextEntry devfn) ∧
      ∀ other, other ≠ devfn → (node.write done).contextEntry other = node.contextEntry other := by
  rcases prefix_putWrites_iff.mp begun with rfl | rfl | rfl
  · exact ⟨.inl rfl, fun _ _ => rfl⟩
  · exact ⟨.inr (.inl (contextEntry_high.trans (if_pos rfl))),
      fun other different => contextEntry_high.trans (if_neg different)⟩
  · exact ⟨.inr (.inr (contextEntry_put.trans (if_pos rfl))),
      fun other different => contextEntry_put.trans (if_neg different)⟩

/-- An entry is found whole all the while another takes its place exactly if it can give way. -/
theorem whole_while_put_iff :
    (∀ done, done <+: putWrites devfn entry →
        (node.contextEntry devfn).Whole entry ((node.write done).contextEntry devfn)) ↔
      (node.contextEntry devfn).GivesWay entry := by
  constructor
  · intro whole
    have half := whole _ (prefix_putWrites_iff.mpr (.inr (.inl rfl)))
    rwa [contextEntry_high, if_pos rfl, ContextEntry.whole_between_iff] at half
  · intro givesWay done begun
    exact (contextEntry_of_begun begun).1.whole givesWay

/-- While a context table is linked, the root table links what it did, and at last that table too.
-/
theorem contextTable?_of_begun {root : Node} {bus other : Fin 256} {table : PhysicalAddress}
    (aligned : 4096 ∣ table.val) (begun : done <+: linkWrites bus table) :
    (root.write done).contextTable? other = root.contextTable? other ∨
      other = bus ∧ (root.write done).contextTable? other = .ok (some table) := by
  simp only [linkWrites, List.prefix_cons_iff, List.prefix_nil] at begun
  rcases begun with rfl | ⟨_, rfl, rfl | ⟨_, rfl, rfl⟩⟩
  · exact .inl rfl
  · left
    simp only [write, List.foldl_cons, List.foldl_nil, contextTable?, Fin.getElem_fin,
      Vector.getElem_set, Fin.val_inj, (lowSlot_ne_highSlot _ _).symm, if_false]
  · change (root.write (linkWrites bus table)).contextTable? other = _ ∨
      _ ∧ (root.write (linkWrites bus table)).contextTable? other = _
    rw [contextTable?_link aligned]
    split
    case isTrue same => exact .inr ⟨same, rfl⟩
    case isFalse => exact .inl rfl

end Node

namespace Bindings

variable {bindings : Bindings} {contexts : Fin 256 → Option PhysicalAddress} {bus : Fin 256}
  {bdf : Bdf} {context : PhysicalAddress} {node : Node} {safe safe' : Memory → Prop}
  {start middle last : Journaled Bindings}

/-- From one state to another memory was changed by the effects noted since and by nothing else, and
it was safe at every moment. -/
def Passes (safe : Memory → Prop) (start last : Journaled Bindings) : Prop :=
  ∃ added, last.journal.log = start.journal.log ++ added ∧
    last.state.pool.memory = start.state.pool.memory.replay added ∧
    ∀ done, done <+: added → safe (start.state.pool.memory.replay done)

theorem Passes.still (same : last.state.pool.memory = start.state.pool.memory)
    (quiet : last.journal.log = start.journal.log) (begun : safe start.state.pool.memory) :
    Passes safe start last := by
  refine ⟨[], by rw [quiet, List.append_nil], same, fun done early => ?_⟩
  rwa [List.prefix_nil.mp early]

theorem Passes.trans (first : Passes safe start middle) (second : Passes safe middle last) :
    Passes safe start last := by
  obtain ⟨added, log, memory, held⟩ := first
  obtain ⟨more, log', memory', held'⟩ := second
  refine ⟨added ++ more, ?_, ?_, fun done begun => ?_⟩
  · rw [log', log, List.append_assoc]
  · rw [memory', memory, Memory.replay_append]
  · rcases List.prefix_or_prefix_of_prefix begun (List.prefix_append added more) with
      early | ⟨rest, rfl⟩
    · exact held done early
    · rw [Memory.replay_append, ← memory]
      exact held' rest ((List.prefix_append_right_inj added).mp begun)

theorem Passes.mono (passes : Passes safe start last)
    (weaker : ∀ memory, safe memory → safe' memory) : Passes safe' start last := by
  obtain ⟨added, log, memory, held⟩ := passes
  exact ⟨added, log, memory, fun done begun => weaker _ (held done begun)⟩

theorem Passes.arrives (passes : Passes safe start last) : safe last.state.pool.memory := by
  obtain ⟨added, _, memory, held⟩ := passes
  rw [memory]
  exact held added (List.prefix_refl added)

/-- Writing words of a table passes through what each beginning of the writes leaves there. -/
theorem put_passes {ε : Type} {table : PhysicalAddress}
    (held : start.state.pool.node? table = some node) (writes : List (Slot × Word))
    (begun : ∀ done, done <+: writes →
      safe (start.state.pool.memory.store table (node.write done))) :
    (Action.on tables (Pool.put table writes) : Action Bindings ε Unit).Returns start
      fun _ last => Passes safe start last := by
  apply (Action.ends_on _ _).mpr
  apply (Pool.put_ends writes held).mono _ fun _ _ => id
  intro _ last ended
  obtain ⟨exchange, written, log⟩ := ended
  have replayed (done : List (Slot × Word)) :
      start.state.pool.memory.replay (Memory.writesOf table done) =
        start.state.pool.memory.store table (node.write done) := by
    rw [Memory.replay_writesOf, Pool.memory_of_node? held]
  refine ⟨_, log, ?_, fun done early => ?_⟩
  · exact (exchange.memory_eq (List.Subset.refl _) (List.Subset.refl _) written).trans
      (replayed writes).symm
  · obtain ⟨done, cut, rfl⟩ := List.prefix_map_iff.mp early
    exact replayed done ▸ begun done cut

theorem Wired.contextTable?_memory (wired : bindings.Wired contexts) (bus : Fin 256) :
    (bindings.pool.memory bindings.root).contextTable? bus = .ok (contexts bus) := by
  obtain ⟨root, held, links⟩ := wired.root
  rw [Pool.memory_of_node? held]
  exact links bus

/-- Hardware finds the entries that software reads. -/
theorem Wired.context_memory (wired : bindings.Wired contexts) (bdf : Bdf) :
    bindings.context bdf = .ok (bindings.pool.memory.contextEntry bindings.root bdf) := by
  have links := wired.contextTable?_memory bdf.bus
  rw [wired.context_eq]
  cases reached : contexts bdf.bus with
  | none =>
    rw [reached] at links
    rw [Memory.contextEntry_of_unlinked rfl links]
    rfl
  | some context =>
    obtain ⟨node, live⟩ := wired.live reached
    rw [reached] at links
    rw [Memory.contextEntry_of_linked rfl links, entryAt_of_node? live, Pool.memory_of_node? live]

theorem Wired.contextEntry_store (wired : bindings.Wired contexts)
    (linked : contexts bus = some context) (node : Node) (bdf : Bdf) :
    (bindings.pool.memory.store context node).contextEntry bindings.root bdf =
      if bdf.bus = bus then node.contextEntry bdf.devfn
      else bindings.pool.memory.contextEntry bindings.root bdf := by
  have links := wired.contextTable?_memory bdf.bus
  have kept : bindings.pool.memory.store context node bindings.root =
      bindings.pool.memory bindings.root := Memory.store_of_ne (wired.apart linked).symm
  cases reached : contexts bdf.bus with
  | none =>
    have different : bdf.bus ≠ bus := by
      intro same
      cases (same ▸ reached).symm.trans linked
    rw [reached] at links
    rw [if_neg different, Memory.contextEntry_of_unlinked rfl links,
      Memory.contextEntry_of_unlinked kept links]
  | some found =>
    rw [reached] at links
    rw [Memory.contextEntry_of_linked rfl links, Memory.contextEntry_of_linked kept links]
    by_cases same : bdf.bus = bus
    · cases (same ▸ reached).symm.trans linked
      rw [if_pos same, Memory.store_self]
    · have different : found ≠ context := by
        rintro rfl
        exact same (wired.distinct reached linked)
      rw [if_neg same, Memory.store_of_ne different]

/-- While an empty table is linked for a bus that has none, walks find the entries they found. -/
theorem Wired.contextEntry_linking {table : PhysicalAddress} {done : List (Slot × Word)}
    (wired : bindings.Wired contexts) (unlinked : contexts bus = none)
    (fresh : bindings.pool.node? table = none) (aligned : 4096 ∣ table.val)
    (begun : done <+: Node.linkWrites bus table) (bdf : Bdf) :
    ((bindings.pool.memory.store table Node.zero).store bindings.root
        ((bindings.pool.memory bindings.root).write done)).contextEntry bindings.root bdf =
      bindings.pool.memory.contextEntry bindings.root bdf := by
  have unreached {address : PhysicalAddress} {node : Node}
      (live : bindings.pool.node? address = some node) : address ≠ table := by
    rintro rfl
    cases fresh.symm.trans live
  obtain ⟨_, held, _⟩ := wired.root
  have links := wired.contextTable?_memory bdf.bus
  -- The new table is linked by the last write, and until then nothing leads to it.
  rcases Node.contextTable?_of_begun aligned begun with same | ⟨here, linked⟩
  · cases reached : contexts bdf.bus with
    | none =>
      rw [reached] at links
      rw [Memory.contextEntry_of_unlinked rfl links,
        Memory.contextEntry_of_unlinked Memory.store_self (same.trans links)]
    | some context =>
      obtain ⟨_, live⟩ := wired.live reached
      rw [reached] at links
      rw [Memory.contextEntry_of_linked rfl links,
        Memory.contextEntry_of_linked Memory.store_self (same.trans links),
        Memory.store_of_ne (wired.apart reached), Memory.store_of_ne (unreached live)]
  · have absent : (bindings.pool.memory bindings.root).contextTable? bdf.bus = .ok none := by
      rw [links, here, unlinked]
    rw [Memory.contextEntry_of_unlinked rfl absent,
      Memory.contextEntry_of_linked Memory.store_self linked,
      Memory.store_of_ne (unreached held).symm, Memory.store_self, contextEntry_zero]

/-- A message changes nothing that hardware finds. -/
theorem Passes.record (passes : Passes safe start last) (severity : Severity)
    (text : Unit → String) : Passes safe start ⟨last.state, last.journal.record severity text⟩ :=
  passes.trans (.still rfl (Journal.log_record ..) passes.arrives)

theorem Passes.of_taken {pool : Pool} {journal : Journal} {table : PhysicalAddress}
    (taken : start.state.pool.Exchanges pool [] [table]) (zero : pool.node? table = some Node.zero)
    (log : journal.log = start.journal.log ++ [.wipe table]) (begun : safe start.state.pool.memory)
    (cleared : safe (start.state.pool.memory.store table Node.zero)) :
    Passes safe start ⟨{ start.state with pool }, journal⟩ := by
  refine ⟨[.wipe table], log, ?_, fun done early => ?_⟩
  · exact taken.memory_eq (List.nil_subset _) (List.Subset.refl _) zero
  · rcases List.prefix_cons_iff.mp early with rfl | ⟨rest, rfl, none⟩
    · exact begun
    · rw [List.prefix_nil.mp none]
      exact cleared

/-- The context table of a bus is there or made, and whatever hardware finds on the way is what it
found before. -/
theorem ensureContextTable_passes (wired : start.state.Wired contexts) (bus : Fin 256) :
    let unchanged (memory : Memory) := ∀ bdf, memory.contextEntry start.state.root bdf =
      start.state.pool.memory.contextEntry start.state.root bdf
    (ensureContextTable bus).Ends start (fun _ => Passes unchanged start)
      (fun _ => Passes unchanged start) := by
  intro unchanged
  obtain ⟨root, held, _⟩ := wired.root
  unfold ensureContextTable
  simp only [Action.ends_bind, Action.ends_state, wired.contextTable?_eq, Action.ends_lift_ok]
  cases linked : contexts bus with
  | some context =>
    simp only [Action.ends_pure]
    exact .still rfl rfl fun _ => rfl
  | none =>
    have contained : start.state.pool.contains start.state.root = true :=
      Pool.contains_iff.mpr ⟨root, held⟩
    simp only [Action.ends_bind, contained, if_true, Action.ends_pure]
    apply (Action.ends_on _ _).mpr
    apply ((Pool.construct_ends _).and (Pool.construct_log _)).mono
    · intro table middle made
      obtain ⟨⟨taken, zero⟩, log⟩ := made
      have fresh := taken.fresh table List.mem_cons_self List.not_mem_nil
      obtain ⟨absent, kept⟩ := taken.kept held List.not_mem_nil
      have apart : start.state.root ≠ table := fun same => absent (List.mem_singleton.mpr same)
      have linking (done : List (Slot × Word)) (begun : done <+: Node.linkWrites bus table) :
          unchanged ((start.state.pool.memory.store table Node.zero).store start.state.root
            (root.write done)) := by
        rw [← Pool.memory_of_node? held]
        exact wired.contextEntry_linking linked fresh (Pool.dvd_of_node? zero) begun
      have cleared : unchanged (start.state.pool.memory.store table Node.zero) := by
        have same : start.state.pool.memory.store table Node.zero start.state.root = root :=
          (Memory.store_of_ne apart).trans (Pool.memory_of_node? held)
        have nothing : unchanged ((start.state.pool.memory.store table Node.zero).store
          start.state.root root) := linking [] List.nil_prefix
        rwa [← same, Memory.store_eq_self] at nothing
      let now : Journaled Bindings := ⟨{ start.state with pool := middle.state }, middle.journal⟩
      have passed : Passes unchanged start now := .of_taken taken zero log (fun _ => rfl) cleared
      have memory : now.state.pool.memory = start.state.pool.memory.store table Node.zero :=
        taken.memory_eq (List.nil_subset _) (List.Subset.refl _) zero
      have put : (Action.on tables (Pool.put start.state.root (Node.linkWrites bus table)) :
          Action Bindings TableError Unit).Returns now fun _ => Passes unchanged now :=
        put_passes kept _ fun done begun => memory ▸ linking done begun
      apply put.mono _ fun _ _ => False.elim
      intro _ last linked
      exact (Action.ends_record ..).mpr ((passed.trans linked).record ..)
    · intro cause last failed
      obtain ⟨⟨_, same, _⟩, quiet⟩ := failed
      exact .still (congrArg Pool.memory same) quiet fun _ => rfl

/-- What hardware may find while the entry of a device is replaced: of every other device the entry
that it had, and of this one no more than a mixture of the two. -/
structure Replacing (bindings : Bindings) (bdf : Bdf) (new : ContextEntry) (memory : Memory) :
    Prop where
  others : ∀ other, other ≠ bdf → memory.contextEntry bindings.root other =
    bindings.pool.memory.contextEntry bindings.root other
  between : (bindings.pool.memory.contextEntry bindings.root bdf).Between new
    (memory.contextEntry bindings.root bdf)

theorem Replacing.of_unchanged {new : ContextEntry} {memory : Memory}
    (unchanged : ∀ bdf, memory.contextEntry bindings.root bdf =
      bindings.pool.memory.contextEntry bindings.root bdf) : bindings.Replacing bdf new memory :=
  ⟨fun other _ => unchanged other, .inl (unchanged bdf)⟩

/-- What is found while an entry is put where the entries are those of an earlier state. -/
theorem Replacing.since {earlier : Bindings} {new : ContextEntry} {memory : Memory}
    (replacing : bindings.Replacing bdf new memory) (root : bindings.root = earlier.root)
    (unchanged : ∀ bdf, bindings.pool.memory.contextEntry earlier.root bdf =
      earlier.pool.memory.contextEntry earlier.root bdf) : earlier.Replacing bdf new memory := by
  obtain ⟨others, between⟩ := replacing
  rw [root] at others between
  exact ⟨fun other different => (others other different).trans (unchanged other),
    unchanged bdf ▸ between⟩

theorem Wired.replacing_put {new : ContextEntry} {done : List (Slot × Word)}
    (wired : bindings.Wired contexts) (linked : contexts bdf.bus = some context)
    (live : bindings.pool.node? context = some node)
    (begun : done <+: Node.putWrites bdf.devfn new) :
    bindings.Replacing bdf new (bindings.pool.memory.store context (node.write done)) := by
  have found (other : Bdf) (same : other.bus = bdf.bus) :
      bindings.pool.memory.contextEntry bindings.root other = node.contextEntry other.devfn := by
    rw [← Pool.memory_of_node? live]
    exact Memory.contextEntry_of_linked rfl (by rw [wired.contextTable?_memory, same, linked])
  have replaced : (node.contextEntry bdf.devfn).Between new
        ((node.write done).contextEntry bdf.devfn) ∧ ∀ other, other ≠ bdf.devfn →
      (node.write done).contextEntry other = node.contextEntry other :=
    Node.contextEntry_of_begun begun
  obtain ⟨between, others⟩ := replaced
  constructor
  · intro other different
    rw [wired.contextEntry_store linked]
    split
    case isTrue same =>
      rw [found other same]
      exact others _ fun devfn => different (Bdf.ext_devfn same devfn)
    case isFalse => rfl
  · rw [wired.contextEntry_store linked, if_pos rfl, found bdf rfl]
    exact between

/-- However binding a device ends, memory changed by the effects that it noted, and at every moment
hardware finds the entries of the other devices unchanged, and of this one no more than a mixture of
the entry before and the new one. -/
theorem bind_passes (wired : start.state.Wired contexts) (bdf : Bdf) (table : PhysicalAddress)
    (domain : DomainId) :
    (bind bdf table domain).Ends start
      (fun _ => Passes (start.state.Replacing bdf (.binding table domain)) start)
      (fun _ => Passes (start.state.Replacing bdf (.binding table domain)) start) := by
  unfold bind
  simp only [Action.ends_bind]
  apply ((ensureContextTable_ends wired bdf.bus).and
    (ensureContextTable_passes wired bdf.bus)).mono
  · intro context middle ended
    obtain ⟨⟨contexts', wired', linked, _, relinks, _⟩, unchanged⟩ := ended
    obtain ⟨node, live⟩ := wired'.live linked
    have passed : Passes (start.state.Replacing bdf (.binding table domain)) start middle :=
      unchanged.mono fun _ => .of_unchanged
    -- What putting the entry passes, after a message about the previous one or none.
    have put (now : Journaled Bindings) (same : now.state = middle.state)
        (quiet : now.journal.log = middle.journal.log) :
        (Action.on tables (Pool.put context (Node.putWrites bdf.devfn (.binding table domain))) :
          Action Bindings TableError Unit).Returns now fun _ last =>
            Passes (start.state.Replacing bdf (.binding table domain)) start last := by
      have reached : Passes (start.state.Replacing bdf (.binding table domain)) start now :=
        passed.trans (.still (by rw [same]) quiet passed.arrives)
      rw [← same] at wired' live relinks
      have found := unchanged.arrives
      rw [← same] at found
      apply (put_passes live _ fun done begun =>
        (wired'.replacing_put linked live begun).since relinks.root found).mono _ fun _ _ => id
      exact fun _ _ => reached.trans
    simp only [Action.ends_state, live]
    rw [Action.ends_ite]
    constructor
    · intro _
      exact (Action.ends_pure _).mpr passed
    · intro _
      by_cases present : (node.contextEntry bdf.devfn).present = true
      · simp only [present, if_true, Action.ends_bind]
        apply Action.ends_recordM_lift
        · intro journal quiet
          apply (put ⟨middle.state, journal⟩ rfl quiet).mono _ fun _ _ => False.elim
          exact fun _ _ written => (Action.ends_pure _).mpr written
        · exact fun _ _ => passed
      · simp only [present, Bool.false_eq_true, if_false, Action.ends_bind]
        apply (put middle rfl rfl).mono _ fun _ _ => False.elim
        exact fun _ _ written => (Action.ends_pure _).mpr written
  · intro cause last failed
    exact failed.2.mono fun _ => .of_unchanged

theorem finish_bind_passes (wired : start.state.Wired contexts) (bdf : Bdf)
    (table : PhysicalAddress) (domain : DomainId) :
    Passes (start.state.Replacing bdf (.binding table domain)) start
      ((bind bdf table domain).finish start) := by
  rcases (bind_passes wired bdf table domain).outcome_finish with
    ⟨_, _, passes⟩ | ⟨_, _, passes⟩
  · exact passes
  · exact passes

/-- An entry takes the place of another without ever being mixed with it exactly if the two can give
way: the one before is not present, or a word stays as it is. The entries of other devices do not
change meanwhile, and all the while that a device is bound, its context table made or the binding
before overwritten, hardware finds no more than that. -/
theorem entries_whole (table : PhysicalAddress) (domain : DomainId) :
    let new := ContextEntry.binding table domain
    (∀ (context : Node) (devfn : Fin 256),
      (∀ done, done <+: Node.putWrites devfn new → ∀ other, other ≠ devfn →
        (context.write done).contextEntry other = context.contextEntry other) ∧
      (context.putContext devfn new).contextEntry devfn = new ∧
      ((∀ done, done <+: Node.putWrites devfn new →
          (context.contextEntry devfn).Whole new ((context.write done).contextEntry devfn)) ↔
        (context.contextEntry devfn).GivesWay new)) ∧
    ∀ (bindings : Bindings) (contexts : Fin 256 → Option PhysicalAddress) (bdf : Bdf)
      (journal : Journal), bindings.Wired contexts →
        let before := bindings.pool.memory.contextEntry bindings.root
        bindings.context bdf = .ok (before bdf) ∧
        Passes (fun memory =>
            (∀ other, other ≠ bdf → memory.contextEntry bindings.root other = before other) ∧
            ((before bdf).GivesWay new →
              (before bdf).Whole new (memory.contextEntry bindings.root bdf)))
          ⟨bindings, journal⟩ ((bind bdf table domain).finish ⟨bindings, journal⟩) := by
  intro new
  constructor
  · intro context devfn
    refine ⟨fun done begun => (Node.contextEntry_of_begun begun).2, ?_, Node.whole_while_put_iff⟩
    exact Node.contextEntry_put.trans (if_pos rfl)
  · intro bindings contexts bdf journal wired before
    have replacing : Passes (bindings.Replacing bdf new) ⟨bindings, journal⟩
        ((bind bdf table domain).finish ⟨bindings, journal⟩) :=
      finish_bind_passes wired bdf table domain
    exact ⟨wired.context_memory bdf, replacing.mono fun memory held =>
      ⟨held.others, held.between.whole⟩⟩

/-- Another table in the domain that the bound device is in. -/
def movedSample : Binding := ⟨⟨0x300000, by decide⟩, .ofNat 1, by decide⟩

/-- Moved to another table in its domain, a device is found bound to the one or to the other. -/
theorem entries_whole_moved :
    boundSample.context deviceSample = .ok bindingSample.entry ∧
      bindingSample.entry.GivesWay movedSample.entry ∧
      ∀ done, done <+: ((bind deviceSample movedSample.table movedSample.domain).finish
          ⟨boundSample, { threshold := none }⟩).journal.log →
        bindingSample.entry.Whole movedSample.entry
          ((boundSample.pool.memory.replay done).contextEntry boundSample.root deviceSample) := by
  obtain ⟨contexts, owns, _⟩ := reached_boundSample.represents.tables
  obtain ⟨found, added, log, _, held⟩ :=
    (entries_whole movedSample.table movedSample.domain).2 boundSample contexts deviceSample
      { threshold := none } owns.wired
  have before : boundSample.pool.memory.contextEntry boundSample.root deviceSample =
      bindingSample.entry := by
    decide +kernel
  have givesWay : bindingSample.entry.GivesWay movedSample.entry :=
    Binding.givesWay_iff.mpr (.inr rfl)
  rw [before] at found held
  refine ⟨found, givesWay, fun done begun => ?_⟩
  rw [log] at begun
  exact (held done begun).2 givesWay

/-- A table in another domain. -/
def strayedSample : Binding := ⟨⟨0x300000, by decide⟩, .ofNat 2, by decide⟩

/-- Bound to another table in another domain, a device is found between the writes with the table of
the one binding in the domain of the other. -/
theorem torn_between_writes :
    ∃ done, done <+: ((bind deviceSample strayedSample.table strayedSample.domain).finish
        ⟨boundSample, { threshold := none }⟩).journal.log ∧
      let found :=
        (boundSample.pool.memory.replay done).contextEntry boundSample.root deviceSample
      found.present = true ∧ found.table = .ok bindingSample.table ∧
        found.domain = strayedSample.domain ∧
        ¬bindingSample.entry.Whole strayedSample.entry found := by
  refine ⟨_, List.take_prefix 1 _, ?_⟩
  decide +kernel

end Bindings

end DmaRemap

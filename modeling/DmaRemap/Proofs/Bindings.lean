import DmaRemap.Context.Bindings
import DmaRemap.Proofs.Heap

namespace DmaRemap

theorem lowSlot_ne_highSlot (index other : Fin 256) : lowSlot index ≠ highSlot other := by
  simp only [lowSlot, highSlot, ne_eq, Fin.ext_iff]
  omega

theorem lowSlot_inj {index other : Fin 256} : lowSlot index = lowSlot other ↔ index = other := by
  simp only [lowSlot, Fin.ext_iff]
  omega

theorem highSlot_inj {index other : Fin 256} : highSlot index = highSlot other ↔ index = other := by
  simp only [highSlot, Fin.ext_iff]
  omega

theorem Bdf.ext_devfn {bdf other : Bdf} (bus : bdf.bus = other.bus)
    (devfn : bdf.devfn = other.devfn) : bdf = other := by
  have same : bdf.routingId = other.routingId := by
    simp only [Bdf.devfn, RoutingId.devfn, routingId, Fin.ext_iff, RoutingId.mk.injEq]
      at bus devfn ⊢
    omega
  rw [← bdf.ofRoutingId_routingId, same, other.ofRoutingId_routingId]

/-- The device of a bus at an index within it. -/
def Bdf.ofIndex (bus devfn : Fin 256) : Bdf :=
  .ofRoutingId (.ofNat (bus.val * 256 + devfn.val))

theorem Bdf.routingId_ofIndex (bus devfn : Fin 256) :
    (ofIndex bus devfn).routingId.val.val = bus.val * 256 + devfn.val := by
  simp only [ofIndex, routingId_ofRoutingId, RoutingId.ofNat]
  omega

@[simp] theorem Bdf.bus_ofIndex (bus devfn : Fin 256) : (ofIndex bus devfn).bus = bus := by
  simp only [ofIndex, ofRoutingId, RoutingId.bus, RoutingId.ofNat, Fin.ext_iff]
  omega

@[simp] theorem Bdf.devfn_ofIndex (bus devfn : Fin 256) : (ofIndex bus devfn).devfn = devfn := by
  have routing := routingId_ofIndex bus devfn
  simp only [Bdf.devfn, RoutingId.devfn, Fin.ext_iff]
  omega

theorem Bdf.ofIndex_eq_iff {bus devfn : Fin 256} {bdf : Bdf} :
    ofIndex bus devfn = bdf ↔ bus = bdf.bus ∧ devfn = bdf.devfn := by
  constructor
  · rintro rfl
    simp
  · intro same
    exact ext_devfn (by simp [same.1]) (by simp [same.2])

theorem Address.ofNat_eq_ok {width n : Nat} {address : Address width} (same : n = address.val) :
    (ofNat n : Except Abort (Address width)) = .ok address := by
  subst same
  exact dif_pos address.isLt

namespace Node

variable {node : Node} {devfn other : Fin 256} {entry : ContextEntry}

theorem contextEntry_put :
    (node.write (putWrites devfn entry)).contextEntry other =
      if other = devfn then entry else node.contextEntry other := by
  simp only [putWrites, write, List.foldl_cons, List.foldl_nil, contextEntry, Fin.getElem_fin,
    Vector.getElem_set, Fin.val_inj, lowSlot_inj, highSlot_inj, lowSlot_ne_highSlot,
    (lowSlot_ne_highSlot _ _).symm, if_false]
  by_cases same : other = devfn
  · simp [same]
  · simp [same, Ne.symm same]

theorem contextEntry_clear {before : Node}
    (kept : node.contextEntry devfn = before.contextEntry devfn) :
    (node.write (before.clearWrites devfn)).contextEntry other =
      if other = devfn then (before.contextEntry devfn).cleared else node.contextEntry other := by
  have high := congrArg ContextEntry.high kept
  simp only [contextEntry, Fin.getElem_fin] at high
  simp only [clearWrites, write, List.foldl_cons, List.foldl_nil, contextEntry, Fin.getElem_fin,
    Vector.getElem_set, Fin.val_inj, lowSlot_inj, lowSlot_ne_highSlot, if_false]
  by_cases same : other = devfn
  · simp [same, high, ContextEntry.cleared]
  · simp [same, Ne.symm same]

theorem contextTable?_link {root : Node} {bus other : Fin 256} {table : PhysicalAddress}
    (aligned : 4096 ∣ table.val) :
    (root.write (linkWrites bus table)).contextTable? other =
      if other = bus then .ok (some table) else root.contextTable? other := by
  simp only [linkWrites, write, List.foldl_cons, List.foldl_nil, contextTable?, Fin.getElem_fin,
    Vector.getElem_set, Fin.val_inj, lowSlot_inj, (lowSlot_ne_highSlot _ _).symm, if_false]
  by_cases same : other = bus
  · have bound := table.isLt
    have present : RootField.present.isSet
        (RootField.present.put (RootField.contextTable.set (0 : Word) (table.val >>> 12)) true) =
          true := by
      simp [Field.isSet, Field.put, Field.get_set, RootField.present]
    have target : RootField.contextTable.get
        (RootField.present.put (RootField.contextTable.set (0 : Word) (table.val >>> 12)) true) <<<
          12 = table.val := by
      simp (disch := decide) only [Field.put, Field.get_set_of_disjoint, Field.get_set]
      simp only [RootField.contextTable, Nat.shiftLeft_eq, Nat.shiftRight_eq_div_pow] at bound ⊢
      omega
    simp only [same, if_true]
    rw [if_pos present, Address.ofNat_eq_ok target]
    rfl
  · simp [same, Ne.symm same]

end Node

namespace ContextEntry

/-- Whether an entry binds its device to a table. -/
def Names (entry : ContextEntry) (table : PhysicalAddress) : Prop :=
  entry.present = true ∧ entry.table = .ok table

variable {table : PhysicalAddress} {domain : DomainId} {entry : ContextEntry}

theorem present_binding : (binding table domain).present = true := by
  simp (disch := decide) only [present, binding, Field.isSet, Field.put, Field.get_set_of_disjoint,
    Field.get_set]
  rfl

theorem tableField_binding :
    ContextField.table.get (binding table domain).low <<< 12 = table.val / 4096 * 4096 := by
  have bound := table.isLt
  rw [binding, Field.get_set _ _ _ (by decide)]
  simp only [ContextField.table, Nat.shiftLeft_eq, Nat.shiftRight_eq_div_pow] at bound ⊢
  omega

theorem table_binding (aligned : 4096 ∣ table.val) : (binding table domain).table = .ok table :=
  Address.ofNat_eq_ok (tableField_binding.trans (Nat.div_mul_cancel aligned))

theorem domain_binding : (binding table domain).domain = domain := by
  simp (disch := decide) only [ContextEntry.domain, binding, Field.get_set]
  simp only [ContextField.domain, Nat.reduceShiftLeft, Nat.mod_eq_of_lt domain.val.isLt]
  exact domain.ofNat_val

theorem present_cleared : entry.cleared.present = false := by
  simp (disch := decide) only [present, cleared, Field.isSet, Field.put, Field.get_set]
  rfl

theorem present_absent : absent.present = false := by
  decide

end ContextEntry

namespace Bindings

variable {bindings : Bindings} {contexts contexts' : Fin 256 → Option PhysicalAddress}
  {pool : Pool} {bus : Fin 256} {bdf other : Bdf} {context : PhysicalAddress} {node : Node}

/-- The root table links the context tables, all of which are live and differ from each other. -/
structure Wired (bindings : Bindings) (contexts : Fin 256 → Option PhysicalAddress) : Prop where
  root : ∃ node, bindings.pool.node? bindings.root = some node ∧
    ∀ bus, node.contextTable? bus = .ok (contexts bus)
  live : ∀ {bus context}, contexts bus = some context →
    ∃ node, bindings.pool.node? context = some node
  apart : ∀ {bus context}, contexts bus = some context → context ≠ bindings.root
  distinct : ∀ {bus bus' context}, contexts bus = some context → contexts bus' = some context →
    bus = bus'

/-- The nodes of the root table and of the context tables. -/
def nodes (root : PhysicalAddress) (contexts : Fin 256 → Option PhysicalAddress) :
    List PhysicalAddress :=
  root :: (List.finRange 256).filterMap contexts

theorem mem_nodes_iff {address root : PhysicalAddress} :
    address ∈ nodes root contexts ↔ address = root ∨ ∃ bus, contexts bus = some address := by
  simp [nodes]

/-- From one state of the bindings to another the root table stayed, and no nodes but those of the
tables were exchanged. -/
structure Relinks (before after : Bindings)
    (contexts contexts' : Fin 256 → Option PhysicalAddress) : Prop where
  root : after.root = before.root
  exchange : before.pool.Exchanges after.pool (nodes before.root contexts)
    (nodes before.root contexts')

theorem Relinks.refl (bindings : Bindings) (contexts : Fin 256 → Option PhysicalAddress) :
    bindings.Relinks bindings contexts contexts :=
  ⟨rfl, .refl ..⟩

theorem Relinks.trans {first second third : Bindings}
    {contexts'' : Fin 256 → Option PhysicalAddress}
    (early : first.Relinks second contexts contexts')
    (late : second.Relinks third contexts' contexts'') : first.Relinks third contexts contexts'' :=
  ⟨late.root.trans early.root, early.exchange.trans (early.root ▸ late.exchange)⟩

theorem Relinks.rewrite (linked : contexts bus = some context)
    (exchange : bindings.pool.Exchanges pool [context] [context]) :
    bindings.Relinks { bindings with pool } contexts contexts := by
  have within : [context] ⊆ nodes bindings.root contexts := by
    simpa using mem_nodes_iff.mpr (.inr ⟨bus, linked⟩)
  exact ⟨rfl, exchange.widen within within (fun _ _ => id) fun _ _ => id⟩

theorem Relinks.link {middle : Pool} {table : PhysicalAddress} (unlinked : contexts bus = none)
    (taken : bindings.pool.Exchanges middle [] [table])
    (exchange : middle.Exchanges pool [bindings.root] [bindings.root]) :
    bindings.Relinks { bindings with pool } contexts
      (Function.update contexts bus (some table)) := by
  have mem_iff (address : PhysicalAddress) :
      address ∈ nodes bindings.root (Function.update contexts bus (some table)) ↔
        address = table ∨ address ∈ nodes bindings.root contexts := by
    simp only [mem_nodes_iff]
    rw [← or_left_comm]
    apply or_congr_right
    constructor
    · intro holds
      obtain ⟨other, reached⟩ := holds
      by_cases same : other = bus
      · rw [same, Function.update_self] at reached
        exact .inl (Option.some.inj reached).symm
      · rw [Function.update_of_ne same] at reached
        exact .inr ⟨other, reached⟩
    · intro holds
      rcases holds with rfl | ⟨other, reached⟩
      · exact ⟨bus, Function.update_self ..⟩
      · have different : other ≠ bus := by
          rintro rfl
          cases unlinked.symm.trans reached
        exact ⟨other, by rwa [Function.update_of_ne different]⟩
  have root (contexts : Fin 256 → Option PhysicalAddress) :
      [bindings.root] ⊆ nodes bindings.root contexts := by
    simp [nodes]
  refine ⟨rfl, (taken.widen (List.nil_subset _) ?_ ?_ ?_).trans
    (exchange.widen (root _) (root _) (fun _ _ => id) fun _ _ => id)⟩
  · simp [mem_iff]
  · exact fun address _ member => (mem_iff address).mpr (.inr member)
  · intro address outside member
    rcases (mem_iff address).mp member with same | within
    · exact absurd (List.mem_singleton.mpr same) outside
    · exact within

/-- Whether the table of every present entry can be read back. -/
def Readable (bindings : Bindings) : Prop :=
  ∀ bdf entry, bindings.context bdf = .ok entry → entry.present = true →
    ∃ table, entry.table = .ok table

/-- A new root table takes a node from the pool and links no context table. -/
theorem create_ends {σ : Type} (pool : Pool) (coherency : Coherency) (start : Journaled σ) :
    (create pool coherency : Action σ TableError Bindings).Ends start
      (fun bindings last => last.state = start.state ∧ bindings.Wired (fun _ => none) ∧
        pool.Exchanges bindings.pool [] [bindings.root])
      (fun _ last => last.state = start.state) := by
  unfold create
  simp only [Action.ends_bind, Action.ends_beside, Action.ends_on]
  apply (Pool.construct_ends _).mono
  · intro root last made
    rw [Action.ends_pure]
    refine ⟨rfl, ⟨⟨Node.zero, made.2, fun bus => ?_⟩, ?_, ?_, ?_⟩, made.1⟩
    · simp [Node.contextTable?, Node.zero, Field.isSet, Field.get]
      rfl
    · rintro _ _ ⟨⟩
    · rintro _ _ ⟨⟩
    · rintro _ _ _ ⟨⟩
  · intro cause last failed
    obtain ⟨rfl, _, _⟩ := failed
    simp only [Action.Handled, Action.ends_fail]
    rfl

/-- The entry at an index of a context table, if there is one. -/
def entryAt (pool : Pool) (context : Option PhysicalAddress) (devfn : Fin 256) : ContextEntry :=
  match context.bind pool.node? with
  | some node => node.contextEntry devfn
  | none => .absent

theorem entryAt_of_node? (held : pool.node? context = some node) (devfn : Fin 256) :
    entryAt pool (some context) devfn = node.contextEntry devfn := by
  simp [entryAt, held]

theorem Wired.contextTable?_eq (wired : bindings.Wired contexts) (bus : Fin 256) :
    bindings.contextTable? bus = .ok (contexts bus) := by
  obtain ⟨node, held, links⟩ := wired.root
  rw [contextTable?, held]
  exact links bus

theorem Wired.context_eq (wired : bindings.Wired contexts) (bdf : Bdf) :
    bindings.context bdf = .ok (entryAt bindings.pool (contexts bdf.bus) bdf.devfn) := by
  rw [context, contextNode?, wired.contextTable?_eq]
  change (match (contexts bdf.bus).bind bindings.pool.node? with
    | some node => Except.ok (node.contextEntry bdf.devfn)
    | none => Except.ok ContextEntry.absent) = _
  rw [entryAt]
  split <;> rfl

theorem contextEntry_zero (devfn : Fin 256) : Node.zero.contextEntry devfn = .absent := by
  simp [Node.contextEntry, Node.zero, ContextEntry.absent]

/-- Rewriting a context table changes the entries of its bus and no others. -/
theorem Wired.rewrite (wired : bindings.Wired contexts) (linked : contexts bus = some context)
    (exchange : bindings.pool.Exchanges pool [context] [context])
    (written : pool.node? context = some node) :
    Wired { bindings with pool } contexts ∧
      ∀ other devfn, entryAt pool (contexts other) devfn =
        if other = bus then node.contextEntry devfn
        else entryAt bindings.pool (contexts other) devfn := by
  have elsewhere (address : PhysicalAddress) (different : address ≠ context) :
      pool.node? address = bindings.pool.node? address :=
    exchange.elsewhere address (by simpa using different) (by simpa using different)
  obtain ⟨root, held, links⟩ := wired.root
  constructor
  · refine ⟨⟨root, ?_, links⟩, ?_, wired.apart, wired.distinct⟩
    · rw [elsewhere _ (wired.apart linked).symm, held]
    · intro other found reached
      by_cases same : found = context
      · exact ⟨node, same ▸ written⟩
      · rw [elsewhere _ same]
        exact wired.live reached
  · intro other devfn
    by_cases same : other = bus
    · rw [if_pos same, same, linked, entryAt_of_node? written]
    · rw [if_neg same]
      cases reached : contexts other with
      | none => rfl
      | some found =>
        have different : found ≠ context := fun here =>
          same (wired.distinct reached (here ▸ linked))
        simp only [entryAt, Option.bind_some, elsewhere _ different]

/-- Linking a new context table changes no entry. -/
theorem Wired.link {middle : Pool} {table : PhysicalAddress} (wired : bindings.Wired contexts)
    (unlinked : contexts bus = none) (taken : bindings.pool.Exchanges middle [] [table])
    (zero : middle.node? table = some Node.zero)
    (exchange : middle.Exchanges pool [bindings.root] [bindings.root])
    (written : ∀ node, middle.node? bindings.root = some node →
      pool.node? bindings.root = some (node.write (Node.linkWrites bus table))) :
    Wired { bindings with pool } (Function.update contexts bus (some table)) ∧
      ∀ other devfn, entryAt pool (Function.update contexts bus (some table) other) devfn =
        entryAt bindings.pool (contexts other) devfn := by
  have kept {address : PhysicalAddress} {node : Node}
      (held : bindings.pool.node? address = some node) :
      address ≠ table ∧ middle.node? address = some node := by
    obtain ⟨absent, same⟩ := taken.kept held List.not_mem_nil
    exact ⟨by simpa using absent, same⟩
  have elsewhere {address : PhysicalAddress} (different : address ≠ bindings.root) :
      pool.node? address = middle.node? address :=
    exchange.elsewhere address (by simpa using different) (by simpa using different)
  obtain ⟨root, held, links⟩ := wired.root
  have apart : table ≠ bindings.root := (kept held).1.symm
  have made : pool.node? table = some Node.zero := (elsewhere apart).trans zero
  have still {other : Fin 256} {context : PhysicalAddress} (reached : contexts other = some context)
      {node : Node} (live : bindings.pool.node? context = some node) :
      context ≠ table ∧ pool.node? context = some node :=
    ⟨(kept live).1, (elsewhere (wired.apart reached)).trans (kept live).2⟩
  have linked {other : Fin 256} {context : PhysicalAddress}
      (reached : Function.update contexts bus (some table) other = some context) :
      other = bus ∧ context = table ∨ other ≠ bus ∧ contexts other = some context := by
    by_cases same : other = bus
    · rw [same, Function.update_self] at reached
      exact .inl ⟨same, (Option.some.inj reached).symm⟩
    · rw [Function.update_of_ne same] at reached
      exact .inr ⟨same, reached⟩
  constructor
  · refine ⟨⟨_, written root (kept held).2, fun other => ?_⟩, ?_, ?_, ?_⟩
    · rw [Node.contextTable?_link (Pool.dvd_of_node? zero), Function.update_apply, links]
      split <;> rfl
    · intro other context reached
      rcases linked reached with ⟨_, rfl⟩ | ⟨_, reached⟩
      · exact ⟨_, made⟩
      · obtain ⟨node, live⟩ := wired.live reached
        exact ⟨node, (still reached live).2⟩
    · intro other context reached
      rcases linked reached with ⟨_, rfl⟩ | ⟨_, reached⟩
      · exact apart
      · exact wired.apart reached
    · intro other another context reached also
      rcases linked reached with ⟨rfl, rfl⟩ | ⟨_, before⟩
      · rcases linked also with ⟨rfl, _⟩ | ⟨_, before⟩
        · rfl
        · obtain ⟨node, live⟩ := wired.live before
          exact absurd rfl (still before live).1
      · obtain ⟨node, live⟩ := wired.live before
        rcases linked also with ⟨_, rfl⟩ | ⟨_, before'⟩
        · exact absurd rfl (still before live).1
        · exact wired.distinct before before'
  · intro other devfn
    by_cases same : other = bus
    · rw [same, Function.update_self, unlinked, entryAt_of_node? made, contextEntry_zero]
      rfl
    · rw [Function.update_of_ne same]
      cases reached : contexts other with
      | none => rfl
      | some context =>
        obtain ⟨node, live⟩ := wired.live reached
        rw [entryAt_of_node? live, entryAt_of_node? (still reached live).2]

/-- From one state of the bindings to another the context table of a bus is there or made; no entry
changes by that. -/
structure Ensured (before after : Bindings) (contexts contexts' : Fin 256 → Option PhysicalAddress)
    (bus : Fin 256) (context : PhysicalAddress) : Prop where
  wired : after.Wired contexts'
  linked : contexts' bus = some context
  entries : ∀ other devfn, entryAt after.pool (contexts' other) devfn =
    entryAt before.pool (contexts other) devfn
  relinks : before.Relinks after contexts contexts'
  made : contexts' = contexts ∨ contexts bus = none ∧
    contexts' = Function.update contexts bus (some context)

theorem ensureContextTable_ends {start : Journaled Bindings} (wired : start.state.Wired contexts)
    (bus : Fin 256) :
    (ensureContextTable bus).Ends start
      (fun context last => ∃ contexts',
        start.state.Ensured last.state contexts contexts' bus context)
      (fun cause last => cause = .error .outOfMemory ∧ last.state = start.state ∧
        start.state.pool.Exhausted ∧ contexts bus = none) := by
  obtain ⟨root, held, _⟩ := wired.root
  unfold ensureContextTable
  simp only [Action.ends_bind, Action.ends_state, wired.contextTable?_eq, Action.ends_lift_ok]
  cases linked : contexts bus with
  | some context =>
    simp only [Action.ends_pure]
    exact ⟨contexts, wired, linked, fun _ _ => rfl, .refl .., .inl rfl⟩
  | none =>
    have contained : start.state.pool.contains start.state.root = true :=
      Pool.contains_iff.mpr ⟨root, held⟩
    simp only [Action.ends_bind, Action.ends_on, contained, if_true, Action.ends_pure]
    apply (Pool.construct_ends _).mono
    · intro table middle made
      obtain ⟨taken, zero⟩ := made
      have kept := (taken.kept held List.not_mem_nil).2
      apply (Pool.put_ends (Node.linkWrites bus table) kept).mono _ fun _ _ => False.elim
      intro _ last put
      obtain ⟨exchange, written, _⟩ := put
      rw [Action.ends_record]
      obtain ⟨wired', same⟩ := wired.link linked taken zero exchange fun node found => by
        cases kept.symm.trans found
        exact written
      exact ⟨_, wired', Function.update_self .., same, .link linked taken exchange,
        .inr ⟨linked, rfl⟩⟩
    · intro cause last failed
      obtain ⟨rfl, same, exhausted⟩ := failed
      exact ⟨rfl, congrArg (fun pool => { start.state with pool }) same, exhausted, trivial⟩

/-- From one state of the bindings to another the entry of a device becomes `entry`, and no other
entry changes. -/
structure Rebinds (before after : Bindings) (bdf : Bdf) (entry : ContextEntry) : Prop where
  wired : ∃ contexts, after.Wired contexts
  context : ∀ other, after.context other = if other = bdf then .ok entry else before.context other

/-- Whether the low word of the entry of a device was written. -/
def Wrote (bindings : Bindings) (bdf : Bdf) (log : List Effect) : Prop :=
  ∃ context word, bindings.contextTable? bdf.bus = .ok (some context) ∧
    .write context (lowSlot bdf.devfn) word ∈ log

theorem Rebinds.of_entries {before after : Bindings} {entry : ContextEntry}
    (wired : before.Wired contexts) (wired' : after.Wired contexts')
    (entries : ∀ bus devfn, entryAt after.pool (contexts' bus) devfn =
      if bus = bdf.bus ∧ devfn = bdf.devfn then entry
      else entryAt before.pool (contexts bus) devfn) : before.Rebinds after bdf entry where
  wired := ⟨contexts', wired'⟩
  context other := by
    rw [wired'.context_eq, wired.context_eq, entries]
    by_cases same : other = bdf
    · rw [same, if_pos ⟨rfl, rfl⟩, if_pos rfl]
    · rw [if_neg same, if_neg fun both => same (Bdf.ext_devfn both.1 both.2)]

theorem put_ends {ε : Type} {start : Journaled Bindings} (wired : start.state.Wired contexts)
    (linked : contexts bus = some context) (live : start.state.pool.node? context = some node)
    (writes : List (Slot × Word)) :
    (Action.on tables (Pool.put context writes) : Action Bindings ε Unit).Returns start
      fun _ last => last.state.Wired contexts ∧
        (∀ other devfn, entryAt last.state.pool (contexts other) devfn =
          if other = bus then (node.write writes).contextEntry devfn
          else entryAt start.state.pool (contexts other) devfn) ∧
        start.state.Relinks last.state contexts contexts ∧
        last.journal.log =
          start.journal.log ++ writes.map fun entry => .write context entry.1 entry.2 := by
  apply (Action.ends_on _ _).mpr
  apply (Pool.put_ends writes live).mono _ fun _ _ => id
  intro _ last ended
  obtain ⟨exchange, written, log⟩ := ended
  obtain ⟨wired', entries⟩ := wired.rewrite linked exchange written
  exact ⟨wired', entries, .rewrite linked exchange, log⟩

theorem Rebinds.of_context_eq {before middle after : Bindings} {entry : ContextEntry}
    (same : ∀ other, middle.context other = before.context other)
    (rebinds : middle.Rebinds after bdf entry) : before.Rebinds after bdf entry where
  wired := rebinds.wired
  context other := by rw [rebinds.context, same]

/-- Writing the entry of a device in the context table of its bus. -/
theorem rebind_ends {ε : Type} {start : Journaled Bindings} {entry : ContextEntry}
    {writes : List (Slot × Word)} (wired : start.state.Wired contexts)
    (linked : contexts bdf.bus = some context)
    (live : start.state.pool.node? context = some node)
    (written : ∀ devfn, (node.write writes).contextEntry devfn =
      if devfn = bdf.devfn then entry else node.contextEntry devfn) :
    (Action.on tables (Pool.put context writes) : Action Bindings ε Unit).Returns start
      fun _ last => last.state.Wired contexts ∧ start.state.Rebinds last.state bdf entry ∧
        start.state.Relinks last.state contexts contexts ∧
        last.journal.log =
          start.journal.log ++ writes.map fun entry => .write context entry.1 entry.2 := by
  apply (put_ends wired linked live writes).mono _ fun _ _ => id
  intro _ last ended
  obtain ⟨wired', entries, relinks, log⟩ := ended
  refine ⟨wired', .of_entries wired wired' fun bus devfn => ?_, relinks, log⟩
  rw [entries, written]
  by_cases here : bus = bdf.bus
  · simp [here, linked, entryAt_of_node? live]
  · simp [here]

/-- What binding a device has done, and what it answers of the entry before. -/
structure Bound (start : Journaled Bindings) (bdf : Bdf) (table : PhysicalAddress)
    (domain : DomainId) (outcome : BindOutcome) (last : Journaled Bindings) : Prop where
  rebinds : start.state.Rebinds last.state bdf (.binding table domain)
  previous : ∃ previous, start.state.context bdf = .ok previous ∧
    match outcome with
    | .unchanged => previous = .binding table domain
    | .installed => previous.present = false
    | .replaced found => found = previous ∧ previous.present = true ∧
        previous ≠ .binding table domain ∧ start.state.Wrote bdf last.journal.log

/-- From one state of the bindings to another the entry of a device was put into a context table. -/
structure Put (start last : Journaled Bindings)
    (contexts contexts' : Fin 256 → Option PhysicalAddress) (bdf : Bdf) (context : PhysicalAddress)
    (entry : ContextEntry) : Prop where
  wired : last.state.Wired contexts'
  relinks : start.state.Relinks last.state contexts contexts'
  rebinds : start.state.Rebinds last.state bdf entry
  wrote : .write context (lowSlot bdf.devfn) entry.low ∈ last.journal.log

theorem Put.installed {start last : Journaled Bindings} {table : PhysicalAddress}
    {domain : DomainId} {entry : ContextEntry} (held : start.state.context bdf = .ok entry)
    (absent : entry.present = false)
    (put : Put start last contexts contexts' bdf context (.binding table domain)) :
    Bound start bdf table domain .installed last :=
  ⟨put.rebinds, entry, held, absent⟩

theorem Ensured.update_eq {before after : Bindings}
    (ensured : before.Ensured after contexts contexts' bus context) :
    contexts' = Function.update contexts bus (some context) := by
  rcases ensured.made with rfl | ⟨_, made⟩
  · rw [← ensured.linked, Function.update_eq_self]
  · exact made

section Ensured

variable {start middle last : Journaled Bindings} {table : PhysicalAddress} {domain : DomainId}
  {entry : ContextEntry} (wired : start.state.Wired contexts)
  (ensured : start.state.Ensured middle.state contexts contexts' bdf.bus context)
include wired ensured

theorem Ensured.context_eq (other : Bdf) :
    middle.state.context other = start.state.context other := by
  rw [ensured.wired.context_eq, wired.context_eq, ensured.entries]

theorem Ensured.context_of_live (live : middle.state.pool.node? context = some node) :
    start.state.context bdf = .ok (node.contextEntry bdf.devfn) := by
  rw [← ensured.context_eq wired, ensured.wired.context_eq, ensured.linked, entryAt_of_node? live]

theorem Ensured.contextTable?_of_present (held : start.state.context bdf = .ok entry)
    (present : entry.present = true) :
    start.state.contextTable? bdf.bus = .ok (some context) := by
  rw [wired.contextTable?_eq]
  rcases ensured.made with rfl | ⟨none, _⟩
  · rw [ensured.linked]
  · rw [wired.context_eq, none] at held
    cases Except.ok.inj held
    cases ContextEntry.present_absent.symm.trans present

/-- What putting the entry does, after a message about the previous one or none. -/
theorem Ensured.put_ends {ε : Type} (live : middle.state.pool.node? context = some node)
    (now : Journaled Bindings) (same : now.state = middle.state) :
    (Action.on tables (Pool.put context (Node.putWrites bdf.devfn entry)) :
      Action Bindings ε Unit).Returns now fun _ last =>
        Put start last contexts contexts' bdf context entry := by
  rw [← same] at ensured live
  apply (rebind_ends ensured.wired ensured.linked live fun _ => Node.contextEntry_put).mono _
    fun _ _ => id
  intro _ last ended
  obtain ⟨wired', rebinds, rewritten, log⟩ := ended
  exact ⟨wired', ensured.relinks.trans rewritten, rebinds.of_context_eq (ensured.context_eq wired),
    by simp [log, Node.putWrites]⟩

theorem Ensured.unchanged (held : start.state.context bdf = .ok (.binding table domain)) :
    Bound start bdf table domain .unchanged middle := by
  refine ⟨⟨⟨_, ensured.wired⟩, fun other => ?_⟩, _, held, rfl⟩
  rw [ensured.context_eq wired]
  by_cases here : other = bdf
  · rw [if_pos here, here, held]
  · rw [if_neg here]

theorem Ensured.replaced (held : start.state.context bdf = .ok entry)
    (present : entry.present = true) (different : entry ≠ .binding table domain)
    (put : Put start last contexts contexts' bdf context (.binding table domain)) :
    Bound start bdf table domain (.replaced entry) last :=
  ⟨put.rebinds, entry, held, rfl, present, different, context, _,
    ensured.contextTable?_of_present wired held present, put.wrote⟩

end Ensured

theorem bind_ends {start : Journaled Bindings} (wired : start.state.Wired contexts) (bdf : Bdf)
    (table : PhysicalAddress) (domain : DomainId) :
    (bind bdf table domain).Ends start
      (fun outcome last => Bound start bdf table domain outcome last ∧
        ∃ contexts', last.state.Wired contexts' ∧
          start.state.Relinks last.state contexts contexts' ∧
          ∃ context, contexts' = Function.update contexts bdf.bus (some context))
      (fun cause last => (∃ reason, cause = .abort reason ∧ ¬start.state.Readable) ∨
        cause = .error .outOfMemory ∧ last.state = start.state ∧
          start.state.pool.Exhausted ∧ contexts bdf.bus = none) := by
  unfold bind
  simp only [Action.ends_bind]
  apply (ensureContextTable_ends wired bdf.bus).mono _ fun _ _ => .inr
  rintro context middle ⟨contexts', ensured⟩
  obtain ⟨node, live⟩ := ensured.wired.live ensured.linked
  have held := ensured.context_of_live wired live
  have placed {last : Journaled Bindings} {outcome : BindOutcome}
      (bound : Bound start bdf table domain outcome last)
      (put : Put start last contexts contexts' bdf context (.binding table domain)) :
      Bound start bdf table domain outcome last ∧ ∃ contexts', last.state.Wired contexts' ∧
        start.state.Relinks last.state contexts contexts' ∧
          ∃ context, contexts' = Function.update contexts bdf.bus (some context) :=
    ⟨bound, contexts', put.wired, put.relinks, context, ensured.update_eq⟩
  simp only [Action.ends_state, live]
  rw [Action.ends_ite]
  constructor
  case left =>
    intro unchanged
    rw [Bool.and_eq_true, beq_iff_eq] at unchanged
    rw [Action.ends_pure]
    exact ⟨ensured.unchanged wired (unchanged.2 ▸ held), contexts', ensured.wired, ensured.relinks,
      context, ensured.update_eq⟩
  case right =>
    intro changed
    by_cases present : (node.contextEntry bdf.devfn).present = true
    · have different : node.contextEntry bdf.devfn ≠ .binding table domain := by
        simpa [present] using changed
      simp only [present, if_true, Action.ends_bind]
      apply Action.ends_recordM_lift
      · intro journal _
        apply (ensured.put_ends wired live ⟨middle.state, journal⟩ rfl).mono _ fun _ _ => False.elim
        intro _ last put
        rw [Action.ends_pure]
        exact placed (ensured.replaced wired held present different put) put
      · intro reason unread
        refine .inl ⟨reason, rfl, fun readable => ?_⟩
        obtain ⟨bound, read⟩ := readable bdf _ held present
        cases unread.symm.trans read
    · simp only [present, Bool.false_eq_true, if_false, Action.ends_bind]
      apply (ensured.put_ends wired live middle rfl).mono _ fun _ _ => False.elim
      intro _ last put
      rw [Action.ends_pure]
      exact placed (put.installed held (by simpa using present)) put

/-- From one state of the bindings to another a present entry was cleared. -/
structure Clears (before after : Journaled Bindings) (bdf : Bdf) (entry : ContextEntry) : Prop where
  present : entry.present = true
  rebinds : before.state.Rebinds after.state bdf entry.cleared
  wrote : before.state.Wrote bdf after.journal.log

/-- What unbinding a device has done, and what it answers of the entry before. -/
def Unbound (start : Journaled Bindings) (bdf : Bdf) (table : PhysicalAddress)
    (outcome : UnbindOutcome) (last : Journaled Bindings) : Prop :=
  ∃ entry, start.state.context bdf = .ok entry ∧
    match outcome with
    | .absent => entry.present = false ∧ last.state = start.state
    | .removed => entry.table = .ok table ∧ Clears start last bdf entry
    | .foreign found => entry.table = .ok found ∧ found ≠ table ∧ Clears start last bdf entry

theorem Unbound.wired {start last : Journaled Bindings} {table : PhysicalAddress}
    {outcome : UnbindOutcome} (unbound : Unbound start bdf table outcome last)
    (wired : ∃ contexts, start.state.Wired contexts) : ∃ contexts, last.state.Wired contexts := by
  obtain ⟨entry, _, holds⟩ := unbound
  cases outcome with
  | absent => exact holds.2 ▸ wired
  | removed => exact holds.2.rebinds.wired
  | foreign => exact holds.2.2.rebinds.wired

theorem Unbound.context_of_present {start last : Journaled Bindings} {table : PhysicalAddress}
    {outcome : UnbindOutcome} (unbound : Unbound start bdf table outcome last)
    {entry : ContextEntry} (now : last.state.context other = .ok entry)
    (present : entry.present = true) : start.state.context other = .ok entry := by
  obtain ⟨previous, _, holds⟩ := unbound
  have cleared (clears : Clears start last bdf previous) :
      start.state.context other = .ok entry := by
    rw [clears.rebinds.context] at now
    split at now
    case isTrue =>
      cases now
      cases ContextEntry.present_cleared.symm.trans present
    case isFalse => exact now
  cases outcome with
  | absent => exact holds.2 ▸ now
  | removed => exact cleared holds.2
  | foreign => exact cleared holds.2.2

theorem unbind_ends {ε : Type} {start : Journaled Bindings} (wired : start.state.Wired contexts)
    (bdf : Bdf) (table : PhysicalAddress) :
    (unbind bdf table : Action Bindings ε UnbindOutcome).Ends start
      (fun outcome last => Unbound start bdf table outcome last ∧ last.state.Wired contexts ∧
        start.state.Relinks last.state contexts contexts)
      (fun cause _ => ∃ reason, cause = .abort reason ∧ ¬start.state.Readable) := by
  have holds := wired.context_eq bdf
  unfold unbind
  simp only [Action.ends_bind, Action.ends_state, wired.contextTable?_eq, Action.ends_lift_ok]
  cases linked : contexts bdf.bus with
  | none =>
    simp only [Action.ends_pure]
    refine ⟨⟨_, holds, ?_, rfl⟩, wired, .refl ..⟩
    rw [linked]
    exact ContextEntry.present_absent
  | some context =>
    obtain ⟨node, live⟩ := wired.live linked
    rw [linked, entryAt_of_node? live] at holds
    simp only [live]
    rw [Action.ends_ite]
    constructor
    · intro absent
      rw [Action.ends_pure]
      exact ⟨⟨_, holds, by simpa using absent, rfl⟩, wired, .refl ..⟩
    · intro present
      rw [Bool.not_eq_true', Bool.not_eq_false] at present
      rw [Action.ends_bind]
      apply (rebind_ends wired linked live fun _ => Node.contextEntry_clear rfl).mono _
        fun _ _ => False.elim
      intro _ middle put
      obtain ⟨wired', rebinds, relinks, log⟩ := put
      have wrote : start.state.Wrote bdf middle.journal.log := by
        refine ⟨context, (node.contextEntry bdf.devfn).cleared.low, ?_, ?_⟩
        · rw [wired.contextTable?_eq, linked]
        · simp [log, Node.clearWrites]
      rw [Action.ends_bind, Action.ends_lift]
      cases named : (node.contextEntry bdf.devfn).table with
      | error reason =>
        refine ⟨reason, rfl, fun readable => ?_⟩
        obtain ⟨bound, read⟩ := readable bdf _ holds present
        cases named.symm.trans read
      | ok found =>
        simp only
        rw [Action.ends_ite]
        constructor
        · rintro rfl
          rw [Action.ends_pure]
          exact ⟨⟨_, holds, named, present, rebinds, wrote⟩, wired', relinks⟩
        · intro foreign
          rw [Action.ends_bind, Action.ends_record, Action.ends_pure]
          refine ⟨⟨_, holds, named, foreign, present, rebinds, ?_⟩, wired', relinks⟩
          rwa [Journal.log_record]

/-- What a filter keeps whose test may abort. -/
private theorem filterAuxM_ok {α ε : Type} {test : α → Except ε Bool} {turns acc kept : List α}
    (filtered : turns.filterAuxM test acc = .ok kept) :
    ∃ passed : List α, kept = passed.reverse ++ acc ∧ passed.Sublist turns ∧
      ∀ turn, turn ∈ passed ↔ turn ∈ turns ∧ test turn = .ok true := by
  induction turns generalizing acc with
  | nil =>
    cases Except.ok.inj filtered
    exact ⟨[], rfl, .slnil, by simp⟩
  | cons turn turns ih =>
    rw [List.filterAuxM] at filtered
    cases tested : test turn with
    | error reason =>
      rw [tested] at filtered
      cases filtered
    | ok passes =>
      rw [tested] at filtered
      cases passes with
      | true =>
        obtain ⟨passed, rfl, sublist, member⟩ := ih filtered
        refine ⟨turn :: passed, by simp, sublist.cons_cons turn, fun other => ?_⟩
        rw [List.mem_cons, List.mem_cons, member, or_and_right]
        exact or_congr_left ⟨fun same => ⟨same, same ▸ tested⟩, And.left⟩
      | false =>
        obtain ⟨passed, rfl, sublist, member⟩ := ih filtered
        refine ⟨passed, rfl, sublist.cons turn, fun other => ?_⟩
        rw [List.mem_cons, member, or_and_right]
        refine (or_iff_right ?_).symm
        rintro ⟨rfl, passes⟩
        cases tested.symm.trans passes

private theorem filterM_ok {α ε : Type} {test : α → Except ε Bool} {turns kept : List α}
    (filtered : turns.filterM test = .ok kept) :
    kept.Sublist turns ∧ ∀ turn, turn ∈ kept ↔ turn ∈ turns ∧ test turn = .ok true := by
  unfold List.filterM at filtered
  cases collected : turns.filterAuxM test [] with
  | error reason =>
    rw [collected] at filtered
    cases filtered
  | ok passed =>
    rw [collected] at filtered
    cases Except.ok.inj filtered
    obtain ⟨passed, rfl, sublist, member⟩ := filterAuxM_ok collected
    rw [List.append_nil, List.reverse_reverse]
    exact ⟨sublist, member⟩

private theorem filterAuxM_error {α ε : Type} {test : α → Except ε Bool} {turns acc : List α}
    {reason : ε} (stopped : turns.filterAuxM test acc = .error reason) :
    ∃ turn ∈ turns, test turn = .error reason := by
  induction turns generalizing acc with
  | nil => cases stopped
  | cons turn turns ih =>
    rw [List.filterAuxM] at stopped
    cases tested : test turn with
    | error cause =>
      rw [tested] at stopped
      cases stopped
      exact ⟨turn, List.mem_cons_self, tested⟩
    | ok passes =>
      rw [tested] at stopped
      obtain ⟨later, member, failed⟩ := ih stopped
      exact ⟨later, List.mem_cons_of_mem turn member, failed⟩

private theorem filterM_error {α ε : Type} {test : α → Except ε Bool} {turns : List α} {reason : ε}
    (stopped : turns.filterM test = .error reason) : ∃ turn ∈ turns, test turn = .error reason := by
  unfold List.filterM at stopped
  cases collected : turns.filterAuxM test [] with
  | error cause =>
    rw [collected] at stopped
    cases stopped
    exact filterAuxM_error collected
  | ok passed =>
    rw [collected] at stopped
    cases stopped

/-- A search of a context table stops only at a present entry that cannot be read. -/
theorem exists_unreadable {table : PhysicalAddress} {reason : Abort}
    (stopped : boundDevices node table = .error reason) :
    ∃ devfn, (node.contextEntry devfn).present = true ∧
      ∀ found, (node.contextEntry devfn).table ≠ .ok found := by
  obtain ⟨devfn, _, failed⟩ := filterM_error stopped
  refine ⟨devfn, ?_⟩
  generalize node.contextEntry devfn = entry at failed ⊢
  change (if entry.present then entry.table >>= fun found => Except.ok (found == table)
    else Except.ok false) = Except.error reason at failed
  by_cases present : entry.present = true
  · refine ⟨present, fun found named => ?_⟩
    rw [if_pos present, named] at failed
    cases failed
  · rw [if_neg present] at failed
    cases failed

theorem mem_boundDevices {table : PhysicalAddress} {bound : List (Fin 256)}
    (found : boundDevices node table = .ok bound) :
    bound.Nodup ∧ ∀ devfn, devfn ∈ bound ↔ (node.contextEntry devfn).Names table := by
  obtain ⟨sublist, member⟩ := filterM_ok found
  refine ⟨(List.nodup_finRange 256).sublist sublist, fun devfn => ?_⟩
  rw [member, and_iff_right (List.mem_finRange devfn), ContextEntry.Names]
  generalize node.contextEntry devfn = entry
  change (if entry.present then entry.table >>= fun found => Except.ok (found == table)
    else Except.ok false) = Except.ok true ↔ _
  by_cases present : entry.present = true
  · rw [if_pos present]
    cases named : entry.table with
    | error reason => simp [Bind.bind, Except.bind]
    | ok found => simp [Bind.bind, Except.bind, present]
  · simp [present]

/-- The context tables of the first buses were searched for entries of a table, which were cleared.
-/
structure Unbinding (start now : Journaled Bindings) (contexts : Fin 256 → Option PhysicalAddress)
    (table : PhysicalAddress) (past : List (Fin 256)) : Prop where
  wired : now.state.Wired contexts
  relinks : start.state.Relinks now.state contexts contexts
  cleared : ∀ bus ∈ past, ∀ devfn,
    (entryAt start.state.pool (contexts bus) devfn).Names table →
      entryAt now.state.pool (contexts bus) devfn =
        (entryAt start.state.pool (contexts bus) devfn).cleared
  kept : ∀ bus devfn,
    (bus ∈ past → ¬(entryAt start.state.pool (contexts bus) devfn).Names table) →
      entryAt now.state.pool (contexts bus) devfn = entryAt start.state.pool (contexts bus) devfn
  wrote : ∀ bus ∈ past, ∀ devfn,
    (entryAt start.state.pool (contexts bus) devfn).Names table →
      ∃ context word, contexts bus = some context ∧
        .write context (lowSlot devfn) word ∈ now.journal.log
  grows : Grows Effect.IsWrite start now

theorem Unbinding.start {start : Journaled Bindings} (wired : start.state.Wired contexts)
    (table : PhysicalAddress) : Unbinding start start contexts table [] where
  wired := wired
  relinks := .refl ..
  cleared _ member := absurd member List.not_mem_nil
  kept _ _ _ := rfl
  wrote _ member := absurd member List.not_mem_nil
  grows := .of_log_eq rfl

/-- Clearing entries of one context table, all of which are bound to `table`. -/
theorem clear_ends {ε : Type} {start : Journaled Pool} {bound : List (Fin 256)}
    (live : start.state.node? context = some node) (nodup : bound.Nodup) :
    (bound.forM fun devfn => Pool.put context (node.clearWrites devfn) : Action Pool ε Unit).Returns
      start fun _ last =>
        start.state.Exchanges last.state [context] [context] ∧
          (∃ node', last.state.node? context = some node' ∧ ∀ devfn, node'.contextEntry devfn =
            if devfn ∈ bound then (node.contextEntry devfn).cleared else node.contextEntry devfn) ∧
          last.journal.log = start.journal.log ++ bound.map fun devfn =>
            .write context (lowSlot devfn) (node.contextEntry devfn).cleared.low := by
  apply Action.ends_forM fun past now =>
    start.state.Exchanges now.state [context] [context] ∧
      (∃ node', now.state.node? context = some node' ∧ ∀ devfn, node'.contextEntry devfn =
        if devfn ∈ past then (node.contextEntry devfn).cleared else node.contextEntry devfn) ∧
      now.journal.log = start.journal.log ++ past.map fun devfn =>
        .write context (lowSlot devfn) (node.contextEntry devfn).cleared.low
  case initial => exact ⟨.refl .., ⟨node, live, by simp⟩, by simp⟩
  case turn =>
    intro past next later now split kept
    obtain ⟨exchange, ⟨node', held, entries⟩, log⟩ := kept
    have fresh := Action.not_mem_past nodup split
    apply (Pool.put_ends _ held).mono _ fun _ _ => id
    intro _ last put
    obtain ⟨changed, written, log'⟩ := put
    refine ⟨exchange.trans changed, ⟨_, written, fun devfn => ?_⟩, ?_⟩
    · rw [Node.contextEntry_clear (by rw [entries, if_neg fresh]), entries]
      by_cases same : devfn = next
      · simp [same]
      · simp [same]
    · rw [log', log]
      simp [Node.clearWrites]
  case final => exact fun _ kept => kept

/-- What a bus that comes later has in its context table is what it had at the start. -/
theorem Unbinding.contextEntry_eq {start now : Journaled Bindings} {table : PhysicalAddress}
    {past : List (Fin 256)} (unbinding : Unbinding start now contexts table past)
    (fresh : bus ∉ past) (linked : contexts bus = some context)
    (live : now.state.pool.node? context = some node) (devfn : Fin 256) :
    node.contextEntry devfn = entryAt start.state.pool (contexts bus) devfn := by
  rw [← unbinding.kept bus devfn fun seen => absurd seen fresh, linked, entryAt_of_node? live]

theorem Unbinding.next {start now : Journaled Bindings} {table : PhysicalAddress}
    {past : List (Fin 256)} {last : Journaled Pool} {bound : List (Fin 256)}
    (unbinding : Unbinding start now contexts table past) (fresh : bus ∉ past)
    (linked : contexts bus = some context) (live : now.state.pool.node? context = some node)
    (member : ∀ devfn, devfn ∈ bound ↔ (node.contextEntry devfn).Names table)
    (exchange : now.state.pool.Exchanges last.state [context] [context])
    (written : ∃ node', last.state.node? context = some node' ∧ ∀ devfn,
      node'.contextEntry devfn =
        if devfn ∈ bound then (node.contextEntry devfn).cleared else node.contextEntry devfn)
    (log : last.journal.log = now.journal.log ++ bound.map fun devfn =>
      .write context (lowSlot devfn) (node.contextEntry devfn).cleared.low) :
    Unbinding start ⟨tables.set last.state now.state, last.journal⟩ contexts table
      (past ++ [bus]) := by
  obtain ⟨node', held, changed⟩ := written
  obtain ⟨wired, entries⟩ := unbinding.wired.rewrite linked exchange held
  have before := unbinding.contextEntry_eq fresh linked live
  have here (devfn : Fin 256) : entryAt last.state (contexts bus) devfn =
      if devfn ∈ bound then (entryAt start.state.pool (contexts bus) devfn).cleared
      else entryAt start.state.pool (contexts bus) devfn := by
    rw [entries, if_pos rfl, changed, before]
  have elsewhere (other devfn : Fin 256) (different : other ≠ bus) :
      entryAt last.state (contexts other) devfn =
        entryAt now.state.pool (contexts other) devfn := by
    rw [entries, if_neg different]
  simp only [before] at member
  refine ⟨wired, unbinding.relinks.trans (.rewrite linked exchange), ?_, ?_, ?_,
    trans_of (Grows Effect.IsWrite) unbinding.grows ⟨_, log, ?_⟩⟩
  · intro other seen devfn names
    rcases List.mem_append.mp seen with earlier | this
    · have different : other ≠ bus := fun same => fresh (same ▸ earlier)
      exact (elsewhere other devfn different).trans (unbinding.cleared other earlier devfn names)
    · cases List.mem_singleton.mp this
      exact (here devfn).trans (if_pos ((member devfn).mpr names))
  · intro other devfn unnamed
    by_cases same : other = bus
    · subst same
      exact (here devfn).trans (if_neg fun found => unnamed (by simp) ((member devfn).mp found))
    · apply (elsewhere other devfn same).trans
      exact unbinding.kept other devfn fun seen => unnamed (List.mem_append_left _ seen)
  · intro other seen devfn names
    rw [log]
    rcases List.mem_append.mp seen with earlier | this
    · obtain ⟨table, word, reached, noted⟩ := unbinding.wrote other earlier devfn names
      exact ⟨table, word, reached, List.mem_append_left _ noted⟩
    · cases List.mem_singleton.mp this
      refine ⟨context, _, linked, List.mem_append_right _ (List.mem_map_of_mem ?_)⟩
      exact (member devfn).mpr names
  · intro effect noted
    obtain ⟨devfn, _, rfl⟩ := List.mem_map.mp noted
    exact ⟨_, _, _, rfl⟩

theorem Unbinding.skip {start now : Journaled Bindings} {table : PhysicalAddress}
    {past : List (Fin 256)} (unbinding : Unbinding start now contexts table past)
    (unlinked : contexts bus = none) : Unbinding start now contexts table (past ++ [bus]) := by
  have unnamed (devfn : Fin 256) :
      ¬(entryAt start.state.pool (contexts bus) devfn).Names table := by
    intro names
    rw [unlinked] at names
    cases ContextEntry.present_absent.symm.trans names.1
  have earlier {other : Fin 256} (seen : other ∈ past ++ [bus]) {devfn : Fin 256}
      (names : (entryAt start.state.pool (contexts other) devfn).Names table) : other ∈ past := by
    rcases List.mem_append.mp seen with before | this
    · exact before
    · cases List.mem_singleton.mp this
      exact absurd names (unnamed devfn)
  refine ⟨unbinding.wired, unbinding.relinks, ?_, ?_, ?_, unbinding.grows⟩
  · exact fun other seen devfn names => unbinding.cleared other (earlier seen names) devfn names
  · intro other devfn kept
    exact unbinding.kept other devfn fun seen => kept (List.mem_append_left _ seen)
  · exact fun other seen devfn names => unbinding.wrote other (earlier seen names) devfn names

/-- The numbers given for some buses count their devices that are bound to a table. -/
def Counts (pool : Pool) (contexts : Fin 256 → Option PhysicalAddress) (table : PhysicalAddress)
    (past : List (Fin 256)) (given : List Nat) : Prop :=
  ∃ bound : List Bdf, bound.Nodup ∧ given.sum = bound.length ∧ ∀ bdf, bdf ∈ bound ↔
    bdf.bus ∈ past ∧ (entryAt pool (contexts bdf.bus) bdf.devfn).Names table

theorem Counts.next {table : PhysicalAddress} {past : List (Fin 256)} {given : List Nat}
    {bound : List (Fin 256)} (counts : Counts pool contexts table past given) (fresh : bus ∉ past)
    (nodup : bound.Nodup)
    (member : ∀ devfn, devfn ∈ bound ↔ (entryAt pool (contexts bus) devfn).Names table) :
    Counts pool contexts table (past ++ [bus]) (given ++ [bound.length]) := by
  obtain ⟨earlier, nodup', total, mem_iff⟩ := counts
  have mem_new (bdf : Bdf) :
      bdf ∈ bound.map (Bdf.ofIndex bus) ↔ bdf.bus = bus ∧ bdf.devfn ∈ bound := by
    simp only [List.mem_map, Bdf.ofIndex_eq_iff]
    constructor
    · rintro ⟨devfn, within, rfl, rfl⟩
      exact ⟨rfl, within⟩
    · rintro ⟨rfl, within⟩
      exact ⟨_, within, rfl, rfl⟩
  refine ⟨earlier ++ bound.map (Bdf.ofIndex bus), ?_, by simp [total], fun bdf => ?_⟩
  · rw [List.nodup_append']
    refine ⟨nodup', nodup.map fun devfn other same => ?_, fun bdf before here => ?_⟩
    · simpa using congrArg Bdf.devfn same
    · exact fresh (((mem_new bdf).mp here).1 ▸ ((mem_iff bdf).mp before).1)
  · rw [List.mem_append, mem_iff, mem_new, List.mem_append, List.mem_singleton, or_and_right]
    apply or_congr_right
    apply and_congr_right
    rintro rfl
    exact member bdf.devfn

/-- Every entry that names a table is cleared and counted, and no other entry changes. -/
theorem unbindAll_ends_counting {ε : Type} {start : Journaled Bindings}
    (wired : start.state.Wired contexts) (table : PhysicalAddress) :
    (unbindAll table : Action Bindings ε Nat).Ends start
      (fun count last => Unbinding start last contexts table (List.finRange 256) ∧
        Counts start.state.pool contexts table (List.finRange 256) [count])
      (fun cause _ => ∃ reason, cause = .abort reason ∧ ¬start.state.Readable) := by
  unfold unbindAll
  simp only [Action.ends_bind, Action.ends_pure]
  apply Action.ends_mapM fun past given now => Unbinding start now contexts table past ∧
    Counts start.state.pool contexts table past given
  case initial => exact ⟨.start wired table, [], .nil, rfl, by simp⟩
  case final =>
    intro counts last kept
    obtain ⟨unbinding, bound, nodup, total, member⟩ := kept
    refine ⟨unbinding, bound, nodup, ?_, member⟩
    rw [← total, List.sum_singleton, List.sum_eq_foldl]
  case turn =>
    intro past given bus later now split kept
    obtain ⟨unbinding, counts⟩ := kept
    have fresh := Action.not_mem_past (List.nodup_finRange 256) split
    simp only [Action.ends_bind, Action.ends_state, unbinding.wired.contextTable?_eq,
      Action.ends_lift_ok]
    cases linked : contexts bus with
    | none =>
      simp only [Action.ends_pure]
      refine ⟨unbinding.skip linked, counts.next fresh .nil fun devfn => ?_⟩
      rw [linked]
      simp [ContextEntry.Names, entryAt, ContextEntry.present_absent]
    | some context =>
      obtain ⟨node, live⟩ := unbinding.wired.live linked
      have before := unbinding.contextEntry_eq fresh linked live
      simp only [live, Action.ends_bind]
      rw [Action.ends_lift]
      cases found : boundDevices node table with
      | error reason =>
        refine ⟨reason, rfl, fun readable => ?_⟩
        obtain ⟨devfn, present, unread⟩ := exists_unreadable found
        have here := wired.context_eq (.ofIndex bus devfn)
        rw [Bdf.bus_ofIndex, Bdf.devfn_ofIndex, ← before] at here
        obtain ⟨table, named⟩ := readable _ _ here present
        exact unread table named
      | ok bound =>
        obtain ⟨nodup, member⟩ := mem_boundDevices found
        apply (Action.ends_on _ _).mpr
        apply (clear_ends live nodup).mono _ fun _ _ => False.elim
        intro _ last ended
        obtain ⟨exchange, written, log⟩ := ended
        rw [Action.ends_pure]
        refine ⟨unbinding.next fresh linked live member exchange written log,
          counts.next fresh nodup fun devfn => ?_⟩
        rw [member, before]

theorem unbindAll_ends {ε : Type} {start : Journaled Bindings} (wired : start.state.Wired contexts)
    (table : PhysicalAddress) :
    (unbindAll table : Action Bindings ε Nat).Ends start
      (fun _ last => Unbinding start last contexts table (List.finRange 256))
      (fun cause _ => ∃ reason, cause = .abort reason) :=
  (unbindAll_ends_counting wired table).mono (fun _ _ => And.left) fun _ _ aborted =>
    aborted.imp fun _ => And.left

/-- After the entries of a table were cleared: those that named it, and no others. -/
theorem Unbinding.context_eq {start last : Journaled Bindings} {table : PhysicalAddress}
    (unbinding : Unbinding start last contexts table (List.finRange 256))
    (wired : start.state.Wired contexts) {entry : ContextEntry}
    (before : start.state.context bdf = .ok entry) :
    (entry.Names table → last.state.context bdf = .ok entry.cleared ∧
      start.state.Wrote bdf last.journal.log) ∧
    (¬entry.Names table → last.state.context bdf = .ok entry) := by
  rw [wired.context_eq] at before
  cases before
  rw [unbinding.wired.context_eq]
  have all := List.mem_finRange bdf.bus
  constructor
  · intro names
    obtain ⟨context, word, linked, wrote⟩ := unbinding.wrote bdf.bus all bdf.devfn names
    refine ⟨congrArg Except.ok (unbinding.cleared bdf.bus all bdf.devfn names), context, word, ?_,
      wrote⟩
    rw [wired.contextTable?_eq, linked]
  · intro unnamed
    exact congrArg Except.ok (unbinding.kept bdf.bus bdf.devfn fun _ => unnamed)

/-- Whatever is present afterwards was there before and did not name the table. -/
theorem Unbinding.context_of_present {start last : Journaled Bindings} {table : PhysicalAddress}
    (unbinding : Unbinding start last contexts table (List.finRange 256))
    (wired : start.state.Wired contexts) {entry : ContextEntry}
    (now : last.state.context bdf = .ok entry) (present : entry.present = true) :
    start.state.context bdf = .ok entry ∧ ¬entry.Names table := by
  have before := wired.context_eq bdf
  obtain ⟨named, unnamed⟩ := unbinding.context_eq wired before
  by_cases names : (entryAt start.state.pool (contexts bdf.bus) bdf.devfn).Names table
  · cases (named names).1.symm.trans now
    cases ContextEntry.present_cleared.symm.trans present
  · cases (unnamed names).symm.trans now
    exact ⟨before, names⟩

end Bindings

end DmaRemap

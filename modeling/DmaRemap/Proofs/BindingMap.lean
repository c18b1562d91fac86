import DmaRemap.Proofs.Bindings

/-! Bindings refine a finite map from devices to tables and domains. Requests are answered by the
map and change it, the bindings show what the map holds, and their pool holds one context table for
each bus that a device was ever bound on. -/

namespace DmaRemap

/-- What a device is bound to: a table, which is a whole page of memory, and a domain. -/
structure Binding where
  table : PhysicalAddress
  domain : DomainId
  aligned : 4096 ∣ table.val
deriving DecidableEq

namespace Binding

variable {binding other : Binding}

def entry (binding : Binding) : ContextEntry :=
  .binding binding.table binding.domain

theorem table_entry (binding : Binding) : binding.entry.table = .ok binding.table :=
  ContextEntry.table_binding binding.aligned

theorem entry_inj : binding.entry = other.entry ↔ binding = other := by
  constructor
  · intro same
    have table := congrArg ContextEntry.table same
    have domain := congrArg ContextEntry.domain same
    rw [table_entry, table_entry, Except.ok.injEq] at table
    rw [entry, entry, ContextEntry.domain_binding, ContextEntry.domain_binding] at domain
    cases binding
    cases other
    simp_all
  · rintro rfl
    rfl

end Binding

/-- A finite map from devices to what they are bound to. -/
abbrev BindingMap := Bdf → Option Binding

namespace BindingMap

def bind (map : BindingMap) (bdf : Bdf) (binding : Binding) : BindingMap :=
  Function.update map bdf (some binding)

def unbind (map : BindingMap) (bdf : Bdf) : BindingMap :=
  Function.update map bdf none

def unbindAll (map : BindingMap) (table : PhysicalAddress) : BindingMap := fun bdf =>
  (map bdf).filter fun binding => binding.table ≠ table

/-- The devices that are bound to a table. -/
def bound (map : BindingMap) (table : PhysicalAddress) : Set Bdf :=
  { bdf | ∃ binding, map bdf = some binding ∧ binding.table = table }

theorem unbindAll_of_mem {map : BindingMap} {table : PhysicalAddress} {bdf : Bdf}
    (member : bdf ∈ map.bound table) : map.unbindAll table bdf = none := by
  obtain ⟨binding, had, same⟩ := member
  simp [unbindAll, had, same, Option.filter]

theorem unbindAll_of_not_mem {map : BindingMap} {table : PhysicalAddress} {bdf : Bdf}
    (outside : bdf ∉ map.bound table) : map.unbindAll table bdf = map bdf := by
  cases had : map bdf with
  | none => simp [unbindAll, had]
  | some binding =>
    have different : binding.table ≠ table := fun same => outside ⟨binding, had, same⟩
    simp [unbindAll, had, different, Option.filter]

/-- What binding a device answers, by its binding before. -/
def bindAnswer (map : BindingMap) (bdf : Bdf) (binding : Binding) : BindOutcome :=
  match map bdf with
  | none => .installed
  | some previous => if previous = binding then .unchanged else .replaced previous.entry

/-- What unbinding a device from a table answers, by its binding before. -/
def unbindAnswer (map : BindingMap) (bdf : Bdf) (table : PhysicalAddress) : UnbindOutcome :=
  match map bdf with
  | none => .absent
  | some previous => if previous.table = table then .removed else .foreign previous.table

end BindingMap

/-- Whether an entry shows a binding, or that there is none. -/
def ContextEntry.Shows (entry : ContextEntry) : Option Binding → Prop
  | some binding => entry = binding.entry
  | none => entry.present = false

namespace ContextEntry.Shows

variable {entry : ContextEntry} {bound : Option Binding} {table : PhysicalAddress}

theorem present_iff (shown : entry.Shows bound) : entry.present = true ↔ bound.isSome := by
  cases bound with
  | none => simp [show entry.present = false from shown]
  | some binding =>
    cases show entry = binding.entry from shown
    simp [Binding.entry, present_binding]

theorem names_iff (shown : entry.Shows bound) :
    entry.Names table ↔ ∃ binding, bound = some binding ∧ binding.table = table := by
  cases bound with
  | none => simp [Names, show entry.present = false from shown]
  | some binding =>
    cases show entry = binding.entry from shown
    rw [Names, Binding.table_entry]
    simp [Binding.entry, present_binding]

end ContextEntry.Shows

namespace Bindings

variable {bindings before after : Bindings} {contexts contexts' : Fin 256 → Option PhysicalAddress}
  {map : BindingMap} {buses : Finset (Fin 256)} {bdf : Bdf} {binding : Binding}
  {table : PhysicalAddress} {journal : Journal}

theorem Wired.live_of_mem (wired : bindings.Wired contexts) {address : PhysicalAddress}
    (member : address ∈ nodes bindings.root contexts) :
    ∃ node, bindings.pool.node? address = some node := by
  rcases mem_nodes_iff.mp member with rfl | ⟨bus, linked⟩
  · obtain ⟨node, held, _⟩ := wired.root
    exact ⟨node, held⟩
  · exact wired.live linked

theorem Wired.nodup_nodes (wired : bindings.Wired contexts) :
    (nodes bindings.root contexts).Nodup := by
  refine List.nodup_cons.mpr ⟨fun member => ?_, ?_⟩
  · obtain ⟨bus, _, linked⟩ := List.mem_filterMap.mp member
    exact wired.apart linked rfl
  · apply (List.nodup_finRange 256).filterMap
    exact fun bus other context linked linked' => wired.distinct linked linked'

/-- The tables of the bindings are all that their pool has handed out. -/
structure Owns (bindings : Bindings) (contexts : Fin 256 → Option PhysicalAddress) : Prop where
  wired : bindings.Wired contexts
  sound : bindings.pool.Sound
  owned : ∀ address, bindings.pool.contains address ↔ address ∈ nodes bindings.root contexts

/-- As long as only the tables change, they stay all that is handed out. -/
theorem Owns.relinked (owns : before.Owns contexts) (wired : after.Wired contexts')
    (relinks : before.Relinks after contexts contexts') : after.Owns contexts' where
  wired := wired
  sound := relinks.exchange.sound owns.sound
  owned address := by
    constructor
    · intro contained
      by_contra outside
      obtain ⟨node, held⟩ := Pool.contains_iff.mp contained
      rw [relinks.root] at outside
      by_cases within : address ∈ nodes before.root contexts
      · cases (relinks.exchange.released address within outside).symm.trans held
      · rw [relinks.exchange.elsewhere address within outside] at held
        exact within ((owns.owned address).mp (Pool.contains_iff.mpr ⟨node, held⟩))
    · exact fun member => Pool.contains_iff.mpr (wired.live_of_mem member)

theorem Owns.used_eq (owns : bindings.Owns contexts)
    (linked : ∀ bus, (contexts bus).isSome ↔ bus ∈ buses) :
    bindings.pool.used = 1 + buses.card := by
  rw [owns.sound.used_eq_length owns.wired.nodup_nodes owns.owned, nodes, List.length_cons,
    List.length_filterMap_eq_countP, List.countP_eq_length_filter, Nat.add_comm]
  have same : buses = ((List.finRange 256).filter fun bus => (contexts bus).isSome).toFinset := by
    ext bus
    simp [linked]
  rw [same, List.toFinset_card_of_nodup ((List.nodup_finRange 256).filter _)]

/-- The bindings show a map, with context tables for the given buses. -/
structure Represents (bindings : Bindings) (map : BindingMap) (buses : Finset (Fin 256)) :
    Prop where
  tables : ∃ contexts, bindings.Owns contexts ∧ ∀ bus, (contexts bus).isSome ↔ bus ∈ buses
  shown : ∀ bdf, ∃ entry, bindings.context bdf = .ok entry ∧ entry.Shows (map bdf)

namespace Represents

theorem shows_of_context (represents : bindings.Represents map buses) {entry : ContextEntry}
    (found : bindings.context bdf = .ok entry) : entry.Shows (map bdf) := by
  obtain ⟨shown, same, holds⟩ := represents.shown bdf
  cases same.symm.trans found
  exact holds

theorem readable (represents : bindings.Represents map buses) : bindings.Readable := by
  intro bdf entry found present
  have shown := represents.shows_of_context found
  obtain ⟨binding, bound⟩ := Option.isSome_iff_exists.mp (shown.present_iff.mp present)
  rw [bound] at shown
  rw [show entry = binding.entry from shown]
  exact ⟨binding.table, binding.table_entry⟩

theorem create {σ : Type} {base : PhysicalAddress} {slots : Array Node} {pool : Pool}
    {coherency : Coherency} {start : Journaled σ} (made : Pool.over? base slots = some pool)
    (created : (Bindings.create pool coherency : Action σ TableError Bindings).outcome start =
      .ok bindings) : bindings.Represents (fun _ => none) ∅ := by
  obtain ⟨_, wired, taken⟩ := (create_ends pool coherency start).returned created
  have owned (address : PhysicalAddress) :
      bindings.pool.contains address ↔ address ∈ nodes bindings.root fun _ => none := by
    constructor
    · intro contained
      obtain ⟨node, held⟩ := Pool.contains_iff.mp contained
      by_contra outside
      rw [taken.elsewhere address List.not_mem_nil (by simpa [nodes] using outside),
        Pool.node?_of_over? made] at held
      cases held
    · exact fun member => Pool.contains_iff.mpr (wired.live_of_mem member)
  refine ⟨⟨_, ⟨wired, taken.sound (Pool.sound_of_over? made), owned⟩, by simp⟩, fun bdf => ?_⟩
  exact ⟨_, wired.context_eq bdf, ContextEntry.present_absent⟩

theorem answer_of_bound (represents : before.Represents map buses) {outcome : BindOutcome}
    {last : Journaled Bindings}
    (bound : Bound ⟨before, journal⟩ bdf binding.table binding.domain outcome last) :
    outcome = map.bindAnswer bdf binding := by
  obtain ⟨previous, found, holds⟩ := bound.previous
  have shown := represents.shows_of_context found
  have fresh : binding.entry.present = true := ContextEntry.present_binding
  unfold BindingMap.bindAnswer
  cases had : map bdf with
  | none =>
    rw [had] at shown
    have absent : previous.present = false := shown
    cases outcome with
    | installed => rfl
    | unchanged => cases (holds ▸ absent).symm.trans fresh
    | replaced => cases absent.symm.trans holds.2.1
  | some old =>
    rw [had] at shown
    cases show previous = old.entry from shown
    cases outcome with
    | installed => cases holds.symm.trans ContextEntry.present_binding
    | unchanged => simp [Binding.entry_inj.mp holds]
    | replaced =>
      have different : old ≠ binding := fun same => holds.2.2.1 (Binding.entry_inj.mpr same)
      simp [different, holds.1]

theorem bind_ends (represents : bindings.Represents map buses) (bdf : Bdf) (binding : Binding)
    (journal : Journal) :
    (Bindings.bind bdf binding.table binding.domain).Ends ⟨bindings, journal⟩
      (fun outcome last => outcome = map.bindAnswer bdf binding ∧
        last.state.Represents (map.bind bdf binding) (insert bdf.bus buses))
      (fun cause last => cause = .error .outOfMemory ∧ last.state = bindings ∧
        bindings.pool.free = 0 ∧ bdf.bus ∉ buses) := by
  obtain ⟨contexts, owns, linked⟩ := represents.tables
  apply (Bindings.bind_ends owns.wired bdf binding.table binding.domain).mono
  · intro outcome last ended
    obtain ⟨bound, _, wired', relinks, context, rfl⟩ := ended
    refine ⟨represents.answer_of_bound bound, ⟨_, owns.relinked wired' relinks, fun bus => ?_⟩,
      fun other => ?_⟩
    · rw [Function.update_apply, Finset.mem_insert]
      split
      case isTrue same => simp [same]
      case isFalse different => simp [linked, different]
    · rw [bound.rebinds.context, BindingMap.bind, Function.update_apply]
      split
      case isTrue => exact ⟨_, rfl, rfl⟩
      case isFalse => exact represents.shown other
  · intro cause last failed
    rcases failed with ⟨_, _, unreadable⟩ | ⟨rfl, same, exhausted, unlinked⟩
    · exact absurd represents.readable unreadable
    · refine ⟨rfl, same, owns.sound.free_eq_zero exhausted, fun member => ?_⟩
      simpa [unlinked] using (linked bdf.bus).mpr member

theorem answer_of_unbound (represents : before.Represents map buses) {outcome : UnbindOutcome}
    {last : Journaled Bindings} (unbound : Unbound ⟨before, journal⟩ bdf table outcome last) :
    outcome = map.unbindAnswer bdf table := by
  obtain ⟨entry, found, holds⟩ := unbound
  have shown := represents.shows_of_context found
  unfold BindingMap.unbindAnswer
  cases had : map bdf with
  | none =>
    rw [had] at shown
    have absent : entry.present = false := shown
    cases outcome with
    | absent => rfl
    | removed => cases absent.symm.trans holds.2.present
    | foreign => cases absent.symm.trans holds.2.2.present
  | some old =>
    rw [had] at shown
    cases show entry = old.entry from shown
    rw [Binding.table_entry] at holds
    cases outcome with
    | absent => cases holds.1.symm.trans ContextEntry.present_binding
    | removed => simp [Except.ok.inj holds.1]
    | foreign found =>
      obtain ⟨named, foreign, _⟩ := holds
      cases Except.ok.inj named
      simp [foreign]

theorem shown_of_unbound (represents : before.Represents map buses) {outcome : UnbindOutcome}
    {last : Journaled Bindings} (unbound : Unbound ⟨before, journal⟩ bdf table outcome last)
    (other : Bdf) : ∃ entry, last.state.context other = .ok entry ∧
      entry.Shows (map.unbind bdf other) := by
  obtain ⟨entry, found, holds⟩ := unbound
  have cleared (clears : Clears ⟨before, journal⟩ last bdf entry) :
      ∃ entry, last.state.context other = .ok entry ∧ entry.Shows (map.unbind bdf other) := by
    rw [clears.rebinds.context, BindingMap.unbind, Function.update_apply]
    split
    case isTrue => exact ⟨_, rfl, ContextEntry.present_cleared⟩
    case isFalse => exact represents.shown other
  cases outcome with
  | removed => exact cleared holds.2
  | foreign => exact cleared holds.2.2
  | absent =>
    obtain ⟨absent, same⟩ := holds
    rw [same, BindingMap.unbind, Function.update_apply]
    split
    case isTrue here => exact ⟨entry, here ▸ found, absent⟩
    case isFalse => exact represents.shown other

theorem unbind_ends {ε : Type} (represents : bindings.Represents map buses) (bdf : Bdf)
    (table : PhysicalAddress) (journal : Journal) :
    (Bindings.unbind bdf table : Action Bindings ε UnbindOutcome).Returns ⟨bindings, journal⟩
      fun outcome last => outcome = map.unbindAnswer bdf table ∧
        last.state.Represents (map.unbind bdf) buses := by
  obtain ⟨contexts, owns, linked⟩ := represents.tables
  apply (Bindings.unbind_ends owns.wired bdf table).mono
  · intro outcome last ended
    obtain ⟨unbound, wired', relinks⟩ := ended
    exact ⟨represents.answer_of_unbound unbound, ⟨_, owns.relinked wired' relinks, linked⟩,
      represents.shown_of_unbound unbound⟩
  · intro cause last aborted
    obtain ⟨_, _, unreadable⟩ := aborted
    exact unreadable represents.readable

theorem ncard_of_counts (represents : bindings.Represents map buses)
    (wired : bindings.Wired contexts) {count : Nat}
    (counts : Counts bindings.pool contexts table (List.finRange 256) [count]) :
    count = (map.bound table).ncard := by
  obtain ⟨bound, nodup, total, member⟩ := counts
  have same : map.bound table = bound.toFinset := by
    ext bdf
    have shown := represents.shows_of_context (wired.context_eq bdf)
    rw [List.coe_toFinset]
    exact (shown.names_iff.symm.trans (and_iff_right (List.mem_finRange bdf.bus)).symm).trans
      (member bdf).symm
  rw [same, Set.ncard_coe_finset, List.toFinset_card_of_nodup nodup, ← total, List.sum_singleton]

theorem unbindAll_ends {ε : Type} (represents : bindings.Represents map buses)
    (table : PhysicalAddress) (journal : Journal) :
    (Bindings.unbindAll table : Action Bindings ε Nat).Returns ⟨bindings, journal⟩
      fun count last => count = (map.bound table).ncard ∧
        last.state.Represents (map.unbindAll table) buses := by
  obtain ⟨contexts, owns, linked⟩ := represents.tables
  apply (Bindings.unbindAll_ends_counting owns.wired table).mono
  · intro count last ended
    obtain ⟨unbinding, counts⟩ := ended
    refine ⟨represents.ncard_of_counts owns.wired counts,
      ⟨_, owns.relinked unbinding.wired unbinding.relinks, linked⟩, fun bdf => ?_⟩
    obtain ⟨entry, found, shown⟩ := represents.shown bdf
    obtain ⟨named, unnamed⟩ := unbinding.context_eq owns.wired found
    by_cases names : entry.Names table
    · refine ⟨_, (named names).1, ?_⟩
      rw [BindingMap.unbindAll_of_mem (shown.names_iff.mp names)]
      exact ContextEntry.present_cleared
    · refine ⟨entry, unnamed names, ?_⟩
      rwa [BindingMap.unbindAll_of_not_mem (mt shown.names_iff.mpr names)]
  · intro cause last aborted
    obtain ⟨_, _, unreadable⟩ := aborted
    exact unreadable represents.readable

end Represents

/-- The bound devices of a bus and their entries, in ascending order. -/
def listed (pool : Pool) (contexts : Fin 256 → Option PhysicalAddress) (bus : Fin 256) :
    List (Bdf × ContextEntry) :=
  (List.finRange 256).filterMap fun devfn =>
    if (entryAt pool (contexts bus) devfn).present then
      some (.ofIndex bus devfn, entryAt pool (contexts bus) devfn)
    else
      none

theorem mem_listed_iff {pool : Pool} {bus : Fin 256} {entry : ContextEntry} :
    (bdf, entry) ∈ listed pool contexts bus ↔
      bdf.bus = bus ∧ entry = entryAt pool (contexts bdf.bus) bdf.devfn ∧ entry.present = true := by
  simp only [listed, List.mem_filterMap, List.mem_finRange, true_and, Option.ite_none_right_eq_some,
    Option.some.injEq, Prod.mk.injEq, Bdf.ofIndex_eq_iff]
  constructor
  · rintro ⟨devfn, present, ⟨rfl, rfl⟩, rfl⟩
    exact ⟨rfl, rfl, present⟩
  · rintro ⟨rfl, rfl, present⟩
    exact ⟨_, present, ⟨rfl, rfl⟩, rfl⟩

theorem pairwise_listed (pool : Pool) (bus : Fin 256) :
    (listed pool contexts bus).Pairwise fun first second =>
      first.1.routingId.val < second.1.routingId.val := by
  apply List.Pairwise.filterMap _ _ (List.pairwise_lt_finRange 256)
  intro devfn devfn' before found member found' member'
  simp only [Option.ite_none_right_eq_some, Option.some.injEq] at member member'
  obtain ⟨_, rfl⟩ := member
  obtain ⟨_, rfl⟩ := member'
  rw [Fin.lt_def] at before ⊢
  simpa only [Bdf.routingId_ofIndex, Nat.add_lt_add_iff_left] using before

theorem Wired.toList_eq (wired : bindings.Wired contexts) :
    bindings.toList = .ok ((List.finRange 256).flatMap (listed bindings.pool contexts)) := by
  have walked : ∃ found, bindings.toList = .ok found ∧
      found = (List.finRange 256).flatMap (listed bindings.pool contexts) := by
    apply exists_flatMapM fun bus found => found = listed bindings.pool contexts bus
    case each =>
      intro bus
      have node : bindings.contextNode? bus = .ok ((contexts bus).bind bindings.pool.node?) := by
        rw [contextNode?, wired.contextTable?_eq]
        rfl
      rw [node]
      cases linked : (contexts bus).bind bindings.pool.node? with
      | none => exact ⟨_, rfl, by simp [listed, entryAt, linked, ContextEntry.present_absent]⟩
      | some node => exact ⟨_, rfl, by simp [listed, entryAt, linked, Bdf.ofIndex]⟩
    case gather =>
      intro found same
      rw [funext same]
  obtain ⟨_, walked, rfl⟩ := walked
  exact walked

/-- The list of the bindings ascends, and has the entries that are present. -/
theorem Wired.exists_toList (wired : bindings.Wired contexts) :
    ∃ entries, bindings.toList = .ok entries ∧
      (entries.Pairwise fun first second => first.1.routingId.val < second.1.routingId.val) ∧
      ∀ bdf entry, (bdf, entry) ∈ entries ↔
        bindings.context bdf = .ok entry ∧ entry.present = true := by
  refine ⟨_, wired.toList_eq, ?_, fun bdf entry => ?_⟩
  · rw [List.pairwise_flatMap]
    refine ⟨fun bus _ => pairwise_listed bindings.pool bus, ?_⟩
    apply (List.pairwise_lt_finRange 256).imp
    rintro bus bus' before ⟨first, entry⟩ member ⟨second, entry'⟩ member'
    obtain ⟨rfl, _⟩ := mem_listed_iff.mp member
    obtain ⟨rfl, _⟩ := mem_listed_iff.mp member'
    simp only [Bdf.routingId, Fin.lt_def] at before ⊢
    omega
  · simp only [List.mem_flatMap, List.mem_finRange, true_and, mem_listed_iff, wired.context_eq,
      Except.ok.injEq]
    constructor
    · rintro ⟨_, rfl, same, present⟩
      exact ⟨same.symm, present⟩
    · rintro ⟨same, present⟩
      exact ⟨_, rfl, same.symm, present⟩

/-- The bindings that requests lead to from a new root table on, with the map that the requests make
and the buses on which a device was ever bound. Only a binding can fail, and then it changes
nothing. -/
inductive Reached : Bindings → BindingMap → Finset (Fin 256) → Prop where
  | created {σ : Type} {base : PhysicalAddress} {slots : Array Node} {pool : Pool}
      {coherency : Coherency} {start : Journaled σ} {bindings : Bindings}
      (made : Pool.over? base slots = some pool)
      (created : (create pool coherency : Action σ TableError Bindings).outcome start =
        .ok bindings) :
      Reached bindings (fun _ => none) ∅
  | bound {bindings : Bindings} {map : BindingMap} {buses : Finset (Fin 256)}
      {outcome : BindOutcome} (reached : Reached bindings map buses) (bdf : Bdf)
      (binding : Binding) (journal : Journal)
      (bound : (bind bdf binding.table binding.domain).outcome ⟨bindings, journal⟩ =
        .ok outcome) :
      Reached ((bind bdf binding.table binding.domain).finish ⟨bindings, journal⟩).state
        (map.bind bdf binding) (insert bdf.bus buses)
  | refused {bindings : Bindings} {map : BindingMap} {buses : Finset (Fin 256)}
      {cause : Failure TableError} (reached : Reached bindings map buses) (bdf : Bdf)
      (binding : Binding) (journal : Journal)
      (refused : (bind bdf binding.table binding.domain).outcome ⟨bindings, journal⟩ =
        .error cause) :
      Reached ((bind bdf binding.table binding.domain).finish ⟨bindings, journal⟩).state map buses
  | unbound {bindings : Bindings} {map : BindingMap} {buses : Finset (Fin 256)}
      (reached : Reached bindings map buses) (bdf : Bdf) (table : PhysicalAddress)
      (journal : Journal) :
      Reached ((unbind bdf table : Action Bindings TableError _).finish ⟨bindings, journal⟩).state
        (map.unbind bdf) buses
  | unboundAll {bindings : Bindings} {map : BindingMap} {buses : Finset (Fin 256)}
      (reached : Reached bindings map buses) (table : PhysicalAddress) (journal : Journal) :
      Reached ((unbindAll table : Action Bindings TableError _).finish ⟨bindings, journal⟩).state
        (map.unbindAll table) buses

theorem Reached.represents (reached : bindings.Reached map buses) :
    bindings.Represents map buses := by
  induction reached with
  | created made created => exact .create made created
  | bound _ bdf binding journal bound ih =>
    exact ((ih.bind_ends bdf binding journal).returned bound).2
  | refused _ bdf binding journal refused ih =>
    obtain ⟨_, same, _⟩ := (ih.bind_ends bdf binding journal).failed refused
    rwa [same]
  | unbound _ bdf table journal ih =>
    obtain ⟨_, _, _, represents⟩ := (ih.unbind_ends bdf table journal).exists_outcome
    exact represents
  | unboundAll _ table journal ih =>
    obtain ⟨_, _, _, represents⟩ := (ih.unbindAll_ends table journal).exists_outcome
    exact represents

/-- In every state that requests lead to the bindings are those of the map: the entry of a device
shows its binding, the list has each binding once and in order, requests answer by the map, and the
pool holds the root table and one table for each bus that a device was bound on. A binding fails
only on a new bus when the pool is exhausted, and then changes nothing. -/
theorem Reached.refines (reached : bindings.Reached map buses) :
    (∀ bdf, ∃ entry, bindings.context bdf = .ok entry ∧
      (entry.present = true ↔ (map bdf).isSome) ∧
      ∀ binding, map bdf = some binding →
        entry.table = .ok binding.table ∧ entry.domain = binding.domain) ∧
    (∃ entries, bindings.toList = .ok entries ∧
      (entries.Pairwise fun first second => first.1.routingId.val < second.1.routingId.val) ∧
      ∀ bdf entry, (bdf, entry) ∈ entries ↔
        ∃ binding, map bdf = some binding ∧ entry = binding.entry) ∧
    bindings.pool.used = 1 + buses.card ∧
    (∀ (bdf : Bdf) (binding : Binding) (journal : Journal),
      (bind bdf binding.table binding.domain).outcome ⟨bindings, journal⟩ =
          .ok (map.bindAnswer bdf binding) ∨
        (bind bdf binding.table binding.domain).outcome ⟨bindings, journal⟩ =
          .error (.error .outOfMemory) ∧
        ((bind bdf binding.table binding.domain).finish ⟨bindings, journal⟩).state = bindings ∧
        bindings.pool.free = 0 ∧ bdf.bus ∉ buses) ∧
    (∀ (bdf : Bdf) (table : PhysicalAddress) (journal : Journal),
      (unbind bdf table : Action Bindings TableError _).outcome ⟨bindings, journal⟩ =
        .ok (map.unbindAnswer bdf table)) ∧
    ∀ (table : PhysicalAddress) (journal : Journal),
      (unbindAll table : Action Bindings TableError _).outcome ⟨bindings, journal⟩ =
        .ok (map.bound table).ncard := by
  have represents := reached.represents
  obtain ⟨contexts, owns, linked⟩ := represents.tables
  refine ⟨fun bdf => ?_, ?_, owns.used_eq linked, fun bdf binding journal => ?_,
    fun bdf table journal => ?_, fun table journal => ?_⟩
  · obtain ⟨entry, found, shown⟩ := represents.shown bdf
    refine ⟨entry, found, shown.present_iff, fun binding had => ?_⟩
    rw [had] at shown
    rw [show entry = binding.entry from shown]
    exact ⟨binding.table_entry, ContextEntry.domain_binding⟩
  · obtain ⟨entries, listed, ascending, member⟩ := owns.wired.exists_toList
    refine ⟨entries, listed, ascending, fun bdf entry => (member bdf entry).trans ?_⟩
    constructor
    · rintro ⟨found, present⟩
      have shown := represents.shows_of_context found
      obtain ⟨binding, had⟩ := Option.isSome_iff_exists.mp (shown.present_iff.mp present)
      rw [had] at shown
      exact ⟨binding, had, shown⟩
    · rintro ⟨binding, had, rfl⟩
      obtain ⟨entry, found, shown⟩ := represents.shown bdf
      rw [had] at shown
      cases show entry = binding.entry from shown
      exact ⟨found, ContextEntry.present_binding⟩
  · rcases (represents.bind_ends bdf binding journal).outcome_finish with
      ⟨_, returned, rfl, _⟩ | ⟨_, failed, rfl, rest⟩
    · exact .inl returned
    · exact .inr ⟨failed, rest⟩
  · obtain ⟨_, returned, rfl, _⟩ := (represents.unbind_ends bdf table journal).exists_outcome
    exact returned
  · obtain ⟨_, returned, rfl, _⟩ := (represents.unbindAll_ends table journal).exists_outcome
    exact returned

def poolSample : Pool :=
  (Pool.over? ⟨0x100000, by decide⟩ (Array.replicate 3 Node.zero)).get (by decide +kernel)

theorem poolSample_eq :
    Pool.over? ⟨0x100000, by decide⟩ (Array.replicate 3 Node.zero) = some poolSample :=
  (Option.some_get _).symm

def deviceSample : Bdf := .ofRoutingId (.ofNat 8)

/-- A new root table over a pool of three nodes. -/
def rootSample : Bindings :=
  ((create poolSample .coherent : Action Unit TableError Bindings).outcome
    ⟨(), { threshold := none }⟩).toOption.get (by decide +kernel)

def bindingSample : Binding := ⟨⟨0x200000, by decide⟩, .ofNat 1, by decide⟩

/-- The root table after a device was bound. -/
def boundSample : Bindings :=
  ((bind deviceSample bindingSample.table bindingSample.domain).finish
    ⟨rootSample, { threshold := none }⟩).state

theorem reached_boundSample :
    boundSample.Reached (BindingMap.bind (fun _ => none) deviceSample bindingSample) {0} := by
  have made : rootSample.Reached (fun _ => none) ∅ := .created poolSample_eq (eq_ok_get _)
  have returned : (bind deviceSample bindingSample.table bindingSample.domain).outcome
      ⟨rootSample, { threshold := none }⟩ = .ok .installed := by
    decide +kernel
  exact made.bound deviceSample bindingSample _ returned

/-- The bound device can be unbound from its table, and the pool holds two nodes. -/
theorem refines_sample :
    boundSample.pool.used = 2 ∧
      (unbind deviceSample bindingSample.table : Action Bindings TableError _).outcome
        ⟨boundSample, { threshold := none }⟩ = .ok .removed := by
  obtain ⟨_, _, used, _, unbinds, _⟩ := reached_boundSample.refines
  refine ⟨used, (unbinds _ _ _).trans ?_⟩
  simp [BindingMap.unbindAnswer, BindingMap.bind]

end Bindings

end DmaRemap

import DmaRemap.Pool
import DmaRemap.Proofs.Bitmap
import DmaRemap.Proofs.Effects

/-! A pool as a heap: a partial map from addresses to the nodes handed out there. Each operation of
a pool is described by what it does to this map, and `Exchanges` says which part of it an operation
touches. -/

namespace DmaRemap.Pool

variable {pool next before middle after : Pool} {address other : PhysicalAddress} {node : Node}
  {old new newer : List PhysicalAddress}

/-- A node of a pool and whether it is handed out. -/
structure Cell where
  live : Bool
  node : Node

/-- The cell at an index. -/
def cell? (pool : Pool) (index : Nat) : Option Cell :=
  if within : index < pool.capacity then
    some ⟨pool.handedOut.isUsed ⟨index, within⟩, pool.nodes.get ⟨index, within⟩⟩
  else none

theorem cell?_of_fin (pool : Pool) (index : Fin pool.capacity) :
    pool.cell? index.val = some ⟨pool.handedOut.isUsed index, pool.nodes.get index⟩ :=
  dif_pos index.isLt

theorem cell?_eq_some {index : Nat} {cell : Cell} (held : pool.cell? index = some cell) :
    ∃ within : index < pool.capacity,
      cell = ⟨pool.handedOut.isUsed ⟨index, within⟩, pool.nodes.get ⟨index, within⟩⟩ := by
  unfold cell? at held
  split at held
  case isTrue within => exact ⟨within, (Option.some.inj held).symm⟩
  case isFalse => cases held

theorem indexOf?_eq_some_iff {index : Fin pool.capacity} :
    pool.indexOf? address = some index ↔
      pool.addressOf index = address ∧ pool.handedOut.isUsed index = true := by
  unfold indexOf?
  have aligned := pool.aligned
  constructor
  · intro found
    simp only at found
    split at found
    case isFalse => simp at found
    case isTrue place =>
      split at found
      case isFalse => simp at found
      case isTrue within =>
        split at found
        case isFalse => simp at found
        case isTrue live =>
          cases Option.some.inj found
          refine ⟨Address.ext_val ?_, live⟩
          simp only [addressOf]
          omega
  · intro holds
    obtain ⟨rfl, live⟩ := holds
    have offset : (pool.addressOf index).val - pool.base.val = index.val * 4096 := by
      simp [addressOf]
    have place : pool.base.val ≤ (pool.addressOf index).val := by simp [addressOf]
    simp only [offset, place, Nat.mul_mod_left, Nat.mul_div_cancel _ (by decide : 0 < 4096),
      true_and, index.isLt, dite_true, ite_true]
    exact if_pos live

theorem node?_eq_some_iff :
    pool.node? address = some node ↔
      ∃ index, pool.cell? index = some ⟨true, node⟩ ∧
        pool.base.val + index * 4096 = address.val := by
  simp only [node?, Option.map_eq_some_iff, indexOf?_eq_some_iff]
  constructor
  · intro holds
    obtain ⟨index, ⟨rfl, live⟩, rfl⟩ := holds
    exact ⟨index.val, by rw [cell?_of_fin, live], rfl⟩
  · intro holds
    obtain ⟨index, cell, place⟩ := holds
    obtain ⟨within, same⟩ := cell?_eq_some cell
    obtain ⟨live, held⟩ := Cell.mk.inj same
    exact ⟨⟨index, within⟩, ⟨Address.ext_val place, live.symm⟩, held.symm⟩

/-- Two pools over one window hold the same node at an address if their cells there agree. -/
private theorem node?_congr (base : next.base = pool.base)
    (cells : ∀ index, pool.base.val + index * 4096 = address.val →
      next.cell? index = pool.cell? index) :
    next.node? address = pool.node? address := by
  apply Option.ext
  intro node
  rw [node?_eq_some_iff, node?_eq_some_iff, base]
  constructor
  · intro holds
    obtain ⟨index, cell, place⟩ := holds
    exact ⟨index, cells index place ▸ cell, place⟩
  · intro holds
    obtain ⟨index, cell, place⟩ := holds
    exact ⟨index, (cells index place).trans cell, place⟩

theorem contains_iff : pool.contains address ↔ ∃ node, pool.node? address = some node := by
  simp [contains, node?, Option.isSome_iff_exists]

theorem read?_eq (pool : Pool) (address : PhysicalAddress) (slot : Slot) :
    pool.read? address slot = (pool.node? address).map fun node => node.get slot := by
  simp [read?, node?, Function.comp_def, Vector.get_eq_getElem]

theorem read?_of_node? (held : pool.node? address = some node) (slot : Slot) :
    pool.read? address slot = some (node.get slot) := by
  rw [read?_eq, held, Option.map_some]

theorem read?_of_absent (absent : pool.node? address = none) (slot : Slot) :
    pool.read? address slot = none := by
  rw [read?_eq, absent, Option.map_none]

/-- The addresses of the nodes handed out, in ascending order. -/
def live (pool : Pool) : List PhysicalAddress :=
  ((List.finRange pool.capacity).filter pool.handedOut.isUsed).map pool.addressOf

theorem mem_live_iff : address ∈ pool.live ↔ pool.contains address := by
  simp only [live, List.mem_map, List.mem_filter, List.mem_finRange, true_and, contains,
    Option.isSome_iff_exists, indexOf?_eq_some_iff, and_comm]

theorem nodup_live (pool : Pool) : pool.live.Nodup := by
  apply ((List.nodup_finRange _).filter _).map
  intro first second same
  have : pool.base.val + first.val * 4096 = pool.base.val + second.val * 4096 :=
    congrArg Address.val same
  omega

/-- What every operation keeps: free nodes are zero and counted, and the bitmap has no bits for
nodes that there are not. -/
structure Sound (pool : Pool) : Prop where
  blank : ∀ (index : Nat) (cell : Cell), pool.cell? index = some cell → cell.live = false →
    cell.node = Node.zero
  trimmed : pool.handedOut.Trimmed
  counted : pool.live.length + pool.free = pool.capacity

theorem Sound.used_eq (sound : pool.Sound) : pool.used = pool.live.length := by
  have := sound.counted
  unfold used
  omega

theorem Sound.used_add_free (sound : pool.Sound) : pool.used + pool.free = pool.capacity := by
  rw [sound.used_eq]
  exact sound.counted

theorem Sound.used_eq_length (sound : pool.Sound) {addresses : List PhysicalAddress}
    (nodup : addresses.Nodup) (covers : ∀ address, pool.contains address ↔ address ∈ addresses) :
    pool.used = addresses.length := by
  rw [sound.used_eq]
  apply List.Perm.length_eq
  rw [List.perm_ext_iff_of_nodup pool.nodup_live nodup]
  intro address
  rw [mem_live_iff, covers]

theorem over?_eq_fresh {base : PhysicalAddress} {nodes : Array Node} {capacity : Nat}
    (size : nodes.size = capacity) (aligned : base.val % 4096 = 0)
    (fits : base.val + capacity * 4096 < 1 <<< 52) :
    over? base nodes = some (fresh base capacity aligned fits) := by
  subst size
  rw [over?, dif_pos aligned, dif_pos fits]

theorem eq_fresh_of_over? {base : PhysicalAddress} {nodes : Array Node}
    (made : over? base nodes = some pool) :
    ∃ aligned fits, pool = fresh base nodes.size aligned fits := by
  unfold over? at made
  split at made
  case isFalse => cases made
  case isTrue aligned =>
    split at made
    case isFalse => cases made
    case isTrue fits => exact ⟨aligned, fits, (Option.some.inj made).symm⟩

theorem node?_of_over? {base : PhysicalAddress} {nodes : Array Node}
    (made : over? base nodes = some pool) (address : PhysicalAddress) :
    pool.node? address = none := by
  obtain ⟨aligned, fits, rfl⟩ := eq_fresh_of_over? made
  rw [Option.eq_none_iff_forall_ne_some]
  intro node held
  obtain ⟨index, cell, _⟩ := node?_eq_some_iff.mp held
  obtain ⟨within, same⟩ := cell?_eq_some cell
  have free := Bitmap.isUsed_clear (⟨index, within⟩ : Fin nodes.size)
  exact Bool.false_ne_true (free.symm.trans (Cell.mk.inj same).1.symm)

theorem sound_of_over? {base : PhysicalAddress} {nodes : Array Node}
    (made : over? base nodes = some pool) : pool.Sound := by
  have none : pool.live = [] := by
    rw [List.eq_nil_iff_forall_not_mem]
    intro address member
    obtain ⟨node, held⟩ := contains_iff.mp (mem_live_iff.mp member)
    rw [node?_of_over? made] at held
    cases held
  obtain ⟨aligned, fits, rfl⟩ := eq_fresh_of_over? made
  refine ⟨fun index cell held _ => ?_, Bitmap.trimmed_clear, ?_⟩
  · obtain ⟨within, rfl⟩ := cell?_eq_some held
    simp [fresh, Vector.get_eq_getElem]
  · rw [none, List.length_nil, Nat.zero_add]
    rfl

/-- Between two pools only nodes among `old` and `new` differ. What is new but not old was free
before, and what is old but not new is free afterwards. -/
structure Exchanges (before after : Pool) (old new : List PhysicalAddress) : Prop where
  base : after.base = before.base
  size : after.capacity = before.capacity
  elsewhere : ∀ address, address ∉ old → address ∉ new → after.node? address = before.node? address
  fresh : ∀ address ∈ new, address ∉ old → before.node? address = none
  released : ∀ address ∈ old, address ∉ new → after.node? address = none
  sound : before.Sound → after.Sound

theorem Exchanges.refl (pool : Pool) (nodes : List PhysicalAddress) :
    Exchanges pool pool nodes nodes where
  base := rfl
  size := rfl
  elsewhere _ _ _ := rfl
  fresh _ member absent := absurd member absent
  released _ member absent := absurd member absent
  sound := id

theorem Exchanges.trans (first : Exchanges before middle old new)
    (second : Exchanges middle after new newer) : Exchanges before after old newer where
  base := second.base.trans first.base
  size := second.size.trans first.size
  elsewhere address outside absent := by
    by_cases between : address ∈ new
    · rw [first.fresh address between outside, second.released address between absent]
    · rw [second.elsewhere address between absent, first.elsewhere address outside between]
  fresh address member absent := by
    by_cases between : address ∈ new
    · exact first.fresh address between absent
    · rw [← first.elsewhere address absent between]
      exact second.fresh address member between
  released address member absent := by
    by_cases between : address ∈ new
    · exact second.released address between absent
    · rw [second.elsewhere address between absent]
      exact first.released address member between
  sound := second.sound ∘ first.sound

/-- An exchange within a part of the heap is one of every larger part that keeps the rest. -/
theorem Exchanges.widen (exchange : Exchanges before after old new)
    {whole whole' : List PhysicalAddress} (oldWithin : old ⊆ whole) (newWithin : new ⊆ whole')
    (kept : ∀ address, address ∉ old → address ∈ whole → address ∈ whole')
    (added : ∀ address, address ∉ new → address ∈ whole' → address ∈ whole) :
    Exchanges before after whole whole' where
  base := exchange.base
  size := exchange.size
  elsewhere address outside absent :=
    exchange.elsewhere address (fun member => outside (oldWithin member))
      (fun member => absent (newWithin member))
  fresh address member absent := by
    apply exchange.fresh address _ fun within => absent (oldWithin within)
    by_contra outside
    exact absent (added address outside member)
  released address member absent := by
    apply exchange.released address _ fun within => absent (newWithin within)
    by_contra outside
    exact absent (kept address outside member)
  sound := exchange.sound

theorem Exchanges.keep (exchange : Exchanges before after old new) (extra : PhysicalAddress) :
    Exchanges before after (extra :: old) (extra :: new) := by
  apply exchange.widen (List.subset_cons_self ..) (List.subset_cons_self ..)
  · intro address outside member
    rcases List.mem_cons.mp member with rfl | within
    · exact List.mem_cons_self
    · exact absurd within outside
  · intro address outside member
    rcases List.mem_cons.mp member with rfl | within
    · exact List.mem_cons_self
    · exact absurd within outside

/-- A node that was handed out and is not exchanged is not among the new ones either. -/
theorem Exchanges.kept (exchange : Exchanges before after old new)
    (held : before.node? address = some node) (outside : address ∉ old) :
    address ∉ new ∧ after.node? address = some node := by
  have absent : address ∉ new := by
    intro member
    rw [exchange.fresh address member outside] at held
    cases held
  exact ⟨absent, (exchange.elsewhere address outside absent).trans held⟩

theorem Exchanges.used_add_free (exchange : Exchanges before after old new)
    (sound : before.Sound) : after.used + after.free = before.used + before.free := by
  rw [sound.used_add_free, (exchange.sound sound).used_add_free, exchange.size]

theorem Exchanges.used_add_length (exchange : Exchanges before after old new)
    (sound : before.Sound) (nodup : old.Nodup) (nodup' : new.Nodup)
    (live : ∀ address ∈ old, before.contains address)
    (live' : ∀ address ∈ new, after.contains address) :
    after.used + old.length = before.used + new.length := by
  have contains_iff' (address : PhysicalAddress) :
      after.contains address ↔ address ∈ new ∨ before.contains address ∧ address ∉ old := by
    by_cases added : address ∈ new
    · exact iff_of_true (live' address added) (.inl added)
    · by_cases removed : address ∈ old
      · simp [contains_iff, exchange.released address removed added, added, removed]
      · simp [contains_iff, exchange.elsewhere address removed added, added, removed]
  let rest := before.live.filter (· ∉ old)
  have mem_rest (address : PhysicalAddress) :
      address ∈ rest ↔ before.contains address ∧ address ∉ old := by
    simp [rest, mem_live_iff]
  have first : before.live.Perm (old ++ rest) := by
    rw [List.perm_ext_iff_of_nodup before.nodup_live
      (nodup.append (before.nodup_live.filter _) fun address member within =>
        ((mem_rest address).mp within).2 member)]
    intro address
    rw [mem_live_iff, List.mem_append, mem_rest]
    have held := live address
    tauto
  have second : after.live.Perm (new ++ rest) := by
    rw [List.perm_ext_iff_of_nodup after.nodup_live
      (nodup'.append (before.nodup_live.filter _) fun address member within => ?_)]
    · intro address
      rw [mem_live_iff, List.mem_append, mem_rest, contains_iff']
    · obtain ⟨contained, absent⟩ := (mem_rest address).mp within
      obtain ⟨node, held⟩ := contains_iff.mp contained
      cases (exchange.fresh address member absent).symm.trans held
  rw [sound.used_eq, (exchange.sound sound).used_eq, first.length_eq, second.length_eq,
    List.length_append, List.length_append]
  omega

private theorem node?_of_cell {index : Nat} {cell : Cell}
    (place : pool.base.val + index * 4096 = address.val)
    (held : pool.cell? index = some cell) :
    pool.node? address = if cell.live then some cell.node else none := by
  split
  case isTrue live =>
    exact node?_eq_some_iff.mpr ⟨index, by rw [held]; cases cell; simp_all, place⟩
  case isFalse free =>
    rw [Option.eq_none_iff_forall_not_mem]
    intro node found
    obtain ⟨found, same, elsewhere⟩ := node?_eq_some_iff.mp found
    have : found = index := by omega
    subst found
    rw [held] at same
    cases Option.some.inj same
    exact free rfl

theorem node?_addressOf (index : Fin pool.capacity) :
    pool.node? (pool.addressOf index) =
      if pool.handedOut.isUsed index then some (pool.nodes.get index) else none :=
  node?_of_cell rfl (cell?_of_fin pool index)

/-- A sound pool is told by its window and what its addresses hold. -/
theorem Sound.eq_of_node? (sound : pool.Sound) (sound' : next.Sound) (base : next.base = pool.base)
    (size : next.capacity = pool.capacity)
    (same : ∀ address, next.node? address = pool.node? address) : next = pool := by
  have live : next.live.length = pool.live.length := by
    apply List.Perm.length_eq
    rw [List.perm_ext_iff_of_nodup next.nodup_live pool.nodup_live]
    intro address
    rw [mem_live_iff, mem_live_iff, contains_iff, contains_iff, same]
  have free : next.free = pool.free := by
    have counted := sound.counted
    have counted' := sound'.counted
    omega
  have cell (index : Nat) : next.cell? index = pool.cell? index := by
    by_cases within : index < pool.capacity
    · have held := pool.cell?_of_fin ⟨index, within⟩
      have held' := next.cell?_of_fin ⟨index, size ▸ within⟩
      have here : pool.node? (pool.addressOf ⟨index, within⟩) = _ := node?_of_cell rfl held
      have there : next.node? (pool.addressOf ⟨index, within⟩) = _ :=
        node?_of_cell (congrArg (Address.val · + index * 4096) base) held'
      rw [same, here] at there
      have blank := sound.blank index _ held
      have blank' := sound'.blank index _ held'
      rw [held, held']
      generalize Cell.mk _ _ = was at here there blank ⊢
      generalize Cell.mk _ _ = now at there blank' ⊢
      obtain ⟨live, node⟩ := was
      obtain ⟨live', node'⟩ := now
      cases live <;> cases live' <;> simp_all
    · rw [cell?, cell?, dif_neg within, dif_neg (size ▸ within)]
  obtain ⟨_, capacity, nodes, handedOut, _, _, _⟩ := pool
  obtain ⟨_, _, nodes', handedOut', _, _, _⟩ := next
  cases base
  cases size
  cases free
  have cells (index : Fin capacity) :
      handedOut'.isUsed index = handedOut.isUsed index ∧ nodes'.get index = nodes.get index := by
    have same := cell index.val
    simp only [cell?, index.isLt, dite_true] at same
    exact Cell.mk.inj (Option.some.inj same)
  cases sound.trimmed.ext sound'.trimmed fun index => (cells index).1
  cases Vector.ext fun index within => (cells ⟨index, within⟩).2
  rfl

/-- Two exchanges of the same nodes that agree on the new ones lead to the same pool. -/
theorem Exchanges.eq_of_agree {after' : Pool} (first : Exchanges before after old new)
    (second : Exchanges before after' old new) (sound : before.Sound)
    (agree : ∀ address ∈ new, after'.node? address = after.node? address) : after' = after := by
  refine (first.sound sound).eq_of_node? (second.sound sound) (second.base.trans first.base.symm)
    (second.size.trans first.size.symm) fun address => ?_
  by_cases added : address ∈ new
  · exact agree address added
  · by_cases removed : address ∈ old
    · rw [first.released address removed added, second.released address removed added]
    · rw [first.elsewhere address removed added, second.elsewhere address removed added]

private theorem contains_of_node? (same : next.node? address = pool.node? address) :
    next.contains address ↔ pool.contains address := by
  rw [contains_iff, contains_iff, same]

/-- One pool comes from another by a change of the cell at an address. -/
private structure Recelled (pool next : Pool) (address : PhysicalAddress) (cell cell' : Cell) :
    Prop where
  base : next.base = pool.base
  size : next.capacity = pool.capacity
  trimmed : pool.handedOut.Trimmed → next.handedOut.Trimmed
  place : ∃ index : Nat, pool.base.val + index * 4096 = address.val ∧
    pool.cell? index = some cell ∧
    ∀ other : Nat, next.cell? other = if other = index then some cell' else pool.cell? other

namespace Recelled

variable {cell cell' : Cell}

private theorem node?_before (change : Recelled pool next address cell cell') :
    pool.node? address = if cell.live then some cell.node else none := by
  obtain ⟨index, place, held, _⟩ := change.place
  exact node?_of_cell place held

private theorem node?_after (change : Recelled pool next address cell cell') :
    next.node? address = if cell'.live then some cell'.node else none := by
  obtain ⟨index, place, _, cells⟩ := change.place
  have place : next.base.val + index * 4096 = address.val := by rw [change.base, place]
  exact node?_of_cell place (by rw [cells, if_pos rfl])

private theorem node?_elsewhere (change : Recelled pool next address cell cell')
    (different : other ≠ address) : next.node? other = pool.node? other := by
  obtain ⟨index, place, _, cells⟩ := change.place
  apply node?_congr change.base
  intro found there
  have apart : found ≠ index := by
    rintro rfl
    exact different (Address.ext_val (there.symm.trans place))
  rw [cells, if_neg apart]

private theorem blank (change : Recelled pool next address cell cell') (sound : pool.Sound)
    (cleared : cell'.live = false → cell'.node = Node.zero) (index : Nat) (found : Cell)
    (held : next.cell? index = some found) (free : found.live = false) :
    found.node = Node.zero := by
  obtain ⟨place, _, _, cells⟩ := change.place
  rw [cells] at held
  split at held
  case isTrue =>
    cases Option.some.inj held
    exact cleared free
  case isFalse => exact sound.blank index found held free

private theorem sound (change : Recelled pool next address cell cell') (sound : pool.Sound)
    (cleared : cell'.live = false → cell'.node = Node.zero)
    (free : next.free + cell'.live.toNat = pool.free + cell.live.toNat) : next.Sound := by
  refine ⟨change.blank sound cleared, change.trimmed sound.trimmed, ?_⟩
  have here (pool : Pool) (cell : Cell)
      (held : pool.node? address = if cell.live then some cell.node else none) :
      address ∈ pool.live ↔ cell.live = true := by
    rw [mem_live_iff, contains_iff, held]
    cases cell.live <;> simp
  have before := here pool cell change.node?_before
  have after := here next cell' change.node?_after
  have elsewhere (other : PhysicalAddress) (different : other ≠ address) :
      other ∈ next.live ↔ other ∈ pool.live := by
    rw [mem_live_iff, mem_live_iff]
    exact contains_of_node? (change.node?_elsewhere different)
  -- Each list is completed by the address itself where the other has it.
  have balance : next.live.length + cell.live.toNat = pool.live.length + cell'.live.toNat := by
    have perm : ((if cell.live ∧ cell'.live = false then [address] else []) ++ next.live).Perm
        ((if cell'.live ∧ cell.live = false then [address] else []) ++ pool.live) := by
      refine (List.perm_ext_iff_of_nodup ?_ ?_).mpr fun other => ?_
      · cases was : cell.live <;> cases now : cell'.live <;> simp_all [nodup_live]
      · cases was : cell.live <;> cases now : cell'.live <;> simp_all [nodup_live]
      · by_cases same : other = address
        · subst other
          cases was : cell.live <;> cases now : cell'.live <;> simp_all
        · cases was : cell.live <;> cases now : cell'.live <;> simp_all
    have lengths := perm.length_eq
    cases was : cell.live <;> cases now : cell'.live <;> simp_all
  have counted := sound.counted
  have size := change.size
  omega

end Recelled

private theorem get_set {capacity : Nat} (nodes : Vector Node capacity) (index : Fin capacity)
    (node : Node) (other : Fin capacity) :
    (nodes.set index.val node index.isLt).get other =
      if other = index then node else nodes.get other := by
  simp only [Vector.get_eq_getElem, Vector.getElem_set, Fin.ext_iff, eq_comm]

private theorem recelled {index : Fin pool.capacity} {was now : Bool} {node : Node}
    {nodes : Vector Node pool.capacity}
    (replaced : ∀ other, nodes.get other = if other = index then node else pool.nodes.get other)
    (handedOut : Bitmap pool.capacity) (free : Nat) (before : pool.handedOut.isUsed index = was)
    (after : handedOut.isUsed index = now)
    (others : ∀ other, other ≠ index → handedOut.isUsed other = pool.handedOut.isUsed other)
    (trimmed : pool.handedOut.Trimmed → handedOut.Trimmed) :
    Recelled pool { pool with nodes, handedOut, free } (pool.addressOf index)
      ⟨was, pool.nodes.get index⟩ ⟨now, node⟩ where
  base := rfl
  size := rfl
  trimmed := trimmed
  place := by
    refine ⟨index.val, rfl, by rw [cell?_of_fin, before], fun other => ?_⟩
    by_cases same : other = index.val
    · subst same
      rw [if_pos rfl, cell?, dif_pos index.isLt]
      simp [after, replaced]
    · rw [if_neg same]
      unfold cell?
      split
      case isTrue within =>
        have apart : (⟨other, within⟩ : Fin pool.capacity) ≠ index :=
          fun same' => same (congrArg Fin.val same')
        rw [others _ apart, replaced, if_neg apart]
      case isFalse => rfl

theorem exists_addressOf (held : pool.node? address = some node) :
    ∃ index, address = pool.addressOf index := by
  obtain ⟨index, found, _⟩ := Option.map_eq_some_iff.mp held
  exact ⟨index, (indexOf?_eq_some_iff.mp found).1.symm⟩

theorem dvd_of_node? (held : pool.node? address = some node) : 4096 ∣ address.val := by
  obtain ⟨index, rfl⟩ := exists_addressOf held
  have aligned := pool.aligned
  simp only [addressOf]
  omega

/-- Handing out a node takes one that was free and makes it zero; nothing else changes. -/
theorem take_some (taken : pool.take = (some address, next)) :
    Exchanges pool next [] [address] ∧ next.node? address = some Node.zero := by
  unfold take at taken
  split at taken
  case h_2 => simp at taken
  case h_1 index found =>
    have free := (Bitmap.lowestFree?_eq_some found).1
    obtain ⟨named, rfl⟩ := Prod.mk.inj taken
    cases Option.some.inj named
    have taken : (pool.handedOut.setUsed index true).isUsed index = true := by simp
    have change := recelled (get_set pool.nodes index Node.zero)
      (pool.handedOut.setUsed index true) (pool.free - 1) free taken
      (fun other apart => by simp [apart]) (Bitmap.Trimmed.setUsed · index true)
    refine ⟨⟨change.base, change.size, ?_, ?_, ?_, ?_⟩, change.node?_after⟩
    · exact fun other _ absent => change.node?_elsewhere (by simpa using absent)
    · exact fun other member _ => List.mem_singleton.mp member ▸ change.node?_before
    · exact fun other member _ => absurd member List.not_mem_nil
    · intro sound
      have room : pool.live.length < pool.capacity := by
        have spare : ∃ index ∈ List.finRange pool.capacity, ¬pool.handedOut.isUsed index = true :=
          ⟨index, List.mem_finRange index, Bool.eq_false_iff.mp free⟩
        simpa [live] using List.length_filter_lt_length_iff_exists.mpr spare
      have counted := sound.counted
      apply change.sound sound (by simp)
      simp only [Bool.toNat_true, Bool.toNat_false]
      omega

/-- A pool has run out of nodes if every one is handed out. -/
def Exhausted (pool : Pool) : Prop :=
  ∀ index, pool.handedOut.isUsed index = true

instance (pool : Pool) : Decidable pool.Exhausted :=
  inferInstanceAs (Decidable (∀ _, _ = _))

theorem Exchanges.not_exhausted {pool last : Pool} {address : PhysicalAddress} {node : Node}
    (exchange : pool.Exchanges last [] [address]) (held : last.node? address = some node) :
    ¬pool.Exhausted := by
  intro exhausted
  obtain ⟨index, rfl⟩ := exists_addressOf held
  have inside : index.val < pool.capacity := exchange.size ▸ index.isLt
  have place : pool.addressOf ⟨index.val, inside⟩ = last.addressOf index :=
    Address.ext_val (by simp only [addressOf, exchange.base])
  have free := exchange.fresh (last.addressOf index) List.mem_cons_self List.not_mem_nil
  rw [← place, node?_addressOf, if_pos (exhausted _)] at free
  cases free

theorem take_none (taken : pool.take = (none, next)) : next = pool ∧ pool.Exhausted := by
  unfold take at taken
  split at taken
  case h_1 => simp at taken
  case h_2 found => exact ⟨(Prod.mk.inj taken).2.symm, Bitmap.lowestFree?_eq_none found⟩

/-- Taking a node back makes it free and zero. -/
theorem giveBack_exchanges (held : pool.node? address = some node) :
    (pool.giveBack address).1 = true ∧ Exchanges pool (pool.giveBack address).2 [address] [] := by
  obtain ⟨index, found, _⟩ := Option.map_eq_some_iff.mp held
  obtain ⟨rfl, live⟩ := indexOf?_eq_some_iff.mp found
  have given : (pool.handedOut.setUsed index false).isUsed index = false := by simp
  have change := recelled (get_set pool.nodes index Node.zero)
    (pool.handedOut.setUsed index false) (pool.free + 1) live given
    (fun other apart => by simp [apart]) (Bitmap.Trimmed.setUsed · index false)
  simp only [giveBack, found]
  refine ⟨trivial, change.base, change.size, ?_, ?_, ?_, ?_⟩
  · exact fun other absent _ => change.node?_elsewhere (by simpa using absent)
  · exact fun other member _ => absurd member List.not_mem_nil
  · exact fun other member _ => List.mem_singleton.mp member ▸ change.node?_after
  · exact fun sound => change.sound sound (fun _ => rfl) rfl

theorem modifyNode_exchanges (held : pool.node? address = some node) (edit : Node → Node) :
    Exchanges pool (pool.modifyNode address edit) [address] [address] ∧
      (pool.modifyNode address edit).node? address = some (edit node) := by
  obtain ⟨index, found, rfl⟩ := Option.map_eq_some_iff.mp held
  obtain ⟨rfl, live⟩ := indexOf?_eq_some_iff.mp found
  have change := recelled (get_set pool.nodes index (edit (pool.nodes.get index)))
    pool.handedOut pool.free live live (fun _ _ => rfl) id
  simp only [modifyNode, found]
  refine ⟨⟨change.base, change.size, ?_, ?_, ?_, ?_⟩, change.node?_after⟩
  · exact fun other absent _ => change.node?_elsewhere (by simpa using absent)
  · exact fun other member absent => absurd member absent
  · exact fun other member absent => absurd member absent
  · exact fun sound => change.sound sound (by simp) rfl

theorem Sound.free_eq_zero (sound : pool.Sound) (exhausted : pool.Exhausted) : pool.free = 0 := by
  have everything : pool.live.length = pool.capacity := by
    rw [live, List.filter_eq_self.mpr fun index _ => exhausted index, List.length_map,
      List.length_finRange]
  have counted := sound.counted
  omega

theorem construct_ends (start : Journaled Pool) :
    construct.Ends start
      (fun address last => Exchanges start.state last.state [] [address] ∧
        last.state.node? address = some Node.zero)
      (fun cause last => cause = .error .outOfMemory ∧ last.state = start.state ∧
        start.state.Exhausted) := by
  unfold construct
  simp only [Action.ends_bind, Action.ends_step]
  rcases taken : start.state.take with ⟨_ | address, next⟩
  · obtain ⟨rfl, exhausted⟩ := take_none taken
    rw [Action.ends_fail]
    exact ⟨rfl, rfl, exhausted⟩
  · simpa using take_some taken

theorem destruct_ends {ε : Type} {start : Journaled Pool}
    (held : start.state.node? address = some node) :
    (destruct address : Action Pool ε Unit).Returns start fun _ last =>
      Exchanges start.state last.state [address] [] := by
  obtain ⟨found, exchange⟩ := giveBack_exchanges held
  unfold destruct
  simpa [found] using exchange

/-- Writing words changes them and nothing else, and the writes are noted in their order. -/
theorem put_ends {ε : Type} {start : Journaled Pool} (writes : List (Slot × Word))
    (held : start.state.node? address = some node) :
    (put address writes : Action Pool ε Unit).Returns start fun _ last =>
      Exchanges start.state last.state [address] [address] ∧
        last.state.node? address = some (node.write writes) ∧
        last.journal.log =
          start.journal.log ++ writes.map fun entry => .write address entry.1 entry.2 := by
  unfold put
  apply Action.ends_forM fun past now =>
    Exchanges start.state now.state [address] [address] ∧
      now.state.node? address = some (node.write past) ∧
      now.journal.log = start.journal.log ++ past.map fun entry => .write address entry.1 entry.2
  case initial => exact ⟨.refl .., held, by simp⟩
  case turn =>
    intro past next later now split kept
    obtain ⟨exchange, held, log⟩ := kept
    obtain ⟨slot, word⟩ := next
    obtain ⟨changed, written⟩ := modifyNode_exchanges held fun node => node.set slot.val word
    simp only [Action.ends_bind, Action.ends_update, Action.ends_observe]
    refine ⟨exchange.trans changed, ?_, ?_⟩
    · rw [write, written, Node.write, Node.write, List.foldl_append]
      rfl
    · rw [Journal.log_observe, log]
      simp
  case final => exact fun _ kept => kept

theorem wipe_ends {ε : Type} {start : Journaled Pool}
    (held : start.state.node? address = some node) :
    (wipe address : Action Pool ε Unit).Returns start fun _ last =>
      Exchanges start.state last.state [address] [address] ∧
        last.state.node? address = some Node.zero := by
  have contained : start.state.contains address = true := contains_iff.mpr ⟨node, held⟩
  unfold wipe
  simpa [contained] using modifyNode_exchanges held fun _ => Node.zero

end DmaRemap.Pool

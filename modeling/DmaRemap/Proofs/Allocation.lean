import DmaRemap.Proofs.Window

/-! Pools as sets of live nodes. A ledger says which nodes of a window are handed out and what they
hold; what it makes of a call is all that a caller can see, and every run of a pool is one of its
ledger. The bitmap, the count of free nodes and the arithmetic of addresses do not show. -/

namespace DmaRemap

namespace Pool

/-- What callers do to a pool. -/
inductive Call where
  | construct
  | destruct (address : PhysicalAddress)
  | edit (address : PhysicalAddress) (change : Node → Node)

/-- What a caller is told. -/
inductive Reply where
  | constructed (address : PhysicalAddress)
  | destructed
  | edited (found : Bool)
deriving DecidableEq

/-- What a call does. Editing tells whether a node was found. -/
def Call.perform : Call → Action Pool TableError Reply
  | construct => return .constructed (← Pool.construct)
  | destruct address => do
    Pool.destruct address
    return .destructed
  | edit address change => do
    let found := (← Action.state).contains address
    Action.update fun pool => pool.modifyNode address change
    return .edited found

/-- A run of calls with their outcomes in order, whatever these are. -/
inductive Run (first : Pool) : List (Call × Except (Failure TableError) Reply) → Pool → Prop where
  | start : Run first [] first
  | step {trace : List (Call × Except (Failure TableError) Reply)} {pool : Pool}
      (run : Run first trace pool) (call : Call) (journal : Journal) :
      Run first (trace ++ [(call, call.perform.outcome ⟨pool, journal⟩)])
        (call.perform.finish ⟨pool, journal⟩).state

end Pool

/-- What the live nodes hold; other addresses have nothing. -/
abbrev Ledger := PhysicalAddress → Option Node

namespace Ledger

variable {window : Window} {ledger : Ledger}

/-- Whether an address is that of the lowest node in a window that is not live. -/
structure Lowest (window : Window) (ledger : Ledger) (address : PhysicalAddress) : Prop where
  inside : window.Contains address
  free : ledger address = none
  least : ∀ other, window.Contains other → ledger other = none → address.val ≤ other.val

/-- What a call makes of the live nodes, and what it tells. -/
inductive Step (window : Window) (ledger : Ledger) :
    Pool.Call → Except (Failure TableError) Pool.Reply → Ledger → Prop where
  | constructed {address : PhysicalAddress} (lowest : ledger.Lowest window address) :
      Step window ledger .construct (.ok (.constructed address))
        (Function.update ledger address (some Node.zero))
  | exhausted (full : ∀ address, window.Contains address → ledger address ≠ none) :
      Step window ledger .construct (.error (.error .outOfMemory)) ledger
  | destructed {address : PhysicalAddress} {node : Node} (live : ledger address = some node) :
      Step window ledger (.destruct address) (.ok .destructed) (Function.update ledger address none)
  | ignored {address : PhysicalAddress} (absent : ledger address = none) :
      Step window ledger (.destruct address) (.ok .destructed) ledger
  | edited {address : PhysicalAddress} {node : Node} (live : ledger address = some node)
      (change : Node → Node) :
      Step window ledger (.edit address change) (.ok (.edited true))
        (Function.update ledger address (some (change node)))
  | missed {address : PhysicalAddress} (absent : ledger address = none) (change : Node → Node) :
      Step window ledger (.edit address change) (.ok (.edited false)) ledger

/-- A run of calls, from no live node on. -/
inductive Run (window : Window) :
    List (Pool.Call × Except (Failure TableError) Pool.Reply) → Ledger → Prop where
  | start : Run window [] fun _ => none
  | step {trace : List (Pool.Call × Except (Failure TableError) Pool.Reply)}
      {ledger next : Ledger} {call : Pool.Call} {outcome : Except (Failure TableError) Pool.Reply}
      (run : Run window trace ledger) (step : ledger.Step window call outcome next) :
      Run window (trace ++ [(call, outcome)]) next

end Ledger

namespace Pool

variable {pool first last : Pool} {ledger : Ledger} {address : PhysicalAddress}

theorem exists_index_of_contains (inside : pool.window.Contains address) :
    ∃ index, pool.addressOf index = address := by
  obtain ⟨whole, least, most⟩ := inside
  simp only [window, Window.stop] at least most
  have aligned := pool.aligned
  refine ⟨⟨(address.val - pool.base.val) / 4096, by omega⟩, Address.ext_val ?_⟩
  simp only [addressOf]
  omega

theorem contains_addressOf (index : Fin pool.capacity) :
    pool.window.Contains (pool.addressOf index) := by
  have aligned := pool.aligned
  have below := index.isLt
  simp only [Window.Contains, window, Window.stop, addressOf]
  omega

theorem lowest_of_take (taken : pool.take = (some address, last)) :
    Ledger.Lowest pool.window pool.node? address := by
  unfold take at taken
  split at taken
  case h_2 => simp at taken
  case h_1 index found =>
    obtain ⟨free, lowest⟩ := Bitmap.lowestFree?_eq_some found
    cases Option.some.inj (Prod.mk.inj taken).1
    refine ⟨contains_addressOf index, ?_, fun other inside absent => ?_⟩
    · rw [node?_addressOf, free]
      rfl
    · obtain ⟨index', rfl⟩ := exists_index_of_contains inside
      have behind : ¬index' < index := by
        intro earlier
        rw [node?_addressOf, lowest index' earlier] at absent
        cases absent
      simp only [addressOf]
      omega

theorem full_of_exhausted (exhausted : pool.Exhausted) (inside : pool.window.Contains address) :
    pool.node? address ≠ none := by
  obtain ⟨index, rfl⟩ := exists_index_of_contains inside
  rw [node?_addressOf, if_pos (exhausted index)]
  exact Option.some_ne_none _

private theorem indexOf?_of_absent (absent : pool.node? address = none) :
    pool.indexOf? address = none :=
  Option.map_eq_none_iff.mp absent

theorem contains_of_absent (absent : pool.node? address = none) :
    pool.contains address = false := by
  rw [contains, indexOf?_of_absent absent]
  rfl

/-- What a pool shows to its callers is what its ledger says, and its counts agree with it. -/
structure Shows (pool : Pool) (ledger : Ledger) : Prop where
  inside : ∀ address, ledger address ≠ none → pool.window.Contains address
  node? : ∀ address, pool.node? address = ledger address
  contains : ∀ address, pool.contains address = (ledger address).isSome
  peek : ∀ address (slot : Slot),
    pool.peek address slot.val = .ok ((ledger address).map fun node => node.get slot)
  used : pool.used = {address | ledger address ≠ none}.ncard
  counted : pool.used + pool.free = pool.capacity
  blank : ∀ index, ledger (pool.addressOf index) = none → pool.nodes.get index = Node.zero
  bit : ∀ index, pool.handedOut.isUsed index = (ledger (pool.addressOf index)).isSome
  trimmed : pool.handedOut.Trimmed

theorem Sound.shows (sound : pool.Sound) : pool.Shows pool.node? where
  inside address live := by
    obtain ⟨node, held⟩ := Option.ne_none_iff_exists'.mp live
    exact Window.contains_of_node? held
  node? _ := rfl
  contains address := by
    rw [contains, node?, Option.isSome_map]
  peek address slot := by
    unfold peek
    cases held : pool.node? address with
    | none =>
      rw [contains_of_absent held]
      rfl
    | some node =>
      have live : pool.contains address = true := contains_iff.mpr ⟨node, held⟩
      simp [live, checkSlot, read?_of_node? held]
  used := by
    have live : {address | pool.node? address ≠ none} =
        (pool.live.toFinset : Set PhysicalAddress) := by
      ext address
      simp [mem_live_iff, contains_iff, Option.ne_none_iff_exists']
    rw [live, Set.ncard_coe_finset, List.toFinset_card_of_nodup pool.nodup_live, sound.used_eq]
  counted := sound.used_add_free
  blank index absent := by
    rw [node?_addressOf] at absent
    apply sound.blank index.val _ (cell?_of_fin pool index)
    simpa using absent
  bit index := by
    rw [node?_addressOf]
    split <;> simp_all
  trimmed := sound.trimmed

private theorem Exchanges.node?_eq {old new : List PhysicalAddress}
    (exchange : pool.Exchanges last old new) (old_eq : old ⊆ [address]) (new_eq : new ⊆ [address]) :
    last.node? = Function.update pool.node? address (last.node? address) := by
  funext other
  by_cases same : other = address
  · rw [same, Function.update_self]
  · rw [Function.update_of_ne same]
    apply exchange.elsewhere
    · exact fun member => same (List.mem_singleton.mp (old_eq member))
    · exact fun member => same (List.mem_singleton.mp (new_eq member))

private theorem Exchanges.window_eq {old new : List PhysicalAddress}
    (exchange : pool.Exchanges last old new) : last.window = pool.window := by
  rw [window, window, exchange.base, exchange.size]

/-- A call to a sound pool is a step of its ledger, and keeps the pool sound. -/
theorem Call.perform_ends (sound : pool.Sound) (call : Call) (journal : Journal) :
    call.perform.Ends ⟨pool, journal⟩
      (fun reply last => last.state.Sound ∧ last.state.window = pool.window ∧
        Ledger.Step pool.window pool.node? call (.ok reply) last.state.node?)
      (fun cause last => last.state.Sound ∧ last.state.window = pool.window ∧
        Ledger.Step pool.window pool.node? call (.error cause) last.state.node?) := by
  cases call with
  | construct =>
    simp only [perform, Pool.construct, Action.ends_bind, Action.ends_step]
    rcases taken : pool.take with ⟨_ | address, next⟩
    · obtain ⟨rfl, exhausted⟩ := take_none taken
      rw [Action.ends_fail]
      exact ⟨sound, rfl, .exhausted fun _ => full_of_exhausted exhausted⟩
    · obtain ⟨exchange, zero⟩ := take_some taken
      simp only [Action.ends_bind, Action.ends_observe, Action.ends_state, Action.ends_record,
        Action.ends_pure]
      refine ⟨exchange.sound sound, exchange.window_eq, ?_⟩
      rw [exchange.node?_eq (List.nil_subset _) (List.Subset.refl _), zero]
      exact .constructed (lowest_of_take taken)
  | destruct address =>
    simp only [perform, Pool.destruct, Action.ends_bind, Action.ends_step]
    cases held : pool.node? address with
    | none =>
      simp only [giveBack, indexOf?_of_absent held, Bool.false_eq_true, if_false,
        Action.ends_record, Action.ends_pure]
      exact ⟨sound, trivial, .ignored held⟩
    | some node =>
      obtain ⟨found, exchange⟩ := giveBack_exchanges held
      simp only [found, if_true, Action.ends_bind, Action.ends_observe, Action.ends_state,
        Action.ends_record, Action.ends_pure]
      refine ⟨exchange.sound sound, exchange.window_eq, ?_⟩
      rw [exchange.node?_eq (List.Subset.refl _) (List.nil_subset _),
        exchange.released address List.mem_cons_self List.not_mem_nil]
      exact .destructed held
  | edit address change =>
    simp only [perform, Action.ends_bind, Action.ends_state, Action.ends_update, Action.ends_pure]
    cases held : pool.node? address with
    | none =>
      rw [contains_of_absent held, modifyNode, indexOf?_of_absent held]
      exact ⟨sound, rfl, .missed held change⟩
    | some node =>
      have live : pool.contains address = true := contains_iff.mpr ⟨node, held⟩
      obtain ⟨exchange, changed⟩ := modifyNode_exchanges held change
      rw [live]
      refine ⟨exchange.sound sound, exchange.window_eq, ?_⟩
      rw [exchange.node?_eq (List.Subset.refl _) (List.Subset.refl _), changed]
      exact .edited held change

/-- A run from a new pool on keeps it sound, and is a run of its ledger. -/
theorem Run.recorded {base : PhysicalAddress} {nodes : Array Node}
    {trace : List (Call × Except (Failure TableError) Reply)}
    (made : over? base nodes = some first) (run : Run first trace last) :
    last.Sound ∧ last.window = ⟨base, nodes.size⟩ ∧
      Ledger.Run ⟨base, nodes.size⟩ trace last.node? := by
  induction run with
  | start =>
    have none : first.node? = fun _ => none := funext (node?_of_over? made)
    refine ⟨sound_of_over? made, window_of_over? made, ?_⟩
    rw [none]
    exact .start
  | step run call journal ih =>
    obtain ⟨sound, window, before⟩ := ih
    rcases (call.perform_ends sound journal).outcome_finish with
      ⟨_, returned, sound', window', step⟩ | ⟨_, failed, sound', window', step⟩
    · rw [returned]
      exact ⟨sound', window'.trans window, before.step (window ▸ step)⟩
    · rw [failed]
      exact ⟨sound', window'.trans window, before.step (window ▸ step)⟩

/-- Every run of a pool, from its creation over any accepted window on, is a run of a ledger with
the same outcomes, and the pool shows what the ledger says. In particular no call aborts, and none
fails but for want of a free node. That no index leaves the nodes or the words of the bitmap is said
by their types, and that the counter of free nodes does not wrap by the sum of the counts. -/
theorem Run.behaves {base : PhysicalAddress} {nodes : Array Node}
    {trace : List (Call × Except (Failure TableError) Reply)}
    (made : over? base nodes = some first) (run : Run first trace last) :
    last.window = ⟨base, nodes.size⟩ ∧
      ∃ ledger, Ledger.Run ⟨base, nodes.size⟩ trace ledger ∧ last.Shows ledger := by
  obtain ⟨sound, window, ran⟩ := run.recorded made
  exact ⟨window, _, ran, sound.shows⟩

/-- The pool after calls, one after the other. -/
def after (pool : Pool) (calls : List Call) : Pool :=
  calls.foldl (fun pool call => (call.perform.finish ⟨pool, { threshold := none }⟩).state) pool

theorem Run.follow {trace : List (Call × Except (Failure TableError) Reply)}
    (run : Run first trace pool) (calls : List Call) :
    ∃ trace', Run first trace' (pool.after calls) := by
  induction calls generalizing trace pool with
  | nil => exact ⟨trace, run⟩
  | cons call _ ih => exact ih (run.step call _)

/-- A pool of 65 nodes, one more than a word of its bitmap has bits. -/
def crowdSample : Pool :=
  .fresh ⟨0x110000, by decide⟩ 65 (by decide) (by decide)

/-- The pool with all nodes handed out. -/
def fullSample : Pool := crowdSample.after (List.replicate 65 .construct)

/-- The address of the last node, which has a word of the bitmap for itself. -/
def lastNode : PhysicalAddress := ⟨0x150000, by decide⟩

/-- The full pool hands out nothing, and the last node again after it was given back. -/
theorem behaves_crowdSample :
    Call.construct.perform.outcome ⟨fullSample, { threshold := none }⟩ =
        .error (.error .outOfMemory) ∧
      Call.construct.perform.outcome
          ⟨fullSample.after [.destruct lastNode], { threshold := none }⟩ =
        .ok (.constructed lastNode) ∧
      ∃ ledger, (fullSample.after [.destruct lastNode]).Shows ledger := by
  have made : over? crowdSample.base (Array.replicate 65 Node.zero) = some crowdSample :=
    over?_eq_fresh Array.size_replicate _ _
  obtain ⟨trace, filled⟩ := (Run.start : Run crowdSample [] _).follow (.replicate 65 .construct)
  obtain ⟨_, ledger, _, shows⟩ :=
    (filled.step (.destruct lastNode) { threshold := none }).behaves made
  exact ⟨by decide +kernel, by decide +kernel, ledger, shows⟩

end Pool

end DmaRemap

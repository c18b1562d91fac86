import DmaRemap.Table.Insert
import DmaRemap.Table.Remove
import DmaRemap.Proofs.Effects
import DmaRemap.Proofs.Heap

namespace DmaRemap

variable {ε α : Type} {allowed : Effect → Prop}

/-- A stretch of physical memory, with its size in nodes. -/
structure Window where
  base : PhysicalAddress
  size : Nat

/-- Where the nodes of a pool are. -/
def Pool.window (pool : Pool) : Window := ⟨pool.base, pool.capacity⟩

theorem Pool.window_of_over? {base : PhysicalAddress} {nodes : Array Node} {pool : Pool}
    (made : Pool.over? base nodes = some pool) : pool.window = ⟨base, nodes.size⟩ := by
  obtain ⟨aligned, fits, rfl⟩ := Pool.eq_fresh_of_over? made
  rfl

namespace Window

def stop (window : Window) : Nat := window.base.val + window.size * 4096

/-- Whether an address is that of a page in the window. -/
def Contains (window : Window) (address : PhysicalAddress) : Prop :=
  4096 ∣ address.val ∧ window.base.val ≤ address.val ∧ address.val < window.stop

def Apart (window other : Window) : Prop :=
  window.stop ≤ other.base.val ∨ other.stop ≤ window.base.val

instance (window other : Window) : Decidable (window.Apart other) :=
  inferInstanceAs (Decidable (_ ∨ _))

theorem Apart.ne {window other : Window} {address address' : PhysicalAddress}
    (apart : window.Apart other) (here : window.Contains address)
    (there : other.Contains address') : address ≠ address' := by
  rintro rfl
  obtain ⟨_, least, most⟩ := here
  obtain ⟨_, least', most'⟩ := there
  rcases apart with before | behind
  · omega
  · omega

theorem contains_of_node? {pool : Pool} {address : PhysicalAddress} {node : Node}
    (held : pool.node? address = some node) : pool.window.Contains address := by
  refine ⟨Pool.dvd_of_node? held, ?_⟩
  obtain ⟨index, rfl⟩ := Pool.exists_addressOf held
  have inside := index.isLt
  simp only [Pool.window, stop, Pool.addressOf]
  omega

end Window

/-- An action on a pool keeps to the window of the pool and to effects that pass a test. -/
structure Pool.Stays (allowed : Effect → Prop) (start last : Journaled Pool) : Prop where
  window : last.state.window = start.state.window
  grows : Grows allowed start last

instance : IsPreorder (Journaled Pool) (Pool.Stays allowed) where
  refl start := ⟨rfl, refl_of (Grows allowed) start⟩
  trans _ _ _ first second :=
    ⟨second.window.trans first.window, trans_of (Grows allowed) first.grows second.grows⟩

namespace Pool

open DmaRemap.Action (Keeps)

theorem stays_record (severity : Severity) (text : Unit → String) :
    (Action.record severity text : Action Pool ε Unit).Keeps (Stays allowed) := by
  constructor
  intro start
  rw [Action.ends_record]
  exact ⟨rfl, .of_log_eq (Journal.log_record ..)⟩

theorem stays_observe {effect : Effect} (passed : allowed effect) :
    (Action.observe effect : Action Pool ε Unit).Keeps (Stays allowed) := by
  constructor
  intro start
  rw [Action.ends_observe]
  exact ⟨rfl, [effect], Journal.log_observe .., by simpa using passed⟩

theorem stays_step {change : Pool → α × Pool}
    (window : ∀ pool, (change pool).2.window = pool.window) :
    (Action.step change : Action Pool ε α).Keeps (Stays allowed) := by
  constructor
  intro start
  rw [Action.ends_step]
  exact ⟨window _, .of_log_eq rfl⟩

theorem stays_update {change : Pool → Pool}
    (window : ∀ pool, (change pool).window = pool.window) :
    (Action.update change : Action Pool ε Unit).Keeps (Stays allowed) := by
  constructor
  intro start
  rw [Action.ends_update]
  exact ⟨window _, .of_log_eq rfl⟩

theorem window_modifyNode (pool : Pool) (address : PhysicalAddress) (change : Node → Node) :
    (pool.modifyNode address change).window = pool.window := by
  unfold modifyNode
  split <;> simp [window]

theorem window_take (pool : Pool) : pool.take.2.window = pool.window := by
  unfold take
  split <;> simp [window]

theorem window_giveBack (pool : Pool) (address : PhysicalAddress) :
    (pool.giveBack address).2.window = pool.window := by
  unfold giveBack
  split <;> simp [window]

theorem stays_construct (wipes : ∀ table, allowed (.wipe table)) :
    construct.Keeps (Stays allowed) := by
  unfold construct
  apply Keeps.bind (stays_step window_take)
  intro taken
  cases taken with
  | none => exact .fail _
  | some address =>
    apply Keeps.bind (stays_observe (wipes address))
    intro _
    apply Keeps.bind .state
    intro _
    exact .bind (stays_record ..) fun _ => .pure _

theorem stays_destruct (wipes : ∀ table, allowed (.wipe table)) (address : PhysicalAddress) :
    (destruct address : Action Pool ε Unit).Keeps (Stays allowed) := by
  unfold destruct
  apply Keeps.bind (stays_step fun pool => window_giveBack pool address)
  intro found
  apply Keeps.ite
  · apply Keeps.bind (stays_observe (wipes address))
    intro _
    exact .bind .state fun _ => stays_record ..
  · exact stays_record ..

theorem stays_put (writes : ∀ table slot word, allowed (.write table slot word))
    (address : PhysicalAddress) (words : List (Slot × Word)) :
    (put address words : Action Pool ε Unit).Keeps (Stays allowed) := by
  unfold put
  apply Keeps.forM
  rintro ⟨slot, word⟩
  apply Keeps.bind (stays_update fun pool => window_modifyNode pool address _)
  exact fun _ => stays_observe (writes ..)

theorem stays_wipe (wipes : ∀ table, allowed (.wipe table)) (address : PhysicalAddress) :
    (wipe address : Action Pool ε Unit).Keeps (Stays allowed) := by
  unfold wipe
  apply Keeps.bind .state
  intro pool
  apply Keeps.ite
  · apply Keeps.bind (stays_update fun pool => window_modifyNode pool address _)
    exact fun _ => stays_observe (wipes address)
  · exact .pure _

end Pool

namespace Format

open DmaRemap.Action (Keeps)
open Pool (Stays)

variable (format : Format)

theorem stays_failUnknown (table : PhysicalAddress) :
    (format.failUnknown table : Action Pool TableError α).Keeps (Stays allowed) :=
  .bind (Pool.stays_record ..) fun _ => .fail _

theorem stays_load (table : PhysicalAddress) (slot : Slot) :
    (format.load table slot).Keeps (Stays allowed) := by
  unfold load
  apply Keeps.bind .state
  intro pool
  split
  · exact .pure _
  · exact format.stays_failUnknown table

theorem stays_store (writes : ∀ table slot word, allowed (.write table slot word))
    (table : PhysicalAddress) (slot : Slot) (descriptor : Word) :
    (format.store table slot descriptor).Keeps (Stays allowed) := by
  unfold store
  apply Keeps.bind .state
  intro pool
  exact .ite _ (Pool.stays_put writes ..) (format.stays_failUnknown table)

theorem stays_checkRange (start : VirtualAddress) (size : Nat) :
    (format.checkRange start size : Action Pool TableError Unit).Keeps (Stays allowed) := by
  unfold checkRange
  exact .ite _ (.bind (Pool.stays_record ..) fun _ => .fail _) (.pure _)

theorem stays_nextTable (writes : ∀ table slot word, allowed (.write table slot word))
    (wipes : ∀ table, allowed (.wipe table)) (level : Level) (table : PhysicalAddress) (slot : Slot)
    (descriptor : Word) (address : VirtualAddress) :
    (format.nextTable level table slot descriptor address).Keeps (Stays allowed) := by
  unfold nextTable
  apply Keeps.ite
  · apply Keeps.bind (Pool.stays_construct wipes)
    intro child
    exact .bind (format.stays_store writes ..) fun _ => .pure _
  · exact .ite _ (.fail _) (.pure _)

theorem stays_insertPiece (writes : ∀ table slot word, allowed (.write table slot word))
    (wipes : ∀ table, allowed (.wipe table)) {level : Level} {flags : PageFlags}
    {table : PhysicalAddress} {address : VirtualAddress} {piece : Extent} {target : PhysicalAddress}
    {descend : PhysicalAddress → Action Pool TableError Unit}
    (descends : ∀ child, (descend child).Keeps (Stays allowed)) :
    (format.insertPiece level flags table address piece target descend).Keeps (Stays allowed) := by
  unfold insertPiece
  apply Keeps.bind (format.stays_load ..)
  intro descriptor
  apply Keeps.ite
  · apply Keeps.ite
    · exact format.stays_store writes ..
    · exact .ite _ (.bind (Pool.stays_record ..) fun _ => .fail _) (.pure _)
  · exact .bind (format.stays_nextTable writes wipes ..) descends

theorem stays_insertAt (writes : ∀ table slot word, allowed (.write table slot word))
    (wipes : ∀ table, allowed (.wipe table)) (flags : PageFlags) (levels : List Level) (depth : Nat)
    (table : PhysicalAddress) (base : VirtualAddress) (range : Extent) (target : PhysicalAddress) :
    (format.insertAt flags levels depth table base range target).Keeps (Stays allowed) := by
  induction levels generalizing depth table base range target with
  | nil => exact .abort _
  | cons level deeper ih =>
    rw [insertAt]
    apply Keeps.forM
    intro block
    apply Keeps.bind (.lift _)
    intro piece
    apply Keeps.bind (.lift _)
    intro address
    apply Keeps.bind (.lift _)
    intro pieceTarget
    apply Keeps.bind
    · exact format.stays_insertPiece writes wipes fun child => ih ..
    · exact fun _ => .ite _ (.pure _) (.abort _)

theorem stays_removeAt (writes : ∀ table slot word, allowed (.write table slot word))
    (wipes : ∀ table, allowed (.wipe table)) (levels : List Level) (table : PhysicalAddress)
    (range : Extent) : (format.removeAt levels table range).Keeps (Stays allowed) := by
  induction levels generalizing table range with
  | nil => exact .abort _
  | cons level deeper ih =>
    rw [removeAt]
    apply Keeps.forM
    intro block
    apply Keeps.bind (.lift _)
    intro piece
    apply Keeps.bind (format.stays_load ..)
    intro descriptor
    apply Keeps.ite
    · apply Keeps.ite
      · exact format.stays_store writes ..
      · apply Keeps.bind (ih ..)
        intro _
        apply Keeps.bind .state
        intro pool
        apply Keeps.ite
        · exact .bind (format.stays_store writes ..) fun _ => Pool.stays_destruct wipes _
        · exact .pure _
    · exact .pure _

/-- Freeing the tables below one wipes nodes and writes no word. -/
theorem stays_releaseBelow (wipes : ∀ table, allowed (.wipe table)) (levels : List Level)
    (table : PhysicalAddress) :
    (format.releaseBelow levels table : Action Pool ε Unit).Keeps (Stays allowed) := by
  induction levels generalizing table with
  | nil => exact .abort _
  | cons level deeper ih =>
    rw [releaseBelow]
    apply Keeps.ite
    · exact .pure _
    · apply Keeps.forM
      intro slot
      apply Keeps.bind .state
      intro pool
      split
      · exact .pure _
      · apply Keeps.ite
        · exact .bind (ih _) fun _ => Pool.stays_destruct wipes _
        · exact .pure _

end Format

namespace TranslationTable

open DmaRemap.Action (Keeps)
open Pool (Stays)

variable (table : TranslationTable)

theorem stays_insert (writes : ∀ table slot word, allowed (.write table slot word))
    (wipes : ∀ table, allowed (.wipe table)) (start : VirtualAddress) (target : PhysicalAddress)
    (size : Nat) (flags : PageFlags) :
    (table.insert start target size flags).Keeps (Stays allowed) := by
  unfold insert
  apply Keeps.bind (Format.stays_checkRange ..)
  intro _
  apply Keeps.ite
  · exact .bind (Pool.stays_record ..) fun _ => .fail _
  · exact Format.stays_insertAt _ writes wipes ..

theorem stays_remove (writes : ∀ table slot word, allowed (.write table slot word))
    (wipes : ∀ table, allowed (.wipe table)) (start : VirtualAddress) (size : Nat) :
    (table.remove start size).Keeps (Stays allowed) := by
  unfold remove
  apply Keeps.bind (Format.stays_checkRange ..)
  exact fun _ => Format.stays_removeAt _ writes wipes ..

theorem stays_clear (wipes : ∀ table, allowed (.wipe table)) :
    (table.clear : Action Pool ε Unit).Keeps (Stays allowed) :=
  .bind (Format.stays_releaseBelow _ wipes ..) fun _ => Pool.stays_wipe wipes _

theorem stays_create (wipes : ∀ table, allowed (.wipe table)) (format : Format)
    (coherency : Coherency) : (create format coherency).Keeps (Stays allowed) :=
  .bind (Pool.stays_construct wipes) fun _ => .bind (Pool.stays_record ..) fun _ => .pure _

theorem stays_destroy (wipes : ∀ table, allowed (.wipe table)) :
    (table.destroy : Action Pool ε Unit).Keeps (Stays allowed) :=
  .bind (table.stays_clear wipes) fun _ =>
    .bind (Pool.stays_destruct wipes _) fun _ => Pool.stays_record ..

end TranslationTable

end DmaRemap

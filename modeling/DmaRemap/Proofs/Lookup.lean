import DmaRemap.Table.Lookup
import DmaRemap.Proofs.Tree

namespace DmaRemap.Format

variable {format : Format} {pool : Pool} {level : Level} {deeper levels : List Level}
  {table : PhysicalAddress} {branches : Branches} {word : Word} {offset : Nat}

/-- The page that covers an offset into a table, with its level. -/
def find (format : Format) : List Level → Branches → (offset : Nat) → Option (Level × Word)
  | [], _, _ => none
  | level :: deeper, branches, offset =>
    match branches (level.slot offset) with
    | .word descriptor => if format.isPresent descriptor then some (level, descriptor) else none
    | .link _ below => format.find deeper below (offset % level.pageSize)

/-- How a page translates an input address. -/
def reading (format : Format) (input : VirtualAddress) :
    Option (Level × Word) → Except Abort (Option Translation)
  | none => return none
  | some (level, descriptor) => do
    let address ← (format.address level descriptor).add (input.val % level.pageSize)
    return some ⟨address, level.pageSize, format.pageFlags descriptor⟩

private theorem slot_mod_span (level : Level) (input : Nat) :
    level.slot (input % (512 * level.pageSize)) = level.slot input := by
  apply Fin.ext
  simp only [Level.slot, Fin.val_ofNat]
  rw [Nat.mul_comm, Nat.mod_mul_right_div_self, Nat.mod_mod]

private theorem mod_span_mod (level : Level) (input : Nat) :
    input % (512 * level.pageSize) % level.pageSize = input % level.pageSize :=
  Nat.mod_mod_of_dvd input (Nat.dvd_mul_left ..)

theorem Held.lookupAt_eq (held : format.Held pool levels table branches)
    (nested : Level.Nested levels) (input : VirtualAddress) :
    format.lookupAt pool input levels table =
      format.reading input (format.find levels branches (input.val % Level.span levels)) := by
  induction levels generalizing table branches with
  | nil => exact absurd (held.shaped 0) (by simp [Shaped])
  | cons level deeper ih =>
    have shaped := held.shaped (level.slot input.val)
    rw [lookupAt, Pool.read?_of_node? held.node, find, Level.span, slot_mod_span, mod_span_mod]
    simp only [Node.get_of]
    cases branch : branches (level.slot input.val) with
    | word descriptor =>
      rw [branch] at shaped
      by_cases present : format.isPresent descriptor = true
      · simp [Tree.descriptor, present, shaped present, reading]
      · simp [Tree.descriptor, present, reading]
    | link descriptor below =>
      rw [branch] at shaped
      obtain ⟨present, link, _⟩ := shaped
      rw [nested.1.pageSize]
      simp only [Tree.descriptor, present, link, if_true, address_of_not_isPage link]
      exact ih (held.child branch) nested.2

theorem find_eq_some (shaped : ∀ slot, format.Shaped levels (branches slot))
    (found : format.find levels branches offset = some (level, word)) :
    level ∈ levels ∧ format.isPresent word = true ∧ format.isPage level word = true := by
  induction levels generalizing branches offset with
  | nil => simp [find] at found
  | cons head deeper ih =>
    have here := shaped (head.slot offset)
    rw [find] at found
    split at found
    case h_1 descriptor branch =>
      rw [branch] at here
      split at found
      case isTrue present =>
        cases Option.some.inj found
        exact ⟨List.mem_cons_self, present, here present⟩
      case isFalse => cases found
    case h_2 descriptor below branch =>
      rw [branch] at here
      obtain ⟨member, page⟩ := ih here.2.2 found
      exact ⟨List.mem_cons_of_mem _ member, page⟩

private theorem pageSize_dvd_address (divided : Level.Divided level deeper)
    (page : format.isPage level word = true) :
    level.pageSize ∣ (format.address level word).val := by
  simp only [address, page, if_true, addressBits, pageAddressLow, Nat.max_eq_right divided.least,
    Nat.shiftLeft_eq, Level.pageSize, Nat.one_mul]
  exact Nat.dvd_mul_left ..

private theorem add_lt_of_dvd {size base limit offset : Nat} (aligned : size ∣ base)
    (divides : size ∣ limit) (below : base < limit) (inside : offset < size) :
    base + offset < limit := by
  obtain ⟨index, rfl⟩ := aligned
  obtain ⟨count, rfl⟩ := divides
  have next : index + 1 ≤ count := Nat.lt_of_mul_lt_mul_left below
  calc size * index + offset < size * index + size := Nat.add_lt_add_left inside _
    _ = size * (index + 1) := by ring
    _ ≤ size * count := Nat.mul_le_mul_left size next

/-- A page of some level translates every address that it covers. -/
theorem reading_some (divided : Level.Divided level deeper) (page : format.isPage level word = true)
    (input : VirtualAddress) :
    ∃ address : PhysicalAddress,
      address.val = (format.address level word).val + input.val % level.pageSize ∧
      format.reading input (some (level, word)) =
        .ok (some ⟨address, level.pageSize, format.pageFlags word⟩) := by
  have divides : level.pageSize ∣ 1 <<< 52 := by
    rw [Level.pageSize, Nat.one_shiftLeft, Nat.one_shiftLeft]
    exact Nat.pow_dvd_pow 2 (Nat.le_trans divided.most (by decide))
  have fits := add_lt_of_dvd (pageSize_dvd_address divided page) divides
    (format.address level word).isLt (Nat.mod_lt input.val level.pageSize_pos)
  refine ⟨⟨_, fits⟩, rfl, ?_⟩
  simp only [reading, Address.add_eq_ok fits (by decide)]
  rfl

end DmaRemap.Format

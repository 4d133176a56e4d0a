import Baskets.Basket

/-!
# The entries of a basket

`joined` puts entries one behind the other, and `bounds` says where each of them begins and where
the last one ends.  A basket that has just these has just these entries.
-/

namespace Baskets

namespace Basket

/-- the entries, one behind the other -/
def joined : List Bytes → Bytes
  | [] => #[]
  | entry :: rest => entry ++ joined rest

/-- where each entry begins, the first at `start`, and where the last one ends -/
def bounds : (start : Nat) → List Bytes → List Nat
  | start, [] => [start]
  | start, entry :: rest => start :: bounds (start + entry.size) rest

/-- every list of bounds begins where the first entry does -/
theorem exists_bounds (start : Nat) (entries : List Bytes) :
    ∃ others, bounds start entries = start :: others := by
  cases entries <;> exact ⟨_, rfl⟩

@[simp] theorem joined_append (entries others : List Bytes) :
    joined (entries ++ others) = joined entries ++ joined others := by
  induction entries with
  | nil => exact Array.empty_append.symm
  | cons entry rest ih =>
    show entry ++ joined (rest ++ others) = entry ++ joined rest ++ joined others
    rw [ih, Array.append_assoc]

theorem slice?_middle (front entry behind : Bytes) :
    slice? (front ++ (entry ++ behind)) front.size (front.size + entry.size) = some entry := by
  unfold slice?
  have inside : front.size + entry.size ≤ (front ++ (entry ++ behind)).size := by
    rw [Array.size_append, Array.size_append]
    omega
  rw [if_pos ⟨Nat.le_add_right _ _, inside⟩, Array.extract_append_right,
    Array.extract_append_left, Array.extract_size]

/-- between the bounds stand the entries -/
theorem between_joined (front : Bytes) (entries : List Bytes) :
    between (front ++ joined entries) (bounds front.size entries) = entries.map .ok := by
  induction entries generalizing front with
  | nil => rfl
  | cons entry rest ih =>
    obtain ⟨others, eq⟩ := exists_bounds (front.size + entry.size) rest
    have inner := ih (front ++ entry)
    rw [Array.size_append, Array.append_assoc, eq] at inner
    show between (front ++ (entry ++ joined rest)) (front.size :: bounds _ rest) = _
    rw [eq]
    unfold between
    rw [slice?_middle, inner]
    rfl

variable {basket : Basket} {entries : List Bytes}

theorem entries_of_joined (data : basket.data = some (joined entries))
    (offsets : basket.offsets = some (bounds 0 entries)) :
    basket.entries = .ok (entries.map .ok) := by
  have all := between_joined #[] entries
  rw [Array.empty_append] at all
  unfold Basket.entries
  rw [data, offsets]
  exact congrArg Except.ok all

theorem entry_bounds (front : Bytes) (entries : List Bytes) (i : Nat) :
    ((bounds front.size entries)[i]?.bind fun start =>
      (bounds front.size entries)[i + 1]?.bind fun stop =>
        slice? (front ++ joined entries) start stop) = entries[i]? := by
  induction entries generalizing front i with
  | nil => cases i <;> rfl
  | cons entry rest ih =>
    cases i with
    | zero =>
      obtain ⟨others, eq⟩ := exists_bounds (front.size + entry.size) rest
      show ((bounds (front.size + entry.size) rest)[0]?.bind fun stop =>
        slice? (front ++ (entry ++ joined rest)) front.size stop) = some entry
      rw [eq]
      exact slice?_middle front entry (joined rest)
    | succ i =>
      have inner := ih (front ++ entry) i
      rw [Array.size_append, Array.append_assoc] at inner
      exact inner

/-- each entry, and none behind the last -/
theorem entry?_of_joined (data : basket.data = some (joined entries))
    (offsets : basket.offsets = some (bounds 0 entries)) (i : Nat) :
    basket.entry? i = entries[i]? := by
  have one := entry_bounds #[] entries i
  rw [Array.empty_append] at one
  unfold entry?
  rw [data, offsets]
  exact one

end Basket

end Baskets

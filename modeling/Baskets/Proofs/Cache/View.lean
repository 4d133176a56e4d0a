import Mathlib.Logic.Function.Basic
import Baskets.Proofs.Cache.Building

/-!
# The map that a cache is

A `Cache.View` is a map from keys to what was built for them, with room for so many: a cache without
its counts of calls and without the numbers of its slots.  `Cache.view` takes a cache to its view.
Making a slot and filling it are the same before and after that (`view_slot`, `view_fill`).
-/

namespace Baskets.Cache

variable {α : Type} {cache : Cache α} {key : String}

/-- a cache without its counts of calls and without the numbers of its slots -/
@[ext]
structure View (α : Type) where
  config : CacheConfig
  /-- whether a key has a slot -/
  slotted : String → Bool
  /-- how many slots there are -/
  size : Nat
  held : String → Option (Built α)
  entries : Nat
  builtCount : Nat

def view (cache : Cache α) : View α where
  config := cache.config
  slotted key := (cache.slots.lookup key).isSome
  size := cache.slots.length
  held := cache.find?
  entries := cache.stats.entries
  builtCount := cache.builtCount

namespace View

variable {view : View α} {other : String}

/-- one slot more -/
def spare (view : View α) (key : String) : View α :=
  { view with slotted := Function.update view.slotted key true, size := view.size + 1 }

def slot (view : View α) (key : String) : View α :=
  if view.slotted key = true ∨ view.config.maxEntries ≤ view.size then view else view.spare key

def put (view : View α) (key : String) (built : Built α) : View α :=
  if view.slotted key = true then
    { view with
      held := Function.update view.held key (some built)
      entries := view.entries + 1 }
  else view

/-- with what a builder gave -/
def filled (view : View α) (key : String) : Except Fault (Option α) → View α
  | .ok (some value) =>
    { view with builtCount := view.builtCount + 1 }.put key ⟨view.builtCount, value⟩
  | _ => view

/-- with what a builder gave that nothing waits for any more -/
def numbered (view : View α) : Except Fault (Option α) → View α
  | .ok (some _) => { view with builtCount := view.builtCount + 1 }
  | _ => view

def clear (view : View α) : View α :=
  { view with slotted := fun _ => false, size := 0, held := fun _ => none, entries := 0 }

@[simp] theorem slotted_spare_self (view : View α) (key : String) :
    (view.spare key).slotted key = true := Function.update_self ..

@[simp] theorem slotted_spare (view : View α) (differs : other ≠ key) :
    (view.spare key).slotted other = view.slotted other := Function.update_of_ne differs ..

/-- what is built for a key is had for it, if it has a slot -/
theorem held_filled_self (slotted : view.slotted key = true) (value : α) :
    (view.filled key (.ok (some value))).held key = some ⟨view.builtCount, value⟩ := by
  simp [filled, put, slotted]

/-- nothing else changes when something is built for a key -/
@[simp]
theorem held_filled (view : View α) (differs : other ≠ key) (result : Except Fault (Option α)) :
    (view.filled key result).held other = view.held other := by
  unfold filled
  split
  · unfold put
    split
    · simp [differs]
    · rfl
  · rfl

@[simp] theorem held_numbered (view : View α) (result : Except Fault (Option α)) :
    (view.numbered result).held = view.held := by
  unfold numbered
  split <;> rfl

end View

@[simp]
theorem view_record (cache : Cache α) (hit : Bool) : (cache.record hit).view = cache.view := by
  cases hit <;> rfl

theorem slotted_view (cache : Cache α) (key : String) :
    cache.view.slotted key = (cache.slots.lookup key).isSome := rfl

@[simp] theorem view_slot (cache : Cache α) (key : String) :
    (cache.slot key).2.view = cache.view.slot key := by
  unfold View.slot
  rw [slotted_view]
  cases place : cache.slots.lookup key with
  | some there => rw [if_pos (.inl rfl), slot_of_lookup place]
  | none =>
    rw [Option.isSome_none]
    by_cases room : cache.view.size < cache.view.config.maxEntries
    · have held := funext (cache.find?_slot key)
      have others {other : String} (differs : other ≠ key) := cache.lookup_slot_of_ne differs
      have self := cache.lookup_slot key
      rw [if_neg (not_or.2 ⟨Bool.false_ne_true, Nat.not_le.2 room⟩)]
      rw [slot_of_room place room] at held others self ⊢
      refine View.ext rfl (Function.eq_update_iff.2 ⟨?_, ?_⟩) List.length_append held rfl rfl
      · exact congrArg Option.isSome self
      · exact fun other differs => congrArg Option.isSome (others differs)
    · rw [if_pos (.inr (Nat.le_of_not_lt room)), slot_of_full place room]

theorem view_get (on : cache.config.enabled = true) (key : String) :
    (cache.get key).2.view = cache.view := by
  simp [get_snd on]

theorem view_found (on : cache.config.enabled = true) {built : Built α}
    (held : cache.find? key = some built) (build : Builder α) :
    (cache.getOrBuild key build).2.view = cache.view := by
  simp [getOrBuild_of_found on held]

/-- what is built for a key that has nothing finds a slot made for it -/
theorem view_opened (on : cache.config.enabled = true) (missing : cache.find? key = none) :
    (cache.opened key).view = cache.view.slot key := by
  simp [opened_of_missing on missing]

/-- filling a slot that is there by its number -/
theorem view_fill {left : Cache α} {slot : Option (CacheSlot α)}
    (there : (left.slots.lookup key).map (·.number) = slot.map (·.number)) (built : Built α) :
    (fill slot key built left).view = left.view.put key built := by
  unfold View.put
  rw [slotted_view]
  cases slot with
  | none =>
    have nothing : left.slots.lookup key = none := Option.map_eq_none_iff.1 there
    rw [nothing]
    rfl
  | some place =>
    obtain ⟨filled, there, (number : filled.number = place.number)⟩ :=
      Option.map_eq_some_iff.1 there
    rw [there, if_pos Option.isSome_some]
    have self := find?_store_self there built
    have others {other : String} (differs : other ≠ key) :=
      left.find?_store_of_ne differs filled.number built
    show (left.store key place.number built).view = _
    rw [← number]
    rw [store_of_lookup there] at self others ⊢
    have held := Function.eq_update_iff.2 ⟨self, fun other differs => others differs⟩
    refine View.ext rfl (funext fun other => ?_) (List.length_map _) held rfl rfl
    show ((left.slots.map (Cache.put key built)).lookup other).isSome = _
    rw [lookup_put, Option.isSome_map]
    rfl

/-- what a builder gave is put into the slot that was had for it, if the key still has that one -/
theorem view_buildWith {build : Builder α} {slot : Option (CacheSlot α)}
    (there : ((build cache).2.slots.lookup key).map (·.number) = slot.map (·.number)) :
    (cache.buildWith build (fill slot key)).2.view =
      (build cache).2.view.filled key (build cache).1 := by
  unfold buildWith
  split <;> rename_i same <;> rw [same] at there ⊢
  · rename_i value left
    replace there : ((left.number value).2.slots.lookup key).map (·.number) = _ := there
    exact view_fill there _
  · rfl
  · rfl

/-- what a builder gave is put nowhere if the key has lost the slot that was had for it -/
theorem view_buildWith_of_gone {build : Builder α} {slot : Option (CacheSlot α)}
    (gone : ∀ place, slot = some place → ∀ later, (build cache).2.slots.lookup key = some later →
      later.number ≠ place.number) :
    (cache.buildWith build (fill slot key)).2.view =
      (build cache).2.view.numbered (build cache).1 := by
  unfold buildWith
  split <;> rename_i same <;> rw [same] at gone ⊢
  · rename_i value left
    cases slot with
    | none => rfl
    | some place =>
      show ((left.number value).2.store key place.number _).view = _
      rcases (left.number value).2.store_cases key place.number _ with
        same | ⟨later, there, number, -⟩
      · rw [same]
        rfl
      · exact absurd number (gone place rfl later there)
  · rfl
  · rfl

end Baskets.Cache

import Baskets.Proofs.Cache

/-!
# What one build does to a cache

Where a key has something, no builder is run.  Where it has nothing, the builder finds the cache
with a slot made for the key, if there was one to be had, and the miss counted (`Cache.opened`);
and what it builds is put into that slot, if it is still there.
-/

namespace Baskets.Cache

variable {α : Type} {cache : Cache α} {key other : String}

/-! ## slots -/

theorem mem_of_lookup {β : Type} {list : List (String × β)} {value : β}
    (there : list.lookup key = some value) : (key, value) ∈ list := by
  obtain ⟨front, back, split, -⟩ := List.lookup_eq_some_iff.1 there
  rw [split]
  exact List.mem_append_right _ List.mem_cons_self

theorem notMem_keys_of_lookup {β : Type} {list : List (String × β)}
    (nothing : list.lookup key = none) : key ∉ list.map (·.1) := by
  intro mem
  obtain ⟨pair, there, rfl⟩ := List.mem_map.1 mem
  exact absurd (List.lookup_eq_none_iff.1 nothing pair there) (by simp)

theorem slot_of_lookup {place : CacheSlot α} (there : cache.slots.lookup key = some place) :
    cache.slot key = (some place, cache) := by
  unfold slot
  rw [there]

theorem slot_of_room (nothing : cache.slots.lookup key = none)
    (room : cache.slots.length < cache.config.maxEntries) :
    cache.slot key = (some { number := cache.slotCount },
      { cache with
        slots := cache.slots ++ [(key, { number := cache.slotCount })]
        slotCount := cache.slotCount + 1 }) := by
  unfold slot
  rw [nothing]
  dsimp only
  rw [if_pos room]

theorem slot_of_full (nothing : cache.slots.lookup key = none)
    (full : ¬cache.slots.length < cache.config.maxEntries) : cache.slot key = (none, cache) := by
  unfold slot
  rw [nothing]
  dsimp only
  rw [if_neg full]

@[simp] theorem lookup_slot (cache : Cache α) (key : String) :
    (cache.slot key).2.slots.lookup key = (cache.slot key).1 := by
  unfold slot
  split
  · assumption
  · rename_i nothing
    split
    · show (cache.slots ++ [(key, _)]).lookup key = _
      rw [List.lookup_append, nothing, Option.none_or, List.lookup_cons_self]
    · exact nothing

theorem lookup_slot_of_ne (cache : Cache α) (differs : other ≠ key) :
    (cache.slot key).2.slots.lookup other = cache.slots.lookup other := by
  unfold slot
  split
  · rfl
  · split
    · show (cache.slots ++ [(key, _)]).lookup other = _
      rw [List.lookup_append, List.lookup_cons, beq_false_of_ne differs]
      exact Option.or_none
    · rfl

/-- there is a slot for a key that has one already, and as long as there is room -/
theorem isSome_slot (cache : Cache α) (key : String) : (cache.slot key).1.isSome ↔
    (cache.slots.lookup key).isSome ∨ cache.slots.length < cache.config.maxEntries := by
  unfold slot
  split
  · rename_i place there
    rw [there]
    exact ⟨fun _ => .inl rfl, fun _ => rfl⟩
  · rename_i nothing
    split
    · exact ⟨fun _ => .inr ‹_›, fun _ => rfl⟩
    · rename_i full
      rw [nothing]
      exact ⟨nofun, fun some => some.elim nofun fun room => absurd room full⟩

@[simp]
theorem stats_slot (cache : Cache α) (key : String) : (cache.slot key).2.stats = cache.stats := by
  unfold slot
  split
  · rfl
  · split <;> rfl

/-- puts what was built into the slot of its key -/
def put (key : String) (built : Built α) (pair : String × CacheSlot α) : String × CacheSlot α :=
  (pair.1, if pair.1 = key then { pair.2 with content := some built } else pair.2)

theorem store_of_lookup {place : CacheSlot α} (there : cache.slots.lookup key = some place)
    (built : Built α) : cache.store key place.number built =
      { cache with
        slots := cache.slots.map (put key built)
        stats := { cache.stats with entries := cache.stats.entries + 1 } } := by
  have found : (cache.slots.lookup key).any (fun s => s.number = place.number) = true := by
    rw [there]
    exact decide_eq_true rfl
  unfold store
  rw [if_pos found]
  rfl

/-- what is stored is put into a slot of that number, or else nothing happens -/
theorem store_cases (cache : Cache α) (key : String) (number : Nat) (built : Built α) :
    cache.store key number built = cache ∨ ∃ place, cache.slots.lookup key = some place ∧
      place.number = number ∧ cache.store key number built =
        { cache with
          slots := cache.slots.map (put key built)
          stats := { cache.stats with entries := cache.stats.entries + 1 } } := by
  by_cases found : (cache.slots.lookup key).any (fun s => s.number = number) = true
  · obtain ⟨place, there, same⟩ := (Option.any_eq_true _ _).1 found
    cases of_decide_eq_true same
    exact .inr ⟨place, there, rfl, store_of_lookup there built⟩
  · unfold store
    rw [if_neg found]
    exact .inl rfl

theorem lookup_put (slots : List (String × CacheSlot α)) (key other : String) (built : Built α) :
    (slots.map (put key built)).lookup other = (slots.lookup other).map fun slot =>
      if other = key then { slot with content := some built } else slot :=
  let f (k : String) (slot : CacheSlot α) : CacheSlot α :=
    if k = key then { slot with content := some built } else slot
  lookup_map_snd f slots other

theorem find?_store_of_ne (cache : Cache α) (differs : other ≠ key) (number : Nat)
    (built : Built α) : (cache.store key number built).find? other = cache.find? other := by
  rcases cache.store_cases key number built with same | ⟨place, there, rfl, same⟩
  · rw [same]
  · rw [same]
    unfold find?
    dsimp only
    rw [lookup_put]
    simp only [if_neg differs, Option.map_id']

theorem find?_store_self {place : CacheSlot α} (there : cache.slots.lookup key = some place)
    (built : Built α) : (cache.store key place.number built).find? key = some built := by
  rw [store_of_lookup there]
  unfold find?
  dsimp only
  rw [lookup_put, there, Option.map_some, if_pos rfl]
  rfl

/-! ## builds -/

theorem get_snd (on : cache.config.enabled = true) (key : String) :
    (cache.get key).2 = cache.record (cache.find? key).isSome := by
  unfold get
  rw [if_pos on]

/-- the cache as a builder for the key finds it, and leaves it if it comes to nothing at once -/
def opened (cache : Cache α) (key : String) : Cache α :=
  (cache.getOrBuild key fun cache => (.ok none, cache)).2

/-- puts what was built into the slot that was had for it, if one was had -/
def fill (slot : Option (CacheSlot α)) (key : String) (built : Built α) (cache : Cache α) :
    Cache α :=
  match slot with
  | none => cache
  | some place => cache.store key place.number built

theorem getOrBuild_of_found (on : cache.config.enabled = true) {built : Built α}
    (found : cache.find? key = some built) (build : Builder α) :
    cache.getOrBuild key build = (.ok (some built), cache.record true) := by
  unfold find? at found
  obtain ⟨place, there, content⟩ := Option.bind_eq_some_iff.1 found
  unfold getOrBuild
  rw [if_pos on, slot_of_lookup there]
  dsimp only
  rw [content]

theorem getOrBuild_of_slot (on : cache.config.enabled = true) (missing : cache.find? key = none)
    (build : Builder α) : cache.getOrBuild key build =
      ((cache.slot key).2.record false).buildWith build (fill (cache.slot key).1 key) := by
  unfold getOrBuild
  rw [if_pos on]
  cases made : cache.slot key with
  | mk slot next =>
    cases slot with
    | none => rfl
    | some place =>
      have empty : place.content = none := (content_slot made).symm.trans missing
      dsimp only
      rw [empty]
      rfl

theorem opened_of_missing (on : cache.config.enabled = true) (missing : cache.find? key = none) :
    cache.opened key = (cache.slot key).2.record false := by
  unfold opened
  rw [getOrBuild_of_slot on missing]
  rfl

theorem getOrBuild_of_missing (on : cache.config.enabled = true)
    (missing : cache.find? key = none) (build : Builder α) :
    cache.getOrBuild key build =
      (cache.opened key).buildWith build (fill ((cache.opened key).slots.lookup key) key) := by
  have slot : (cache.opened key).slots.lookup key = (cache.slot key).1 := by
    rw [opened_of_missing on missing]
    exact cache.lookup_slot key
  rw [slot, opened_of_missing on missing, getOrBuild_of_slot on missing]

theorem getOrBuild_of_disabled (off : ¬cache.config.enabled = true) (build : Builder α) :
    cache.getOrBuild key build = (cache.opened key).buildWith build fun _ cache => cache := by
  unfold opened getOrBuild
  rw [if_neg off, if_neg off]
  rfl

/-- what comes of a build is what its builder gives, numbered -/
theorem fst_buildWith (cache : Cache α) (build : Builder α)
    (keep : Built α → Cache α → Cache α) :
    (cache.buildWith build keep).1 =
      (build cache).1.map (Option.map (Built.mk (build cache).2.builtCount)) := by
  unfold buildWith
  split <;> rename_i same <;> rw [same] <;> rfl

/-- where nothing was built the cache is as the builder left it -/
theorem snd_buildWith_of_nothing {build : Builder α}
    (nothing : ∀ value, (build cache).1 ≠ .ok (some value)) (keep : Built α → Cache α → Cache α) :
    (cache.buildWith build keep).2 = (build cache).2 := by
  unfold buildWith
  split <;> rename_i same <;> rw [same] at nothing ⊢
  exact absurd rfl (nothing _)

/-- what is true of the cache that a builder leaves, and kept up when something is put in -/
theorem buildWith_induction {P : Cache α → Prop} {build : Builder α}
    {keep : Built α → Cache α → Cache α} (left : P (build cache).2)
    (kept : ∀ value, P (keep ⟨(build cache).2.builtCount, value⟩ ((build cache).2.number value).2)) :
    P (cache.buildWith build keep).2 := by
  unfold buildWith
  split <;> rename_i same <;> rw [same] at left kept
  · exact kept _
  · exact left
  · exact left

end Baskets.Cache

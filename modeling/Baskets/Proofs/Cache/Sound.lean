import Mathlib.Data.List.Nodup
import Baskets.Proofs.Cache.Building

/-!
# What holds of a cache while slots are being filled

While a builder runs its slot is empty, and the builder may use the cache for other keys.  So what
holds of a cache at all times (`Cache.Sound`) tells of the slots that are being filled, by their
numbers.  It is shown here of each thing that a call does: counting, making a slot, numbering,
filling a slot, clearing; and of each but the last that nothing is lost by it (`Cache.Keeps`).
-/

namespace Baskets.Cache

variable {α : Type} {cache : Cache α} {key : String} {busy : List Nat}

/-- the slot of the key, if it has one, is not being filled -/
def Free (busy : List Nat) (cache : Cache α) (key : String) : Prop :=
  ∀ place, cache.slots.lookup key = some place → place.number ∉ busy

/-- the numbers of the slots that are being filled while a builder for the key runs -/
def busyFor (cache : Cache α) (key : String) (busy : List Nat) : List Nat :=
  (((cache.opened key).slots.lookup key).map (·.number)).toList ++ busy

/-- slots are told apart by their keys and by their numbers, the count of those that hold something
is right, and those that are being filled are empty -/
structure Sound (busy : List Nat) (cache : Cache α) : Prop where
  keys : (cache.slots.map (·.1)).Nodup
  numbers : (cache.slots.map (·.2.number)).Nodup
  numbered : ∀ pair ∈ cache.slots, pair.2.number < cache.slotCount
  busyNumbered : ∀ number ∈ busy, number < cache.slotCount
  busyEmpty : ∀ pair ∈ cache.slots, pair.2.number ∈ busy → pair.2.content = none
  entries : cache.stats.entries = cache.slots.countP (·.2.content.isSome)
  room : cache.slots.length ≤ cache.config.maxEntries

namespace Sound

theorem fresh (config : CacheConfig) : Sound [] ({ config } : Cache α) where
  keys := .nil
  numbers := .nil
  numbered := nofun
  busyNumbered := nofun
  busyEmpty := nofun
  entries := rfl
  room := Nat.zero_le _

theorem mono {more : List Nat} (fewer : busy ⊆ more) (sound : Sound more cache) :
    Sound busy cache :=
  { sound with
    busyNumbered := fun number mem => sound.busyNumbered number (fewer mem)
    busyEmpty := fun pair mem there => sound.busyEmpty pair mem (fewer there) }

theorem record (sound : Sound busy cache) (hit : Bool) : Sound busy (cache.record hit) where
  keys := sound.keys
  numbers := sound.numbers
  numbered := sound.numbered
  busyNumbered := sound.busyNumbered
  busyEmpty := sound.busyEmpty
  entries := by
    refine Eq.trans ?_ sound.entries
    cases hit <;> rfl
  room := sound.room

theorem number (sound : Sound busy cache) (value : α) : Sound busy (cache.number value).2 :=
  { sound with }

theorem clear (sound : Sound busy cache) : Sound busy cache.clear where
  keys := .nil
  numbers := .nil
  numbered := nofun
  busyNumbered := sound.busyNumbered
  busyEmpty := nofun
  entries := rfl
  room := Nat.zero_le _

theorem slot (sound : Sound busy cache) (key : String) : Sound busy (cache.slot key).2 := by
  unfold Cache.slot
  split
  · exact sound
  · rename_i nothing
    split
    · rename_i room
      have newKey := notMem_keys_of_lookup nothing
      have newNumber : cache.slotCount ∉ cache.slots.map (·.2.number) := by
        intro mem
        obtain ⟨pair, mem, same⟩ := List.mem_map.1 mem
        exact absurd same (Nat.ne_of_lt (sound.numbered pair mem))
      exact {
        keys := by
          dsimp only
          rw [List.map_append]
          exact sound.keys.append (List.nodup_singleton _) (by simpa using newKey)
        numbers := by
          dsimp only
          rw [List.map_append]
          exact sound.numbers.append (List.nodup_singleton _) (by simpa using newNumber)
        numbered := by
          refine List.forall_mem_append.2 ⟨fun pair mem => ?_, ?_⟩
          · exact Nat.lt_succ_of_lt (sound.numbered pair mem)
          · exact List.forall_mem_singleton.2 (Nat.lt_succ_self _)
        busyNumbered := fun number mem => Nat.lt_succ_of_lt (sound.busyNumbered number mem)
        busyEmpty := by
          refine List.forall_mem_append.2 ⟨sound.busyEmpty, ?_⟩
          exact List.forall_mem_singleton.2 fun _ => rfl
        entries := by
          dsimp only
          rw [List.countP_append, sound.entries]
          rfl
        room := by
          dsimp only
          rw [List.length_append]
          exact room }
    · exact sound

/-- a builder finds the slot that it builds for empty -/
theorem opened (sound : Sound busy cache) (on : cache.config.enabled = true)
    (missing : cache.find? key = none) :
    Sound (cache.busyFor key busy) (cache.opened key) := by
  have next := (sound.slot key).record false
  have slot := cache.lookup_slot key
  unfold busyFor
  rw [opened_of_missing on missing]
  show Sound ((((cache.slot key).2.slots.lookup key).map (·.number)).toList ++ busy) _
  cases there : (cache.slot key).2.slots.lookup key with
  | none => exact next
  | some place =>
    have mem := mem_of_lookup there
    have empty : place.content = none :=
      (content_slot (Prod.ext (slot.symm.trans there) rfl)).symm.trans missing
    exact { next with
      busyNumbered := List.forall_mem_cons.2 ⟨next.numbered _ mem, next.busyNumbered⟩
      busyEmpty := fun pair there busy => by
        rcases List.mem_cons.1 busy with same | busy
        · rw [List.inj_on_of_nodup_map next.numbers there mem same]
          exact empty
        · exact next.busyEmpty pair there busy }

end Sound

@[simp] theorem number_put (key : String) (built : Built α) (pair : String × CacheSlot α) :
    (put key built pair).2.number = pair.2.number := by
  unfold put
  dsimp only
  split <;> rfl

theorem put_of_ne {pair : String × CacheSlot α} (differs : pair.1 ≠ key) (built : Built α) :
    put key built pair = pair := by
  unfold put
  rw [if_neg differs]

/-- one slot more holds something -/
theorem countP_put {slots : List (String × CacheSlot α)} {place : CacheSlot α}
    (keys : (slots.map (·.1)).Nodup) (there : slots.lookup key = some place)
    (empty : place.content = none) (built : Built α) :
    (slots.map (put key built)).countP (·.2.content.isSome) =
      slots.countP (·.2.content.isSome) + 1 := by
  induction slots with
  | nil => cases there
  | cons pair slots ih =>
    obtain ⟨other, slot⟩ := pair
    obtain ⟨notBehind, keys⟩ := List.nodup_cons.1 keys
    rw [List.map_cons, List.countP_cons, List.countP_cons]
    by_cases same : key = other
    · subst same
      rw [List.lookup_cons_self] at there
      cases there
      have others : slots.map (put key built) = slots := by
        refine (List.map_congr_left fun pair mem => put_of_ne ?_ built).trans (List.map_id _)
        exact fun same => notBehind (List.mem_map.2 ⟨pair, mem, same⟩)
      rw [others]
      simp [put, empty]
    · rw [List.lookup_cons, beq_false_of_ne same] at there
      rw [ih keys there, put_of_ne (Ne.symm same)]
      omega

namespace Sound

theorem store {number : Nat} (sound : Sound (number :: busy) cache) (idle : number ∉ busy)
    (key : String) (built : Built α) : Sound busy (cache.store key number built) := by
  have less := sound.mono (List.subset_cons_self number busy)
  rcases cache.store_cases key number built with same | ⟨place, there, rfl, same⟩
  · rw [same]
    exact less
  · have mem := mem_of_lookup there
    have empty := sound.busyEmpty _ mem List.mem_cons_self
    rw [same]
    exact {
      keys := by
        rw [List.map_map]
        exact less.keys
      numbers := by
        have untouched : (fun pair : String × CacheSlot α => pair.2.number) ∘ put key built =
            fun pair => pair.2.number := funext (number_put key built)
        rw [List.map_map, untouched]
        exact less.numbers
      numbered := by
        refine List.forall_mem_map.2 fun pair mem => ?_
        simpa using less.numbered pair mem
      busyNumbered := less.busyNumbered
      busyEmpty := by
        refine List.forall_mem_map.2 fun pair there isBusy => ?_
        rw [number_put] at isBusy
        -- the slot that was filled is none of those still being filled
        by_cases same : pair.1 = key
        · rw [List.inj_on_of_nodup_map less.keys there mem same] at isBusy
          exact absurd isBusy idle
        · rw [put_of_ne same]
          exact less.busyEmpty pair there isBusy
      entries := by
        dsimp only
        rw [countP_put less.keys there empty, less.entries]
      room := by
        dsimp only
        rw [List.length_map]
        exact less.room }

end Sound

/-! ## what is kept -/

/-- what has a slot still has it, and holds what it held -/
def Keeps (cache next : Cache α) : Prop :=
  ∀ key place, cache.slots.lookup key = some place → ∃ later,
    next.slots.lookup key = some later ∧ later.number = place.number ∧
      ∀ built, place.content = some built → later.content = some built

namespace Keeps

theorem of_slots {next : Cache α} (same : next.slots = cache.slots) : cache.Keeps next :=
  fun _ place there => ⟨place, same ▸ there, rfl, fun _ held => held⟩

theorem trans {next last : Cache α} (first : cache.Keeps next) (second : next.Keeps last) :
    cache.Keeps last := by
  intro key place there
  obtain ⟨place', there', number, holds⟩ := first key place there
  obtain ⟨place'', there'', number', holds'⟩ := second key place' there'
  exact ⟨place'', there'', number'.trans number, fun built held => holds' built (holds built held)⟩

theorem find? {next : Cache α} (keeps : cache.Keeps next) {built : Built α}
    (held : cache.find? key = some built) : next.find? key = some built := by
  obtain ⟨place, there, content⟩ := Option.bind_eq_some_iff.1 held
  obtain ⟨later, there, -, holds⟩ := keeps key place there
  exact Option.bind_eq_some_iff.2 ⟨later, there, holds built content⟩

theorem slot (cache : Cache α) (key : String) : cache.Keeps (cache.slot key).2 := by
  unfold Cache.slot
  split
  · exact of_slots rfl
  · split
    · intro other place there
      refine ⟨place, ?_, rfl, fun _ held => held⟩
      show (cache.slots ++ _).lookup other = _
      rw [List.lookup_append, there, Option.some_or]
    · exact of_slots rfl

theorem opened (on : cache.config.enabled = true) (missing : cache.find? key = none) :
    cache.Keeps (cache.opened key) := by
  rw [opened_of_missing on missing]
  exact slot cache key

end Keeps

/-- a slot that is being filled is empty, so that nothing is lost when it is filled -/
theorem Sound.keeps_store {number : Nat} (sound : Sound (number :: busy) cache) (key : String)
    (built : Built α) : cache.Keeps (cache.store key number built) := by
  rcases cache.store_cases key number built with same | ⟨filled, there, rfl, same⟩
  · rw [same]
    exact .of_slots rfl
  · have empty := sound.busyEmpty _ (mem_of_lookup there) List.mem_cons_self
    rw [same]
    intro other place before
    refine ⟨_, (lookup_put cache.slots key other built).trans (congrArg (Option.map _) before), ?_⟩
    by_cases here : other = key
    · subst here
      cases there.symm.trans before
      dsimp only
      rw [if_pos rfl]
      exact ⟨rfl, fun held content => nomatch empty.symm.trans content⟩
    · dsimp only
      rw [if_neg here]
      exact ⟨rfl, fun held content => content⟩

/-! ## the beginning and the end of a build -/

theorem config_opened (on : cache.config.enabled = true) (missing : cache.find? key = none) :
    (cache.opened key).config = cache.config := by
  rw [opened_of_missing on missing]
  exact cache.config_slot key

theorem find?_opened (on : cache.config.enabled = true) (missing : cache.find? key = none)
    (other : String) : (cache.opened key).find? other = cache.find? other := by
  rw [opened_of_missing on missing]
  exact cache.find?_slot key other

theorem stats_opened (on : cache.config.enabled = true) (missing : cache.find? key = none) :
    (cache.opened key).stats = cache.stats.record false := by
  rw [opened_of_missing on missing]
  exact congrArg (·.record false) (cache.stats_slot key)

/-- a slot that is made for a build is none of those that are being filled -/
theorem Free.opened (free : cache.Free busy key) (sound : Sound busy cache)
    (on : cache.config.enabled = true) (missing : cache.find? key = none) :
    (cache.opened key).Free busy key := by
  intro place there
  rw [opened_of_missing on missing] at there
  replace there := (cache.lookup_slot key).symm.trans there
  unfold slot at there
  split at there
  · rename_i old before
    cases there
    exact free _ before
  · split at there
    · cases there
      exact fun mem => absurd (sound.busyNumbered _ mem) (Nat.lt_irrefl _)
    · cases there

section Ending

variable {left : Cache α} {slot : Option (CacheSlot α)}

@[simp] theorem config_fill (slot : Option (CacheSlot α)) (key : String) (built : Built α)
    (left : Cache α) : (fill slot key built left).config = left.config := by
  cases slot with
  | none => rfl
  | some place => exact left.config_store key place.number built

theorem Sound.fill (sound : Sound ((slot.map (·.number)).toList ++ busy) left)
    (idle : ∀ place, slot = some place → place.number ∉ busy) (key : String) (built : Built α) :
    Sound busy (fill slot key built left) := by
  cases slot with
  | none => exact sound
  | some place => exact sound.store (idle place rfl) key built

theorem Sound.keeps_fill (sound : Sound ((slot.map (·.number)).toList ++ busy) left)
    (key : String) (built : Built α) : left.Keeps (Cache.fill slot key built left) := by
  cases slot with
  | none => exact .of_slots rfl
  | some place => exact sound.keeps_store key built

end Ending

end Baskets.Cache

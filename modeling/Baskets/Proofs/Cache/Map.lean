import Mathlib.Data.Set.Card
import Baskets.Proofs.Cache.Run
import Baskets.Proofs.Cache.View

/-!
# A cache is a bounded map

What each operation of a cache does to its view is said by one equation (`Cache.Acts`): making a
slot, filling it, clearing, and nothing where the key has something already.  So the calls on a
cache, also those that builders make, are calls on its view (`Run.refines`).  At all times, also
while builders run (`Cache.Reached`), a cache is a map from keys to what was built for them, with
room for so many (`Cache.Reached.boundedMap`).
-/

namespace Baskets.Cache

variable {α : Type} {start cache : Cache α} {key : String} {busy : List Nat}

/-! ## calls on a map -/

/-- calls on a map that lead to another, with the beginnings of the calls -/
inductive View.Run : View α → List (Event α) → View α → Prop where
  | start (view : View α) : Run view [] view
  /-- a key is asked for and nothing is built for it -/
  | asked {start view : View α} {events : List (Event α)} (before : Run start events view)
    (key : String) : Run start (events ++ [.asked key (view.held key)]) view
  /-- something is built for a key that has nothing, after the calls that its builder makes -/
  | built {start view left : View α} {events inside : List (Event α)} {key : String}
    (before : Run start events view) (missing : view.held key = none)
    (calls : Run (view.slot key) inside left) (uncleared : .cleared ∉ inside)
    (result : Except Fault (Option α)) :
    Run start (events ++ .asked key none :: inside) (left.filled key result)
  /-- and so it is if its builder has the map cleared, but then its slot is gone -/
  | late {start view left : View α} {events inside : List (Event α)} {key : String}
    (before : Run start events view) (missing : view.held key = none)
    (calls : Run (view.slot key) inside left) (cleared : .cleared ∈ inside)
    (result : Except Fault (Option α)) :
    Run start (events ++ .asked key none :: inside) (left.numbered result)
  | clear {start view : View α} {events : List (Event α)} (before : Run start events view) :
    Run start (events ++ [.cleared]) view.clear

/-- what each operation of a cache does to the map that it is -/
structure Acts (busy : List Nat) (cache : Cache α) : Prop where
  get (key : String) : (cache.get key).2.view = cache.view
  found (key : String) (built : Built α) (held : cache.find? key = some built)
    (build : Builder α) : (cache.getOrBuild key build).2.view = cache.view
  /-- a builder finds a slot made for its key, if there is room, and nothing else is new -/
  opened (key : String) (nothing : cache.find? key = none) :
    (cache.opened key).view = cache.view.slot key
  /-- what it gives is put into that slot, and all else is as the builder left it -/
  built (key : String) (nothing : cache.find? key = none) (build : Builder α)
    (inside : List (Event α))
    (calls : Run (cache.busyFor key busy) (cache.opened key) inside (build (cache.opened key)).2)
    (uncleared : .cleared ∉ inside) : (cache.getOrBuild key build).2.view =
      (build (cache.opened key)).2.view.filled key (build (cache.opened key)).1
  /-- and nowhere if the slot was cleared away -/
  late (key : String) (nothing : cache.find? key = none) (build : Builder α)
    (inside : List (Event α))
    (calls : Run (cache.busyFor key busy) (cache.opened key) inside (build (cache.opened key)).2)
    (cleared : .cleared ∈ inside) : (cache.getOrBuild key build).2.view =
      (build (cache.opened key)).2.view.numbered (build (cache.opened key)).1
  clear : cache.clear.view = cache.view.clear

/-- a builder finds a slot for its key if there was one, and as long as there is room -/
theorem isSome_opened (on : cache.config.enabled = true) (missing : cache.find? key = none) :
    ((cache.opened key).slots.lookup key).isSome ↔
      (cache.slots.lookup key).isSome ∨ cache.slots.length < cache.config.maxEntries := by
  rw [opened_of_missing on missing]
  show ((cache.slot key).2.slots.lookup key).isSome ↔ _
  simp [isSome_slot]

theorem full_of_opened (on : cache.config.enabled = true) (missing : cache.find? key = none)
    (nothing : (cache.opened key).slots.lookup key = none) :
    (cache.opened key).config.maxEntries ≤ (cache.opened key).slots.length := by
  obtain ⟨unslotted, full⟩ := not_or.1 (mt (isSome_opened on missing).2 (by simp [nothing]))
  rw [opened_of_missing on missing, slot_of_full (Option.not_isSome_iff_eq_none.1 unslotted) full]
  exact Nat.le_of_not_lt full

/-- where all slots are taken no key comes to have one -/
theorem Keeps.lookup_of_full {next : Cache α} (keeps : cache.Keeps next)
    (keys : (cache.slots.map (·.1)).Nodup) (full : next.slots.length ≤ cache.slots.length)
    (nothing : cache.slots.lookup key = none) : next.slots.lookup key = none := by
  have fewer : cache.slots.map (·.1) ⊆ next.slots.map (·.1) := by
    intro key mem
    obtain ⟨place, there⟩ := Option.ne_none_iff_exists'.1 fun none =>
      notMem_keys_of_lookup none mem
    obtain ⟨later, there, -⟩ := keeps key place there
    exact List.mem_map_of_mem (mem_of_lookup there)
  have same : (cache.slots.map (·.1)).Perm (next.slots.map (·.1)) :=
    (List.subperm_of_subset keys fewer).perm_of_length_le (by simpa using full)
  cases there : next.slots.lookup key with
  | none => rfl
  | some place =>
    have mem := List.mem_map_of_mem (f := (·.1)) (mem_of_lookup there)
    exact absurd (same.symm.subset mem) (notMem_keys_of_lookup nothing)

section Building

variable {build : Builder α} {inside : List (Event α)}

/-- a builder that does not clear the cache leaves its key with the slot that was had for it -/
theorem Run.number_slot {left : Cache α}
    (calls : Run (cache.busyFor key busy) (cache.opened key) inside left)
    (on : cache.config.enabled = true) (sound : Sound busy cache)
    (missing : cache.find? key = none) (uncleared : .cleared ∉ inside) :
    (left.slots.lookup key).map (·.number) =
      ((cache.opened key).slots.lookup key).map (·.number) := by
  have onInside := config_opened on missing ▸ on
  have soundInside := sound.opened on missing
  have keeps := calls.keeps onInside soundInside uncleared
  cases there : (cache.opened key).slots.lookup key with
  | none =>
    have room := (calls.sound onInside soundInside).room
    rw [calls.config onInside] at room
    have full := room.trans (full_of_opened on missing there)
    rw [keeps.lookup_of_full soundInside.keys full there]
  | some place =>
    obtain ⟨later, still, number, -⟩ := keeps key place there
    rw [still]
    exact congrArg some number

theorem view_built (on : cache.config.enabled = true) (sound : Sound busy cache)
    (missing : cache.find? key = none)
    (calls : Run (cache.busyFor key busy) (cache.opened key) inside (build (cache.opened key)).2)
    (uncleared : .cleared ∉ inside) : (cache.getOrBuild key build).2.view =
      (build (cache.opened key)).2.view.filled key (build (cache.opened key)).1 := by
  rw [getOrBuild_of_missing on missing]
  exact view_buildWith (calls.number_slot on sound missing uncleared)

/-- a slot that was cleared away does not come back, so nothing is put into it -/
theorem view_late (on : cache.config.enabled = true) (sound : Sound busy cache)
    (missing : cache.find? key = none)
    (calls : Run (cache.busyFor key busy) (cache.opened key) inside (build (cache.opened key)).2)
    (cleared : .cleared ∈ inside) : (cache.getOrBuild key build).2.view =
      (build (cache.opened key)).2.view.numbered (build (cache.opened key)).1 := by
  have renews := calls.renews (config_opened on missing ▸ on)
  have numbered := (sound.opened on missing).numbered
  rw [getOrBuild_of_missing on missing]
  refine view_buildWith_of_gone fun place there => ?_
  intro later still same
  have less : later.number < (cache.opened key).slotCount :=
    same ▸ numbered _ (mem_of_lookup there)
  exact (renews.old _ (mem_of_lookup still) less).1 cleared

theorem acts (on : cache.config.enabled = true) (sound : Sound busy cache) : cache.Acts busy where
  get := view_get on
  found _ _ held := view_found on held
  opened _ := view_opened on
  built _ nothing _ _ := view_built on sound nothing
  late _ nothing _ _ := view_late on sound nothing
  clear := rfl

/-- what another key has after a build it had when the builder ended -/
theorem Acts.find?_of_ne {other : String} (acts : cache.Acts busy)
    (missing : cache.find? key = none)
    (calls : Run (cache.busyFor key busy) (cache.opened key) inside (build (cache.opened key)).2)
    (differs : other ≠ key) :
    (cache.getOrBuild key build).2.find? other = (build (cache.opened key)).2.find? other := by
  show (cache.getOrBuild key build).2.view.held other = (build (cache.opened key)).2.view.held other
  by_cases cleared : .cleared ∈ inside
  · simp [acts.late key missing build inside calls cleared]
  · rw [acts.built key missing build inside calls cleared, View.held_filled _ differs]

theorem find?_ended (on : cache.config.enabled = true) (sound : Sound busy cache)
    (missing : cache.find? key = none)
    (calls : Run (cache.busyFor key busy) (cache.opened key) inside (build (cache.opened key)).2)
    {other : String} {built : Built α}
    (held : (build (cache.opened key)).2.find? other = some built) :
    (cache.getOrBuild key build).2.find? other = some built := by
  have left := calls.sound (config_opened on missing ▸ on) (sound.opened on missing)
  rw [getOrBuild_of_missing on missing]
  refine buildWith_induction (P := fun next => next.find? other = _) held fun value => ?_
  exact Keeps.find? ((left.number value).keeps_fill key _) held

theorem find?_stored (on : cache.config.enabled = true) (sound : Sound busy cache)
    (missing : cache.find? key = none)
    (slot : (cache.slots.lookup key).isSome ∨ cache.slots.length < cache.config.maxEntries)
    (calls : Run (cache.busyFor key busy) (cache.opened key) inside (build (cache.opened key)).2)
    (uncleared : .cleared ∉ inside) {value : α}
    (made : (build (cache.opened key)).1 = .ok (some value)) :
    (cache.getOrBuild key build).2.find? key =
      some ⟨(build (cache.opened key)).2.builtCount, value⟩ := by
  have slotted : (build (cache.opened key)).2.view.slotted key = true := by
    have number := calls.number_slot on sound missing uncleared
    rw [slotted_view, ← Option.isSome_map, number, Option.isSome_map]
    exact (isSome_opened on missing).2 slot
  show (cache.getOrBuild key build).2.view.held key = _
  rw [view_built on sound missing calls uncleared, made]
  exact View.held_filled_self slotted value

end Building

/-- **Calls on a cache are calls on the map that it is.** -/
theorem Run.refines {events : List (Event α)} (run : Run busy start events cache)
    (on : start.config.enabled = true) (sound : Sound busy start) :
    View.Run start.view events cache.view := by
  induction run with
  | start => exact .start _
  | @get busy start cache events key before free ih =>
    rw [view_get (before.config on ▸ on)]
    exact (ih on sound).asked key
  | @found busy start cache events key held before free found build ih =>
    rw [view_found (before.config on ▸ on) found]
    exact found ▸ (ih on sound).asked key
  | @built busy start cache events inside key build before free missing calls ih insideIh =>
    have view := ih on sound
    have sound := before.sound on sound
    have on := before.config on ▸ on
    have acts := acts on sound
    -- the calls of the builder are calls on a map in which its key has a slot
    have inner := insideIh (config_opened on missing ▸ on) (sound.opened on missing)
    rw [acts.opened key missing] at inner
    by_cases cleared : .cleared ∈ inside
    · rw [acts.late key missing build inside calls cleared]
      exact view.late missing inner cleared _
    · rw [acts.built key missing build inside calls cleared]
      exact view.built missing inner cleared _
  | clear before ih => exact (ih on sound).clear

/-! ## the map -/

theorem Sound.lookup_of_mem (sound : Sound busy cache) {pair : String × CacheSlot α}
    (mem : pair ∈ cache.slots) : cache.slots.lookup pair.1 = some pair.2 := by
  cases there : cache.slots.lookup pair.1 with
  | none => exact absurd (List.mem_map_of_mem mem) (notMem_keys_of_lookup there)
  | some place => rw [List.inj_on_of_nodup_map sound.keys mem (mem_of_lookup there) rfl]

theorem Sound.mem_keys (sound : Sound busy cache) : key ∈
    (cache.slots.filter (·.2.content.isSome)).map (·.1) ↔ (cache.find? key).isSome := by
  unfold find?
  constructor
  · intro mem
    obtain ⟨pair, kept, rfl⟩ := List.mem_map.1 mem
    obtain ⟨there, full⟩ := List.mem_filter.1 kept
    rw [sound.lookup_of_mem there]
    exact full
  · intro held
    obtain ⟨built, held⟩ := Option.isSome_iff_exists.1 held
    obtain ⟨place, there, content⟩ := Option.bind_eq_some_iff.1 held
    have full : place.content.isSome := Option.isSome_of_eq_some content
    exact List.mem_map.2 ⟨(key, place), List.mem_filter.2 ⟨mem_of_lookup there, full⟩, rfl⟩

/-- the count of entries is the number of keys that have something -/
theorem Sound.encard (sound : Sound busy cache) :
    {key | (cache.find? key).isSome}.encard = cache.stats.entries := by
  let keys := (cache.slots.filter (·.2.content.isSome)).map (·.1)
  have nodup : keys.Nodup := sound.keys.sublist (List.filter_sublist.map _)
  have same : {key | (cache.find? key).isSome} = (keys.toFinset : Set String) := by
    ext key
    rw [Finset.mem_coe, List.mem_toFinset]
    exact sound.mem_keys.symm
  rw [same, Set.encard_coe_eq_coe_finsetCard, List.toFinset_card_of_nodup nodup, List.length_map,
    ← List.countP_eq_length_filter, sound.entries]

theorem Sound.entries_le (sound : Sound busy cache) :
    cache.stats.entries ≤ cache.config.maxEntries := by
  rw [sound.entries]
  exact List.countP_le_length.trans sound.room

/-- a time at which some calls on a new cache are over and others wait for their builders: the slots
that are being filled, what calls began, and the cache -/
inductive Reached (config : CacheConfig) : List Nat → List (Event α) → Cache α → Prop where
  | fresh : Reached config [] [] { config }
  | calls {busy : List Nat} {before events : List (Event α)} {start cache : Cache α}
    (reached : Reached config busy before start) (run : Run busy start events cache) :
    Reached config busy (before ++ events) cache
  /-- the beginning of a builder for a key that has nothing -/
  | inside {busy : List Nat} {events : List (Event α)} {cache : Cache α} {key : String}
    (reached : Reached config busy events cache) (free : cache.Free busy key)
    (missing : cache.find? key = none) :
    Reached config (cache.busyFor key busy) (events ++ [.asked key none]) (cache.opened key)

/-- the cache is a map from keys to what was built for them, for so many keys at most, that keeps
what it has until it is cleared, and its counts are right; what each operation does to the map, and
so what calls do, is said by equations, so that it holds nothing else either -/
structure IsMap (busy : List Nat) (events : List (Event α)) (cache : Cache α) : Prop where
  entries : {key | (cache.find? key).isSome}.encard = cache.stats.entries
  room : cache.stats.entries ≤ cache.config.maxEntries
  counts : Counts events {} cache.stats
  get (key : String) : (cache.get key).1 = cache.find? key
  /-- what a key has is what comes of a build for it, and no builder has a say -/
  found (key : String) (built : Built α) (held : cache.find? key = some built)
    (build : Builder α) : cache.getOrBuild key build = (.ok (some built), cache.record true)
  /-- for a key that has nothing the builder runs, and what it gives is what comes of the build -/
  missing (key : String) (nothing : cache.find? key = none) (build : Builder α) :
    (cache.getOrBuild key build).1 = (build (cache.opened key)).1.map
      (Option.map (Built.mk (build (cache.opened key)).2.builtCount))
  /-- and it finds for each key what the cache had -/
  begun (key : String) (nothing : cache.find? key = none) (other : String) :
    (cache.opened key).find? other = cache.find? other
  /-- what a key has when a builder ends it has when the build is over -/
  ended (key : String) (free : cache.Free busy key) (nothing : cache.find? key = none)
    (build : Builder α) (inside : List (Event α))
    (calls : Run (cache.busyFor key busy) (cache.opened key) inside (build (cache.opened key)).2)
    (other : String) (built : Built α)
    (held : (build (cache.opened key)).2.find? other = some built) :
    (cache.getOrBuild key build).2.find? other = some built
  /-- what was built is had from then on, if there was a slot for it and nobody cleared it away -/
  stored (key : String) (nothing : cache.find? key = none)
    (slot : (cache.slots.lookup key).isSome ∨ cache.slots.length < cache.config.maxEntries)
    (build : Builder α) (inside : List (Event α))
    (calls : Run (cache.busyFor key busy) (cache.opened key) inside (build (cache.opened key)).2)
    (uncleared : .cleared ∉ inside) (value : α)
    (made : (build (cache.opened key)).1 = .ok (some value)) :
    (cache.getOrBuild key build).2.find? key =
      some ⟨(build (cache.opened key)).2.builtCount, value⟩
  kept (later : List (Event α)) (next : Cache α) (calls : Run busy cache later next)
    (uncleared : .cleared ∉ later) (key : String) (built : Built α)
    (held : cache.find? key = some built) : next.find? key = some built
  /-- after a look-up each key has what it had -/
  looked (key other : String) : (cache.get key).2.find? other = cache.find? other
  /-- after a build each other key has what it had when the builder ended -/
  others (key : String) (nothing : cache.find? key = none) (build : Builder α)
    (inside : List (Event α))
    (calls : Run (cache.busyFor key busy) (cache.opened key) inside (build (cache.opened key)).2)
    (other : String) (differs : other ≠ key) :
    (cache.getOrBuild key build).2.find? other = (build (cache.opened key)).2.find? other
  /-- and if it comes to nothing the cache is just as its builder left it -/
  failed (key : String) (nothing : cache.find? key = none) (build : Builder α)
    (fails : ∀ value, (build (cache.opened key)).1 ≠ .ok (some value)) :
    (cache.getOrBuild key build).2 = (build (cache.opened key)).2
  /-- after a clearing no key has anything -/
  cleared (key : String) : cache.clear.find? key = none
  acts : cache.Acts busy
  refines (later : List (Event α)) (next : Cache α) (calls : Run busy cache later next) :
    View.Run cache.view later next.view

namespace Reached

variable {config : CacheConfig} {events : List (Event α)}

theorem sound (reached : Reached config busy events cache) (on : config.enabled = true) :
    cache.config = config ∧ Sound busy cache ∧ Counts events {} cache.stats := by
  induction reached with
  | fresh => exact ⟨rfl, .fresh config, rfl, rfl⟩
  | calls reached run ih =>
    obtain ⟨same, sound, counts⟩ := ih
    have on := same ▸ on
    exact ⟨(run.config on).trans same, run.sound on sound, counts.append (run.counts on)⟩
  | inside reached free missing ih =>
    obtain ⟨same, sound, counts⟩ := ih
    have on := same ▸ on
    refine ⟨(config_opened on missing).trans same, sound.opened on missing, ?_⟩
    rw [stats_opened on missing]
    exact counts.append (.asked _ _ _)

theorem isMap_of_enabled (reached : Reached config busy events cache)
    (on : config.enabled = true) : cache.IsMap busy events := by
  obtain ⟨rfl, sound, counts⟩ := reached.sound on
  have acts := Cache.acts on sound
  exact {
    entries := sound.encard
    room := sound.entries_le
    counts
    get := get_of_enabled on
    found := fun key built held build => getOrBuild_of_found on held build
    missing := fun key nothing build => by
      rw [getOrBuild_of_missing on nothing]
      exact fst_buildWith _ _ _
    begun := fun key => find?_opened on
    ended := fun key _ nothing build _ calls _ _ => find?_ended on sound nothing calls
    stored := fun key nothing slot build _ calls uncleared _ =>
      find?_stored on sound nothing slot calls uncleared
    kept := fun later next calls uncleared key built held =>
      (calls.keeps on sound uncleared).find? held
    looked := fun key => congrFun (congrArg View.held (acts.get key))
    others := fun key nothing build _ calls other differs => acts.find?_of_ne nothing calls differs
    failed := fun key nothing build fails => by
      rw [getOrBuild_of_missing on nothing, snd_buildWith_of_nothing fails]
    cleared := congrFun (congrArg View.held acts.clear)
    acts
    refines := fun later next calls => calls.refines on sound }

theorem isIdle (reached : Reached config busy events cache) (off : ¬config.enabled = true) :
    cache.Idle := by
  induction reached with
  | fresh => exact ⟨off, rfl, rfl⟩
  | calls reached run ih => exact run.isIdle ih
  | inside reached free missing ih =>
    rw [opened_of_disabled ih.off]
    exact ih

/-- **A cache that is switched on is a map at all times, and one that is switched off holds
nothing.** -/
theorem boundedMap (reached : Reached config busy events cache) :
    (config.enabled = true → cache.config = config ∧ cache.IsMap busy events) ∧
      (¬config.enabled = true → cache.slots = [] ∧ cache.stats.entries = 0 ∧
        ∀ key, (cache.get key).1 = none) := by
  refine ⟨fun on => ⟨(reached.sound on).1, reached.isMap_of_enabled on⟩, fun off => ?_⟩
  have idle := reached.isIdle off
  exact ⟨idle.slots, congrArg (·.entries) idle.stats, get_of_disabled idle.off⟩

/-- makes a seven, and on the way an eight for another key -/
def seven : Builder Nat := fun cache =>
  (.ok (some 7), (cache.getOrBuild "b" fun cache => (.ok (some 8), cache)).2)

/-- with room for one, the eight is not kept -/
theorem boundedMap_seven :
    let cache := (({ config := { maxEntries := 1 } } : Cache Nat).getOrBuild "a" seven).2
    cache.IsMap [] [.asked "a" none, .asked "b" none] ∧
      cache.find? "a" = some ⟨1, 7⟩ ∧ cache.find? "b" = none ∧ cache.clear.find? "a" = none := by
  let start : Cache Nat := { config := { maxEntries := 1 } }
  have inside : Run (start.busyFor "a" []) (start.opened "a") [.asked "b" none]
      (seven (start.opened "a")).2 :=
    .built (.start _ _) (fun _ there => nomatch there) rfl (.start _ _)
  have outside : Run [] start [.asked "a" none, .asked "b" none] (start.getOrBuild "a" seven).2 :=
    .built (.start _ _) (fun _ there => nomatch there) rfl inside
  have isMap := ((boundedMap (.calls .fresh outside)).1 rfl).2
  exact ⟨isMap, rfl, rfl, isMap.cleared "a"⟩

end Reached

end Baskets.Cache

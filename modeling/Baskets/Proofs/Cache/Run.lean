import Baskets.Proofs.Cache.Sound

/-!
# Calls on a cache, one after the other and one inside the other

A builder may use the cache for which it builds.  So the calls on a cache are a tree: `Cache.Run`
says which caches come of them, and in which order the calls began.  No call may wait for a builder
around it, that is, ask for the key of a slot that is being filled.

A run keeps `Cache.Sound`, counts its calls (`Run.counts`), without a clearing keeps what was there
(`Run.keeps`), and after a clearing has none of the old slots left (`Run.renews`).
-/

namespace Baskets.Cache

variable {α : Type} {start cache : Cache α} {key : String} {busy : List Nat}

/-! ## runs -/

/-- the beginning of a call -/
inductive Event (α : Type) where
  /-- a key was asked for, with or without a builder, and the cache held this for it -/
  | asked (key : String) (held : Option (Built α))
  | cleared

namespace Event

def isAsked : Event α → Bool
  | asked .. => true
  | cleared => false

/-- something was asked for that the cache held -/
def isHit : Event α → Bool
  | asked _ held => held.isSome
  | cleared => false

end Event

/-- calls on one cache that lead to another, while some slots are being filled around them -/
inductive Run : List Nat → Cache α → List (Event α) → Cache α → Prop where
  | start (busy : List Nat) (cache : Cache α) : Run busy cache [] cache
  | get {busy : List Nat} {start cache : Cache α} {events : List (Event α)} {key : String}
    (before : Run busy start events cache) (free : cache.Free busy key) :
    Run busy start (events ++ [.asked key (cache.find? key)]) (cache.get key).2
  /-- a build for a key that has something -/
  | found {busy : List Nat} {start cache : Cache α} {events : List (Event α)} {key : String}
    {held : Built α} (before : Run busy start events cache) (free : cache.Free busy key)
    (found : cache.find? key = some held) (build : Builder α) :
    Run busy start (events ++ [.asked key (some held)]) (cache.getOrBuild key build).2
  /-- a build for a key that has nothing, with the calls that its builder makes -/
  | built {busy : List Nat} {start cache : Cache α} {events inside : List (Event α)} {key : String}
    {build : Builder α} (before : Run busy start events cache) (free : cache.Free busy key)
    (missing : cache.find? key = none)
    (calls : Run (cache.busyFor key busy) (cache.opened key) inside (build (cache.opened key)).2) :
    Run busy start (events ++ .asked key none :: inside) (cache.getOrBuild key build).2
  | clear {busy : List Nat} {start cache : Cache α} {events : List (Event α)}
    (before : Run busy start events cache) : Run busy start (events ++ [.cleared]) cache.clear

/-! ## what a run does -/

/-- the calls that began were counted, each once, and as hits those that were answered by something
held -/
structure Counts (events : List (Event α)) (before after : CacheStats) : Prop where
  calls : after.hits + after.misses =
    before.hits + before.misses + events.countP Event.isAsked
  hits : after.hits = before.hits + events.countP Event.isHit

namespace Counts

variable {events more : List (Event α)} {before between after : CacheStats}

theorem append (first : Counts events before between) (second : Counts more between after) :
    Counts (events ++ more) before after where
  calls := by rw [List.countP_append, second.calls, first.calls, Nat.add_assoc]
  hits := by rw [List.countP_append, second.hits, first.hits, Nat.add_assoc]

theorem asked (key : String) (held : Option (Built α)) (stats : CacheStats) :
    Counts [.asked key held] stats (stats.record held.isSome) := by
  cases held with
  | none => exact ⟨rfl, rfl⟩
  | some built => exact ⟨Nat.add_right_comm .., rfl⟩

theorem fill (left : Cache α) (counts : Counts events before left.stats)
    (slot : Option (CacheSlot α)) (key : String) (built : Built α) :
    Counts events before (fill slot key built left).stats := by
  cases slot with
  | none => exact counts
  | some place =>
    show Counts events before (left.store key place.number built).stats
    rcases left.store_cases key place.number built with same | ⟨filled, -, -, same⟩
    · rw [same]
      exact counts
    · rw [same]
      exact ⟨counts.calls, counts.hits⟩

end Counts

namespace Run

variable {events : List (Event α)}

theorem config (run : Run busy start events cache) (on : start.config.enabled = true) :
    cache.config = start.config := by
  induction run with
  | start => rfl
  | get before free ih =>
    rw [get_snd (ih on ▸ on)]
    exact ih on
  | found before free found build ih =>
    rw [getOrBuild_of_found (ih on ▸ on) found]
    exact ih on
  | built before free missing calls ih insideIh =>
    have on' := ih on ▸ on
    have same := config_opened on' missing
    have left := (insideIh (same ▸ on')).trans (same.trans (ih on))
    rw [getOrBuild_of_missing on' missing]
    refine buildWith_induction (P := fun next => next.config = _) left fun value => ?_
    exact (config_fill _ _ _ _).trans left
  | clear before ih => exact ih on

theorem sound (run : Run busy start events cache) (on : start.config.enabled = true)
    (sound : Sound busy start) : Sound busy cache := by
  induction run with
  | start => exact sound
  | @get busy start cache events key before free ih =>
    rw [get_snd (before.config on ▸ on)]
    exact (ih on sound).record _
  | found before free found build ih =>
    rw [getOrBuild_of_found (before.config on ▸ on) found]
    exact (ih on sound).record true
  | @built busy start cache events inside key build before free missing calls ih insideIh =>
    have sound := ih on sound
    have on := before.config on ▸ on
    -- the calls of the builder leave its own slot alone, and only then is it no longer busy
    have left := insideIh (config_opened on missing ▸ on) (sound.opened on missing)
    rw [getOrBuild_of_missing on missing]
    refine buildWith_induction (left.mono (List.subset_append_right _ _)) fun value => ?_
    exact (left.number value).fill (free.opened sound on missing) key _
  | clear before ih => exact (ih on sound).clear

theorem counts (run : Run busy start events cache) (on : start.config.enabled = true) :
    Counts events start.stats cache.stats := by
  induction run with
  | start => exact ⟨rfl, rfl⟩
  | get before free ih =>
    rw [get_snd (before.config on ▸ on)]
    exact (ih on).append (.asked _ _ _)
  | found before free found build ih =>
    rw [getOrBuild_of_found (before.config on ▸ on) found]
    exact (ih on).append (.asked _ _ _)
  | @built busy start cache events inside key build before free missing calls ih insideIh =>
    have counts := ih on
    have on := before.config on ▸ on
    have countsInside := insideIh (config_opened on missing ▸ on)
    rw [stats_opened on missing] at countsInside
    have left := counts.append ((Counts.asked key none _).append countsInside)
    rw [getOrBuild_of_missing on missing]
    refine buildWith_induction (P := fun next => Counts _ _ next.stats) left fun value => ?_
    exact Counts.fill ((build (cache.opened key)).2.number value).2 left _ key _
  | clear before ih => exact (ih on).append ⟨rfl, rfl⟩

theorem keeps (run : Run busy start events cache) (on : start.config.enabled = true)
    (sound : Sound busy start) (uncleared : .cleared ∉ events) : start.Keeps cache := by
  induction run with
  | start => exact .of_slots rfl
  | @get busy start cache events key before free ih =>
    rw [get_snd (before.config on ▸ on)]
    exact (ih on sound fun mem => uncleared (List.mem_append_left _ mem)).trans (.of_slots rfl)
  | found before free found build ih =>
    rw [getOrBuild_of_found (before.config on ▸ on) found]
    exact (ih on sound fun mem => uncleared (List.mem_append_left _ mem)).trans (.of_slots rfl)
  | @built busy start cache events inside key build before free missing calls ih insideIh =>
    have keeps := ih on sound fun mem => uncleared (List.mem_append_left _ mem)
    have sound := before.sound on sound
    have on := before.config on ▸ on
    have onInside := config_opened on missing ▸ on
    have soundInside := sound.opened on missing
    have left := insideIh onInside soundInside fun mem =>
      uncleared (List.mem_append_right _ (List.mem_cons_of_mem _ mem))
    refine (keeps.trans (.opened on missing)).trans (left.trans ?_)
    rw [getOrBuild_of_missing on missing]
    -- what the builder had put into other slots stays, since its own slot is still empty
    have sound := calls.sound onInside soundInside
    refine buildWith_induction (.of_slots rfl) fun value => ?_
    exact (sound.number value).keeps_fill key _
  | clear before ih => exact absurd (List.mem_append_right _ List.mem_cons_self) uncleared

end Run

/-! ## slots of before -/

/-- a slot with an old number was there before, and nothing was cleared since -/
structure Renews (events : List (Event α)) (cache next : Cache α) : Prop where
  slotCount : cache.slotCount ≤ next.slotCount
  old : ∀ pair ∈ next.slots, pair.2.number < cache.slotCount →
    .cleared ∉ events ∧ pair.2.number ∈ cache.slots.map (·.2.number)

namespace Renews

variable {events more : List (Event α)} {next last : Cache α}

theorem of_slots (slots : next.slots = cache.slots) (slotCount : next.slotCount = cache.slotCount)
    (uncleared : .cleared ∉ events) : Renews events cache next where
  slotCount := Nat.le_of_eq slotCount.symm
  old _ mem _ := ⟨uncleared, List.mem_map_of_mem (slots ▸ mem)⟩

theorem trans (first : Renews events cache next) (second : Renews more next last) :
    Renews (events ++ more) cache last where
  slotCount := Nat.le_trans first.slotCount second.slotCount
  old pair mem less := by
    obtain ⟨uncleared, there⟩ := second.old pair mem (Nat.lt_of_lt_of_le less first.slotCount)
    obtain ⟨old, mem, same⟩ := List.mem_map.1 there
    rw [← same] at less ⊢
    obtain ⟨unclearedBefore, there⟩ := first.old old mem less
    exact ⟨fun mem => (List.mem_append.1 mem).elim unclearedBefore uncleared, there⟩

theorem opened (on : cache.config.enabled = true) (missing : cache.find? key = none) :
    Renews [.asked key none] cache (cache.opened key) := by
  rw [opened_of_missing on missing]
  have uncleared : Event.cleared ∉ [.asked key (none : Option (Built α))] := by simp
  cases there : cache.slots.lookup key with
  | some place =>
    rw [slot_of_lookup there]
    exact of_slots rfl rfl uncleared
  | none =>
    by_cases room : cache.slots.length < cache.config.maxEntries
    · rw [slot_of_room there room]
      refine ⟨Nat.le_succ _, List.forall_mem_append.2 ⟨fun pair mem _ => ?_, ?_⟩⟩
      · exact ⟨uncleared, List.mem_map_of_mem mem⟩
      · exact List.forall_mem_singleton.2 fun less => absurd less (Nat.lt_irrefl _)
    · rw [slot_of_full there room]
      exact of_slots rfl rfl uncleared

theorem fill (left : Cache α) (renews : Renews events cache left) (slot : Option (CacheSlot α))
    (key : String) (built : Built α) : Renews events cache (fill slot key built left) := by
  cases slot with
  | none => exact renews
  | some place =>
    show Renews events cache (left.store key place.number built)
    rcases left.store_cases key place.number built with same | ⟨filled, -, -, same⟩
    · rw [same]
      exact renews
    · rw [same]
      refine ⟨renews.slotCount, List.forall_mem_map.2 fun pair mem => ?_⟩
      simpa using renews.old pair mem

end Renews

theorem Run.renews {events : List (Event α)} (run : Run busy start events cache)
    (on : start.config.enabled = true) : Renews events start cache := by
  induction run with
  | start => exact .of_slots rfl rfl List.not_mem_nil
  | get before free ih =>
    rw [get_snd (before.config on ▸ on)]
    exact (ih on).trans (.of_slots rfl rfl (by simp))
  | found before free found build ih =>
    rw [getOrBuild_of_found (before.config on ▸ on) found]
    exact (ih on).trans (.of_slots rfl rfl (by simp))
  | @built busy start cache events inside key build before free missing calls ih insideIh =>
    have renews := ih on
    have on := before.config on ▸ on
    have left := renews.trans ((Renews.opened on missing).trans
      (insideIh (config_opened on missing ▸ on)))
    rw [getOrBuild_of_missing on missing]
    refine buildWith_induction left fun value => ?_
    let numbered := ((build (cache.opened key)).2.number value).2
    exact Renews.fill numbered ⟨left.slotCount, left.old⟩ _ key _
  | clear before ih => exact (ih on).trans ⟨Nat.le_refl _, nofun⟩

/-! ## a cache that is switched off -/

/-- it holds nothing and counts nothing -/
structure Idle (cache : Cache α) : Prop where
  off : ¬cache.config.enabled = true
  slots : cache.slots = []
  stats : cache.stats = {}

theorem opened_of_disabled (off : ¬cache.config.enabled = true) : cache.opened key = cache := by
  unfold opened getOrBuild
  rw [if_neg off]
  rfl

theorem Run.isIdle {events : List (Event α)} (run : Run busy start events cache)
    (idle : start.Idle) : cache.Idle := by
  induction run with
  | start => exact idle
  | get before free ih =>
    unfold Cache.get
    rw [if_neg (ih idle).off]
    exact ih idle
  | found before free found build ih =>
    unfold find? at found
    rw [(ih idle).slots] at found
    cases found
  | built before free missing calls ih insideIh =>
    have idle := ih idle
    rw [opened_of_disabled idle.off] at insideIh
    have left := insideIh idle
    rw [getOrBuild_of_disabled idle.off, opened_of_disabled idle.off]
    exact buildWith_induction left fun value => ⟨left.off, left.slots, left.stats⟩
  | clear before ih =>
    have idle := ih idle
    exact ⟨idle.off, rfl, congrArg (fun stats => { stats with entries := 0 }) idle.stats⟩

end Baskets.Cache

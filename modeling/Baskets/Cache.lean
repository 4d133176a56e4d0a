import Baskets.Context
import Baskets.Fault

/-!
# Keeping what was built

A `Cache` keeps what was built for a key.  A key gets a slot when something is first built for it,
as long as there are slots to be had; a build that comes to nothing leaves its slot empty.  When
there is no slot the thing is built all the same and not kept.

Slots and built things have numbers, because they may be told apart although they are equal: what
was built twice for one key is two things, and a slot that was cleared away while its thing was
being built does not come back.
-/

namespace Baskets

/-- something that was built, with its number among all that a cache had built -/
structure Built (α : Type) where
  number : Nat
  value : α
deriving BEq, Repr

/-- the place of a key -/
structure CacheSlot (α : Type) where
  number : Nat
  content : Option (Built α) := none
deriving BEq, Repr

structure CacheStats where
  /-- how many slots hold something -/
  entries : Nat := 0
  hits : Nat := 0
  misses : Nat := 0
deriving DecidableEq, Repr

namespace CacheStats

/-- the share of hits -/
def hitRate (stats : CacheStats) : Float :=
  if stats.hits + stats.misses = 0 then 0
  else stats.hits.toFloat / (stats.hits + stats.misses).toFloat

def record (stats : CacheStats) (hit : Bool) : CacheStats :=
  if hit then { stats with hits := stats.hits + 1 } else { stats with misses := stats.misses + 1 }

end CacheStats

structure Cache (α : Type) where
  config : CacheConfig := {}
  slots : List (String × CacheSlot α) := []
  stats : CacheStats := {}
  /-- how many slots there were so far -/
  slotCount : Nat := 0
  /-- how many things were built so far -/
  builtCount : Nat := 0
deriving BEq, Repr

namespace Cache

variable {α : Type} (cache : Cache α)

/-- what is kept for a key -/
def find? (key : String) : Option (Built α) := (cache.slots.lookup key).bind (·.content)

def record (hit : Bool) : Cache α := { cache with stats := cache.stats.record hit }

/-- looks up a key, and counts it -/
def get (key : String) : Option (Built α) × Cache α :=
  if cache.config.enabled then
    let found := cache.find? key
    (found, cache.record found.isSome)
  else (none, cache)

/-- gives a number to what was built -/
def number (value : α) : Built α × Cache α :=
  ({ number := cache.builtCount, value }, { cache with builtCount := cache.builtCount + 1 })

/-- puts what was built into its slot, if the slot is still there -/
def store (key : String) (slot : Nat) (built : Built α) : Cache α :=
  if (cache.slots.lookup key).any fun s => s.number = slot then
    { cache with
      slots := cache.slots.map fun (k, s) =>
        (k, if k = key then { s with content := some built } else s)
      stats := { cache.stats with entries := cache.stats.entries + 1 } }
  else cache

/-- the slot of a key, a new one if there may be one -/
def slot (key : String) : Option (CacheSlot α) × Cache α :=
  match cache.slots.lookup key with
  | some slot => (some slot, cache)
  | none =>
    if cache.slots.length < cache.config.maxEntries then
      let slot : CacheSlot α := { number := cache.slotCount }
      (some slot, { cache with
        slots := cache.slots ++ [(key, slot)]
        slotCount := cache.slotCount + 1 })
    else (none, cache)

/-- a way to build something, which may itself use the cache -/
abbrev Builder (α : Type) := Cache α → Except Fault (Option α) × Cache α

/-- builds something and numbers it; `keep` says what else is done with it -/
def buildWith (build : Builder α) (keep : Built α → Cache α → Cache α) :
    Except Fault (Option (Built α)) × Cache α :=
  match build cache with
  | (.ok (some value), cache) =>
    let (built, cache) := cache.number value
    (.ok (some built), keep built cache)
  | (.ok none, cache) => (.ok none, cache)
  | (.error fault, cache) => (.error fault, cache)

/-- what is kept for a key, or else what is built now -/
def getOrBuild (key : String) (build : Builder α) :
    Except Fault (Option (Built α)) × Cache α :=
  if cache.config.enabled then
    match cache.slot key with
    | (none, cache) => (cache.record false).buildWith build fun _ cache => cache
    | (some slot, cache) =>
      match slot.content with
      | some built => (.ok (some built), cache.record true)
      | none =>
        (cache.record false).buildWith build fun built cache => cache.store key slot.number built
  else cache.buildWith build fun _ cache => cache

/-- forgets everything but the counts of hits and misses -/
def clear : Cache α := { cache with slots := [], stats := { cache.stats with entries := 0 } }

end Cache

end Baskets

import Baskets.Proofs.Cache.Run
import Baskets.Proofs.Cache.View

/-!
# Builds that come to nothing

A build that comes to nothing is not kept, but the slot that was made for its key stays, and counts
where slots run out.  So such a build may leave no room for a later one.  Where it does not, nothing
else depends on it (`Cache.answers_without`): the calls after it are answered in the same way, and as
much is kept.  The calls here are made one after the other, and builders make none.

What the calls depend on is the `Cache.View` of a cache, which leaves out the counts of calls and the
numbers of slots.  With and without the build that came to nothing the views are the same but for an
empty slot (`View.spare`), until something is built for its key or all is cleared.
-/

namespace Baskets.Cache

variable {α : Type} {cache without : Cache α} {key : String} {result : Except Fault (Option α)}

/-! ## calls one after the other -/

/-- a call, with what its builder gives if it is run -/
inductive Call (α : Type) where
  | get (key : String)
  | build (key : String) (result : Except Fault (Option α))
  | clear

/-- what is seen of a call: whether its builder was run, and what came of it -/
structure Answer (α : Type) where
  ran : Bool
  result : Except Fault (Option (Built α))

/-- whether a build runs its builder, which shows if that one fails -/
def needs (cache : Cache α) (key : String) : Bool :=
  match (cache.getOrBuild key fun cache => (.error .io, cache)).1 with
  | .error _ => true
  | .ok _ => false

namespace Call

def answer (cache : Cache α) : Call α → Answer α
  | get key => ⟨false, .ok (cache.get key).1⟩
  | build key result =>
    ⟨cache.needs key, (cache.getOrBuild key fun cache => (result, cache)).1⟩
  | clear => ⟨false, .ok none⟩

def next (cache : Cache α) : Call α → Cache α
  | get key => (cache.get key).2
  | build key result => (cache.getOrBuild key fun cache => (result, cache)).2
  | clear => cache.clear

end Call

def answers (cache : Cache α) : List (Call α) → List (Answer α)
  | [] => []
  | call :: calls => call.answer cache :: (call.next cache).answers calls

def after (cache : Cache α) (calls : List (Call α)) : Cache α := calls.foldl Call.next cache

@[simp] theorem answers_append (cache : Cache α) (calls more : List (Call α)) :
    cache.answers (calls ++ more) = cache.answers calls ++ (cache.after calls).answers more := by
  induction calls generalizing cache with
  | nil => rfl
  | cons call calls ih => exact congrArg _ (ih _)

@[simp] theorem length_answers (cache : Cache α) (calls : List (Call α)) :
    (cache.answers calls).length = calls.length := by
  induction calls generalizing cache with
  | nil => rfl
  | cons call calls ih => exact congrArg _ (ih _)

@[simp] theorem after_append (cache : Cache α) (calls more : List (Call α)) :
    cache.after (calls ++ more) = (cache.after calls).after more := List.foldl_append

theorem needs_eq (cache : Cache α) (key : String) :
    cache.needs key = (cache.get key).1.isNone := by
  unfold needs
  rw [getOrBuild_fst_eq]
  cases (cache.get key).1 <;> rfl

/-! ## views -/

namespace View

def build (view : View α) (key : String) (result : Except Fault (Option α)) : View α :=
  match view.held key with
  | some _ => view
  | none => (view.slot key).filled key result

def next (view : View α) : Call α → View α
  | .get _ => view
  | .build key result => view.build key result
  | .clear => view.clear

end View

theorem view_build (on : cache.config.enabled = true) (key : String)
    (result : Except Fault (Option α)) :
    (cache.getOrBuild key fun cache => (result, cache)).2.view = cache.view.build key result := by
  unfold View.build
  show _ = match cache.find? key with | some _ => _ | none => _
  cases held : cache.find? key with
  | some built => exact view_found on held _
  | none =>
    rw [getOrBuild_of_missing on held, view_buildWith rfl, view_opened on held]

theorem view_next (on : cache.config.enabled = true) (call : Call α) :
    (call.next cache).view = cache.view.next call := by
  cases call with
  | get key => exact view_get on key
  | build key result => exact view_build on key result
  | clear => rfl

/-! ## an empty slot more -/

namespace View

variable {view : View α} {other : String}

/-- the key has no slot, though there is one to be had -/
structure Lacks (view : View α) (key : String) : Prop where
  slotted : view.slotted key = false
  held : view.held key = none
  room : view.size < view.config.maxEntries

theorem slot_spare_self (lacks : view.Lacks key) : (view.spare key).slot key = view.slot key := by
  unfold slot
  rw [if_pos (.inl (view.slotted_spare_self key)), if_neg]
  rw [lacks.slotted]
  exact not_or.2 ⟨Bool.false_ne_true, Nat.not_le.2 lacks.room⟩

theorem slot_spare (lacks : view.Lacks key) (differs : other ≠ key)
    (room : view.slotted other = true ∨ view.size + 1 < view.config.maxEntries) :
    (view.spare key).slot other = (view.slot other).spare key ∧ (view.slot other).Lacks key := by
  unfold slot
  rw [view.slotted_spare differs]
  by_cases there : view.slotted other = true
  · rw [if_pos (.inl there), if_pos (.inl there)]
    exact ⟨rfl, lacks⟩
  · have room : (view.spare key).size < (view.spare key).config.maxEntries :=
      room.resolve_left there
    rw [if_neg (not_or.2 ⟨there, Nat.not_le.2 room⟩),
      if_neg (not_or.2 ⟨there, Nat.not_le.2 lacks.room⟩)]
    constructor
    · unfold spare
      rw [Function.update_comm differs]
    · exact ⟨(view.slotted_spare differs.symm).trans lacks.slotted, lacks.held, room⟩

theorem put_spare (lacks : view.Lacks key) (differs : other ≠ key) (built : Built α) :
    (view.spare key).put other built = (view.put other built).spare key ∧
      (view.put other built).Lacks key := by
  unfold put
  rw [view.slotted_spare differs]
  split
  · refine ⟨rfl, lacks.slotted, ?_, lacks.room⟩
    exact (Function.update_of_ne differs.symm ..).trans lacks.held
  · exact ⟨rfl, lacks⟩

theorem filled_spare (lacks : view.Lacks key) (differs : other ≠ key)
    (result : Except Fault (Option α)) :
    (view.spare key).filled other result = (view.filled other result).spare key ∧
      (view.filled other result).Lacks key :=
  match result with
  | .error _ => ⟨rfl, lacks⟩
  | .ok none => ⟨rfl, lacks⟩
  | .ok (some value) =>
    have numbered : View.Lacks { view with builtCount := view.builtCount + 1 } key :=
      ⟨lacks.slotted, lacks.held, lacks.room⟩
    put_spare numbered differs ⟨view.builtCount, value⟩

/-- what is built for the key has the same slot, whether it was there before or not -/
theorem build_spare_self (lacks : view.Lacks key) (result : Except Fault (Option α)) :
    (view.spare key).build key result = view.build key result := by
  unfold build
  show (match view.held key with | some _ => _ | none => _) = _
  rw [lacks.held]
  dsimp only
  rw [slot_spare_self lacks]

theorem build_spare (lacks : view.Lacks key) (differs : other ≠ key)
    (room : view.slotted other = true ∨ view.size + 1 < view.config.maxEntries)
    (result : Except Fault (Option α)) :
    (view.spare key).build other result = (view.build other result).spare key ∧
      (view.build other result).Lacks key := by
  unfold build
  show (match view.held other with | some _ => _ | none => _) = _ ∧ _
  cases view.held other with
  | some built => exact ⟨rfl, lacks⟩
  | none =>
    obtain ⟨same, lacks⟩ := slot_spare lacks differs room
    dsimp only
    rw [same]
    exact filled_spare lacks differs result

end View

/-! ## with and without a build that comes to nothing -/

theorem config_next (on : cache.config.enabled = true) (call : Call α) :
    (call.next cache).config = cache.config := by
  have free (key : String) : cache.Free [] key := fun _ _ => List.not_mem_nil
  cases call with
  | get key => exact (Run.get (.start [] cache) (free key)).config on
  | build key result =>
    cases held : cache.find? key with
    | some built => exact (Run.found (.start [] cache) (free key) held _).config on
    | none =>
      let build : Builder α := fun cache => (result, cache)
      have inside : Run (cache.busyFor key []) (cache.opened key) [] (build (cache.opened key)).2 :=
        .start _ _
      exact (Run.built (.start [] cache) (free key) held inside).config on
  | clear => rfl

theorem config_after (on : cache.config.enabled = true) (calls : List (Call α)) :
    (cache.after calls).config = cache.config := by
  induction calls generalizing cache with
  | nil => rfl
  | cons call calls ih =>
    have same := config_next on call
    exact (ih (same.symm ▸ on)).trans same

theorem answer_congr (config : cache.config = without.config)
    (found : ∀ key, cache.find? key = without.find? key)
    (builtCount : cache.builtCount = without.builtCount) (call : Call α) :
    call.answer cache = call.answer without := by
  have get (key : String) := get_congr config (found key)
  cases call with
  | get key =>
    unfold Call.answer
    dsimp only
    rw [get]
  | build key result =>
    unfold Call.answer
    dsimp only
    rw [needs_eq, needs_eq, getOrBuild_fst_eq, getOrBuild_fst_eq, get, builtCount]
  | clear => rfl

/-- the calls are answered alike, and leave the same kept -/
structure Alike (calls : List (Call α)) (cache without : Cache α) : Prop where
  answers : cache.answers calls = without.answers calls
  find? (key : String) : (cache.after calls).find? key = (without.after calls).find? key
  entries : (cache.after calls).stats.entries = (without.after calls).stats.entries

theorem Alike.cons {call : Call α} {calls : List (Call α)}
    (answer : call.answer cache = call.answer without)
    (alike : Alike calls (call.next cache) (call.next without)) :
    Alike (call :: calls) cache without :=
  ⟨congrArg₂ List.cons answer alike.answers, alike.find?, alike.entries⟩

/-- the view of a cache is all that matters -/
theorem alike_of_view (on : cache.config.enabled = true) (same : cache.view = without.view)
    (calls : List (Call α)) : Alike calls cache without := by
  induction calls generalizing cache without with
  | nil => exact ⟨rfl, congrFun (congrArg View.held same), congrArg View.entries same⟩
  | cons call calls ih =>
    have config : cache.config = without.config := congrArg View.config same
    have next : (call.next cache).view = (call.next without).view := by
      rw [view_next on, view_next (config ▸ on), same]
    refine .cons (answer_congr config ?_ ?_ call) (ih ?_ next)
    · exact congrFun (congrArg View.held same)
    · exact congrArg View.builtCount same
    · exact (config_next on call).symm ▸ on

/-- until something is built for the key, or all is cleared, whatever is built for another key has
a slot -/
def Roomy (key : String) (cache : Cache α) : List (Call α) → Prop
  | [] => True
  | .clear :: _ => True
  | .get other :: calls => Roomy key (cache.get other).2 calls
  | .build other result :: calls => other = key ∨ (cache.slot other).1.isSome ∧
    Roomy key ((Call.build other result).next cache) calls

theorem alike_of_spare (on : cache.config.enabled = true)
    (same : cache.view = without.view.spare key) (lacks : without.view.Lacks key)
    (calls : List (Call α)) (roomy : cache.Roomy key calls) : Alike calls cache without := by
  induction calls generalizing cache without with
  | nil => exact ⟨rfl, congrFun (congrArg View.held same), congrArg View.entries same⟩
  | cons call calls ih =>
    have config : cache.config = without.config := congrArg View.config same
    have answer := answer_congr config (congrFun (congrArg View.held same))
      (congrArg View.builtCount same) call
    have next := view_next on call
    have nextWithout := view_next (config ▸ on) call
    have onNext := (config_next on call).symm ▸ on
    rw [same] at next
    cases call with
    | get other =>
      exact .cons answer (ih onNext (next.trans (nextWithout ▸ rfl)) (nextWithout ▸ lacks) roomy)
    | clear => exact .cons answer (alike_of_view onNext (next.trans nextWithout.symm) calls)
    | build other result =>
      by_cases here : other = key
      · -- the slot that was spare is now had without it too, and from here on nothing differs
        subst here
        have self := View.build_spare_self lacks result
        exact .cons answer (alike_of_view onNext (next.trans (self.trans nextWithout.symm)) calls)
      · obtain ⟨slot, roomy⟩ := roomy.resolve_left here
        -- what finds a slot beside the spare one finds it without that one
        have room : without.view.slotted other = true ∨
            without.view.size + 1 < without.view.config.maxEntries := by
          have room := (cache.isSome_slot other).1 slot
          have slotted := congrFun (congrArg View.slotted same) other
          have size : cache.slots.length = _ := congrArg View.size same
          rw [View.slotted_spare _ here] at slotted
          rw [← slotted]
          rw [config, size] at room
          exact room
        obtain ⟨spare, lacks⟩ := View.build_spare lacks here room result
        refine .cons answer (ih onNext (next.trans ?_) (nextWithout ▸ lacks) roomy)
        exact spare.trans (nextWithout ▸ rfl)

/-- a build that comes to nothing makes a slot at most -/
theorem view_failed (on : cache.config.enabled = true) (key : String)
    (fails : ∀ value, result ≠ .ok (some value)) :
    ((Call.build key result).next cache).view = cache.view ∨
      ((Call.build key result).next cache).view = cache.view.spare key ∧
        cache.view.Lacks key := by
  rw [view_next on]
  show View.build cache.view key result = _ ∨ View.build cache.view key result = _ ∧ _
  unfold View.build
  cases held : cache.view.held key with
  | some built => exact .inl rfl
  | none =>
    have unfilled (view : View α) : view.filled key result = view := by
      match result with
      | .error _ => rfl
      | .ok none => rfl
      | .ok (some value) => exact absurd rfl (fails value)
    dsimp only
    rw [unfilled]
    unfold View.slot
    split
    · exact .inl rfl
    · rename_i made
      obtain ⟨unslotted, room⟩ := not_or.1 made
      exact .inr ⟨rfl, eq_false_of_ne_true unslotted, held, Nat.lt_of_not_le room⟩

/-- **A build that comes to nothing changes nothing that is kept, and if it takes no slot that a
later one needs, the calls after it are answered as without it.** -/
theorem answers_without {config : CacheConfig} (on : config.enabled = true)
    (before behind : List (Call α)) (key : String) (fails : ∀ value, result ≠ .ok (some value)) :
    let start : Cache α := { config }
    let cache := start.after before
    let failed := (Call.build key result).next cache
    (∀ other, failed.find? other = cache.find? other) ∧
      failed.stats.entries = cache.stats.entries ∧
      ((cache.slots.lookup key).isSome ∨ config.maxEntries ≤ cache.slots.length ∨
          failed.Roomy key behind →
        (start.answers (before ++ .build key result :: behind)).eraseIdx before.length =
            start.answers (before ++ behind) ∧
          (start.after (before ++ .build key result :: behind)).stats.entries =
            (start.after (before ++ behind)).stats.entries) := by
  intro start cache failed
  have config : cache.config = config := config_after on before
  have enabled : cache.config.enabled = true := config.symm ▸ on
  have configFailed : failed.config = cache.config := config_next enabled _
  have enabledFailed : failed.config.enabled = true := configFailed.symm ▸ enabled
  have view := view_failed enabled key fails
  have held : failed.view.held = cache.view.held := by
    rcases view with same | ⟨same, -⟩
    · rw [same]
    · rw [same]
      rfl
  have entries : failed.view.entries = cache.view.entries := by
    rcases view with same | ⟨same, -⟩
    · rw [same]
    · rw [same]
      rfl
  refine ⟨congrFun held, entries, fun room => ?_⟩
  have alike : Alike behind failed cache := by
    rcases view with same | ⟨same, lacks⟩
    · exact alike_of_view enabledFailed same behind
    · refine alike_of_spare enabledFailed same lacks behind ?_
      rcases room with slot | full | roomy
      · exact absurd (slot.symm.trans lacks.slotted) nofun
      · rw [← config] at full
        exact absurd lacks.room (Nat.not_lt.2 full)
      · exact roomy
  constructor
  · rw [answers_append, answers_append, List.eraseIdx_append_of_length_le]
    · rw [length_answers, Nat.sub_self]
      exact congrArg _ alike.answers
    · exact Nat.le_of_eq (length_answers _ before)
  · rw [after_append, after_append]
    exact alike.entries

/-- with room for two nothing is lost -/
theorem answers_without_roomForTwo :
    let start : Cache Nat := { config := { maxEntries := 2 } }
    let failed : Call Nat := .build "a" (.ok none)
    let behind : List (Call Nat) := [.build "b" (.ok (some 7)), .get "b"]
    (start.answers (failed :: behind)).eraseIdx 0 = start.answers behind ∧
      (start.after (failed :: behind)).stats.entries = (start.after behind).stats.entries :=
  (answers_without rfl [] [.build "b" (.ok (some 7)), .get "b"] "a" nofun).2.2
    (.inr (.inr (.inr ⟨rfl, trivial⟩)))

/-- with room for one it is taken by what came to nothing -/
theorem answers_roomForOne :
    let start : Cache Nat := { config := { maxEntries := 1 } }
    let failed : Call Nat := .build "a" (.ok none)
    let behind : List (Call Nat) := [.build "b" (.ok (some 7)), .get "b"]
    (start.answers (failed :: behind)).eraseIdx 0 ≠ start.answers behind ∧
      (start.after (failed :: behind)).stats.entries = 0 ∧
      (start.after behind).stats.entries = 1 := by
  let found (answer : Answer Nat) : Bool := answer.result.toOption.join.isSome
  exact ⟨fun same => absurd (congrArg (List.map found) same) (by decide), rfl, rfl⟩

end Baskets.Cache

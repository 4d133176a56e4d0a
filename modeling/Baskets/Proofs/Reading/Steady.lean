import Baskets.Proofs.Generator.Lineage
import Baskets.Proofs.Reading.Run

/-!
# Reads that grow along a lineage

A reading is `Steady` below a host if, with any generator that obeys the lineage and is at this
host, it comes to one and the same result at one and the same place, and only develops the
generator.  It says as well which kinds a read shows that succeeds: all of them have come up
afterwards, unless the entry was found too empty to show everything.

The result does not depend on the generator, so the quantifier over generators stands inside.
Sequences are as for tidy readings: what stands between the step into a node and the step out of it
is `Returns`.
-/

namespace Baskets

namespace Reading

open Generator (SamePlace Entered Extends Keeps Develops)

variable {α β : Type} {lineage : Lineage} {host inner : NodeKind} {kinds more : List NodeKind}
  {g h k : Generator}

/-! ## endings -/

/-- if nothing was too empty, these kinds have come up, and nothing was too empty before -/
def Shown (kinds : List NodeKind) (g h : Generator) : Prop :=
  h.incomplete = false → g.incomplete = false ∧ ∀ kind ∈ kinds, h.Has kind

theorem Shown.trans (first : Shown kinds g h) (second : Shown more h k) (grown : Extends h k) :
    Shown (kinds ++ more) g k := by
  intro complete
  obtain ⟨before, later⟩ := second complete
  obtain ⟨start, earlier⟩ := first before
  refine ⟨start, fun kind mem => ?_⟩
  rcases List.mem_append.1 mem with mem | mem
  · exact (earlier kind mem).mono grown
  · exact later kind mem

theorem Shown.nothing (same : h.incomplete = g.incomplete) : Shown [] g h :=
  fun complete => ⟨same ▸ complete, fun _ mem => absurd mem List.not_mem_nil⟩

theorem Shown.single {kind : NodeKind} {id : Nat} (same : h.incomplete = g.incomplete)
    (found : h.Found kind id) : Shown [kind] g h := by
  refine fun complete => ⟨same ▸ complete, fun other mem => ?_⟩
  rw [List.mem_singleton.1 mem]
  exact ⟨id, found⟩

/-- what a reading with a result has made of the generator `g`, ending at the place of `outer` -/
structure Ending (lineage : Lineage) (kinds : List NodeKind) (outer g : Generator)
    (result : Except Fault α) (h : Generator) : Prop where
  develops : Develops lineage g h
  place : ∀ a, result = .ok a → SamePlace outer h
  shown : ∀ a, result = .ok a → Shown kinds g h

theorem Ending.done {outer : Generator} {a : α} (develops : Develops lineage g h)
    (place : SamePlace outer h) (shown : Shown kinds g h) :
    Ending lineage kinds outer g (.ok a : Except Fault α) h :=
  ⟨develops, fun _ _ => place, fun _ _ => shown⟩

theorem Ending.failed {outer : Generator} {fault : Fault} (develops : Develops lineage g h) :
    Ending lineage kinds outer g (.error fault : Except Fault α) h :=
  ⟨develops, nofun, nofun⟩

/-- what comes after something else, which need not have been at the same place -/
theorem Ending.from {outer start : Generator} {result : Except Fault β} (first : Develops lineage g h)
    (shown : Shown kinds g h) (place : SamePlace start outer)
    (second : Ending lineage more outer h result k) :
    Ending lineage (kinds ++ more) start g result k where
  develops := first.trans second.develops
  place := fun b ok => place.trans (second.place b ok)
  shown := fun b ok => shown.trans (second.shown b ok) second.develops.grown

/-- comes to one result at one place, whatever the generator, and develops it -/
def Steady {α : Type} (lineage : Lineage) (host : NodeKind) (kinds : List NodeKind)
    (r : Reading α) : Prop :=
  ∀ c : Cursor, ∃ (result : Except Fault α) (d : Cursor), ∀ g : Generator, g.Obeys lineage →
    g.At host → ∃ h, r.run { cursor := c, generator := some g } =
      (result, { cursor := d, generator := some h }) ∧ Ending lineage kinds g g result h

/-! ## steps into nodes -/

/-- entered from `g`, and now at an inner host -/
structure Inside (lineage : Lineage) (inner : NodeKind) (g h : Generator) : Prop where
  entered : Entered g h
  develops : Develops lineage g h
  active : h.At inner

/-- ends where a step in was taken, if it starts after that -/
def Returns {α : Type} (lineage : Lineage) (host inner : NodeKind) (kinds : List NodeKind)
    (r : Reading α) : Prop :=
  ∀ c : Cursor, ∃ (result : Except Fault α) (d : Cursor), ∀ g h : Generator, g.At host →
    Inside lineage inner g h → ∃ k, r.run { cursor := c, generator := some h } =
      (result, { cursor := d, generator := some k }) ∧ Ending lineage kinds g h result k

theorem Inside.keep (inside : Inside lineage inner g h) (place : SamePlace h k)
    (develops : Develops lineage h k) : Inside lineage inner g k where
  entered := place.saved.trans inside.entered
  develops := inside.develops.trans develops
  active := inside.active.keep ⟨place, develops.grown⟩

theorem inside_enter (info : NodeInfo) (obeys : g.Obeys lineage) (active : g.At host)
    (link : (host, info.kind) ∈ lineage.links) :
    Inside lineage info.kind g (g.enter info) ∧ Shown [info.kind] g (g.enter info) := by
  obtain ⟨added, found⟩ := obeys.add active link
  have pushed : Develops lineage (g.add (.mk info [])).2 (g.enter info) :=
    .of_slots_eq added.obeys rfl
  have there := found.mono pushed.grown
  exact ⟨⟨Generator.entered_enter g info, added.trans pushed, there⟩,
    .single (Generator.incomplete_enter g info) there⟩

theorem Inside.descend (info : NodeInfo) (inside : Inside lineage inner g h)
    (link : (inner, info.kind) ∈ lineage.links) :
    Inside lineage info.kind g (h.descend info) ∧ Shown [info.kind] h (h.descend info) := by
  obtain ⟨added, found⟩ := inside.develops.obeys.add inside.active link
  have activated : Develops lineage (h.add (.mk info [])).2 (h.descend info) :=
    .of_slots_eq added.obeys rfl
  have there := found.mono activated.grown
  exact ⟨⟨inside.entered.descend info, inside.develops.trans (added.trans activated), there⟩,
    .single (Generator.incomplete_descend h info) there⟩

/-- what is marked as too empty need not show anything -/
theorem Inside.markIncomplete (inside : Inside lineage inner g h) (kinds : List NodeKind) :
    Inside lineage inner g h.markIncomplete ∧ Shown kinds g h.markIncomplete := by
  refine ⟨inside.keep ⟨rfl, rfl⟩ (.of_slots_eq inside.develops.obeys rfl), fun complete => ?_⟩
  cases complete

/-! ## sequences -/

namespace Steady

theorem mono {r : Reading α} (steady : Steady lineage host kinds r) (sub : more ⊆ kinds) :
    Steady lineage host more r := by
  intro c
  obtain ⟨result, d, each⟩ := steady c
  refine ⟨result, d, fun g obeys active => ?_⟩
  obtain ⟨h, ran, ending⟩ := each g obeys active
  refine ⟨h, ran, ending.develops, ending.place, fun a ok complete => ?_⟩
  obtain ⟨before, all⟩ := ending.shown a ok complete
  exact ⟨before, fun kind mem => all kind (sub mem)⟩

theorem pure (a : α) : Steady lineage host [] (Pure.pure a : Reading α) :=
  fun c => ⟨.ok a, c, fun g obeys _ => ⟨g, rfl, .done (.refl obeys) (.refl g) (.nothing rfl)⟩⟩

theorem throw (fault : Fault) : Steady lineage host kinds (MonadExcept.throw fault : Reading α) :=
  fun c => ⟨.error fault, c, fun g obeys _ => ⟨g, rfl, .failed (.refl obeys)⟩⟩

theorem scan (s : Scan α) : Steady lineage host [] (Reading.scan s) := by
  intro c
  refine ⟨(s.run c).1, (s.run c).2, fun g obeys _ => ⟨g, run_scan s _, .refl obeys, ?_, ?_⟩⟩
  · exact fun _ _ => .refl g
  · exact fun _ _ => .nothing rfl

theorem measured (s : Scan α) : Steady lineage host [] (Reading.measured s) := .scan _

/-- nothing comes after a fault -/
theorem throw_bind {fault : Fault} {f : α → Reading β} :
    Steady lineage host kinds ((MonadExcept.throw fault : Reading α) >>= f) :=
  fun c => ⟨.error fault, c, fun g obeys _ => ⟨g, rfl, .failed (.refl obeys)⟩⟩

theorem generating : Steady lineage host [] Reading.generating :=
  fun c => ⟨.ok true, c, fun g obeys _ => ⟨g, rfl, .done (.refl obeys) (.refl g) (.nothing rfl)⟩⟩

/-- a sequence whose second part may depend on how the first came to its result -/
theorem bind_of {r : Reading α} {f : α → Reading β} (first : Steady lineage host kinds r)
    (rest : ∀ a, (∃ c g progress, r.run { cursor := c, generator := some g } = (.ok a, progress)) →
      Steady lineage host more (f a)) : Steady lineage host (kinds ++ more) (r >>= f) := by
  intro c
  obtain ⟨result, d, ends⟩ := first c
  cases result with
  | error fault =>
    refine ⟨.error fault, d, fun g obeys active => ?_⟩
    obtain ⟨h, ran, ending⟩ := ends g obeys active
    refine ⟨h, ?_, .failed ending.develops⟩
    simp [ran]
  | ok a =>
    by_cases some_ : ∃ g : Generator, g.Obeys lineage ∧ g.At host
    · have came : ∃ c g progress, r.run { cursor := c, generator := some g } = (.ok a, progress) := by
        obtain ⟨g, obeys, active⟩ := some_
        obtain ⟨h, ran, -⟩ := ends g obeys active
        exact ⟨c, g, _, ran⟩
      obtain ⟨last, e, endsLast⟩ := rest a came d
      refine ⟨last, e, fun g obeys active => ?_⟩
      obtain ⟨h, ran, ending⟩ := ends g obeys active
      have there := active.keep ⟨ending.place a rfl, ending.develops.grown⟩
      obtain ⟨k, ranLast, endingLast⟩ := endsLast h ending.develops.obeys there
      refine ⟨k, ?_, .from ending.develops (ending.shown a rfl) (ending.place a rfl) endingLast⟩
      simpa [ran] using ranLast
    · exact ⟨.error .emptyStack, d, fun g obeys active => absurd ⟨g, obeys, active⟩ some_⟩

theorem bind {r : Reading α} {f : α → Reading β} (first : Steady lineage host kinds r)
    (rest : ∀ a, Steady lineage host more (f a)) : Steady lineage host (kinds ++ more) (r >>= f) :=
  first.bind_of fun a _ => rest a

/-- a sequence that shows nothing in its first part -/
theorem before {r : Reading α} {f : α → Reading β} (first : Steady lineage host [] r)
    (rest : ∀ a, Steady lineage host kinds (f a)) : Steady lineage host kinds (r >>= f) :=
  first.bind rest

/-- a sequence that shows nothing in its second part -/
theorem after {r : Reading α} {f : α → Reading β} (first : Steady lineage host kinds r)
    (rest : ∀ a, Steady lineage host [] (f a)) : Steady lineage host kinds (r >>= f) :=
  (first.bind rest).mono (List.subset_append_left _ _)

/-- a node that belongs below the host -/
theorem add (info : NodeInfo) (link : (host, info.kind) ∈ lineage.links) :
    Steady lineage host [info.kind] (Reading.add info) := by
  intro c
  refine ⟨.ok (), c, fun g obeys active => ?_⟩
  obtain ⟨added, found⟩ := obeys.add active link
  exact ⟨(g.add (.mk info [])).2, run_contribute _ _,
    .done added (Generator.samePlace_add g _) (.single (Generator.incomplete_add g _) found)⟩

/-- a reading that is done at least once shows what it shows -/
theorem times {r : Reading α} (one : Steady lineage host kinds r) (count : Nat) :
    Steady lineage host (if count = 0 then [] else kinds) (Reading.times count r) := by
  induction count with
  | zero => exact .pure []
  | succ count ih => exact one.after fun _ => (ih.mono (List.nil_subset _)).before fun _ => .pure _

/-- **Loops come once.**  Below a host of two kinds there are two nodes when everything has come up,
and then no loop is put around either of them. -/
theorem looping {r : Reading α} {slot : Nat} (start : Instruction) {kind other : NodeKind}
    (first : (host, kind) ∈ lineage.links) (second : (host, other) ∈ lineage.links)
    (differ : kind ≠ other) (early : slot < 2) (within : Steady lineage host kinds r) :
    Steady lineage host kinds (Reading.looping slot start r) := by
  intro c
  obtain ⟨result, d, ends⟩ := within c
  refine ⟨result, d, fun g obeys active => ?_⟩
  obtain ⟨h, ran, ending⟩ := ends g obeys active
  simp only [Reading.looping, run_bind, run_get, carry_ok, ran]
  cases result with
  | error fault => exact ⟨h, rfl, ending⟩
  | ok a =>
    have place := ending.place a rfl
    dsimp only [carry, Option.map]
    by_cases new : (g.children g.active).length = slot
    · rw [if_pos new]
      have there := active.keep ⟨place, ending.develops.grown⟩
      have above : h.Reaches g.active := place.active ▸ there.reached
      have kept := Generator.keeps_loopChild g.active slot start h
      refine ⟨Contribution.loopChild g.active slot start h, rfl, ⟨?_, ?_, ?_⟩, ?_, ?_⟩
      · exact ending.develops.obeys.loopChild above slot start
      · exact ending.develops.grown.trans kept.grown
      · intro full
        have two := obeys.two_le_children full active first second differ
        omega
      · exact fun _ _ => place.trans kept.place
      · intro _ _ complete
        have same : (Contribution.loopChild g.active slot start h).incomplete = h.incomplete := by
          unfold Contribution.loopChild
          split <;> rfl
        obtain ⟨before, all⟩ := ending.shown a rfl (same ▸ complete)
        exact ⟨before, fun kind mem => (all kind mem).mono kept.grown⟩
    · rw [if_neg new]
      exact ⟨h, rfl, ending⟩

/-- a step into a node, with all that comes after it -/
theorem entering {f : Generator → Generator} {rest : Unit → Reading β}
    (inside : ∀ g, g.Obeys lineage → g.At host → Inside lineage inner g (f g) ∧ Shown kinds g (f g))
    (within : Returns lineage host inner more (rest ())) :
    Steady lineage host (kinds ++ more) (Reading.contribute f >>= rest) := by
  intro c
  obtain ⟨result, d, ends⟩ := within c
  refine ⟨result, d, fun g obeys active => ?_⟩
  obtain ⟨entered, shown⟩ := inside g obeys active
  obtain ⟨k, ran, ending⟩ := ends g (f g) active entered
  refine ⟨k, ?_, .from entered.develops shown (.refl g) ending⟩
  simpa using ran

end Steady

namespace Returns

/-- a reading before the step out -/
theorem bind {r : Reading α} {f : α → Reading β} (first : Steady lineage inner kinds r)
    (rest : ∀ a, Returns lineage host inner more (f a)) :
    Returns lineage host inner (kinds ++ more) (r >>= f) := by
  intro c
  obtain ⟨result, d, ends⟩ := first c
  cases result with
  | error fault =>
    refine ⟨.error fault, d, fun g h active inside => ?_⟩
    obtain ⟨k, ran, ending⟩ := ends h inside.develops.obeys inside.active
    refine ⟨k, ?_, .failed ending.develops⟩
    simp [ran]
  | ok a =>
    obtain ⟨last, e, endsLast⟩ := rest a d
    refine ⟨last, e, fun g h active inside => ?_⟩
    obtain ⟨k, ran, ending⟩ := ends h inside.develops.obeys inside.active
    obtain ⟨l, ranLast, endingLast⟩ :=
      endsLast g k active (inside.keep (ending.place a rfl) ending.develops)
    refine ⟨l, ?_, .from ending.develops (ending.shown a rfl) (.refl g) endingLast⟩
    simpa [ran] using ranLast

/-- the step out, with all that comes after it -/
theorem leave {rest : Unit → Reading β} (outer : Steady lineage host kinds (rest ())) :
    Returns lineage host inner kinds (Reading.leave >>= rest) := by
  intro c
  obtain ⟨result, d, ends⟩ := outer c
  refine ⟨result, d, fun g h active inside => ?_⟩
  obtain ⟨left, popped, back⟩ := inside.entered.pop (.refl h)
  obtain ⟨slots, incomplete⟩ := Generator.pop_ok popped
  have stays : Develops lineage h left := .of_slots_eq inside.develops.obeys slots
  have there : left.At host := active.keep ⟨back, (inside.develops.trans stays).grown⟩
  obtain ⟨k, ran, ending⟩ := ends left stays.obeys there
  refine ⟨k, ?_, .from stays (.nothing incomplete) back ending⟩
  simpa [popped] using ran

end Returns

end Reading

end Baskets

import Baskets.Proofs.Reading.Run

/-!
# Reading is the same with a generator

A read that builds a decoder on the way (`some g`) is set beside the same read that does not
(`none`).  Either the first refuses, because no decoder can be generated for what it met, or both
come to the same value or the same fault and stop at the same place: `Mirrored`.  A reading is
`Faithful` if this is so from every cursor and every generator, and if a success leaves the active
node of the generator and the nodes saved below it as they were.

Sequences of faithful readings are faithful (`Faithful.bind`).  The step into a node and the step
out of it are not, each for itself.  What stands between them is `Leaving`: it starts from a
generator that was entered, and ends where the step in was taken.  Faithful readings may stand
before the step out, because they leave the saved nodes alone, so that the step out finds what the
step in had saved.
-/

namespace Baskets

namespace Generator

/-- the same active node, with the same nodes saved -/
structure SamePlace (g h : Generator) : Prop where
  active : h.active = g.active
  saved : h.saved = g.saved

namespace SamePlace

theorem refl (g : Generator) : SamePlace g g := ⟨rfl, rfl⟩

theorem trans {g h k : Generator} (first : SamePlace g h) (second : SamePlace h k) :
    SamePlace g k :=
  ⟨second.active.trans first.active, second.saved.trans first.saved⟩

end SamePlace

theorem samePlace_attachAll (child : Nat) (places : List Nat) (g : Generator) :
    SamePlace g (places.foldl (fun g place => g.attach child place) g) := by
  induction places generalizing g with
  | nil => exact .refl g
  | cons place places ih =>
    have one : SamePlace g (g.attach child place) := ⟨rfl, rfl⟩
    exact one.trans (ih (g.attach child place))

theorem samePlace_addUnder (g : Generator) (node : Node) (parent : NodeKind) :
    SamePlace g (g.addUnder node parent).2 := by
  unfold addUnder
  generalize (if parent = node.kind then [] else g.nodesOf parent) = places
  have laid : SamePlace g (g.layOut node) := ⟨rfl, rfl⟩
  have grown := laid.trans (samePlace_attachAll g.slots.size
    (places.filter fun place => (g.childOf? node.kind place).isNone) (g.layOut node))
  by_cases orphan : places.isEmpty
  · simp only [orphan, if_true]
    exact ⟨grown.active, grown.saved⟩
  · simp only [orphan, if_false, Bool.false_eq_true]
    split
    · exact grown
    · exact grown

theorem samePlace_add (g : Generator) (node : Node) : SamePlace g (g.add node).2 :=
  samePlace_addUnder g node _

theorem samePlace_loopChild (id slot : Nat) (start : Instruction) (g : Generator) :
    SamePlace g (Contribution.loopChild id slot start g) := by
  unfold Contribution.loopChild
  split
  · exact ⟨rfl, rfl⟩
  · exact .refl g

/-- the active node is saved on top of the others -/
def Entered (g h : Generator) : Prop := h.saved = g.active :: g.saved

theorem entered_enter (g : Generator) (info : NodeInfo) : Entered g (g.enter info) := by
  have same := samePlace_add g (.mk info [])
  show (g.add (.mk info [])).2.active :: (g.add (.mk info [])).2.saved = _
  rw [same.active, same.saved]

theorem Entered.descend {g h : Generator} (entered : Entered g h) (info : NodeInfo) :
    Entered g (h.descend info) :=
  ((samePlace_add h (.mk info [])).saved).trans entered

theorem entered_intoObject (className : String) (skipped : Nat) (otherVersion : Bool)
    (field : Option String) (ctx : Context) (g : Generator) :
    Entered g (Contribution.intoObject className skipped otherVersion field ctx g) := by
  unfold Contribution.intoObject
  have outer := entered_enter g (Contribution.dispatch className skipped field ctx)
  cases otherVersion with
  | false => exact (outer.descend _).descend _
  | true => exact ((outer.descend _).descend _).descend _

/-- the step out of a node finds what the step into it had saved -/
theorem Entered.pop {g h k : Generator} (entered : Entered g h) (same : SamePlace h k) :
    ∃ left, k.pop = .ok left ∧ SamePlace g left := by
  have saved : k.saved = g.active :: g.saved := same.saved.trans entered
  refine ⟨{ k with active := g.active, saved := g.saved }, ?_, rfl, rfl⟩
  unfold Generator.pop
  rw [saved]

end Generator

namespace Reading

open Generator (SamePlace Entered)

/-- what a read came to without a generator, and with the generator `g` -/
inductive Mirrored {α : Type} (g : Generator) :
    Except Fault α × Progress → Except Fault α × Progress → Prop where
  | refused {plain : Except Fault α × Progress} {cause : Ungeneratable} {progress : Progress} :
    Mirrored g plain (.error (.ungeneratable cause), progress)
  | failed {fault : Fault} {cursor : Cursor} {made : Option Generator} :
    Mirrored g (.error fault, { cursor, generator := none })
      (.error fault, { cursor, generator := made })
  | done {a : α} {cursor : Cursor} {made : Generator} (same : SamePlace g made) :
    Mirrored g (.ok a, { cursor, generator := none }) (.ok a, { cursor, generator := some made })

/-- reads the same with any generator as without one -/
def Faithful {α : Type} (r : Reading α) : Prop :=
  ∀ (c : Cursor) (g : Generator),
    Mirrored g (r.run { cursor := c, generator := none }) (r.run { cursor := c, generator := some g })

variable {α β : Type}

theorem Mirrored.from {g h : Generator} (same : SamePlace g h)
    {plain made : Except Fault α × Progress} (m : Mirrored h plain made) :
    Mirrored g plain made := by
  cases m with
  | refused => exact .refused
  | failed => exact .failed
  | done later => exact .done (same.trans later)

/-- what comes after a mirrored read, which may be seen from another generator -/
theorem Mirrored.carry {g h : Generator} {plain made : Except Fault α × Progress}
    {next next' : α → Progress → Except Fault β × Progress} (first : Mirrored h plain made)
    (rest : ∀ a cursor k, SamePlace h k →
      Mirrored g (next a { cursor, generator := none })
        (next' a { cursor, generator := some k })) :
    Mirrored g (Reading.carry next plain) (Reading.carry next' made) := by
  cases first with
  | refused => exact .refused
  | failed => exact .failed
  | done same => exact rest _ _ _ same

/-- reads the same with a generator that was entered, and steps out of what was entered -/
def Leaving {α : Type} (r : Reading α) : Prop :=
  ∀ (c : Cursor) (g h : Generator), Entered g h →
    Mirrored g (r.run { cursor := c, generator := none }) (r.run { cursor := c, generator := some h })

/-! ## sequences -/

namespace Faithful

theorem pure (a : α) : Faithful (Pure.pure a) := fun _ g => .done (.refl g)

theorem throw (fault : Fault) : Faithful (MonadExcept.throw fault : Reading α) :=
  fun _ _ => .failed

theorem bind {r : Reading α} {f : α → Reading β} (first : Faithful r)
    (rest : ∀ a, Faithful (f a)) : Faithful (r >>= f) := by
  intro c g
  simpa using (first c g).carry fun a d h same => (rest a d h).from same

theorem scan (s : Scan α) : Faithful (Reading.scan s) := by
  intro c g
  rw [run_scan, run_scan]
  cases (s.run c).1 with
  | error fault => exact .failed
  | ok a => exact .done (.refl g)

theorem measured (s : Scan α) : Faithful (Reading.measured s) := .scan _

/-- a change of the generator that leaves its place alone -/
theorem contribute {f : Generator → Generator} (same : ∀ g, SamePlace g (f g)) :
    Faithful (Reading.contribute f) := by
  intro c g
  simpa using .done (same g)

theorem add (info : NodeInfo) : Faithful (Reading.add info) :=
  contribute fun g => Generator.samePlace_add g (.mk info [])

theorem times {r : Reading α} (one : Faithful r) (count : Nat) :
    Faithful (Reading.times count r) := by
  induction count with
  | zero => exact .pure []
  | succ count ih => exact one.bind fun _ => ih.bind fun _ => .pure _

theorem looping {r : Reading α} (slot : Nat) (start : Instruction) (inner : Faithful r) :
    Faithful (Reading.looping slot start r) := by
  intro c g
  simp only [Reading.looping, run_bind, run_get, carry_ok]
  refine (inner c g).carry fun a d h same => ?_
  dsimp only [Option.map]
  by_cases first : (g.children g.active).length = slot
  · rw [if_pos first]
    exact .done (same.trans (Generator.samePlace_loopChild _ _ _ _))
  · rw [if_neg first]
    exact .done same

/-- a step into a node, with all that comes after it -/
theorem entering {f : Generator → Generator} {rest : Unit → Reading β}
    (entered : ∀ g, Entered g (f g)) (inner : Leaving (rest ())) :
    Faithful (Reading.contribute f >>= rest) := by
  intro c g
  simpa using inner c g (f g) (entered g)

end Faithful

namespace Leaving

/-- a reading before the step out -/
theorem bind {r : Reading α} {f : α → Reading β} (first : Faithful r)
    (rest : ∀ a, Leaving (f a)) : Leaving (r >>= f) := by
  intro c g h entered
  simp only [run_bind]
  refine (first c h).carry fun a d k same => ?_
  exact rest a d g k (same.saved.trans entered)

/-- the step out, with all that comes after it -/
theorem leave {rest : Unit → Reading β} (outer : Faithful (rest ())) :
    Leaving (Reading.leave >>= rest) := by
  intro c g h entered
  obtain ⟨left, popped, back⟩ := entered.pop (.refl h)
  simpa [popped] using (outer c left).from back

end Leaving

end Reading

end Baskets

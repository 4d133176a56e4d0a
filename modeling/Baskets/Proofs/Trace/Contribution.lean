import Baskets.Proofs.Generator.Adding

/-!
# What a trace leaves alone in a generator

Whatever a trace contributes, the generator comes back to the place it was at, with all the nodes it
had (`Trace.keeps_contribute`), and knows afterwards whether the trace was complete
(`Trace.incomplete_contribute`).
-/

namespace Baskets

namespace Generator

variable {g h : Generator}

/-! ## steps of a generator -/

theorem extends_of_slots_eq (same : h.slots = g.slots) : Extends g h :=
  fun _ slot there => ⟨slot, same ▸ there, rfl, fun _ mem => mem⟩

theorem extends_enter (g : Generator) (info : NodeInfo) : Extends g (g.enter info) :=
  (extends_add g (.mk info [])).trans (extends_of_slots_eq rfl)

theorem extends_descend (g : Generator) (info : NodeInfo) : Extends g (g.descend info) :=
  (extends_add g (.mk info [])).trans (extends_of_slots_eq rfl)

theorem extends_intoObject (className : String) (skipped : Nat) (otherVersion : Bool)
    (field : Option String) (ctx : Context) (g : Generator) :
    Extends g (Contribution.intoObject className skipped otherVersion field ctx g) := by
  unfold Contribution.intoObject
  have outer := extends_enter g (Contribution.dispatch className skipped field ctx)
  cases otherVersion with
  | false => exact (outer.trans (extends_descend _ _)).trans (extends_descend _ _)
  | true =>
    exact ((outer.trans (extends_descend _ _)).trans (extends_descend _ _)).trans
      (extends_descend _ _)

theorem keeps_loopChild (id slot : Nat) (start : Instruction) (g : Generator) :
    Keeps g (Contribution.loopChild id slot start g) := by
  refine ⟨samePlace_loopChild id slot start g, ?_⟩
  unfold Contribution.loopChild
  split
  · exact extends_modify (f := Contribution.looped start) (fun _ => rfl) g _
  · exact .refl g

theorem keeps_markIncomplete (g : Generator) : Keeps g g.markIncomplete :=
  ⟨⟨rfl, rfl⟩, extends_of_slots_eq rfl⟩

theorem keeps_looping (slot : Nat) (start : Instruction) {grow : Generator → Generator}
    (inner : ∀ g, Keeps g (grow g)) (g : Generator) : Keeps g (g.looping slot start grow) := by
  unfold looping
  split
  · exact (inner g).trans (keeps_loopChild _ _ _ _)
  · exact inner g

theorem keeps_inList (element : StreamType) (count : Nat) (info : NodeInfo)
    {grow : Generator → Generator} (inner : ∀ g, Keeps g (grow g)) (g : Generator) :
    Keeps g (g.inList element count info grow) := by
  unfold inList
  cases element.primitive? with
  | some p => exact keeps_add g _
  | none =>
    refine (entered_enter g info).left (extends_enter g info) ?_
    split
    · exact (keeps_markIncomplete _).trans (inner _)
    · exact inner _

@[simp] theorem slots_left (g : Generator) : g.left.slots = g.slots := by
  unfold left pop
  cases g.saved with
  | nil => rfl
  | cons id saved => rfl

/-! ## whether something was missing -/

@[simp] theorem incomplete_attachAll (child : Nat) (places : List Nat) (g : Generator) :
    (places.foldl (fun g place => g.attach child place) g).incomplete = g.incomplete := by
  induction places generalizing g with
  | nil => rfl
  | cons place places ih => exact ih (g.attach child place)

@[simp]
theorem incomplete_add (g : Generator) (node : Node) : (g.add node).2.incomplete = g.incomplete := by
  unfold add addUnder
  generalize (if _ = node.kind then [] else g.nodesOf _) = places
  have grown := incomplete_attachAll g.slots.size
    (places.filter fun place => (g.childOf? node.kind place).isNone) (g.layOut node)
  by_cases orphan : places.isEmpty
  · simp only [orphan, if_true]
    exact grown
  · simp only [orphan, if_false, Bool.false_eq_true]
    split
    · exact grown
    · exact grown

@[simp] theorem incomplete_enter (g : Generator) (info : NodeInfo) :
    (g.enter info).incomplete = g.incomplete := incomplete_add g _

@[simp] theorem incomplete_descend (g : Generator) (info : NodeInfo) :
    (g.descend info).incomplete = g.incomplete := incomplete_add g _

@[simp] theorem incomplete_left (g : Generator) : g.left.incomplete = g.incomplete := by
  unfold left pop
  cases g.saved with
  | nil => rfl
  | cons id saved => rfl

theorem incomplete_intoObject (className : String) (skipped : Nat) (otherVersion : Bool)
    (field : Option String) (ctx : Context) (g : Generator) :
    (Contribution.intoObject className skipped otherVersion field ctx g).incomplete =
      g.incomplete := by
  unfold Contribution.intoObject
  cases otherVersion with
  | false =>
    show (((g.enter _).descend _).descend _).incomplete = _
    simp
  | true =>
    show ((((g.enter _).descend _).descend _).descend _).incomplete = _
    simp

theorem incomplete_looping (slot : Nat) (start : Instruction) (grow : Generator → Generator)
    (g : Generator) : (g.looping slot start grow).incomplete = (grow g).incomplete := by
  unfold looping
  split
  · unfold Contribution.loopChild
    split <;> rfl
  · rfl

/-- a list is complete if it holds numbers, or has elements that are complete -/
theorem incomplete_inList (element : StreamType) (items : List Trace) (info : NodeInfo)
    {grow : Generator → Generator} {full : Bool}
    (inner : ∀ g, (grow g).incomplete = (g.incomplete || !full)) (g : Generator) :
    (g.inList element items.length info grow).incomplete =
      (g.incomplete || !(element.primitive?.isSome || (!items.isEmpty && full))) := by
  unfold inList
  cases element.primitive? with
  | some p =>
    show (g.add _).2.incomplete = (g.incomplete || !(true || _))
    simp
  | none =>
    show (grow _).left.incomplete = (g.incomplete || !(false || _))
    rw [incomplete_left, inner, Bool.false_or]
    cases items with
    | nil =>
      show (true || _) = (g.incomplete || true)
      rw [Bool.true_or, Bool.or_true]
    | cons item items =>
      show ((g.enter info).incomplete || !full) = (g.incomplete || !(true && full))
      simp

end Generator

namespace Trace

open Generator

mutual

/-- **A trace keeps its place** in a generator, and all the nodes that were there. -/
theorem keeps_contribute : (trace : Trace) → (field : Option String) → (ctx : Context) →
    (g : Generator) → Keeps g (trace.contribute field ctx g)
  | .number .., _, _, g => keeps_add g _
  | .text .., _, _, g => keeps_add g _
  | .head .., _, _, g =>
    (entered_enter g _).left (extends_enter g _) (keeps_add _ _)
  | .datime .., _, _, g => keeps_add g _
  | .time .., _, _, g => keeps_add g _
  | .ref .., _, _, g => keeps_add g _
  | .refArray .., _, _, g => keeps_add g _
  | .vector _ _ items, _, _, g =>
    keeps_inList _ _ _ (fun g => keeps_contributeAll none _ items g) g
  | .array _ items, field, _, g =>
    keeps_inList _ _ _ (fun g => keeps_contributeAll field _ items g) g
  | .map header keys values, field, ctx, g => by
    have marked : Keeps (g.enter (Contribution.map header field ctx))
        (if keys.length = 0 then (g.enter (Contribution.map header field ctx)).markIncomplete
          else g.enter (Contribution.map header field ctx)) := by
      split
      · exact keeps_markIncomplete _
      · exact .refl _
    refine (entered_enter g _).left (extends_enter g _) (marked.trans ?_)
    have first := keeps_looping 0 .loopKeeping fun g => keeps_contributeAll none ctx.mapKeys keys g
    have second := keeps_looping 1 .loopTaking fun g =>
      keeps_contributeAll none ctx.mapValues values g
    exact (first _).trans (second _)
  | .object _ _ layout _ parts, _, outer, g =>
    (entered_intoObject _ _ _ _ _ g).left (extends_intoObject _ _ _ _ _ g)
      (keeps_contributeParts _ layout.parts parts _)

theorem keeps_contributeAll (field : Option String) (ctx : Context) : (traces : List Trace) →
    (g : Generator) → Keeps g (contributeAll field ctx traces g)
  | [], g => .refl g
  | trace :: traces, g =>
    (keeps_contribute trace field ctx g).trans (keeps_contributeAll field ctx traces _)

theorem keeps_contributeParts (ctx : Context) (parts : List Part) : (traces : List Trace) →
    (g : Generator) → Keeps g (contributeParts ctx parts traces g)
  | [], g => .refl g
  | trace :: traces, g => by
    cases parts with
    | nil => exact .refl g
    | cons part parts =>
      cases part with
      | base name =>
        have inner := (entered_enter g (Contribution.base name (ctx.inBase name))).left
          (extends_enter g _) (keeps_contribute trace none (ctx.inBase name) _)
        exact inner.trans (keeps_contributeParts ctx parts traces _)
      | member own =>
        exact (keeps_contribute trace _ _ g).trans (keeps_contributeParts ctx parts traces _)

end

theorem incomplete_leaf (g : Generator) (info : NodeInfo) :
    (g.add (.mk info [])).2.incomplete = (g.incomplete || !true) := by
  simp

mutual

/-- a generator that has seen a trace knows whether it was complete -/
theorem incomplete_contribute : (trace : Trace) → (field : Option String) → (ctx : Context) →
    (g : Generator) →
      (trace.contribute field ctx g).incomplete = (g.incomplete || !trace.complete)
  | .number .., _, _, g => incomplete_leaf g _
  | .text .., _, _, g => incomplete_leaf g _
  | .head header _ _, field, ctx, g => by
    show ((g.enter (Contribution.objectStart header field ctx)).add _).2.left.incomplete =
      (g.incomplete || !true)
    simp
  | .datime .., _, _, g => incomplete_leaf g _
  | .time .., _, _, g => incomplete_leaf g _
  | .ref .., _, _, g => incomplete_leaf g _
  | .refArray .., _, _, g => incomplete_leaf g _
  | .vector element _ items, _, ctx, g =>
    incomplete_inList element items _ (incomplete_contributeAll none ctx.items items) g
  | .array element items, field, ctx, g =>
    incomplete_inList element items _ (incomplete_contributeAll field ctx.elements items) g
  | .map header keys values, field, ctx, g => by
    have inKeys := incomplete_contributeAll none ctx.mapKeys keys
    have inValues := incomplete_contributeAll none ctx.mapValues values
    have marked : (if keys.length = 0 then (g.enter (Contribution.map header field ctx)).markIncomplete
        else g.enter (Contribution.map header field ctx)).incomplete =
        (g.incomplete || keys.isEmpty) := by
      cases keys with
      | nil =>
        show true = (g.incomplete || true)
        rw [Bool.or_true]
      | cons key keys =>
        show (g.enter _).incomplete = (g.incomplete || false)
        simp
    show (left (looping 1 _ _ (looping 0 _ _ _))).incomplete =
      (g.incomplete || !(!keys.isEmpty && (completeAll keys && completeAll values)))
    rw [incomplete_left, incomplete_looping, inValues, incomplete_looping, inKeys, marked]
    cases g.incomplete <;> cases keys.isEmpty <;> cases completeAll keys <;> rfl
  | .object className header layout otherVersion parts, field, outer, g => by
    show (contributeParts _ _ _ _).left.incomplete = (g.incomplete || !completeParts layout.parts parts)
    simp [incomplete_contributeParts, incomplete_intoObject]

theorem incomplete_contributeAll (field : Option String) (ctx : Context) :
    (traces : List Trace) → (g : Generator) →
      (contributeAll field ctx traces g).incomplete = (g.incomplete || !completeAll traces)
  | [], g => by
    show g.incomplete = (g.incomplete || !true)
    rw [Bool.not_true, Bool.or_false]
  | trace :: traces, g => by
    show (contributeAll field ctx traces (trace.contribute field ctx g)).incomplete =
      (g.incomplete || !(trace.complete && completeAll traces))
    rw [incomplete_contributeAll field ctx traces, incomplete_contribute trace, Bool.not_and,
      Bool.or_assoc]

theorem incomplete_contributeParts (ctx : Context) (parts : List Part) : (traces : List Trace) →
    (g : Generator) →
      (contributeParts ctx parts traces g).incomplete = (g.incomplete || !completeParts parts traces)
  | [], g => by
    show g.incomplete = (g.incomplete || !true)
    rw [Bool.not_true, Bool.or_false]
  | trace :: traces, g => by
    cases parts with
    | nil =>
      show g.incomplete = (g.incomplete || !true)
      rw [Bool.not_true, Bool.or_false]
    | cons part parts =>
      cases part with
      | base name =>
        show (contributeParts ctx parts traces
          (trace.contribute none (ctx.inBase name) (g.enter _)).left).incomplete =
            (g.incomplete || !(trace.complete && completeParts parts traces))
        rw [incomplete_contributeParts ctx parts traces, incomplete_left,
          incomplete_contribute trace, incomplete_enter, Bool.not_and, Bool.or_assoc]
      | member own =>
        show (contributeParts ctx parts traces (trace.contribute _ _ g)).incomplete =
          (g.incomplete || !(trace.complete && completeParts parts traces))
        rw [incomplete_contributeParts ctx parts traces, incomplete_contribute trace, Bool.not_and,
          Bool.or_assoc]

end

end Trace

end Baskets

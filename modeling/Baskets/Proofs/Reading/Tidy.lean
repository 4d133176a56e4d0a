import Baskets.Proofs.Generator.Operations
import Baskets.Proofs.Generator.Rooted

/-!
# What reads leave behind in a generator

A read may stop anywhere, and the generator stays as it is then.  `Reading.Outcome` says in what
state that is: after a success at the place it was at before, after a failure with all nodes still
saved that were, below those saved since, and with a fault that is not the generator's own.  It says
as well that nothing was lost, on the condition that nothing was before and that the active node was
of a kind that can be a host to what is read.  A reading is `Tidy` for these hosts if all this is so
from every cursor and every generator.

Sequences of tidy readings are tidy.  Between the step into a node and the step out of it other
hosts count: a reading `Returning` starts from a generator that was entered for the inner hosts, and
ends where the step in was taken.
-/

namespace Baskets

/-! ## faults of scans -/

namespace Scan

variable {α β : Type}

/-- fails at most for what the bytes are -/
def Plain (s : Scan α) : Prop :=
  ∀ c fault d, s.run c = (.error fault, d) → fault.ofGeneration = false

namespace Plain

theorem pure (a : α) : Plain (Pure.pure a : Scan α) := fun _ _ _ failed => nomatch failed

theorem throw {fault : Fault} (plain : fault.ofGeneration = false) :
    Plain (MonadExcept.throw fault : Scan α) := by
  intro c own d failed
  cases failed
  exact plain

theorem bind {s : Scan α} {f : α → Scan β} (first : Plain s) (rest : ∀ a, Plain (f a)) :
    Plain (s >>= f) := by
  intro c fault d failed
  rw [run_bind] at failed
  cases ran : s.run c with
  | mk result e =>
    rw [ran] at failed
    cases result with
    | error own =>
      cases failed
      exact first _ _ _ ran
    | ok a => exact rest a _ _ _ failed

theorem get : Plain (MonadState.get : Scan Cursor) := fun _ _ _ failed => nomatch failed

theorem set (c : Cursor) : Plain (MonadStateOf.set c : Scan PUnit) :=
  fun _ _ _ failed => nomatch failed

theorem take (n : Nat) : Plain (Scan.take n) := by
  refine .bind .get fun c => ?_
  split
  · exact .bind (.set _) fun _ => .pure _
  · exact .throw rfl

theorem skip (n : Nat) : Plain (Scan.skip n) := by
  refine .bind .get fun c => ?_
  split
  · exact .set _
  · exact .throw rfl

theorem stepBack (n : Nat) : Plain (Scan.stepBack n) := by
  refine .bind .get fun c => ?_
  split
  · exact .set _
  · exact .throw rfl

theorem pos : Plain Scan.pos := .bind .get fun _ => .pure _

theorem unsigned (width : Nat) : Plain (Scan.unsigned width) := .bind (.take width) fun _ => .pure _

theorem signed (width : Nat) : Plain (Scan.signed width) := .bind (.take width) fun _ => .pure _

theorem string : Plain Scan.string := by
  have characters : ∀ length, Plain (do return Text.lossy (← Scan.take length)) :=
    fun length => .bind (.take length) fun _ => .pure _
  refine .bind (.unsigned 1) fun short => ?_
  dsimp only
  split
  · exact .bind (.unsigned 4) characters
  · exact .bind (.pure short) characters

theorem versionHeader : Plain Scan.versionHeader := by
  refine .bind (.unsigned 4) fun first => ?_
  split
  · exact .bind (.unsigned 2) fun _ => .pure _
  · exact .bind (.stepBack 2) fun _ => .pure _

theorem objectHead : Plain Scan.objectHead := by
  have numbers : Plain (do
      let unique ← Scan.unsigned 4
      let bits := (← Scan.unsigned 4) ||| 0x1000000
      if bits.testBit 4 then Scan.skip 2
      return (unique, bits)) := by
    refine .bind (.unsigned 4) fun unique => .bind (.unsigned 4) fun bits => ?_
    dsimp only
    split
    · exact .bind (.skip 2) fun _ => .pure _
    · exact .pure _
  refine .bind (.unsigned 2) fun version => ?_
  dsimp only
  split
  · exact .bind (.skip 4) fun _ => numbers
  · exact numbers

theorem primitive (p : Primitive) : Plain p.scan := by
  cases p with
  | bool => exact .bind (.bind (.unsigned 1) fun _ => .pure _) fun _ => .pure _
  | int8 | int16 | int32 | int64 => exact .bind (.signed _) fun _ => .pure _
  | uint8 | uint16 | uint32 | uint64 | float32 | float64 =>
    exact .bind (.unsigned _) fun _ => .pure _

end Plain

end Scan

namespace Reading

open Generator (SamePlace Entered Extends Keeps)

variable {α β : Type} {host inner : NodeKind → Prop} {g h : Generator}

/-! ## outcomes -/

/-- nothing was lost, and the active node is of a kind that can be the host -/
structure Hosted (host : NodeKind → Prop) (g : Generator) : Prop where
  rooted : g.Rooted
  host : host g.activeKind

/-- the state in which a read with the generator `g` ends -/
inductive Outcome {α : Type} (host : NodeKind → Prop) (g : Generator) :
    Except Fault α × Progress → Prop where
  | done {a : α} {cursor : Cursor} {made : Generator} (keeps : Keeps g made)
    (rooted : Hosted host g → made.Rooted) :
    Outcome host g (.ok a, { cursor, generator := some made })
  | failed {fault : Fault} {cursor : Cursor} {made : Generator}
    (plain : fault.ofGeneration = false) (below : g.saved <:+ made.saved)
    (rooted : Hosted host g → made.Rooted) :
    Outcome host g (.error fault, { cursor, generator := some made })

/-- ends in such a state wherever it starts -/
def Tidy {α : Type} (host : NodeKind → Prop) (r : Reading α) : Prop :=
  ∀ (c : Cursor) (g : Generator), Outcome host g (r.run { cursor := c, generator := some g })

theorem Hosted.keep (hosted : Hosted host g) (keeps : Keeps g h) (rooted : h.Rooted) :
    Hosted host h :=
  ⟨rooted, by rw [keeps.activeKind_eq hosted.rooted.lt_size]; exact hosted.host⟩

/-- what comes after a success, from the generator that it left -/
theorem Outcome.carry {result : Except Fault α × Progress}
    {next : α → Progress → Except Fault β × Progress} (first : Outcome host g result)
    (rest : ∀ a cursor k, result = (.ok a, { cursor, generator := some k }) → Keeps g k →
      (Hosted host g → Hosted host k) → Outcome host g (next a { cursor, generator := some k })) :
    Outcome host g (Reading.carry next result) := by
  cases first with
  | done keeps rooted =>
    exact rest _ _ _ rfl keeps fun hosted => hosted.keep keeps (rooted hosted)
  | failed plain below rooted => exact .failed plain below rooted

/-- an outcome seen from a generator that was at the same place before -/
theorem Outcome.from {result : Except Fault α × Progress} (outcome : Outcome inner h result)
    (keeps : Keeps g h) (hosted : Hosted host g → Hosted inner h) : Outcome host g result := by
  cases outcome with
  | done later rooted => exact .done (keeps.trans later) fun before => rooted (hosted before)
  | failed plain below rooted =>
    rw [keeps.place.saved] at below
    exact .failed plain below fun before => rooted (hosted before)

/-! ## steps into nodes -/

/-- entered from `g`, and ready for what the inner hosts are hosts to -/
structure Enters (host inner : NodeKind → Prop) (g h : Generator) : Prop where
  entered : Entered g h
  grown : Extends g h
  hosted : Hosted host g → Hosted inner h

/-- ends where a step in was taken, if it starts after that -/
def Returning {α : Type} (host inner : NodeKind → Prop) (r : Reading α) : Prop :=
  ∀ (c : Cursor) (g h : Generator), Enters host inner g h →
    Outcome host g (r.run { cursor := c, generator := some h })

theorem Enters.keep {k : Generator} (enters : Enters host inner g h) (keeps : Keeps h k)
    (hosted : Hosted inner h → Hosted inner k) : Enters host inner g k where
  entered := keeps.place.saved.trans enters.entered
  grown := enters.grown.trans keeps.grown
  hosted := fun before => hosted (enters.hosted before)

theorem Enters.markIncomplete (enters : Enters host inner g h) :
    Enters host inner g h.markIncomplete :=
  enters.keep (Generator.keeps_markIncomplete h) fun hosted =>
    hosted.keep (Generator.keeps_markIncomplete h) hosted.rooted.markIncomplete

theorem enters_enter (info : NodeInfo) (differs : ∀ kind, host kind → kind ≠ info.kind)
    (within : ∀ kind, host kind → inner info.kind) (g : Generator) :
    Enters host inner g (g.enter info) where
  entered := Generator.entered_enter g info
  grown := Generator.extends_enter g info
  hosted := fun before => by
    obtain ⟨rooted, active⟩ := before.rooted.enter info (differs _ before.host)
    exact ⟨rooted, active ▸ within _ before.host⟩

/-- into an object, down to the record of its bases and members -/
theorem enters_intoObject (className : String) (skipped : Nat) (otherVersion : Bool)
    (field : Option String) (ctx : Context)
    (differs : ∀ kind, host kind → kind ≠ .dispatch (ctx.label className "dispatch"))
    (within : ∀ kind, host kind → inner (.field (ctx.nodeName ""))) (g : Generator) :
    Enters host inner g
      (Contribution.intoObject className skipped otherVersion field ctx g) where
  entered := Generator.entered_intoObject className skipped otherVersion field ctx g
  grown := Generator.extends_intoObject className skipped otherVersion field ctx g
  hosted := fun before => by
    have outer := before.rooted.enter (Contribution.dispatch className skipped field ctx)
      (differs _ before.host)
    have version : ∃ h, h = (if otherVersion then
        (g.enter (Contribution.dispatch className skipped field ctx)).descend
          (Contribution.wrongVersion className ctx)
        else g.enter (Contribution.dispatch className skipped field ctx)) ∧ h.Rooted ∧
        h.activeKind ≠ (Contribution.start className ctx).kind := by
      refine ⟨_, rfl, ?_⟩
      cases otherVersion with
      | false =>
        exact ⟨outer.1, fun same => nomatch outer.2.symm.trans same⟩
      | true =>
        have wrong := outer.1.descend (Contribution.wrongVersion className ctx)
          fun same => nomatch outer.2.symm.trans same
        exact ⟨wrong.1, fun same => nomatch wrong.2.symm.trans same⟩
    obtain ⟨h, grown, rooted, differs⟩ := version
    have started := rooted.descend (Contribution.start className ctx) differs
    have ended := started.1.descend (Contribution.record className ctx)
      fun same => nomatch started.2.symm.trans same
    unfold Contribution.intoObject
    dsimp only
    rw [← grown]
    exact ⟨ended.1, ended.2 ▸ within _ before.host⟩

/-! ## sequences -/

namespace Tidy

theorem pure (a : α) : Tidy host (Pure.pure a : Reading α) :=
  fun _ g => .done (.refl g) fun hosted => hosted.rooted

theorem throw {fault : Fault} (plain : fault.ofGeneration = false) :
    Tidy host (MonadExcept.throw fault : Reading α) :=
  fun _ _ => .failed plain List.suffix_rfl fun hosted => hosted.rooted

/-- fewer kinds are hosts -/
theorem mono {r : Reading α} (tidy : Tidy inner r) (sub : ∀ kind, host kind → inner kind) :
    Tidy host r :=
  fun c g => (tidy c g).from (.refl g) fun hosted => ⟨hosted.rooted, sub _ hosted.host⟩

/-- a sequence whose second part may depend on how the first came to its result -/
theorem bind_of {r : Reading α} {f : α → Reading β} (first : Tidy host r)
    (rest : ∀ a, (∃ c g progress, r.run { cursor := c, generator := some g } = (.ok a, progress)) →
      Tidy host (f a)) : Tidy host (r >>= f) := by
  intro c g
  rw [run_bind]
  exact (first c g).carry fun a d k ran keeps hosted =>
    (rest a ⟨c, g, _, ran⟩ d k).from keeps hosted

theorem bind {r : Reading α} {f : α → Reading β} (first : Tidy host r)
    (rest : ∀ a, Tidy host (f a)) : Tidy host (r >>= f) :=
  first.bind_of fun a _ => rest a

theorem scan {s : Scan α} (plain : s.Plain) : Tidy host (Reading.scan s) := by
  intro c g
  rw [run_scan]
  cases ran : s.run c with
  | mk result d =>
    cases result with
    | error fault => exact .failed (plain _ _ _ ran) List.suffix_rfl fun hosted => hosted.rooted
    | ok a => exact .done (.refl g) fun hosted => hosted.rooted

theorem measured {s : Scan α} (plain : s.Plain) : Tidy host (Reading.measured s) :=
  .scan (.bind .pos fun _ => .bind plain fun _ => .bind .pos fun _ => .pure _)

/-- a change of the generator that leaves its place alone, and loses nothing -/
theorem contribute {f : Generator → Generator} (keeps : ∀ g, Keeps g (f g))
    (rooted : ∀ g, Hosted host g → (f g).Rooted) : Tidy host (Reading.contribute f) := by
  intro c g
  simpa using .done (keeps g) (rooted g)

/-- a node is added below a node of another kind -/
theorem add (info : NodeInfo) (differs : ∀ kind, host kind → kind ≠ info.kind) :
    Tidy host (Reading.add info) :=
  contribute (fun g => Generator.keeps_add g (.mk info [])) fun _ hosted =>
    (hosted.rooted.add (.mk info []) (differs _ hosted.host)).1

theorem times {r : Reading α} (one : Tidy host r) (count : Nat) :
    Tidy host (Reading.times count r) := by
  induction count with
  | zero => exact .pure []
  | succ count ih => exact one.bind fun _ => ih.bind fun _ => .pure _

theorem looping {r : Reading α} (slot : Nat) (start : Instruction) (within : Tidy host r) :
    Tidy host (Reading.looping slot start r) := by
  intro c g
  simp only [Reading.looping, run_bind, run_get, carry_ok]
  refine (within c g).carry fun a d h _ keeps hosted => ?_
  dsimp only [Option.map]
  split
  · exact .done (keeps.trans (Generator.keeps_loopChild _ _ _ _)) fun before =>
      (hosted before).rooted.loopChild _ _ _
  · exact .done keeps fun before => (hosted before).rooted

/-- a step into a node, with all that comes after it -/
theorem entering {f : Generator → Generator} {rest : Unit → Reading β}
    (enters : ∀ g, Enters host inner g (f g)) (within : Returning host inner (rest ())) :
    Tidy host (Reading.contribute f >>= rest) := by
  intro c g
  simpa using within c g (f g) (enters g)

end Tidy

namespace Returning

/-- a reading before the step out -/
theorem bind {r : Reading α} {f : α → Reading β} (first : Tidy inner r)
    (rest : ∀ a, Returning host inner (f a)) : Returning host inner (r >>= f) := by
  intro c g h enters
  rw [run_bind]
  have outcome := first c h
  cases ran : r.run { cursor := c, generator := some h } with
  | mk result progress =>
    rw [ran] at outcome
    cases outcome with
    | done keeps rooted =>
      exact rest _ _ g _ (enters.keep keeps fun hosted => hosted.keep keeps (rooted hosted))
    | failed plain below rooted =>
      have saved : g.saved <:+ h.saved := enters.entered ▸ List.suffix_cons _ _
      exact .failed plain (saved.trans below) fun before => rooted (enters.hosted before)

/-- the step out, with all that comes after it -/
theorem leave {rest : Unit → Reading β} (outer : Tidy host (rest ())) :
    Returning host inner (Reading.leave >>= rest) := by
  intro c g h enters
  obtain ⟨left, popped, back⟩ := enters.entered.pop (.refl h)
  have keeps : Keeps g left := by
    have kept := enters.entered.left enters.grown (.refl h)
    unfold Generator.left at kept
    rw [popped] at kept
    exact kept
  rw [run_bind, run_leave_some, popped]
  exact (outer c left).from keeps fun before =>
    before.keep keeps ((enters.hosted before).rooted.pop popped)

end Returning

end Reading

end Baskets

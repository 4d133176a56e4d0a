import Baskets.Reading.Streamed

/-!
# Runs of readings

A `Reading` is a function of its `Progress`, and these are its equations: what a sequence does is
what its first part does and then, unless that failed, what the second part does from there.
`run_bind_ok` is the form in which a successful read is taken apart.
-/

namespace Baskets

namespace Scan

@[simp] theorem run_bind {α β : Type} (s : Scan α) (f : α → Scan β) (c : Cursor) :
    (s >>= f).run c = match s.run c with
      | (.ok a, d) => (f a).run d
      | (.error fault, d) => (.error fault, d) := by
  show (do let x ← s; f x : Scan β) c = _
  simp only [bind, ExceptT.bind, ExceptT.mk, StateT.bind]
  show (match s c with | (x, d) => ExceptT.bindCont f x d) = _
  unfold run
  cases s c with
  | mk result d => cases result <;> rfl

/-! ### the four moves -/

@[simp] theorem run_take (n : Nat) (c : Cursor) : (take n).run c = if c.pos + n ≤ c.data.size then
    (.ok (c.data.extract c.pos (c.pos + n)), { c with pos := c.pos + n })
    else (.error (.underflow c.pos n c.remaining), c) := by
  unfold take
  rw [run_bind]
  show (if c.pos + n ≤ c.data.size then _ else _ : Scan Bytes).run c = _
  split <;> rfl

@[simp] theorem run_skip (n : Nat) (c : Cursor) : (skip n).run c = if c.pos + n ≤ c.data.size then
    (.ok (), { c with pos := c.pos + n })
    else (.error (.underflow c.pos n c.remaining), c) := by
  unfold skip
  rw [run_bind]
  show (if c.pos + n ≤ c.data.size then _ else _ : Scan Unit).run c = _
  split <;> rfl

@[simp] theorem run_stepBack (n : Nat) (c : Cursor) : (stepBack n).run c = if n ≤ c.pos then
    (.ok (), { c with pos := c.pos - n })
    else (.error (.malformed (.stepBack n c.pos)), c) := by
  unfold stepBack
  rw [run_bind]
  show (if n ≤ c.pos then _ else _ : Scan Unit).run c = _
  split <;> rfl

@[simp] theorem run_moveTo (pos : Nat) (c : Cursor) : (moveTo pos).run c = if pos ≤ c.data.size then
    (.ok (), { c with pos := pos })
    else (.error (.underflow c.pos (pos - c.pos) c.remaining), c) := by
  unfold moveTo
  rw [run_bind]
  show (if pos ≤ c.data.size then _ else _ : Scan Unit).run c = _
  split <;> rfl

theorem run_bind_ok {α β : Type} {s : Scan α} {f : α → Scan β} {c d : Cursor} {b : β}
    (h : (s >>= f).run c = (.ok b, d)) :
    ∃ a e, s.run c = (.ok a, e) ∧ (f a).run e = (.ok b, d) := by
  rw [run_bind] at h
  cases hs : s.run c with
  | mk result e =>
    rw [hs] at h
    cases result with
    | error fault => cases h
    | ok a => exact ⟨a, e, rfl, h⟩

end Scan

namespace Reading

/-- goes on after a success, from where it left the progress -/
def carry {α β : Type} (next : α → Progress → Except Fault β × Progress) :
    Except Fault α × Progress → Except Fault β × Progress
  | (.ok a, p) => next a p
  | (.error fault, p) => (.error fault, p)

@[simp] theorem carry_ok {α β : Type} (next : α → Progress → Except Fault β × Progress) (a : α)
    (p : Progress) : carry next (.ok a, p) = next a p := rfl

@[simp] theorem carry_error {α β : Type} (next : α → Progress → Except Fault β × Progress)
    (fault : Fault) (p : Progress) : carry next (.error fault, p) = (.error fault, p) := rfl

theorem carry_congr {α β : Type} {f g : α → Progress → Except Fault β × Progress}
    {result : Except Fault α × Progress}
    (same : ∀ a p, result = (.ok a, p) → f a p = g a p) : carry f result = carry g result := by
  obtain ⟨result, p⟩ := result
  cases result with
  | error fault => rfl
  | ok a => exact same a p rfl

@[simp] theorem run_bind {α β : Type} (r : Reading α) (f : α → Reading β) (p : Progress) :
    (r >>= f).run p = carry (fun a => (f a).run) (r.run p) := by
  show (do let x ← r; f x : Reading β) p = _
  simp only [bind, ExceptT.bind, ExceptT.mk, StateT.bind]
  show (match r p with | (x, q) => ExceptT.bindCont f x q) = _
  unfold run
  cases r p with
  | mk result q => cases result <;> rfl

@[simp] theorem run_get (p : Progress) : (get : Reading Progress).run p = (.ok p, p) := rfl

@[simp] theorem run_scan {α : Type} (s : Scan α) (p : Progress) :
    (scan s).run p = ((s.run p.cursor).1, { p with cursor := (s.run p.cursor).2 }) := rfl

@[simp] theorem run_contribute (f : Generator → Generator) (p : Progress) :
    (contribute f).run p = (.ok (), { p with generator := p.generator.map f }) := rfl

@[simp]
theorem run_generating (p : Progress) : generating.run p = (.ok p.generator.isSome, p) := rfl

@[simp] theorem run_leave_none (c : Cursor) :
    leave.run { cursor := c, generator := none } = (.ok (), { cursor := c, generator := none }) := rfl

@[simp] theorem run_leave_some (c : Cursor) (g : Generator) :
    leave.run { cursor := c, generator := some g } = match g.pop with
      | .ok left => (.ok (), { cursor := c, generator := some left })
      | .error fault => (.error fault, { cursor := c, generator := some g }) := by
  simp only [leave, run_bind, run_get, carry_ok]
  cases g.pop <;> rfl

/-- a successful read in two parts -/
theorem run_bind_ok {α β : Type} {r : Reading α} {f : α → Reading β} {p q : Progress} {b : β}
    (h : (r >>= f).run p = (.ok b, q)) :
    ∃ a m, r.run p = (.ok a, m) ∧ (f a).run m = (.ok b, q) := by
  rw [run_bind] at h
  cases hr : r.run p with
  | mk result m =>
    rw [hr] at h
    cases result with
    | error fault => cases h
    | ok a => exact ⟨a, m, rfl, h⟩

end Reading

end Baskets

import Baskets.Primitive
import Baskets.Proofs.Reading.Run

/-!
# Scans with other bytes around

`Surroundings` put bytes in front of some others and behind them.  With these around, positions are
counted from further off, and there is more to read behind the end; so what failed for want of bytes
may succeed, but a scan that succeeds takes the same bytes and stops at the same place.

`Scan.Moves` says this of two scans, because a scan that goes to a position has to be sent further
there.  What the one gives, the other gives moved: positions are shifted, and all else stays as it
is (`Scan.Stays`).
-/

namespace Baskets

/-- bytes, with others in front of them and others behind -/
structure Surroundings where
  before : Bytes
  bytes : Bytes
  after : Bytes

namespace Surroundings

variable (around : Surroundings)

/-- a position in the bytes, counted from the start of all -/
def shift (pos : Nat) : Nat := around.before.size + pos

/-- a place in the bytes alone -/
def inner (pos : Nat) : Cursor := { data := around.bytes, pos }

/-- the same place with the others around -/
def outer (pos : Nat) : Cursor :=
  { data := around.before ++ around.bytes ++ around.after, pos := around.shift pos }

@[simp] theorem shift_add (pos n : Nat) : around.shift (pos + n) = around.shift pos + n :=
  (Nat.add_assoc _ _ _).symm

@[simp]
theorem shift_sub_shift (stop start : Nat) : around.shift stop - around.shift start = stop - start :=
  Nat.add_sub_add_left _ _ _

theorem shift_le_size {pos : Nat} (inside : pos ≤ around.bytes.size) :
    around.shift pos ≤ (around.before ++ around.bytes ++ around.after).size := by
  rw [Array.size_append, Array.size_append]
  unfold shift
  omega

theorem extract_shift {start stop : Nat} (inside : stop ≤ around.bytes.size) :
    (around.before ++ around.bytes ++ around.after).extract (around.shift start)
      (around.shift stop) = around.bytes.extract start stop := by
  have none_before : around.before.extract (around.before.size + start)
      (around.before.size + stop) = #[] :=
    Array.extract_eq_empty_of_le (by omega)
  have none_after : around.after.extract (start - around.bytes.size) (stop - around.bytes.size) =
      #[] :=
    Array.extract_eq_empty_of_le (by omega)
  unfold shift
  rw [Array.append_assoc, Array.extract_append, Array.extract_append, none_before,
    Nat.add_sub_cancel_left, Nat.add_sub_cancel_left, none_after, Array.append_empty,
    Array.empty_append]

end Surroundings

namespace Scan

variable {around : Surroundings} {α β α' β' : Type}

/-- what the one scan gives in the bytes alone, the other gives moved with the others around -/
def Moves (around : Surroundings) (move : α → α') (s : Scan α) (s' : Scan α') : Prop :=
  ∀ pos a d, s.run (around.inner pos) = (.ok a, d) → ∃ stop, d = around.inner stop ∧
    s'.run (around.outer pos) = (.ok (move a), around.outer stop)

/-- gives the same with any bytes around -/
def Stays (s : Scan α) : Prop := ∀ around, Moves around id s s

namespace Moves

variable {move : α → α'} {move' : β → β'}

theorem pure (a : α) : Moves around move (Pure.pure a) (Pure.pure (move a)) := by
  intro pos b d ran
  cases ran
  exact ⟨pos, rfl, rfl⟩

theorem throw {fault : Fault} {s : Scan α'} :
    Moves around move (MonadExcept.throw fault : Scan α) s :=
  fun _ _ _ ran => nomatch ran

theorem throw_bind {fault : Fault} {f : β → Scan α} {s : Scan α'} :
    Moves around move ((MonadExcept.throw fault : Scan β) >>= f) s :=
  fun _ _ _ ran => nomatch ran

theorem bind {s : Scan α} {s' : Scan α'} {f : α → Scan β} {f' : α' → Scan β'}
    (first : Moves around move s s') (rest : ∀ a, Moves around move' (f a) (f' (move a))) :
    Moves around move' (s >>= f) (s' >>= f') := by
  intro pos b d ran
  obtain ⟨a, e, ran, ran'⟩ := run_bind_ok ran
  obtain ⟨stop, rfl, moved⟩ := first pos a e ran
  simpa [moved] using rest a stop b d ran'

theorem pos : Moves around around.shift Scan.pos Scan.pos := by
  intro pos a d ran
  cases ran
  exact ⟨pos, rfl, rfl⟩

theorem moveTo (stop : Nat) :
    Moves around id (Scan.moveTo stop) (Scan.moveTo (around.shift stop)) := by
  intro pos a d ran
  rw [run_moveTo] at ran
  split at ran
  · rename_i inside
    cases ran
    refine ⟨stop, rfl, ?_⟩
    rw [run_moveTo]
    exact if_pos (around.shift_le_size inside)
  · cases ran

end Moves

namespace Stays

theorem pure (a : α) : Stays (Pure.pure a) := fun _ => .pure a

theorem throw (fault : Fault) : Stays (MonadExcept.throw fault : Scan α) := fun _ => .throw

theorem bind {s : Scan α} {f : α → Scan β} (first : Stays s) (rest : ∀ a, Stays (f a)) :
    Stays (s >>= f) :=
  fun around => (first around).bind fun a => rest a around

theorem take (n : Nat) : Stays (Scan.take n) := by
  intro around pos bytes d ran
  rw [run_take] at ran
  split at ran
  · rename_i inside
    cases ran
    have inside : pos + n ≤ around.bytes.size := inside
    have inside' := around.shift_le_size inside
    have same := @Surroundings.extract_shift around pos (pos + n) inside
    rw [around.shift_add] at inside' same
    refine ⟨pos + n, rfl, ?_⟩
    rw [run_take]
    unfold Surroundings.outer Surroundings.inner
    rw [if_pos inside', same, around.shift_add]
    rfl
  · cases ran

theorem skip (n : Nat) : Stays (Scan.skip n) := by
  intro around pos _ d ran
  rw [run_skip] at ran
  split at ran
  · rename_i inside
    cases ran
    have inside' := around.shift_le_size inside
    rw [around.shift_add] at inside'
    refine ⟨pos + n, rfl, ?_⟩
    rw [run_skip]
    unfold Surroundings.outer
    rw [around.shift_add]
    exact if_pos inside'
  · cases ran

theorem stepBack (n : Nat) : Stays (Scan.stepBack n) := by
  intro around pos _ d ran
  rw [run_stepBack] at ran
  split at ran
  · rename_i inside
    cases ran
    have back : around.shift (pos - n) = around.shift pos - n := (Nat.add_sub_assoc inside _).symm
    refine ⟨pos - n, rfl, ?_⟩
    rw [run_stepBack]
    unfold Surroundings.outer
    rw [back]
    exact if_pos (Nat.le_add_left_of_le inside)
  · cases ran

theorem unsigned (width : Nat) : Stays (Scan.unsigned width) := .bind (.take width) fun _ => .pure _

theorem signed (width : Nat) : Stays (Scan.signed width) := .bind (.take width) fun _ => .pure _

theorem string : Stays Scan.string := by
  have characters (length : Nat) : Stays (do return Text.lossy (← Scan.take length)) :=
    .bind (.take length) fun _ => .pure _
  refine .bind (.unsigned 1) fun short => ?_
  dsimp only
  split
  · exact .bind (.unsigned 4) characters
  · exact .bind (.pure short) characters

theorem versionHeader : Stays Scan.versionHeader := by
  refine .bind (.unsigned 4) fun first => ?_
  split
  · exact .bind (.unsigned 2) fun _ => .pure _
  · exact .bind (.stepBack 2) fun _ => .pure _

theorem objectHead : Stays Scan.objectHead := by
  have numbers : Stays (do
      let unique ← Scan.unsigned 4
      let bits := (← Scan.unsigned 4) ||| 0x1000000
      if bits.testBit 4 then Scan.skip 2
      return (unique, bits)) := by
    refine .bind (.unsigned 4) fun unique => .bind (.unsigned 4) fun bits => ?_
    dsimp only
    split
    · exact .bind (.skip 2) fun _ => .pure _
    · exact .pure _
  refine .bind (.unsigned 2) fun version => ?_
  dsimp only
  split
  · exact .bind (.skip 4) fun _ => numbers
  · exact numbers

theorem primitive (p : Primitive) : Stays p.scan := by
  cases p with
  | bool => exact .bind (.bind (.unsigned 1) fun _ => .pure _) fun _ => .pure _
  | int8 | int16 | int32 | int64 => exact .bind (.signed _) fun _ => .pure _
  | uint8 | uint16 | uint32 | uint64 | float32 | float64 =>
    exact .bind (.unsigned _) fun _ => .pure _

/-- the number of bytes that a scan goes on by stays the same as well -/
theorem measured {s : Scan α} (stays : Stays s) : Stays (do
    let start ← Scan.pos
    let a ← s
    return (a, (← Scan.pos) - start)) := by
  intro around
  refine Moves.bind .pos fun start => (stays around).bind fun a => ?_
  refine Moves.bind .pos fun stop => ?_
  rw [around.shift_sub_shift]
  exact .pure _

end Stays

end Scan

end Baskets

import Baskets.Proofs.Scan.Header

/-!
# Scans of one stretch of bytes

All scans take their bytes through scans that take so many at once or, for want of them, none
(`Scan.Fixed`).  What is composed of these can stop half way; but it stops onward from its start, in
its bytes, and says how many there are and how many more are needed (`Scan.Wants`).
-/

namespace Baskets

namespace Cursor

variable {c : Cursor} {a b : Bytes}

/-- there is one stretch of bytes of each length at a cursor -/
theorem Has.eq_of_size (has : c.Has a) (has' : c.Has b) (size : a.size = b.size) : a = b := by
  have here := has.extract
  have there := has'.extract
  rw [size] at here
  exact here.symm.trans there

theorem has_empty (inside : c.pos ≤ c.data.size) : c.Has #[] := by
  have none := has_extract (n := 0) inside
  rw [Nat.add_zero, Array.extract_eq_empty_of_le (Nat.min_le_left _ _)] at none
  exact none

end Cursor

/-! ## scans of one stretch -/

namespace Scan

variable {α β : Type} {a : α} {c d : Cursor} {n : Nat} {s : Scan α}

/-- takes `n` bytes, or stays where it is for want of them -/
def Fixed (n : Nat) (s : Scan α) : Prop :=
  ∀ c : Cursor, if c.pos + n ≤ c.data.size then ∃ a, s.Takes c a { c with pos := c.pos + n }
    else s.run c = (.error (.underflow c.pos n c.remaining), c)

namespace Fixed

theorem takes (fixed : Fixed n s) (c : Cursor) (room : c.pos + n ≤ c.data.size) :
    ∃ a, s.Takes c a { c with pos := c.pos + n } := by
  have here := fixed c
  rwa [if_pos room] at here

theorem take (n : Nat) : Fixed n (Scan.take n) := by
  intro c
  split
  · rename_i room
    exact ⟨_, takes_take room⟩
  · rename_i short
    simp [short]

theorem skip (n : Nat) : Fixed n (Scan.skip n) := by
  intro c
  split
  · rename_i room
    exact ⟨(), skip_takes_iff.2 ⟨room, rfl⟩⟩
  · rename_i short
    simp [short]

/-- a scan whose result is only converted -/
theorem map (fixed : Fixed n s) (f : α → β) : Fixed n (do return f (← s) : Scan β) := by
  intro c
  split
  · rename_i room
    obtain ⟨a, takes⟩ := fixed.takes c room
    exact ⟨f a, takes.bind rfl⟩
  · rename_i short
    have here := fixed c
    rw [if_neg short] at here
    rw [run_bind, here]

theorem unsigned (width : Nat) : Fixed width (Scan.unsigned width) := (take width).map Bytes.big

theorem signed (width : Nat) : Fixed width (Scan.signed width) := (take width).map Bytes.bigSigned

theorem primitive (p : Primitive) : Fixed p.width p.scan := by
  cases p with
  | bool => exact ((unsigned 1).map (· != 0)).map Value.bool
  | int8 | int16 | int32 | int64 => exact (signed _).map Value.int
  | uint8 | uint16 | uint32 | uint64 => exact (unsigned _).map Value.uint
  | float32 => exact (unsigned 4).map fun bits => Value.double (Double.ofSingle bits)
  | float64 => exact (unsigned 8).map fun bits => Value.double (UInt64.ofNat bits)

theorem room (fixed : Fixed n s) (takes : s.Takes c a d) :
    c.pos + n ≤ c.data.size ∧ d = { c with pos := c.pos + n } := by
  have here := fixed c
  split at here
  · rename_i room
    obtain ⟨b, other⟩ := here
    have same := takes.run.symm.trans other.run
    exact ⟨room, congrArg Prod.snd same⟩
  · rw [takes.run] at here
    cases here

/-- what was taken stands there -/
theorem has (fixed : Fixed n s) (takes : s.Takes c a d) :
    ∃ bytes : Bytes, bytes.size = n ∧ c.Has bytes ∧ d = c.past bytes := by
  obtain ⟨room, rfl⟩ := fixed.room takes
  exact Cursor.exists_has room

theorem forward (fixed : Fixed n s) (takes : s.Takes c a d) : Forward c d := by
  obtain ⟨room, rfl⟩ := fixed.room takes
  exact ⟨rfl, Nat.le_add_right _ _, room⟩

theorem stays (fixed : Fixed n s) {fault : Fault} (ran : s.run c = (.error fault, d)) :
    c.data.size < c.pos + n ∧ fault = .underflow c.pos n c.remaining ∧ d = c := by
  have here := fixed c
  split at here
  · obtain ⟨a, takes⟩ := here
    rw [takes.run] at ran
    cases ran
  · rename_i short
    rw [here] at ran
    cases ran
    exact ⟨Nat.lt_of_not_le short, rfl, rfl⟩

end Fixed

/-! ## scans that run out of bytes -/

/-- at a place onward from `c` there were fewer bytes than were needed, and the fault says how many
of each -/
structure Short (c : Cursor) (fault : Fault) (d : Cursor) : Prop where
  data : d.data = c.data
  onward : c.pos ≤ d.pos
  inside : d.pos ≤ d.data.size
  figures : ∃ need available, fault = .underflow d.pos need available ∧ available < need ∧
    d.pos + available = d.data.size

/-- at `c` the scan fails only for want of bytes -/
def Wants (s : Scan α) (c : Cursor) : Prop :=
  ∀ fault d, s.run c = (.error fault, d) → Short c fault d

namespace Wants

theorem pure (a : α) : Wants (Pure.pure a) c := fun _ _ ran => nomatch ran

theorem bind {f : α → Scan β} (first : Wants s c)
    (rest : ∀ a d, s.Takes c a d → Forward c d ∧ Wants (f a) d) : Wants (s >>= f) c := by
  intro fault d ran
  rw [run_bind] at ran
  cases step : s.run c with
  | mk result e =>
    rw [step] at ran
    cases result with
    | error other =>
      cases ran
      exact first _ _ step
    | ok a =>
      obtain ⟨forward, wants⟩ := rest a e step
      obtain ⟨data, onward, inside, figures⟩ := wants fault d ran
      exact ⟨data.trans forward.data, forward.pos.trans onward, inside, figures⟩

end Wants

theorem Fixed.wants (fixed : Fixed n s) (inside : c.pos ≤ c.data.size) : Wants s c := by
  intro fault d ran
  obtain ⟨short, rfl, rfl⟩ := fixed.stays ran
  have left : d.pos + d.remaining = d.data.size := Nat.add_sub_cancel' inside
  exact ⟨rfl, Nat.le_refl _, inside, n, d.remaining, rfl, by omega, left⟩

/-- what follows a scan of one stretch begins in the bytes as well -/
theorem Fixed.andThen {f : α → Scan β} (fixed : Fixed n s) (inside : c.pos ≤ c.data.size)
    (rest : ∀ a d, s.Takes c a d → d.pos ≤ d.data.size → Wants (f a) d) : Wants (s >>= f) c :=
  .bind (fixed.wants inside) fun a d takes =>
    ⟨fixed.forward takes, rest a d takes (fixed.forward takes).size⟩

theorem wants_string (inside : c.pos ≤ c.data.size) : Wants string c := by
  have characters (length : Nat) {d : Cursor} (inside : d.pos ≤ d.data.size) :
      Wants (do return Text.lossy (← take length)) d :=
    (Fixed.take length).andThen inside fun _ _ _ _ => .pure _
  refine (Fixed.unsigned 1).andThen inside fun short d _ inside => ?_
  dsimp only
  split
  · exact (Fixed.unsigned 4).andThen inside fun length _ _ inside => characters length inside
  · exact characters short inside

theorem wants_versionHeader (inside : c.pos ≤ c.data.size) : Wants versionHeader c := by
  refine (Fixed.unsigned 4).andThen inside fun first d takes inside => ?_
  split
  · exact (Fixed.unsigned 2).andThen inside fun _ _ _ _ => .pure _
  · -- of the four bytes that were taken, two can be given back
    obtain ⟨-, rfl⟩ := (Fixed.unsigned 4).room takes
    intro fault e ran
    have back : 2 ≤ c.pos + 4 := Nat.le_add_left_of_le (by decide)
    rw [run_bind, run_stepBack, if_pos back] at ran
    cases ran

theorem wants_objectHead (inside : c.pos ≤ c.data.size) : Wants objectHead c := by
  have numbers {d : Cursor} (inside : d.pos ≤ d.data.size) : Wants (do
      let unique ← unsigned 4
      let bits := (← unsigned 4) ||| 0x1000000
      if bits.testBit 4 then skip 2
      return (unique, bits)) d := by
    refine (Fixed.unsigned 4).andThen inside fun unique d _ inside => ?_
    refine (Fixed.unsigned 4).andThen inside fun bits d _ inside => ?_
    dsimp only
    split
    · exact (Fixed.skip 2).andThen inside fun _ _ _ _ => .pure _
    · exact .pure _
  refine (Fixed.unsigned 2).andThen inside fun version d _ inside => ?_
  dsimp only
  split
  · exact (Fixed.skip 4).andThen inside fun _ _ _ inside => numbers inside
  · exact numbers inside

/-! ## what was read -/

theorem exists_of_unsigned {width : Nat} {f : Nat → Scan β} {b : β}
    (takes : (unsigned width >>= f).Takes c b d) :
    ∃ bytes : Bytes, bytes.size = width ∧ c.Has bytes ∧ (f bytes.big).Takes (c.past bytes) b d := by
  obtain ⟨n, e, first, rest⟩ := takes_bind takes
  obtain ⟨bytes, e, taken, number⟩ := takes_bind first
  obtain ⟨rfl, rfl⟩ := takes_pure number
  obtain ⟨size, has, rfl⟩ := has_of_take taken
  exact ⟨bytes, size, has, rest⟩

/-- a stretch that is skipped or not there -/
theorem exists_skipped {skipped : Bool} (inside : c.pos ≤ c.data.size)
    (takes : (if skipped then (do skip n; s) else s).Takes c a d) :
    ∃ bytes : Bytes, bytes.size = (if skipped then n else 0) ∧ c.Has bytes ∧
      s.Takes (c.past bytes) a d := by
  cases skipped with
  | true =>
    obtain ⟨⟨⟩, e, first, rest⟩ := takes_bind takes
    obtain ⟨bytes, size, has, rfl⟩ := (Fixed.skip n).has first
    exact ⟨bytes, size, has, rest⟩
  | false => exact ⟨#[], rfl, Cursor.has_empty inside, takes⟩

end Scan

end Baskets

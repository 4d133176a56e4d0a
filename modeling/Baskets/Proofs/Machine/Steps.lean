import Baskets.Proofs.Machine.Text
import Baskets.Proofs.Trace.Reading

/-!
# What commands do

`Command.Steps` says what a run of commands does to a machine: where in the input it begins and
ends, what it takes from the stack and leaves there, and what it writes.  The stack below and the
columns may be anything.  Numbers and texts are moved as the scans of the reader take them.
-/

namespace Baskets

/-! ## writes -/

/-- what comes behind what is in a column -/
inductive Write where
  /-- a value, to the data of the place -/
  | value (place : Place) (value : Value)
  /-- the length of a list, to the offsets of the place -/
  | count (place : Place) (count : Nat)
deriving BEq, Repr

namespace Write

def write : Write → Columns → Columns
  | .value place v, columns => columns.append (place.name ++ "-data") v
  | .count place n, columns => columns.accumulate (place.name ++ "-offsets") n

def all : List Write → Columns → Columns
  | [], columns => columns
  | first :: rest, columns => all rest (first.write columns)

@[simp] theorem all_append (writes others : List Write) (columns : Columns) :
    all (writes ++ others) columns = all others (all writes columns) := by
  induction writes generalizing columns with
  | nil => rfl
  | cons first rest ih => exact ih (first.write columns)

end Write

/-! ## steps -/

namespace Command

/-- the commands move from `c` to `d`, put `after` in the place of `before` on the stack, and write
what they write -/
def Steps (commands : List Command) (c : Cursor) (before : List Int) (d : Cursor)
    (after : List Int) (writes : List Write) : Prop :=
  ∀ (stack : List Int) (columns : Columns),
    execAll commands { cursor := c, stack := before ++ stack, columns } =
      some { cursor := d, stack := after ++ stack, columns := Write.all writes columns }

variable {commands others : List Command} {c d e : Cursor} {before after last : List Int}
  {writes more : List Write} {place : Place} {p : Primitive}

@[simp] theorem execAll_append (commands others : List Command) (m : Machine) :
    execAll (commands ++ others) m = (execAll commands m).bind (execAll others) := by
  induction commands generalizing m with
  | nil => rw [List.nil_append, execAll, Option.bind_some]
  | cons command commands ih =>
    show (command.exec m).bind (execAll (commands ++ others)) =
      ((command.exec m).bind (execAll commands)).bind (execAll others)
    rw [Option.bind_assoc]
    congr 1
    funext next
    exact ih next

theorem steps_nil (c : Cursor) (stack : List Int) : Steps [] c stack c stack [] :=
  fun _ _ => rfl

theorem Steps.append (first : Steps commands c before d after writes)
    (second : Steps others d after e last more) :
    Steps (commands ++ others) c before e last (writes ++ more) := by
  intro stack columns
  simp [first stack columns, second stack]

/-- more may be on the stack -/
theorem Steps.below (steps : Steps commands c before d after writes) (stack : List Int) :
    Steps commands c (before ++ stack) d (after ++ stack) writes := by
  intro rest columns
  rw [List.append_assoc, List.append_assoc]
  exact steps (stack ++ rest) columns

theorem steps_single {command : Command}
    (does : ∀ (stack : List Int) (columns : Columns),
      command.exec { cursor := c, stack := before ++ stack, columns } =
        some { cursor := d, stack := after ++ stack, columns := Write.all writes columns }) :
    Steps [command] c before d after writes := by
  intro stack columns
  show (command.exec _).bind some = _
  rw [does stack columns]
  rfl

/-! ### the stack -/

theorem steps_push (c : Cursor) (n : Int) : Steps [.push n] c [] c [n] [] :=
  steps_single fun _ _ => rfl

theorem steps_dup (c : Cursor) (n : Int) : Steps [.dup] c [n] c [n, n] [] :=
  steps_single fun _ _ => rfl

theorem steps_count (place : Place) (c : Cursor) (count : Nat) :
    Steps [.dup, .accumulate (place.name ++ "-offsets")] c [count] c [count]
      [.count place count] := by
  have add : Steps [.accumulate (place.name ++ "-offsets")] c [count, count] c [count]
      [.count place count] := steps_single fun _ _ => rfl
  exact (steps_dup c count).append add

/-! ### the input -/

theorem scan_takes {α : Type} {s : Scan α} {a : α} (takes : s.Takes c a d) (stack : List Int)
    (columns : Columns) : Machine.scan s { cursor := c, stack, columns } =
      some (a, { cursor := d, stack, columns }) := by
  unfold Machine.scan
  rw [show s.run c = (.ok a, d) from takes]

theorem steps_skip {n : Nat} (takes : (Scan.skip n).Takes c () d) :
    Steps [.push n, .skip] c [] d [] [] := by
  have skips : Steps [.skip] c [n] d [] [] := by
    refine steps_single fun stack columns => ?_
    show (Machine.scan (Scan.skip n) { cursor := c, stack, columns }).map Prod.snd = _
    rw [scan_takes takes]
    rfl
  exact (steps_push c n).append skips

theorem steps_take {value : Value} {n : Int} (takes : p.scan.Takes c value d)
    (whole : value.whole? = some n) : Steps [.take p] c [] d [n] [] := by
  refine steps_single fun stack columns => ?_
  show (Machine.scan p.scan { cursor := c, stack, columns } >>= _) = _
  rw [scan_takes takes]
  show (value.whole? >>= _) = _
  rw [whole]
  rfl

theorem readInto_takes {value : Value} (place : Place) (takes : p.scan.Takes c value d)
    (stack : List Int) (columns : Columns) :
    Machine.readInto p (place.name ++ "-data") { cursor := c, stack, columns } =
      some { cursor := d, stack, columns := Write.all [.value place value] columns } := by
  unfold Machine.readInto
  rw [scan_takes takes]
  rfl

theorem steps_read {value : Value} (place : Place) (takes : p.scan.Takes c value d) :
    Steps [.read p (place.name ++ "-data")] c [] d [] [.value place value] :=
  steps_single fun stack columns => readInto_takes place takes stack columns

/-- numbers of one type, one after the other -/
inductive Numbers (p : Primitive) : Cursor → List Value → Cursor → Prop where
  | nil {c : Cursor} : Numbers p c [] c
  | cons {c d e : Cursor} {first : Value} {rest : List Value} (takes : p.scan.Takes c first d)
    (others : Numbers p d rest e) : Numbers p c (first :: rest) e

theorem steps_readMany {values : List Value} (place : Place) (numbers : Numbers p c values d) :
    Steps [.readMany p (place.name ++ "-data")] c [values.length] d []
      (values.map (.value place)) := by
  have moves : ∀ (stack : List Int) (columns : Columns),
      Machine.times (Machine.readInto p (place.name ++ "-data")) values.length
        { cursor := c, stack, columns } =
      some { cursor := d, stack, columns := Write.all (values.map (.value place)) columns } := by
    induction numbers with
    | nil => exact fun _ _ => rfl
    | cons takes others ih =>
      intro stack columns
      show (Machine.readInto p _ _).bind _ = _
      rw [readInto_takes place takes]
      exact ih stack _
  exact steps_single moves

/-! ### loops -/

/-- a chain of rounds, each from where the one before it ended -/
inductive Rounds (body : List Command) : Cursor → Nat → Cursor → List Write → Prop where
  | nil {c : Cursor} : Rounds body c 0 c []
  | cons {c d e : Cursor} {count : Nat} {writes more : List Write}
    (first : Steps body c [] d [] writes) (rest : Rounds body d count e more) :
    Rounds body c (count + 1) e (writes ++ more)

theorem steps_loop {count : Nat} (rounds : Rounds commands c count d writes) :
    Steps [.loop commands] c [0, count] d [] writes := by
  have runs : ∀ (stack : List Int) (columns : Columns),
      Machine.times (fun m => execAll commands m) count { cursor := c, stack, columns } =
      some { cursor := d, stack, columns := Write.all writes columns } := by
    induction rounds with
    | nil => exact fun _ _ => rfl
    | cons first rest ih =>
      intro stack columns
      show (execAll commands _).bind _ = _
      rw [show execAll commands { cursor := _, stack, columns } = _ from first stack columns,
        Write.all_append]
      exact ih stack _
  refine steps_single fun stack columns => ?_
  show Machine.times _ ((count : Int) - 0).toNat { cursor := c, stack, columns } = _
  rw [Int.sub_zero, Int.toNat_natCast]
  exact runs stack columns

end Command

end Baskets

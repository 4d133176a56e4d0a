import Baskets.Proofs.Machine.Steps

/-!
# The scans of the reader on the machine

What the reader takes by one scan the machine takes by one line of a decoder.  A header only has to
be passed over: wherever its scan went, it went forward in the same bytes (`Scan.Forward`), so a skip
of as many bytes comes to the same place.  A text is taken at once by the reader and byte by byte by
the machine.
-/

namespace Baskets

/-! ## scans of the reader -/

namespace Scan

variable {α β : Type} {c d e : Cursor} {a : α} {b : β}

theorem Takes.bind {s : Scan α} {f : α → Scan β} (first : s.Takes c a d)
    (second : (f a).Takes d b e) : (s >>= f).Takes c b e := by
  unfold Takes
  rw [run_bind, first.run]
  exact second

/-- the cursor went on in the same bytes -/
structure Forward (c d : Cursor) : Prop where
  data : d.data = c.data
  pos : c.pos ≤ d.pos
  size : d.pos ≤ d.data.size

theorem Forward.trans (first : Forward c d) (second : Forward d e) : Forward c e :=
  ⟨second.data.trans first.data, Nat.le_trans first.pos second.pos, second.size⟩

theorem take_takes {n : Nat} {bytes : Bytes} (takes : (take n).Takes c bytes d) :
    c.pos + n ≤ c.data.size ∧ bytes = c.data.extract c.pos (c.pos + n) ∧
      d = { c with pos := c.pos + n } := by
  have run := run_take n c
  rw [takes.run] at run
  split at run
  · cases run
    exact ⟨‹_›, rfl, rfl⟩
  · cases run

theorem skip_takes_iff {n : Nat} : (skip n).Takes c () d ↔
    c.pos + n ≤ c.data.size ∧ d = { c with pos := c.pos + n } := by
  unfold Takes
  rw [run_skip]
  constructor
  · intro takes
    split at takes
    · cases takes
      exact ⟨‹_›, rfl⟩
    · cases takes
  · rintro ⟨inside, rfl⟩
    rw [if_pos inside]

theorem forward_take {n : Nat} {bytes : Bytes} (takes : (take n).Takes c bytes d) :
    Forward c d := by
  obtain ⟨inside, -, rfl⟩ := take_takes takes
  exact ⟨rfl, Nat.le_add_right _ _, inside⟩

theorem unsigned_takes {width n : Nat} (takes : (unsigned width).Takes c n d) :
    c.pos + width ≤ c.data.size ∧ d = { c with pos := c.pos + width } := by
  obtain ⟨bytes, e, first, rest⟩ := takes_bind takes
  obtain ⟨-, rfl⟩ := takes_pure rest
  obtain ⟨inside, -, rfl⟩ := take_takes first
  exact ⟨inside, rfl⟩

theorem forward_unsigned {width n : Nat} (takes : (unsigned width).Takes c n d) : Forward c d := by
  obtain ⟨inside, rfl⟩ := unsigned_takes takes
  exact ⟨rfl, Nat.le_add_right _ _, inside⟩

theorem forward_skip {n : Nat} (takes : (skip n).Takes c () d) : Forward c d := by
  obtain ⟨inside, rfl⟩ := skip_takes_iff.1 takes
  exact ⟨rfl, Nat.le_add_right _ _, inside⟩

/-- a version header looks at four bytes, and takes two or more -/
theorem versionHeader_takes {header : VersionHeader} (takes : versionHeader.Takes c header d) :
    c.pos + 4 ≤ c.data.size ∧
      ∃ n, 2 ≤ n ∧ c.pos + n ≤ c.data.size ∧ d = { c with pos := c.pos + n } := by
  obtain ⟨first, e, four, rest⟩ := takes_bind takes
  obtain ⟨inside, rfl⟩ := unsigned_takes four
  refine ⟨inside, ?_⟩
  by_cases counted : first.testBit 30 = true
  · rw [if_pos counted] at rest
    obtain ⟨word, f, two, rest⟩ := takes_bind rest
    obtain ⟨-, rfl⟩ := takes_pure rest
    obtain ⟨inside, rfl⟩ := unsigned_takes two
    exact ⟨4 + 2, by decide, inside, rfl⟩
  · rw [if_neg counted] at rest
    obtain ⟨_, f, back, rest⟩ := takes_bind rest
    obtain ⟨-, rfl⟩ := takes_pure rest
    have run := run_stepBack 2 { c with pos := c.pos + 4 }
    rw [back.run, if_pos (Nat.le_add_left_of_le (by decide))] at run
    cases run
    exact ⟨2, Nat.le_refl 2, Nat.le_trans (Nat.add_le_add_left (by decide) _) inside, rfl⟩

/-- a version header is never taken back as a whole -/
theorem forward_versionHeader {header : VersionHeader} (takes : versionHeader.Takes c header d) :
    Forward c d := by
  obtain ⟨-, n, -, inside, rfl⟩ := versionHeader_takes takes
  exact ⟨rfl, Nat.le_add_right _ _, inside⟩

theorem forward_objectHead {words : Nat × Nat} (takes : objectHead.Takes c words d) :
    Forward c d := by
  obtain ⟨version, e, first, rest⟩ := takes_bind takes
  have forward := forward_unsigned first
  have behind : ∀ {f : Cursor}, Takes (do
      let unique ← unsigned 4
      let bits := (← unsigned 4) ||| 0x1000000
      if bits.testBit 4 then skip 2
      return (unique, bits)) f words d → Forward f d := by
    intro f takes
    obtain ⟨unique, k, second, takes⟩ := takes_bind takes
    obtain ⟨bits, l, third, takes⟩ := takes_bind takes
    have both := (forward_unsigned second).trans (forward_unsigned third)
    dsimp only at takes
    split at takes
    · obtain ⟨⟨⟩, m, further, takes⟩ := takes_bind takes
      obtain ⟨-, rfl⟩ := takes_pure takes
      exact both.trans (forward_skip further)
    · obtain ⟨-, rfl⟩ := takes_pure takes
      exact both
  dsimp only at rest
  split at rest
  · obtain ⟨⟨⟩, f, further, rest⟩ := takes_bind rest
    exact (forward.trans (forward_skip further)).trans (behind rest)
  · exact forward.trans (behind rest)

/-- what a scan went on by can be skipped -/
theorem Forward.skip (forward : Forward c d) : (Scan.skip (d.pos - c.pos)).Takes c () d := by
  obtain ⟨data, pos, size⟩ := forward
  have there : c.pos + (d.pos - c.pos) = d.pos := by omega
  refine skip_takes_iff.2 ⟨?_, ?_⟩
  · rw [there, ← data]
    exact size
  · rw [there]
    cases d
    cases data
    rfl

theorem takes_take {n : Nat} (inside : c.pos + n ≤ c.data.size) :
    (take n).Takes c (c.data.extract c.pos (c.pos + n)) { c with pos := c.pos + n } := by
  unfold Takes
  simp [inside]

theorem extract_single {pos : Nat} {data : Bytes} (inside : pos < data.size) :
    data.extract pos (pos + 1) = #[data[pos]] := by
  rw [Array.extract_succ_right (Nat.lt_succ_self pos) inside,
    Array.extract_eq_empty_of_le (Nat.min_le_left _ _)]
  rfl

/-- a number of one byte -/
theorem uint8_takes {pos : Nat} {data : Bytes} (inside : pos < data.size) :
    Primitive.uint8.scan.Takes { data, pos } (.uint data[pos].toNat) { data, pos := pos + 1 } := by
  have taken : (take 1).Takes { data, pos } #[data[pos]] { data, pos := pos + 1 } := by
    have takes := @takes_take { data, pos } 1 inside
    rw [extract_single inside] at takes
    exact takes
  have digit : Bytes.big #[data[pos]] = data[pos].toNat := by
    show 0 * 256 + data[pos].toNat = _
    rw [Nat.zero_mul, Nat.zero_add]
  have number : (unsigned 1).Takes { data, pos } data[pos].toNat { data, pos := pos + 1 } := by
    refine Takes.bind taken ?_
    rw [digit]
    rfl
  exact Takes.bind number rfl

/-- bytes that are taken at once are numbers of one byte each -/
theorem numbers_bytes {n : Nat} {bytes : Bytes} (takes : (take n).Takes c bytes d) :
    Command.Numbers .uint8 c (bytes.toList.map fun b => .uint b.toNat) d := by
  obtain ⟨data, pos⟩ := c
  obtain ⟨inside, rfl, rfl⟩ := take_takes takes
  clear takes
  dsimp only at inside ⊢
  induction n generalizing pos with
  | zero =>
    have none : data.extract pos (pos + 0) = #[] :=
      Array.extract_eq_empty_of_le (Nat.min_le_left _ _)
    rw [none]
    exact .nil
  | succ n ih =>
    have here : pos < data.size := by omega
    have rest : pos + 1 + n ≤ data.size := by omega
    have last : pos + 1 + n = pos + (n + 1) := by omega
    have split : data.extract pos (pos + (n + 1)) =
        #[data[pos]] ++ data.extract (pos + 1) (pos + 1 + n) := by
      rw [← extract_single here, Array.extract_append_extract, last,
        Nat.min_eq_left (Nat.le_succ pos), Nat.max_eq_right (by omega)]
    have others := ih (pos + 1) rest
    rw [split, ← last, Array.toList_append, List.map_append]
    exact .cons (uint8_takes here) others

end Scan

namespace Command

variable {c d : Cursor}

/-- what can be skipped is skipped; nothing is done about nothing -/
theorem steps_skipAny (forward : Scan.Forward c d) :
    Steps ((Instruction.skipAny (d.pos - c.pos)).flatMap Instruction.commands) c [] d [] [] := by
  unfold Instruction.skipAny
  split
  · have same : d = c := by
      obtain ⟨data, pos, size⟩ := forward
      cases c
      cases d
      cases data
      congr
      simp only at *
      omega
    rw [same]
    exact steps_nil c []
  · rw [List.flatMap_singleton]
    exact steps_skip forward.skip

theorem steps_header {ctx : Context} {header : Nat} (before : HeaderBefore ctx c header d) :
    Steps ((Instruction.skipAny header).flatMap Instruction.commands) c [] d [] [] := by
  cases before with
  | absent off => exact steps_nil c []
  | present on takes => exact steps_skipAny (Scan.forward_versionHeader takes)

theorem steps_mapHeader {ctx : Context} {header : Nat} (before : MapHeaderBefore ctx c header d) :
    Steps ((Instruction.skipAny header).flatMap Instruction.commands) c [] d [] [] := by
  cases before with
  | absent off => exact steps_nil c []
  | @present e _ _ on takes further =>
    have first := Scan.forward_versionHeader takes
    have second := Scan.forward_skip further
    obtain ⟨-, rfl⟩ := Scan.skip_takes_iff.1 further
    have length : e.pos - c.pos + 6 = e.pos + 6 - c.pos := (Nat.sub_add_comm first.pos).symm
    rw [length]
    exact steps_skipAny (first.trans second)

theorem steps_head {ctx : Context} {header : Nat} {words : Nat × Nat}
    (at_ : HeadAt ctx c header words d) :
    Steps ((Instruction.skipAny header).flatMap Instruction.commands) c [] d [] [] := by
  cases at_ with
  | absent off => exact steps_nil c []
  | present on takes => exact steps_skipAny (Scan.forward_objectHead takes)

/-- a length of one byte, or of four more behind a byte at its greatest -/
theorem steps_long {e : Cursor} {short length : Nat}
    (takes : (if short = 255 then Scan.unsigned 4 else pure short).Takes c length e) :
    Steps [.dup, .push 255, .equal, .when [.drop, .take .uint32]] c [short] e [length] [] := by
  have compared : Steps [.dup, .push 255, .equal] c [short] c
      [if (255 : Int) = short then -1 else 0, short] [] := fun _ _ => rfl
  have chosen : Steps [.when [.drop, .take .uint32]] c
      [if (255 : Int) = short then -1 else 0, short] e [length] [] := by
    refine steps_single fun stack columns => ?_
    show (if (if (255 : Int) = short then -1 else 0) = (0 : Int) then
      some { cursor := c, stack := (short : Int) :: stack, columns }
      else execAll [.drop, .take .uint32] { cursor := c, stack := (short : Int) :: stack, columns }) =
        some { cursor := e, stack := (length : Int) :: stack, columns }
    by_cases long : short = 255
    · rw [if_pos long] at takes
      subst long
      have number : Primitive.uint32.scan.Takes c (.uint length) e := Scan.Takes.bind takes rfl
      exact steps_take number rfl stack columns
    · rw [if_neg long] at takes
      obtain ⟨rfl, rfl⟩ := Scan.takes_pure takes
      have other : ¬(255 : Int) = length := by omega
      rw [if_neg other, if_pos rfl]
  exact compared.append chosen

/-- a text: its length, and its bytes -/
theorem steps_text (offsets chars : Place) {bytes : Bytes}
    (takes : Scan.characters.Takes c bytes d) :
    Steps (Instruction.commands (.text offsets.name chars.name)) c [] d []
      (.count offsets bytes.size :: bytes.toList.map fun b => .value chars (.uint b.toNat)) := by
  obtain ⟨short, e, first, rest⟩ := Scan.takes_bind takes
  have lengths : ∃ length f, (if short = 255 then Scan.unsigned 4 else pure short).Takes e length f ∧
      (Scan.take length).Takes f bytes d := by
    dsimp only at rest
    by_cases long : short = 255
    · rw [if_pos long] at rest
      rw [if_pos long]
      exact Scan.takes_bind rest
    · rw [if_neg long] at rest
      rw [if_neg long]
      exact Scan.takes_bind rest
  obtain ⟨length, f, second, third⟩ := lengths
  have number : Primitive.uint8.scan.Takes c (.uint short) e := Scan.Takes.bind first rfl
  have size : bytes.size = length := by
    obtain ⟨inside, rfl, -⟩ := Scan.take_takes third
    rw [Array.size_extract]
    omega
  have moved := steps_readMany chars (Scan.numbers_bytes third)
  rw [List.length_map, Array.length_toList, size, List.map_map] at moved
  rw [size]
  exact (steps_take number rfl).append
    ((steps_long second).append ((steps_count offsets f length).append moved))

theorem numbers_references {refs : List Int} (references : References c refs d) :
    Numbers .int32 c (refs.map .int) d := by
  induction references with
  | nil => exact .nil
  | cons takes others ih => exact .cons (Scan.Takes.bind takes rfl) ih

end Command

end Baskets

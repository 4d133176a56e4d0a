import Baskets.Proofs.Scan.Fixed

/-!
# Cursors stay in their bytes

A `Request` is one thing that a cursor can be asked to do.  At a cursor in its bytes or at their end
it leaves the cursor so (`Request.comesTo_scan`), and hence after any requests before it, whether
these failed or not (`Request.after_inside`).  A read has taken just the bytes that its format
describes (`Request.Format`), and a request that failed has left the cursor where it was, or further
on if it reads one thing after the other.  Wherever the bytes are too few, the fault says so in
figures that are true.
-/

namespace Baskets

/-- the mark of a word of four bytes is in its upper half -/
theorem Bytes.exists_halves {bytes : Bytes} (four : bytes.size = 4) :
    ∃ high low : Bytes, high.size = 2 ∧ low.size = 2 ∧ bytes = high ++ low ∧
      bytes.big.testBit 30 = high.big.testBit 14 := by
  have upper : (bytes.extract 0 2).size = 2 := Array.size_extract_of_le (by omega)
  have lower : (bytes.extract 2 4).size = 2 := Array.size_extract_of_le (by omega)
  have split : bytes = bytes.extract 0 2 ++ bytes.extract 2 4 := by
    rw [← Bytes.extract_split bytes (by decide) (by decide), ← four, Array.extract_size]
  refine ⟨_, _, upper, lower, split, ?_⟩
  have small : Bytes.big (bytes.extract 2 4) < 2 ^ 16 := by
    have bound := Bytes.big_lt (bytes.extract 2 4)
    rwa [lower] at bound
  have number : bytes.big =
      2 ^ 16 * Bytes.big (bytes.extract 0 2) + Bytes.big (bytes.extract 2 4) := by
    conv_lhs => rw [split]
    rw [Bytes.big_append, lower, Nat.mul_comm]
    rfl
  rw [number, Nat.testBit_two_pow_mul_add _ small, if_neg (by decide)]

/-! ## requests -/

/-- one thing that a cursor can be asked to do -/
inductive Request where
  /-- to read a number of fixed width -/
  | number (type : Primitive)
  /-- to read so many bytes -/
  | bytes (count : Nat)
  | string
  | versionHeader
  | objectHead
  | skip (count : Nat)
  | stepBack (count : Nat)
  /-- to go to a position -/
  | moveTo (pos : Nat)
deriving DecidableEq, Repr

namespace Request

/-- a scan whose result is not looked at -/
def forget {α : Type} (s : Scan α) : Scan Unit := do
  let _ ← s
  return ()

def scan : Request → Scan Unit
  | .number type => forget type.scan
  | .bytes count => forget (Scan.take count)
  | .string => forget Scan.string
  | .versionHeader => forget Scan.versionHeader
  | .objectHead => forget Scan.objectHead
  | .skip count => Scan.skip count
  | .stepBack count => Scan.stepBack count
  | .moveTo pos => Scan.moveTo pos

/-- whether it reads one thing after the other, and so can stop half way -/
def isComposed : Request → Bool
  | .string | .versionHeader | .objectHead => true
  | .number _ | .bytes _ | .skip _ | .stepBack _ | .moveTo _ => false

/-- the position that it has to get to, where that does not depend on what is read -/
def goal? (c : Cursor) : Request → Option Nat
  | .number type => some (c.pos + type.width)
  | .bytes count | .skip count => some (c.pos + count)
  | .moveTo pos => some pos
  | .string | .versionHeader | .objectHead | .stepBack _ => none

/-- the bytes of what is read, or skipped -/
inductive Format : Request → Bytes → Prop where
  | number {type : Primitive} {bytes : Bytes} (size : bytes.size = type.width) :
    Format (.number type) bytes
  | bytes {count : Nat} {bytes : Bytes} (size : bytes.size = count) : Format (.bytes count) bytes
  /-- a text behind its length in a byte -/
  | short {length text : Bytes} (one : length.size = 1) (short : length.big ≠ 255)
    (size : text.size = length.big) : Format .string (length ++ text)
  /-- a text behind its length in four bytes, and a byte at its greatest before these -/
  | long {full length text : Bytes} (one : full.size = 1) (greatest : full.big = 255)
    (four : length.size = 4) (size : text.size = length.big) :
    Format .string (full ++ (length ++ text))
  /-- a count with its mark, and a version word -/
  | counted {count word : Bytes} (four : count.size = 4) (marked : count.big.testBit 30 = true)
    (two : word.size = 2) : Format .versionHeader (count ++ word)
  /-- a version word alone -/
  | bare {word : Bytes} (two : word.size = 2) (unmarked : word.big.testBit 14 = false) :
    Format .versionHeader word
  /-- a version and perhaps a count, a number and bits, and perhaps the number of a process -/
  | objectHead {version count unique bits process : Bytes} (two : version.size = 2)
    (counted : count.size = if version.big.testBit 14 then 4 else 0) (four : unique.size = 4)
    (four' : bits.size = 4) (referenced : process.size = if bits.big.testBit 4 then 2 else 0) :
    Format .objectHead (version ++ (count ++ (unique ++ (bits ++ process))))
  | skip {count : Nat} {bytes : Bytes} (size : bytes.size = count) : Format (.skip count) bytes

/-- where a cursor is once it has done what it was asked -/
inductive Done : Request → Cursor → Cursor → Prop where
  | past {request : Request} {c : Cursor} {bytes : Bytes} (format : request.Format bytes)
    (has : c.Has bytes) : Done request c (c.past bytes)
  | back {c : Cursor} {count : Nat} (inside : count ≤ c.pos) :
    Done (.stepBack count) c { c with pos := c.pos - count }
  | jump {c : Cursor} {pos : Nat} (inside : pos ≤ c.data.size) :
    Done (.moveTo pos) c { c with pos }

/-- why a request fails: there are fewer bytes than are needed behind the cursor, or fewer than are
to be gone back before it -/
inductive Cause : Request → Cursor → Fault → Prop where
  | short {request : Request} {d : Cursor} {need available : Nat} (fewer : available < need)
    (left : d.pos + available = d.data.size)
    (goal : ∀ pos ∈ request.goal? d, d.pos + need = pos) :
    Cause request d (.underflow d.pos need available)
  | back {d : Cursor} {count : Nat} (fewer : d.pos < count) :
    Cause (.stepBack count) d (.malformed (.stepBack count d.pos))

/-- what becomes of a cursor that has not done what it was asked -/
structure Failed (request : Request) (c : Cursor) (fault : Fault) (d : Cursor) : Prop where
  data : d.data = c.data
  onward : c.pos ≤ d.pos
  inside : d.pos ≤ c.data.size
  stays : request.isComposed = false → d = c
  cause : request.Cause d fault

/-- what a request comes to at a cursor, and no other place would do -/
def ComesTo (request : Request) (c : Cursor) : Except Fault Unit × Cursor → Prop
  | (.ok _, d) => (∀ e, request.Done c e ↔ e = d) ∧ d.data = c.data ∧ d.pos ≤ c.data.size
  | (.error fault, d) => request.Failed c fault d

variable {request : Request} {c d e : Cursor} {a b : Bytes}

/-! ### formats -/

/-- at one place there is one item -/
theorem Format.unique (first : request.Format a) (second : request.Format b) (has : c.Has a)
    (has' : c.Has b) : a = b := by
  refine has.eq_of_size has' ?_
  cases first with
  | number size | bytes size | skip size =>
    cases second with
    | _ size' => rw [size, size']
  | @short length text one short size =>
    cases second with
    | @short length' text' one' _ size' =>
      obtain rfl := has.left.eq_of_size has'.left (one.trans one'.symm)
      rw [Array.size_append, Array.size_append, size, size']
    | @long full _ _ one' greatest =>
      obtain rfl := has.left.eq_of_size has'.left (one.trans one'.symm)
      exact absurd greatest short
  | @long full length text one greatest four size =>
    cases second with
    | @short length' _ one' short =>
      obtain rfl := has.left.eq_of_size has'.left (one.trans one'.symm)
      exact absurd greatest short
    | @long full' length' text' one' _ four' size' =>
      obtain rfl := has.left.eq_of_size has'.left (one.trans one'.symm)
      obtain rfl := has.right.left.eq_of_size has'.right.left (four.trans four'.symm)
      simp only [Array.size_append, size, size']
  | counted four marked two =>
    cases second with
    | counted four' _ two' => rw [Array.size_append, Array.size_append, four, four', two, two']
    | bare two' unmarked =>
      obtain ⟨high, low, half, -, rfl, bit⟩ := Bytes.exists_halves four
      obtain rfl := has.left.left.eq_of_size has' (half.trans two'.symm)
      rw [bit, unmarked] at marked
      cases marked
  | bare two unmarked =>
    cases second with
    | bare two' => rw [two, two']
    | counted four marked _ =>
      obtain ⟨high, low, half, -, rfl, bit⟩ := Bytes.exists_halves four
      obtain rfl := has'.left.left.eq_of_size has (half.trans two.symm)
      rw [bit, unmarked] at marked
      cases marked
  | objectHead two counted four four' referenced =>
    cases second with
    | objectHead two_ counted_ four_ four'_ referenced_ =>
      -- the version tells whether there is a count, and the bits whether there is a process
      obtain rfl := has.left.eq_of_size has'.left (two.trans two_.symm)
      obtain rfl := has.right.left.eq_of_size has'.right.left (counted.trans counted_.symm)
      obtain rfl := has.right.right.left.eq_of_size has'.right.right.left (four.trans four_.symm)
      obtain rfl := has.right.right.right.left.eq_of_size has'.right.right.right.left
        (four'.trans four'_.symm)
      simp only [Array.size_append, referenced, referenced_]

theorem Done.unique (first : request.Done c d) (second : request.Done c e) : d = e := by
  cases first with
  | past format has =>
    cases second with
    | past format' has' => rw [format.unique format' has has']
    | back | jump => cases format
  | back =>
    cases second with
    | past format => cases format
    | back => rfl
  | jump =>
    cases second with
    | past format => cases format
    | jump => rfl

theorem exists_string {text : String} (takes : Scan.string.Takes c text d) :
    Done .string c d := by
  obtain ⟨lead, one, atLead, takes⟩ := Scan.exists_of_unsigned takes
  dsimp only at takes
  split at takes
  · rename_i greatest
    obtain ⟨more, four, atMore, takes⟩ := Scan.exists_of_unsigned takes
    obtain ⟨bytes, f, third, takes⟩ := Scan.takes_bind takes
    obtain ⟨-, rfl⟩ := Scan.takes_pure takes
    obtain ⟨size, has, rfl⟩ := Scan.has_of_take third
    rw [← Cursor.past_append, ← Cursor.past_append]
    exact .past (.long one greatest four size) (atLead.append (atMore.append has))
  · rename_i short
    obtain ⟨length, e, second, takes⟩ := Scan.takes_bind takes
    obtain ⟨rfl, rfl⟩ := Scan.takes_pure second
    obtain ⟨bytes, f, third, takes⟩ := Scan.takes_bind takes
    obtain ⟨-, rfl⟩ := Scan.takes_pure takes
    obtain ⟨size, has, rfl⟩ := Scan.has_of_take third
    rw [← Cursor.past_append]
    exact .past (.short one short size) (atLead.append has)

theorem exists_versionHeader {header : VersionHeader}
    (takes : Scan.versionHeader.Takes c header d) : Done .versionHeader c d := by
  obtain ⟨count, four, atCount, takes⟩ := Scan.exists_of_unsigned takes
  split at takes
  · rename_i marked
    obtain ⟨word, two, atWord, takes⟩ := Scan.exists_of_unsigned takes
    obtain ⟨-, rfl⟩ := Scan.takes_pure takes
    rw [← Cursor.past_append]
    exact .past (.counted four marked two) (atCount.append atWord)
  · rename_i unmarked
    obtain ⟨high, low, two, two', rfl, bit⟩ := Bytes.exists_halves four
    obtain ⟨⟨⟩, e, back, takes⟩ := Scan.takes_bind takes
    obtain ⟨-, rfl⟩ := Scan.takes_pure takes
    -- the lower half is given back
    have step := Scan.stepBack_past c high low
    rw [two'] at step
    have stop : d = c.past high := congrArg Prod.snd (back.run.symm.trans step.run)
    rw [bit, Bool.not_eq_true] at unmarked
    exact stop ▸ .past (.bare two unmarked) atCount.left

/-- the on-heap bit leaves the mark of a referenced object as it is -/
theorem testBit_onHeap (bits : Nat) : (bits ||| 0x1000000).testBit 4 = bits.testBit 4 := by
  rw [Nat.testBit_or, show Nat.testBit 0x1000000 4 = false by decide, Bool.or_false]

theorem exists_objectHead {words : Nat × Nat} (takes : Scan.objectHead.Takes c words d) :
    Done .objectHead c d := by
  obtain ⟨version, two, atVersion, takes⟩ := Scan.exists_of_unsigned takes
  obtain ⟨count, counted, atCount, takes⟩ := Scan.exists_skipped atVersion.inside takes
  obtain ⟨unique, four, atUnique, takes⟩ := Scan.exists_of_unsigned takes
  obtain ⟨bits, four', atBits, takes⟩ := Scan.exists_of_unsigned takes
  obtain ⟨process, referenced, atProcess, takes⟩ := Scan.exists_skipped atBits.inside takes
  obtain ⟨-, rfl⟩ := Scan.takes_pure takes
  rw [testBit_onHeap] at referenced
  simp only [← Cursor.past_append, Array.append_assoc]
  exact .past (.objectHead two counted four four' referenced)
    (atVersion.append (atCount.append (atUnique.append (atBits.append atProcess))))

/-! ### one request -/

theorem takes_of_forget {α : Type} {s : Scan α} (takes : (forget s).Takes c () d) :
    ∃ a, s.Takes c a d := by
  obtain ⟨a, e, read, rest⟩ := Scan.takes_bind takes
  obtain ⟨-, rfl⟩ := Scan.takes_pure rest
  exact ⟨a, read⟩

theorem run_of_forget {α : Type} {s : Scan α} {fault : Fault}
    (ran : (forget s).run c = (.error fault, d)) : s.run c = (.error fault, d) := by
  unfold forget at ran
  rw [Scan.run_bind] at ran
  cases step : s.run c with
  | mk result e =>
    rw [step] at ran
    cases result with
    | error other =>
      cases ran
      rfl
    | ok => cases ran

theorem done_of_takes (takes : request.scan.Takes c () d) : request.Done c d := by
  cases request with
  | number type =>
    obtain ⟨value, read⟩ := takes_of_forget takes
    obtain ⟨bytes, size, has, rfl⟩ := (Scan.Fixed.primitive type).has read
    exact .past (.number size) has
  | bytes count =>
    obtain ⟨bytes, read⟩ := takes_of_forget takes
    obtain ⟨size, has, rfl⟩ := Scan.has_of_take read
    exact .past (.bytes size) has
  | string =>
    obtain ⟨text, read⟩ := takes_of_forget takes
    exact exists_string read
  | versionHeader =>
    obtain ⟨header, read⟩ := takes_of_forget takes
    exact exists_versionHeader read
  | objectHead =>
    obtain ⟨words, read⟩ := takes_of_forget takes
    exact exists_objectHead read
  | skip count =>
    obtain ⟨bytes, size, has, rfl⟩ := (Scan.Fixed.skip count).has takes
    exact .past (.skip size) has
  | stepBack count =>
    have run := (Scan.run_stepBack count c).symm.trans takes.run
    split at run
    · cases run
      exact .back ‹_›
    · cases run
  | moveTo pos =>
    have run := (Scan.run_moveTo pos c).symm.trans takes.run
    split at run
    · cases run
      exact .jump ‹_›
    · cases run

theorem Done.inside (done : request.Done c d) (inside : c.pos ≤ c.data.size) :
    d.data = c.data ∧ d.pos ≤ c.data.size := by
  cases done with
  | past format has => exact ⟨rfl, has.inside⟩
  | back => exact ⟨rfl, Nat.le_trans (Nat.sub_le _ _) inside⟩
  | jump inside => exact ⟨rfl, inside⟩

theorem failed_of_fixed {α : Type} {s : Scan α} {n : Nat} {fault : Fault} (fixed : Scan.Fixed n s)
    (inside : c.pos ≤ c.data.size) (ran : s.run c = (.error fault, d))
    (goal : request.goal? c = some (c.pos + n)) : request.Failed c fault d := by
  obtain ⟨short, rfl, rfl⟩ := fixed.stays ran
  have left : d.pos + d.remaining = d.data.size := Nat.add_sub_cancel' inside
  refine ⟨rfl, Nat.le_refl _, inside, fun _ => rfl, .short (by omega) left ?_⟩
  rw [goal]
  rintro _ ⟨⟩
  rfl

theorem goal?_of_composed (composed : request.isComposed = true) (c : Cursor) :
    request.goal? c = none := by
  cases request <;> first | rfl | cases composed

theorem failed_of_composed {fault : Fault} (composed : request.isComposed = true)
    (short : Scan.Short c fault d) : request.Failed c fault d := by
  obtain ⟨data, onward, inside, need, available, rfl, fewer, left⟩ := short
  refine ⟨data, onward, data ▸ inside, fun simple => ?_, .short fewer left ?_⟩
  · rw [composed] at simple
    cases simple
  · rw [goal?_of_composed composed]
    exact nofun

theorem failed_of_run {fault : Fault} (inside : c.pos ≤ c.data.size)
    (ran : request.scan.run c = (.error fault, d)) : request.Failed c fault d := by
  cases request with
  | number type => exact failed_of_fixed (Scan.Fixed.primitive type) inside (run_of_forget ran) rfl
  | bytes count => exact failed_of_fixed (Scan.Fixed.take count) inside (run_of_forget ran) rfl
  | skip count => exact failed_of_fixed (Scan.Fixed.skip count) inside ran rfl
  | string => exact failed_of_composed rfl (Scan.wants_string inside _ _ (run_of_forget ran))
  | versionHeader =>
    exact failed_of_composed rfl (Scan.wants_versionHeader inside _ _ (run_of_forget ran))
  | objectHead => exact failed_of_composed rfl (Scan.wants_objectHead inside _ _ (run_of_forget ran))
  | stepBack count =>
    have run := (Scan.run_stepBack count c).symm.trans ran
    split at run
    · cases run
    · rename_i far
      cases run
      exact ⟨rfl, Nat.le_refl _, inside, fun _ => rfl, .back (Nat.lt_of_not_le far)⟩
  | moveTo pos =>
    have run := (Scan.run_moveTo pos c).symm.trans ran
    split at run
    · cases run
    · rename_i far
      cases run
      -- the goal lies behind all bytes, and so behind the cursor
      have further : c.pos + (pos - c.pos) = pos := by omega
      have left : c.pos + c.remaining = c.data.size := Nat.add_sub_cancel' inside
      refine ⟨rfl, Nat.le_refl _, inside, fun _ => rfl, .short (by omega) left ?_⟩
      rintro _ ⟨⟩
      exact further

/-- what a request comes to at a cursor in its bytes -/
theorem comesTo_scan (request : Request) (inside : c.pos ≤ c.data.size) :
    request.ComesTo c (request.scan.run c) := by
  cases ran : request.scan.run c with
  | mk result d =>
    cases result with
    | ok =>
      have done := done_of_takes ran
      refine ⟨fun e => ⟨fun other => other.unique done, ?_⟩, done.inside inside⟩
      rintro rfl
      exact done
    | error fault => exact failed_of_run inside ran

theorem ComesTo.inside {result : Except Fault Unit × Cursor} (comes : request.ComesTo c result) :
    result.2.data = c.data ∧ result.2.pos ≤ c.data.size := by
  obtain ⟨_ | _, d⟩ := result
  · have failed : request.Failed c _ d := comes
    exact ⟨failed.data, failed.inside⟩
  · exact comes.2

/-! ### many requests -/

/-- the cursor after some requests, whatever became of each -/
def after (requests : List Request) (c : Cursor) : Cursor :=
  requests.foldl (fun c request => (request.scan.run c).2) c

theorem after_inside (requests : List Request) (inside : c.pos ≤ c.data.size) :
    (after requests c).data = c.data ∧ (after requests c).pos ≤ c.data.size := by
  induction requests generalizing c with
  | nil => exact ⟨rfl, inside⟩
  | cons request requests ih =>
    obtain ⟨data, here⟩ := (comesTo_scan request inside).inside
    rw [← data] at here
    obtain ⟨data', there⟩ := ih here
    exact ⟨data'.trans data, data ▸ there⟩

/-- **Over any run** the cursor keeps its bytes and stays in them, and each request comes to what is
said of it, whatever came before. -/
theorem comesTo_after (data : Bytes) (requests : List Request) :
    (after requests { data }).data = data ∧ (after requests { data }).pos ≤ data.size ∧
      ∀ request : Request, request.ComesTo (after requests { data })
        (request.scan.run (after requests { data })) := by
  obtain ⟨same, inside⟩ := after_inside (c := { data }) requests (Nat.zero_le _)
  refine ⟨same, inside, fun request => comesTo_scan request ?_⟩
  rw [same]
  exact inside

end Request
end Baskets

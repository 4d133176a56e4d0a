import Baskets.Primitive
import Baskets.Proofs.Bytes
import Baskets.Proofs.Machine.Scans

/-!
# Scans of what was written

`Scan.Undoes s bytes a` says that the scan gives `a` wherever it meets the bytes, and stops right
behind them.  What a sequence of scans undoes is one stretch of bytes after the other, so for a
format that is written from left to right there is one lemma for each of its words.
-/

namespace Baskets

/-! ## bytes at a cursor -/

namespace Cursor

/-- the cursor stands before the bytes -/
def Has (c : Cursor) (bytes : Bytes) : Prop :=
  ∃ before after, c.data = before ++ bytes ++ after ∧ c.pos = before.size

/-- the cursor behind the bytes it stands before -/
def past (c : Cursor) (bytes : Bytes) : Cursor := { c with pos := c.pos + bytes.size }

variable {c : Cursor} {bytes front behind : Bytes}

@[simp] theorem past_append : c.past (front ++ behind) = (c.past front).past behind := by
  unfold past
  rw [Array.size_append, Nat.add_assoc]

theorem Has.left (has : c.Has (front ++ behind)) : c.Has front := by
  obtain ⟨before, after, data, pos⟩ := has
  refine ⟨before, behind ++ after, ?_, pos⟩
  rw [data, Array.append_assoc, Array.append_assoc, Array.append_assoc]

theorem Has.right (has : c.Has (front ++ behind)) : (c.past front).Has behind := by
  obtain ⟨before, after, data, pos⟩ := has
  refine ⟨before ++ front, after, ?_, ?_⟩
  · show c.data = _
    rw [data, ← Array.append_assoc]
  · show c.pos + front.size = _
    rw [pos, Array.size_append]

theorem has_middle (before bytes after : Bytes) :
    Has { data := before ++ bytes ++ after, pos := before.size } bytes :=
  ⟨before, after, rfl, rfl⟩

theorem has_all (bytes : Bytes) : Has { data := bytes } bytes := by
  have middle := has_middle #[] bytes #[]
  rw [Array.empty_append, Array.append_empty] at middle
  exact middle

/-- the bytes from a cursor on -/
theorem has_extract {n : Nat} (inside : c.pos + n ≤ c.data.size) :
    c.Has (c.data.extract c.pos (c.pos + n)) := by
  refine ⟨c.data.extract 0 c.pos, c.data.extract (c.pos + n) c.data.size, ?_, ?_⟩
  · rw [← Bytes.extract_split c.data (Nat.zero_le c.pos) (Nat.le_add_right c.pos n),
      ← Bytes.extract_split c.data (Nat.zero_le (c.pos + n)) inside, Array.extract_size]
  · rw [Array.size_extract_of_le (by omega), Nat.sub_zero]

/-- where there are so many bytes, the cursor can go past them -/
theorem exists_has {n : Nat} (inside : c.pos + n ≤ c.data.size) :
    ∃ bytes : Bytes, bytes.size = n ∧ c.Has bytes ∧ { c with pos := c.pos + n } = c.past bytes := by
  have size := Bytes.size_extract_add inside
  refine ⟨_, size, has_extract inside, ?_⟩
  unfold past
  rw [size]

theorem Has.inside (has : c.Has bytes) : c.pos + bytes.size ≤ c.data.size := by
  obtain ⟨before, after, data, pos⟩ := has
  rw [data, pos, Array.size_append, Array.size_append]
  omega

theorem Has.extract (has : c.Has bytes) : c.data.extract c.pos (c.pos + bytes.size) = bytes := by
  obtain ⟨before, after, data, pos⟩ := has
  rw [data, pos, Array.append_assoc, Array.extract_append_right, Array.extract_append_left,
    Array.extract_size]

theorem Has.append (has : c.Has front) (has' : (c.past front).Has behind) :
    c.Has (front ++ behind) := by
  have inside : c.pos + front.size + behind.size ≤ c.data.size := has'.inside
  have here := has.extract
  have next : c.data.extract (c.pos + front.size) (c.pos + front.size + behind.size) = behind :=
    has'.extract
  have both := @has_extract c (front.size + behind.size) (by omega)
  rw [← Nat.add_assoc, Bytes.extract_split c.data (Nat.le_add_right c.pos front.size)
    (Nat.le_add_right _ _), here, next] at both
  exact both

end Cursor

/-! ## scans -/

namespace Scan

/-- the scan gives `a` for these bytes, wherever they stand -/
def Undoes {α : Type} (s : Scan α) (bytes : Bytes) (a : α) : Prop :=
  ∀ c : Cursor, c.Has bytes → s.Takes c a (c.past bytes)

variable {α β : Type} {a : α} {b : β} {front behind bytes : Bytes}

theorem undoes_pure (a : α) : Undoes (pure a : Scan α) #[] a := fun _ _ => rfl

theorem Undoes.bind {s : Scan α} {f : α → Scan β} (first : s.Undoes front a)
    (second : (f a).Undoes behind b) : (s >>= f).Undoes (front ++ behind) b := by
  intro c has
  simpa using Takes.bind (first c has.left) (second _ has.right)

/-- a scan whose result is only converted -/
theorem Undoes.map {s : Scan α} (first : s.Undoes bytes a) (f : α → β) :
    (do return f (← s) : Scan β).Undoes bytes (f a) := by
  intro c has
  exact Takes.bind (first c has) rfl

theorem stepBack_takes {c : Cursor} {n : Nat} (inside : n ≤ c.pos) :
    (stepBack n).Takes c () { c with pos := c.pos - n } := by
  unfold Takes
  simp [inside]

/-- a step back over what the cursor has gone past last -/
theorem stepBack_past (c : Cursor) (front behind : Bytes) :
    (stepBack behind.size).Takes (c.past (front ++ behind)) () (c.past front) := by
  have pos : (c.past (front ++ behind)).pos = (c.past front).pos + behind.size := by
    rw [Cursor.past_append]
    rfl
  have inside : behind.size ≤ (c.past (front ++ behind)).pos := pos ▸ Nat.le_add_left _ _
  have takes := stepBack_takes inside
  rw [pos, Nat.add_sub_cancel] at takes
  exact takes

theorem undoes_take (bytes : Bytes) : (take bytes.size).Undoes bytes bytes := by
  intro c has
  have takes := takes_take has.inside
  rw [has.extract] at takes
  exact takes

theorem undoes_skip (bytes : Bytes) : (skip bytes.size).Undoes bytes () :=
  fun _ has => skip_takes_iff.2 ⟨has.inside, rfl⟩

theorem undoes_big (bytes : Bytes) : (unsigned bytes.size).Undoes bytes bytes.big :=
  (undoes_take bytes).map Bytes.big

theorem undoes_unsigned {width n : Nat} (small : n < 256 ^ width) :
    (unsigned width).Undoes (Bytes.bigOf width n) n := by
  have number := undoes_big (Bytes.bigOf width n)
  rw [Bytes.size_bigOf, Bytes.big_bigOf_of_lt small] at number
  exact number

theorem undoes_signed {width : Nat} {n : Int} (signed_ : Bytes.Signed width n) :
    (signed width).Undoes (Bytes.signedOf width n) n := by
  have taken := undoes_take (Bytes.signedOf width n)
  rw [Bytes.size_signedOf] at taken
  have number := taken.map Bytes.bigSigned
  rw [Bytes.bigSigned_signedOf signed_] at number
  exact number

/-- bytes that were taken stand there -/
theorem has_of_take {n : Nat} {bytes : Bytes} {c d : Cursor} (takes : (take n).Takes c bytes d) :
    bytes.size = n ∧ c.Has bytes ∧ d = c.past bytes := by
  obtain ⟨inside, rfl, rfl⟩ := take_takes takes
  have size := Bytes.size_extract_add inside
  refine ⟨size, Cursor.has_extract inside, ?_⟩
  unfold Cursor.past
  rw [size]

theorem has_of_unsigned {width n : Nat} {c d : Cursor} (takes : (unsigned width).Takes c n d) :
    n < 256 ^ width ∧ c.Has (Bytes.bigOf width n) ∧ d = c.past (Bytes.bigOf width n) := by
  obtain ⟨bytes, e, first, rest⟩ := takes_bind takes
  obtain ⟨rfl, rfl⟩ := takes_pure rest
  obtain ⟨rfl, has, rfl⟩ := has_of_take first
  rw [Bytes.bigOf_big]
  exact ⟨Bytes.big_lt bytes, has, rfl⟩

theorem has_of_signed {width : Nat} {n : Int} {c d : Cursor} (takes : (signed width).Takes c n d) :
    Bytes.Signed width n ∧ c.Has (Bytes.signedOf width n) ∧
      d = c.past (Bytes.signedOf width n) := by
  obtain ⟨bytes, e, first, rest⟩ := takes_bind takes
  obtain ⟨rfl, rfl⟩ := takes_pure rest
  obtain ⟨rfl, has, rfl⟩ := has_of_take first
  rw [Bytes.signedOf_bigSigned]
  exact ⟨Bytes.signed_bigSigned bytes, has, rfl⟩

theorem lt_of_unsigned {width n : Nat} {c d : Cursor} (takes : (unsigned width).Takes c n d) :
    n < 256 ^ width := (has_of_unsigned takes).1

theorem signed_of_signed {width : Nat} {n : Int} {c d : Cursor}
    (takes : (signed width).Takes c n d) : Bytes.Signed width n := (has_of_signed takes).1

end Scan

/-! ## numbers -/

namespace Primitive

def isSigned : Primitive → Bool
  | .int8 | .int16 | .int32 | .int64 => true
  | _ => false

def isUnsigned : Primitive → Bool
  | .uint8 | .uint16 | .uint32 | .uint64 => true
  | _ => false

/-- how a number of the type is written -/
inductive Writes : Primitive → Value → Bytes → Prop where
  | bool (b : Bool) : Writes .bool (.bool b) #[if b then 1 else 0]
  | signed {p : Primitive} {n : Int} (type : p.isSigned = true) (fits : Bytes.Signed p.width n) :
    Writes p (.int n) (Bytes.signedOf p.width n)
  | unsigned {p : Primitive} {n : Nat} (type : p.isUnsigned = true) (fits : n < 256 ^ p.width) :
    Writes p (.uint n) (Bytes.bigOf p.width n)
  | single {n : Nat} (fits : n < 256 ^ 4) :
    Writes .float32 (.double (Double.ofSingle n)) (Bytes.bigOf 4 n)
  | double (bits : UInt64) : Writes .float64 (.double bits) (Bytes.bigOf 8 bits.toNat)

/-- whether a number of the type can be the value -/
def Holds (p : Primitive) (value : Value) : Prop := ∃ bytes, p.Writes value bytes

variable {p : Primitive} {value : Value} {bytes : Bytes}

theorem undoes_scan (writes : p.Writes value bytes) : p.scan.Undoes bytes value := by
  cases writes with
  | bool b =>
    have read : Scan.bool.Undoes #[if b then 1 else 0] b := by
      have digit : (Scan.unsigned 1).Undoes #[if b then 1 else 0] b.toNat := by
        cases b
        · exact @Scan.undoes_unsigned 1 0 (by decide)
        · exact @Scan.undoes_unsigned 1 1 (by decide)
      have bool := digit.map (· != 0)
      cases b <;> exact bool
    exact read.map Value.bool
  | signed type fits =>
    have read := (Scan.undoes_signed fits).map Value.int
    cases p <;> first | exact read | cases type
  | unsigned type fits =>
    have read := (Scan.undoes_unsigned fits).map Value.uint
    cases p <;> first | exact read | cases type
  | single fits =>
    exact (Scan.undoes_unsigned fits).map fun n => Value.double (Double.ofSingle n)
  | double bits =>
    have read := (@Scan.undoes_unsigned 8 bits.toNat bits.toNat_lt).map
      fun n => Value.double (UInt64.ofNat n)
    rw [UInt64.ofNat_toNat] at read
    exact read

/-- what is read as a number of the type is one -/
theorem holds_of_takes {c d : Cursor} (takes : p.scan.Takes c value d) : p.Holds value := by
  cases p with
  | bool =>
    obtain ⟨b, e, -, rest⟩ := Scan.takes_bind takes
    obtain ⟨rfl, -⟩ := Scan.takes_pure rest
    exact ⟨_, .bool b⟩
  | int8 | int16 | int32 | int64 =>
    obtain ⟨n, e, first, rest⟩ := Scan.takes_bind takes
    obtain ⟨rfl, -⟩ := Scan.takes_pure rest
    exact ⟨_, .signed rfl (Scan.signed_of_signed first)⟩
  | uint8 | uint16 | uint32 | uint64 =>
    obtain ⟨n, e, first, rest⟩ := Scan.takes_bind takes
    obtain ⟨rfl, -⟩ := Scan.takes_pure rest
    exact ⟨_, .unsigned rfl (Scan.lt_of_unsigned first)⟩
  | float32 =>
    obtain ⟨n, e, first, rest⟩ := Scan.takes_bind takes
    obtain ⟨rfl, -⟩ := Scan.takes_pure rest
    exact ⟨_, .single (Scan.lt_of_unsigned first)⟩
  | float64 =>
    obtain ⟨n, e, -, rest⟩ := Scan.takes_bind takes
    obtain ⟨rfl, -⟩ := Scan.takes_pure rest
    exact ⟨_, .double _⟩

end Primitive

end Baskets

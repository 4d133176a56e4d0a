import Baskets.Proofs.Basket.Entries
import Baskets.Proofs.Scan

/-!
# Headers and footers of baskets

What `BasketHeader.bytes` writes is what `BasketHeader.scan` reads, whatever stands in the place of
the names; and the words of a footer between two words of no meaning are undone to the bounds of the
entries.
-/

namespace Baskets

/-! ## headers -/

namespace Scan

theorem moveTo_takes_iff {c d : Cursor} {pos : Nat} :
    (moveTo pos).Takes c () d ↔ pos ≤ c.data.size ∧ d = { c with pos := pos } := by
  unfold Takes
  rw [run_moveTo]
  constructor
  · intro takes
    split at takes
    · cases takes
      exact ⟨‹_›, rfl⟩
    · cases takes
  · rintro ⟨inside, rfl⟩
    rw [if_pos inside]

theorem moveTo_takes {c : Cursor} {pos : Nat} (inside : pos ≤ c.data.size) :
    (moveTo pos).Takes c () { c with pos := pos } :=
  moveTo_takes_iff.2 ⟨inside, rfl⟩

end Scan

namespace BasketHeader

/-- the fields before the names -/
def front (h : BasketHeader) : Bytes :=
  Bytes.signedOf 4 h.totalBytes ++ (Bytes.signedOf 2 h.headerVersion ++
    (Bytes.signedOf 4 h.objectLength ++ (Bytes.bigOf 4 h.datime ++
      (Bytes.signedOf 2 h.headerLength ++ Bytes.signedOf 2 h.cycle))))

/-- the fields behind the names -/
def back (h : BasketHeader) : Bytes :=
  Bytes.bigOf 2 h.version ++ (Bytes.signedOf 4 h.bufferSize ++ (Bytes.signedOf 4 h.entrySize ++
    (Bytes.signedOf 4 h.entryCount ++ Bytes.signedOf 4 h.lastOffset)))

/-- a header, with what stands in the place of the names and with its last byte -/
def bytes (h : BasketHeader) (names : Bytes) (last : UInt8) : Bytes :=
  h.front ++ (names ++ (h.back ++ #[last]))

/-- the fields fit into their bytes, and the length of the header is the length it has -/
structure Writable (h : BasketHeader) (names : Bytes) : Prop where
  totalBytes : Bytes.Signed 4 h.totalBytes
  headerVersion : Bytes.Signed 2 h.headerVersion
  objectLength : Bytes.Signed 4 h.objectLength
  datime : h.datime < 256 ^ 4
  headerLength : Bytes.Signed 2 h.headerLength
  cycle : Bytes.Signed 2 h.cycle
  version : h.version < 256 ^ 2
  bufferSize : Bytes.Signed 4 h.bufferSize
  entrySize : Bytes.Signed 4 h.entrySize
  entryCount : Bytes.Signed 4 h.entryCount
  lastOffset : Bytes.Signed 4 h.lastOffset
  length : h.headerLength = names.size + 37

variable {h : BasketHeader} {names : Bytes}

@[simp] theorem size_front (h : BasketHeader) : h.front.size = 18 := by
  simp only [front, Array.size_append, Bytes.size_signedOf, Bytes.size_bigOf]

@[simp] theorem size_back (h : BasketHeader) : h.back.size = 18 := by
  simp only [back, Array.size_append, Bytes.size_signedOf, Bytes.size_bigOf]

@[simp] theorem size_bytes (h : BasketHeader) (names : Bytes) (last : UInt8) :
    (h.bytes names last).size = names.size + 37 := by
  unfold bytes
  rw [Array.size_append, Array.size_append, Array.size_append, size_front, size_back]
  show 18 + (names.size + (18 + 1)) = _
  omega

/-- the fields behind the names, read into a header that has the others -/
theorem undoes_back (writable : h.Writable names) (last : UInt8) :
    Scan.Undoes (do
      let version ← Scan.unsigned 2
      let bufferSize ← Scan.signed 4
      let entrySize ← Scan.signed 4
      let entryCount ← Scan.signed 4
      let lastOffset ← Scan.signed 4
      Scan.skip 1
      return { h with version, bufferSize, entrySize, entryCount, lastOffset } :
        Scan BasketHeader) (h.back ++ #[last]) h := by
  have skipped := (Scan.undoes_skip #[last]).map fun _ => h
  unfold back
  rw [Array.append_assoc, Array.append_assoc, Array.append_assoc, Array.append_assoc]
  exact (Scan.undoes_unsigned writable.version).bind <|
    (Scan.undoes_signed writable.bufferSize).bind <|
      (Scan.undoes_signed writable.entrySize).bind <|
        (Scan.undoes_signed writable.entryCount).bind <|
          (Scan.undoes_signed writable.lastOffset).bind skipped

/-- a header is read as it was written -/
theorem undoes_scan (writable : h.Writable names) (last : UInt8) :
    BasketHeader.scan.Undoes (h.bytes names last) h := by
  intro c has
  have atFront := has.left
  have atNames := has.right.left
  have atBack := has.right.right.left
  have start : Scan.pos.Takes c c.pos c := rfl
  have behindFront : c.past h.front = (((((c.past (Bytes.signedOf 4 h.totalBytes)).past
      (Bytes.signedOf 2 h.headerVersion)).past (Bytes.signedOf 4 h.objectLength)).past
      (Bytes.bigOf 4 h.datime)).past (Bytes.signedOf 2 h.headerLength)).past
      (Bytes.signedOf 2 h.cycle) := by
    simp only [front, Cursor.past_append]
  have toBack : c.pos + (h.headerLength.toNat - backLength) = (c.past h.front).pos + names.size := by
    have length := writable.length
    show c.pos + (h.headerLength.toNat - 19) = c.pos + h.front.size + names.size
    rw [size_front]
    omega
  refine start.bind ?_
  refine (Scan.undoes_signed writable.totalBytes _ atFront.left).bind ?_
  refine (Scan.undoes_signed writable.headerVersion _ atFront.right.left).bind ?_
  refine (Scan.undoes_signed writable.objectLength _ atFront.right.right.left).bind ?_
  refine (Scan.undoes_unsigned writable.datime _ atFront.right.right.right.left).bind ?_
  refine (Scan.undoes_signed writable.headerLength _ atFront.right.right.right.right.left).bind ?_
  refine (Scan.undoes_signed writable.cycle _ atFront.right.right.right.right.right).bind ?_
  rw [← behindFront]
  have long : ¬ h.headerLength < ((frontLength + backLength : Nat) : Int) := by
    rw [writable.length]
    show ¬ ((names.size : Int) + 37 < 37)
    omega
  dsimp only
  rw [if_neg long, toBack]
  refine (Scan.moveTo_takes atNames.inside).bind ?_
  rw [bytes, Cursor.past_append, Cursor.past_append]
  exact undoes_back writable last _ has.right.right

/-- a header that was read could have been written -/
theorem exists_of_scan {c d : Cursor} (takes : BasketHeader.scan.Takes c h d) :
    ∃ names last, h.Writable names ∧ c.Has (h.bytes names last) ∧ d = c.past (h.bytes names last) := by
  obtain ⟨start, _, first, takes⟩ := Scan.takes_bind takes
  cases first
  obtain ⟨totalBytes, _, first, takes⟩ := Scan.takes_bind takes
  obtain ⟨headerVersion, _, second, takes⟩ := Scan.takes_bind takes
  obtain ⟨objectLength, _, third, takes⟩ := Scan.takes_bind takes
  obtain ⟨datime, _, fourth, takes⟩ := Scan.takes_bind takes
  obtain ⟨headerLength, _, fifth, takes⟩ := Scan.takes_bind takes
  obtain ⟨cycle, e, sixth, takes⟩ := Scan.takes_bind takes
  split at takes
  · cases takes
  rename_i long
  obtain ⟨⟨⟩, f, moved, takes⟩ := Scan.takes_bind takes
  obtain ⟨version, _, seventh, takes⟩ := Scan.takes_bind takes
  obtain ⟨bufferSize, _, eighth, takes⟩ := Scan.takes_bind takes
  obtain ⟨entrySize, _, ninth, takes⟩ := Scan.takes_bind takes
  obtain ⟨entryCount, _, tenth, takes⟩ := Scan.takes_bind takes
  obtain ⟨lastOffset, g, eleventh, takes⟩ := Scan.takes_bind takes
  obtain ⟨⟨⟩, _, skipped, takes⟩ := Scan.takes_bind takes
  obtain ⟨same, rfl⟩ := Scan.takes_pure takes
  obtain ⟨fits₁, has₁, rfl⟩ := Scan.has_of_signed first
  obtain ⟨fits₂, has₂, rfl⟩ := Scan.has_of_signed second
  obtain ⟨fits₃, has₃, rfl⟩ := Scan.has_of_signed third
  obtain ⟨fits₄, has₄, rfl⟩ := Scan.has_of_unsigned fourth
  obtain ⟨fits₅, has₅, rfl⟩ := Scan.has_of_signed fifth
  obtain ⟨fits₆, has₆, behind⟩ := Scan.has_of_signed sixth
  obtain ⟨fits₇, has₇, rfl⟩ := Scan.has_of_unsigned seventh
  obtain ⟨fits₈, has₈, rfl⟩ := Scan.has_of_signed eighth
  obtain ⟨fits₉, has₉, rfl⟩ := Scan.has_of_signed ninth
  obtain ⟨fits₁₀, has₁₀, rfl⟩ := Scan.has_of_signed tenth
  obtain ⟨fits₁₁, has₁₁, atLast⟩ := Scan.has_of_signed eleventh
  have front : c.Has h.front := by
    rw [same]
    exact has₁.append (has₂.append (has₃.append (has₄.append (has₅.append has₆))))
  have back : f.Has h.back := by
    rw [same]
    exact has₇.append (has₈.append (has₉.append (has₁₀.append has₁₁)))
  have behind : e = c.past h.front := by
    rw [behind, same]
    simp only [BasketHeader.front, Cursor.past_append]
  have atLast : g = f.past h.back := by
    rw [atLast, same]
    simp only [BasketHeader.back, Cursor.past_append]
  have length : h.headerLength = headerLength := by rw [same]
  have writable (names : Bytes) (size : h.headerLength = names.size + 37) : h.Writable names := by
    subst same
    exact ⟨fits₁, fits₂, fits₃, fits₄, fits₅, fits₆, fits₇, fits₈, fits₉, fits₁₀, fits₁₁, size⟩
  clear same
  subst behind atLast length
  have long : (37 : Int) ≤ h.headerLength := Int.not_lt.1 long
  -- between the front and the back stand the names
  obtain ⟨reached, moved⟩ := Scan.moveTo_takes_iff.1 moved
  have toBack : c.pos + (h.headerLength.toNat - backLength) =
      (c.past h.front).pos + (h.headerLength.toNat - 37) := by
    show c.pos + (h.headerLength.toNat - 19) = c.pos + h.front.size + (h.headerLength.toNat - 37)
    rw [size_front]
    omega
  rw [toBack] at reached moved
  obtain ⟨names, size, atNames, past⟩ := Cursor.exists_has reached
  obtain rfl : f = (c.past h.front).past names := moved.trans past
  -- and behind the back stands one byte more
  obtain ⟨room, rfl⟩ := Scan.skip_takes_iff.1 skipped
  obtain ⟨ending, one, atEnding, past⟩ := Cursor.exists_has room
  obtain ⟨last, rfl⟩ := Array.size_eq_one_iff.1 one
  refine ⟨names, last, writable names (by omega),
    front.append (atNames.append (back.append atEnding)), past.trans ?_⟩
  rw [bytes, Cursor.past_append, Cursor.past_append, Cursor.past_append]

end BasketHeader

/-! ## footers -/

namespace Basket

/-- where each entry begins, the first at `start` -/
def starts : (start : Nat) → List Bytes → List Nat
  | _, [] => []
  | start, entry :: rest => start :: starts (start + entry.size) rest

theorem bounds_eq (start : Nat) (entries : List Bytes) :
    bounds start entries = starts start entries ++ [start + (joined entries).size] := by
  induction entries generalizing start with
  | nil => rfl
  | cons entry rest ih =>
    show start :: bounds (start + entry.size) rest =
      start :: (starts (start + entry.size) rest ++ [start + (entry ++ joined rest).size])
    rw [ih, Array.size_append, Nat.add_assoc]

/-- the words of a footer: where each entry begins, counted from the start of the header -/
def offsetWords (headerLength : Int) : (start : Nat) → List Bytes → Bytes
  | _, [] => #[]
  | start, entry :: rest =>
    Bytes.signedOf 4 (headerLength + start) ++ offsetWords headerLength (start + entry.size) rest

@[simp] theorem size_offsetWords (headerLength : Int) (start : Nat) (entries : List Bytes) :
    (offsetWords headerLength start entries).size = 4 * entries.length := by
  induction entries generalizing start with
  | nil => rfl
  | cons entry rest ih =>
    unfold offsetWords
    rw [Array.size_append, ih, Bytes.size_signedOf, List.length_cons]
    omega

theorem entryStart_word {headerLength : Int} {start : Nat}
    (fits : Bytes.Signed 4 (headerLength + start)) :
    entryStart headerLength (Bytes.signedOf 4 (headerLength + start)) = .ok start := by
  unfold entryStart
  rw [Bytes.bigSigned_signedOf fits, add_sub_cancel_left]
  exact if_neg (by omega)

/-- the starts are read from the words between any other bytes -/
theorem entryStarts_words {headerLength : Int} (positive : 0 ≤ headerLength) {start : Nat}
    {entries : List Bytes}
    (fits : Bytes.Signed 4 (headerLength + (start + (joined entries).size : Nat)))
    (before after : Bytes) :
    entryStarts headerLength (before ++ (offsetWords headerLength start entries ++ after))
      entries.length before.size = .ok (starts start entries) := by
  induction entries generalizing start before with
  | nil => rfl
  | cons entry rest ih =>
    let word := Bytes.signedOf 4 (headerLength + start)
    have size : word.size = 4 := Bytes.size_signedOf _ _
    have total : start + (joined (entry :: rest)).size =
        start + entry.size + (joined rest).size := by
      show start + (entry ++ joined rest).size = _
      rw [Array.size_append, Nat.add_assoc]
    rw [total] at fits
    have here : Bytes.Signed 4 (headerLength + start) := by
      obtain ⟨least, most⟩ := fits
      constructor <;> omega
    have cut : (before ++ (word ++ offsetWords headerLength (start + entry.size) rest ++ after)).extract
        before.size (before.size + 4) = word := by
      rw [Array.append_assoc, ← size, Array.extract_append_right, Array.extract_append_left,
        Array.extract_size]
    have others := ih fits (before ++ word)
    have shape : before ++ word ++ (offsetWords headerLength (start + entry.size) rest ++ after) =
        before ++ (word ++ offsetWords headerLength (start + entry.size) rest ++ after) := by
      simp only [Array.append_assoc]
    rw [shape, Array.size_append, size] at others
    show (do
      let first ← entryStart headerLength
        ((before ++ (word ++ offsetWords headerLength (start + entry.size) rest ++ after)).extract
          before.size (before.size + 4))
      return first :: (← entryStarts headerLength
        (before ++ (word ++ offsetWords headerLength (start + entry.size) rest ++ after))
        rest.length (before.size + 4))) = Except.ok (start :: starts (start + entry.size) rest)
    rw [cut, entryStart_word here, others]
    rfl

/-- a footer, between any two words -/
def footer (headerLength : Int) (lead : Bytes) (entries : List Bytes) (tail : Bytes) : Bytes :=
  lead ++ (offsetWords headerLength 0 entries ++ tail)

theorem size_footer {headerLength : Int} {lead tail : Bytes} (leading : lead.size = 4)
    (trailing : tail.size = 4) (entries : List Bytes) :
    (footer headerLength lead entries tail).size = 4 * entries.length + 8 := by
  unfold footer
  rw [Array.size_append, Array.size_append, size_offsetWords, leading, trailing]
  omega

/-- a footer is undone to the bounds of the entries -/
theorem entryBounds_footer {h : BasketHeader} {entries : List Bytes} {lead tail : Bytes}
    (positive : 0 ≤ h.headerLength) (count : h.entryCount = entries.length)
    (fits : Bytes.Signed 4 (h.headerLength + (joined entries).size)) (leading : lead.size = 4)
    (trailing : tail.size = 4) :
    entryBounds h (joined entries).size (footer h.headerLength lead entries tail) =
      .ok (bounds 0 entries) := by
  have size := @size_footer h.headerLength _ _ leading trailing entries
  have whole : ¬ ((footer h.headerLength lead entries tail).size % 4 ≠ 0 ∨
      (footer h.headerLength lead entries tail).size < 8) := by
    rw [size]
    omega
  have counted : ¬ ((footer h.headerLength lead entries tail).size / 4 - 1 ≠
      h.entryCount.toNat + 1) := by
    rw [size, count]
    omega
  have read : entryStarts h.headerLength (footer h.headerLength lead entries tail)
      h.entryCount.toNat 4 = .ok (starts 0 entries) := by
    rw [count, Int.toNat_natCast, ← leading]
    refine entryStarts_words positive ?_ lead tail
    rw [Nat.zero_add]
    exact fits
  unfold entryBounds
  rw [if_neg whole]
  dsimp only
  rw [if_neg counted, read, bounds_eq, Nat.zero_add]
  rfl

end Basket

end Baskets

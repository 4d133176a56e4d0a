import Baskets.Proofs.Scan

/-!
# Version headers

A header with a byte count is written as the count with its mark and the version word, a bare one as
the version word alone.  The scan tells them apart by the mark, for which it takes four bytes at
once; so a header with a count is read again wherever it stands, and a bare one only where two more
bytes stand behind it (`Scan.versionHeader_of_written`).
-/

namespace Baskets

/-! ## marks -/

/-- to set a bit that is clear is to add its place value -/
theorem mark_or {n i : Nat} (clear : n.testBit i = false) : (1 <<< i) ||| n = n + (1 <<< i) := by
  have small : n % 2 ^ i < 2 ^ i := Nat.mod_lt _ (Nat.two_pow_pos i)
  have parts : (n >>> i) <<< i + n % 2 ^ i = n := by
    rw [Nat.shiftLeft_eq, Nat.shiftRight_eq_div_pow, Nat.mul_comm, Nat.div_add_mod]
  -- the number above the bit is even, and the mark adds one to it
  have even : (n >>> i) % 2 = 0 := by
    rw [Nat.testBit_eq_decide_div_mod_eq, decide_eq_false_iff_not] at clear
    rw [Nat.shiftRight_eq_div_pow]
    omega
  have above : 1 ||| n >>> i = n >>> i + 1 := by
    have next := Nat.two_pow_add_eq_or_of_lt (show 1 < 2 ^ 1 by decide) (n >>> i / 2)
    rw [show 2 ^ 1 * (n >>> i / 2) = n >>> i by omega] at next
    rw [Nat.or_comm, next]
  calc (1 <<< i) ||| n
      = (1 <<< i) ||| ((n >>> i) <<< i ||| n % 2 ^ i) := by
        rw [← Nat.shiftLeft_add_eq_or_of_lt small, parts]
    _ = (n >>> i + 1) <<< i ||| n % 2 ^ i := by
        rw [← Nat.or_assoc, ← Nat.shiftLeft_or_distrib, above]
    _ = (n >>> i + 1) <<< i + n % 2 ^ i := (Nat.shiftLeft_add_eq_or_of_lt small _).symm
    _ = n + (1 <<< i) := by
        rw [Nat.shiftLeft_eq, Nat.add_mul, ← Nat.shiftLeft_eq, ← Nat.shiftLeft_eq]
        omega

theorem testBit_mark (n i : Nat) : ((1 <<< i) ||| n).testBit i = true := by
  rw [Nat.testBit_or, Nat.one_shiftLeft, Nat.testBit_two_pow_self, Bool.true_or]

theorem clearBit_mark {n i : Nat} (clear : n.testBit i = false) :
    clearBit ((1 <<< i) ||| n) i = n := by
  unfold clearBit
  rw [if_pos (testBit_mark n i), mark_or clear, Nat.add_sub_cancel]

theorem clearBit_of_clear {n i : Nat} (clear : n.testBit i = false) : clearBit n i = n := by
  unfold clearBit
  rw [if_neg (by rw [clear]; exact Bool.false_ne_true)]

theorem mark_lt {n i width : Nat} (small : n < 2 ^ width) (inside : i < width) :
    (1 <<< i) ||| n < 2 ^ width := by
  refine Nat.or_lt_two_pow ?_ small
  rw [Nat.one_shiftLeft]
  exact Nat.pow_lt_pow_right (by decide) inside

/-! ## headers -/

namespace VersionHeader

/-- what can be written: a version of two bytes and a count of four, both without their marks, and
no mark for several objects without a count -/
structure Writable (h : VersionHeader) : Prop where
  version : h.version < 2 ^ 16
  unmarked : h.version.testBit 14 = false
  count : ∀ n ∈ h.byteCount, n < 2 ^ 32 ∧ n.testBit 30 = false
  counted : h.byteCount = none → h.memberwise = false

/-- the version with the mark for several objects -/
def word (h : VersionHeader) : Nat := if h.memberwise then 0x4000 ||| h.version else h.version

/-- how a header is written: the count with its mark, if there is one, and the version word -/
def written (h : VersionHeader) : Bytes :=
  (h.byteCount.elim #[] fun n => Bytes.bigOf 4 (0x40000000 ||| n)) ++ Bytes.bigOf 2 h.word

variable {h : VersionHeader} {n : Nat}

theorem written_of_some (counted : h.byteCount = some n) :
    h.written = Bytes.bigOf 4 (0x40000000 ||| n) ++ Bytes.bigOf 2 h.word := by
  unfold written
  rw [counted]
  rfl

theorem written_of_none (bare : h.byteCount = none) : h.written = Bytes.bigOf 2 h.word := by
  unfold written
  rw [bare]
  exact Array.empty_append

theorem size_written (h : VersionHeader) :
    h.written.size = if h.byteCount = none then 2 else 6 := by
  cases counted : h.byteCount with
  | none => rw [written_of_none counted, Bytes.size_bigOf, if_pos rfl]
  | some n =>
    rw [written_of_some counted, Array.size_append, Bytes.size_bigOf, Bytes.size_bigOf,
      if_neg (Option.some_ne_none n)]

namespace Writable

theorem word_lt (writable : h.Writable) : h.word < 2 ^ 16 := by
  unfold word
  split
  · exact mark_lt (i := 14) writable.version (by decide)
  · exact writable.version

/-- the word says what the header says -/
theorem ofWords_word (writable : h.Writable) (count : Option Nat) :
    VersionHeader.ofWords count h.word = { h with byteCount := count } := by
  unfold VersionHeader.ofWords word
  cases several : h.memberwise with
  | false =>
    rw [if_neg Bool.false_ne_true, clearBit_of_clear writable.unmarked, writable.unmarked]
  | true =>
    rw [if_pos rfl]
    have cleared := clearBit_mark writable.unmarked
    have marked := testBit_mark h.version 14
    show VersionHeader.mk count (clearBit ((1 <<< 14) ||| h.version) 14)
      (((1 <<< 14) ||| h.version).testBit 14) = _
    rw [cleared, marked]

theorem word_of_bare (writable : h.Writable) (bare : h.byteCount = none) :
    h.word = h.version := by
  unfold word
  rw [if_neg (by rw [writable.counted bare]; exact Bool.false_ne_true)]

end Writable

end VersionHeader

namespace Scan

variable {h : VersionHeader}

/-- a count with its mark, and a version word -/
theorem undoes_versionHeader {n word : Nat} (small : n < 2 ^ 32) (clear : n.testBit 30 = false)
    (fits : word < 256 ^ 2) :
    versionHeader.Undoes (Bytes.bigOf 4 (0x40000000 ||| n) ++ Bytes.bigOf 2 word)
      (.ofWords (some n) word) := by
  have marked : (0x40000000 ||| n).testBit 30 = true := testBit_mark n 30
  have cleared : clearBit (0x40000000 ||| n) 30 = n := clearBit_mark clear
  have count : 0x40000000 ||| n < 256 ^ 4 := mark_lt (i := 30) small (by decide)
  unfold versionHeader
  refine (undoes_unsigned count).bind ?_
  rw [if_pos marked, cleared]
  exact (undoes_unsigned fits).map (VersionHeader.ofWords (some n))

/-- a header with a count is read again -/
theorem undoes_written (writable : h.Writable) (counted : h.byteCount ≠ none) :
    versionHeader.Undoes h.written h := by
  obtain ⟨n, count⟩ := Option.ne_none_iff_exists'.1 counted
  obtain ⟨small, clear⟩ := writable.count n count
  have header := undoes_versionHeader small clear writable.word_lt
  rw [writable.ofWords_word, ← count] at header
  rw [VersionHeader.written_of_some count]
  exact header

/-- a bare header is read again before two more bytes, which are given back -/
theorem takes_bare (writable : h.Writable) (bare : h.byteCount = none) {more : Bytes}
    (two : more.size = 2) {c : Cursor} (has : c.Has (h.written ++ more)) :
    versionHeader.Takes c h (c.past h.written) := by
  have written : h.written = Bytes.bigOf 2 h.version := by
    rw [VersionHeader.written_of_none bare, writable.word_of_bare bare]
  have small : more.big < 2 ^ 16 := by
    have bound := Bytes.big_lt more
    rwa [two] at bound
  have four : (h.written ++ more).size = 4 := by
    simp [written, two]
  have number : Bytes.big (h.written ++ more) = 2 ^ 16 * h.version + more.big := by
    rw [Bytes.big_append, written, Bytes.big_bigOf_of_lt writable.version, two, Nat.mul_comm]
    rfl
  have taken := undoes_big (h.written ++ more) c has
  rw [four, number] at taken
  have unmarked : (2 ^ 16 * h.version + more.big).testBit 30 = false := by
    rw [Nat.testBit_two_pow_mul_add _ small, if_neg (by decide)]
    exact writable.unmarked
  have version : (2 ^ 16 * h.version + more.big) / 0x10000 = h.version := by omega
  have back : (stepBack 2).Takes (c.past (h.written ++ more)) () (c.past h.written) := by
    have step := stepBack_past c h.written more
    rwa [two] at step
  have header : VersionHeader.ofWords none h.version = h := by
    rw [← writable.word_of_bare bare, writable.ofWords_word, ← bare]
  refine taken.bind ?_
  rw [if_neg (by rw [unmarked]; exact Bool.false_ne_true), version, header]
  exact back.bind rfl

/-- **Version headers.**  A header with a byte count is read again from its six bytes wherever they
stand.  A bare header is read again from its two bytes where two more stand behind them; where fewer
do, as at the end of an entry, the scan runs out of bytes and stays where it was. -/
theorem versionHeader_of_written (writable : h.Writable) (before after : Bytes) :
    let c : Cursor := { data := before ++ h.written ++ after, pos := before.size }
    h.written.size = (if h.byteCount = none then 2 else 6) ∧
    versionHeader.run c =
      if h.byteCount = none ∧ after.size < 2 then
        (.error (.underflow before.size 4 (2 + after.size)), c)
      else (.ok h, { c with pos := before.size + h.written.size }) := by
  intro c
  refine ⟨h.size_written, ?_⟩
  by_cases bare : h.byteCount = none
  · by_cases few : after.size < 2
    · have left : c.remaining = 2 + after.size := by
        show (before ++ h.written ++ after).size - before.size = _
        rw [Array.size_append, Array.size_append, h.size_written, if_pos bare]
        omega
      have outside : ¬c.pos + 4 ≤ c.data.size := by
        unfold Cursor.remaining at left
        omega
      rw [if_pos ⟨bare, few⟩, ← left]
      unfold versionHeader unsigned
      rw [run_bind, run_bind, run_take, if_neg outside]
    · rw [if_neg fun both => few both.2]
      have split : after = after.extract 0 2 ++ after.extract 2 after.size := by
        rw [← Bytes.extract_split after (Nat.zero_le 2) (Nat.le_of_not_lt few), Array.extract_size]
      have two : (after.extract 0 2).size = 2 :=
        Array.size_extract_of_le (Nat.le_of_not_lt few)
      refine takes_bare writable bare two ⟨before, after.extract 2 after.size, ?_, rfl⟩
      show before ++ h.written ++ after = _
      simp only [Array.append_assoc, ← split]
  · rw [if_neg fun both => bare both.1]
    exact undoes_written writable bare c ⟨before, after, rfl, rfl⟩

/-- a counted header of a list at the end of some bytes, and a bare one before its object -/
theorem versionHeader_of_written_twice :
    versionHeader.run { data := #[7] ++ #[0xc0, 0, 0, 6, 0x40, 9] ++ #[], pos := 1 } =
      (.ok { byteCount := some 0x80000006, version := 9, memberwise := true },
        { data := #[7, 0xc0, 0, 0, 6, 0x40, 9], pos := 7 }) ∧
    versionHeader.run { data := #[7] ++ #[0x80, 5] ++ #[0xff, 0xff], pos := 1 } =
      (.ok { byteCount := none, version := 0x8005, memberwise := false },
        { data := #[7, 0x80, 5, 0xff, 0xff], pos := 3 }) := by
  have list : VersionHeader.Writable ⟨some 0x80000006, 9, true⟩ :=
    ⟨by decide, by decide, by simp; decide, by simp⟩
  have object : VersionHeader.Writable ⟨none, 0x8005, false⟩ :=
    ⟨by decide, by decide, by simp, by simp⟩
  exact ⟨(versionHeader_of_written list #[7] #[]).2,
    (versionHeader_of_written object #[7] #[0xff, 0xff]).2⟩

/-- a bare header at the end of some bytes is not read again -/
theorem versionHeader_bare_last :
    VersionHeader.Writable ⟨none, 5, false⟩ ∧
    VersionHeader.written ⟨none, 5, false⟩ = #[0, 5] ∧
    versionHeader.run { data := #[] ++ #[0, 5] ++ #[] } =
      (.error (.underflow 0 4 2), { data := #[0, 5] }) :=
  ⟨⟨by decide, by decide, by simp, by simp⟩, rfl, rfl⟩

end Scan

end Baskets

import Baskets.Proofs.Basket.Written
import Baskets.Proofs.Scan.Fixed

/-!
# Where a header is read

A header is as long as it says, and it says so in two of its first eighteen bytes.  These decide
whether there is a header at all (`BasketHeader.lengthAt`): the length has to have room for the
fields at both ends, and so many bytes have to stand there.  Then the fields are read that were
written, from whatever place, and the cursor is left at the end of the header
(`BasketHeader.scan_of_written`).
-/

namespace Baskets

namespace Scan

variable {α β : Type} {a : α} {c d : Cursor} {data : Bytes} {pos width : Nat}

theorem Takes.run_bind {s : Scan α} (takes : s.Takes c a d) (f : α → Scan β) :
    (s >>= f).run c = (f a).run d := by
  simp [takes.run]

theorem takes_signed (inside : pos + width ≤ data.size) : (signed width).Takes { data, pos }
    (Bytes.bigSigned (data.extract pos (pos + width))) { data, pos := pos + width } := by
  have taken : (take width).Takes { data, pos } _ _ := takes_take inside
  exact taken.bind rfl

end Scan

namespace BasketHeader

variable {c d : Cursor} {h : BasketHeader} {names : Bytes} {last : UInt8}

/-- the length of the header that begins at a cursor, as its bytes say -/
def lengthAt (c : Cursor) : Int := Bytes.bigSigned (c.data.extract (c.pos + 14) (c.pos + 16))

theorem lengthAt_of_has (writable : h.Writable names) (has : c.Has (h.bytes names last)) :
    lengthAt c = h.headerLength := by
  have front : c.Has h.front := has.left
  have word := front.right.right.right.right.left.extract
  simp only [Cursor.past, Bytes.size_signedOf, Bytes.size_bigOf] at word
  have there : c.data.extract (c.pos + 14) (c.pos + 16) = Bytes.signedOf 2 h.headerLength := word
  unfold lengthAt
  rw [there, Bytes.bigSigned_signedOf writable.headerLength]

/-! ## from the front to the back -/

section
variable {data : Bytes} {pos : Nat}

/-- where there is room for the fields of the front they are read, and the length with them -/
theorem exists_front (room : pos + 18 ≤ data.size) : ∃ front : BasketHeader,
    scan.run { data, pos } = Scan.run (do
      if lengthAt { data, pos } < (frontLength + backLength : Nat) then
        throw (.malformed (.keyTooShort (lengthAt { data, pos })))
      Scan.moveTo (pos + ((lengthAt { data, pos }).toNat - backLength))
      let version ← Scan.unsigned 2
      let bufferSize ← Scan.signed 4
      let entrySize ← Scan.signed 4
      let entryCount ← Scan.signed 4
      let lastOffset ← Scan.signed 4
      Scan.skip 1
      return { front with version, bufferSize, entrySize, entryCount, lastOffset })
      { data, pos := pos + 18 } := by
  have inside {n : Nat} (front : n ≤ 18) : pos + n ≤ data.size := by omega
  have start : Scan.pos.Takes { data, pos } pos { data, pos } := rfl
  obtain ⟨totalBytes, total⟩ := (Scan.Fixed.signed 4).takes { data, pos }
    (inside (by decide : 4 ≤ 18))
  obtain ⟨headerVersion, version⟩ := (Scan.Fixed.signed 2).takes { data, pos := pos + 4 }
    (@inside 6 (by decide))
  obtain ⟨objectLength, object⟩ := (Scan.Fixed.signed 4).takes { data, pos := pos + 6 }
    (@inside 10 (by decide))
  obtain ⟨packed, datime⟩ := (Scan.Fixed.unsigned 4).takes { data, pos := pos + 10 }
    (@inside 14 (by decide))
  have length := @Scan.takes_signed data (pos + 14) 2 (@inside 16 (by decide))
  obtain ⟨number, cycle⟩ := (Scan.Fixed.signed 2).takes { data, pos := pos + 16 }
    (@inside 18 (by decide))
  refine ⟨⟨totalBytes, headerVersion, objectLength, packed, lengthAt { data, pos }, number,
    0, 0, 0, 0, 0⟩, ?_⟩
  refine (start.run_bind _).trans ?_
  refine (total.run_bind _).trans ?_
  refine (version.run_bind _).trans ?_
  refine (object.run_bind _).trans ?_
  refine (datime.run_bind _).trans ?_
  refine (length.run_bind _).trans ?_
  exact cycle.run_bind _

theorem scan_of_short (room : pos + 18 ≤ data.size) (short : lengthAt { data, pos } < 37) :
    scan.run { data, pos } =
      (.error (.malformed (.keyTooShort (lengthAt { data, pos }))), { data, pos := pos + 18 }) := by
  obtain ⟨front, run⟩ := exists_front room
  have short : lengthAt { data, pos } < (frontLength + backLength : Nat) := short
  rw [run, if_pos short]
  rfl

/-- a length that is enough, and as many bytes, are all that it takes -/
theorem exists_of_length (enough : 37 ≤ lengthAt { data, pos })
    (room : pos + lengthAt { data, pos } ≤ data.size) : ∃ h d, scan.Takes { data, pos } h d := by
  obtain ⟨front, run⟩ := @exists_front data pos (by omega)
  have long : ¬lengthAt { data, pos } < (frontLength + backLength : Nat) := Int.not_lt.2 enough
  rw [if_neg long] at run
  generalize back : pos + ((lengthAt { data, pos }).toNat - backLength) = stop at run
  have inside {n : Nat} (behind : n ≤ 19) : stop + n ≤ data.size := by
    have back : pos + ((lengthAt { data, pos }).toNat - 19) = stop := back
    omega
  have moved : (Scan.moveTo stop).Takes { data, pos := pos + 18 } () { data, pos := stop } :=
    Scan.moveTo_takes (inside (by decide : 0 ≤ 19))
  obtain ⟨_, version⟩ := (Scan.Fixed.unsigned 2).takes { data, pos := stop }
    (inside (by decide))
  obtain ⟨_, buffer⟩ := (Scan.Fixed.signed 4).takes { data, pos := stop + 2 }
    (@inside 6 (by decide))
  obtain ⟨_, size⟩ := (Scan.Fixed.signed 4).takes { data, pos := stop + 6 }
    (@inside 10 (by decide))
  obtain ⟨_, count⟩ := (Scan.Fixed.signed 4).takes { data, pos := stop + 10 }
    (@inside 14 (by decide))
  obtain ⟨_, last⟩ := (Scan.Fixed.signed 4).takes { data, pos := stop + 14 }
    (@inside 18 (by decide))
  have skipped : (Scan.skip 1).Takes { data, pos := stop + 18 } () { data, pos := stop + 19 } :=
    Scan.skip_takes_iff.2 ⟨@inside 19 (by decide), rfl⟩
  have given (h : BasketHeader) (c : Cursor) : Scan.Takes (pure h) c h c := rfl
  exact ⟨_, _, run.trans (moved.bind (version.bind (buffer.bind (size.bind (count.bind
    (last.bind (skipped.bind (given _ _))))))))⟩

end

/-! ## headers that are read -/

theorem scan_ok (takes : scan.Takes c h d) :
    h.headerLength = lengthAt c ∧ 37 ≤ h.headerLength ∧ c.pos + h.headerLength ≤ c.data.size ∧
      d = { c with pos := c.pos + h.headerLength.toNat } ∧
      ∃ names last, h.Writable names ∧ c.Has (h.bytes names last) := by
  obtain ⟨names, last, writable, has, rfl⟩ := exists_of_scan takes
  have length := writable.length
  have inside := has.inside
  rw [size_bytes] at inside
  have stop : names.size + 37 = h.headerLength.toNat := by omega
  refine ⟨(lengthAt_of_has writable has).symm, by omega, by omega, ?_, names, last, writable, has⟩
  unfold Cursor.past
  simp [stop]

/-- **A header is read as it was written.**  Whatever stands before it, in it in the place of the
names and behind it, the fields are the ones that were written, and the cursor is left at the end.
Only what could have been written is read; and it is read just where the length that the bytes give
is no less than 37 and there are as many bytes.  A length below is refused. -/
theorem scan_of_written :
    (∀ h names last before after, Writable h names →
      scan.run { data := before ++ h.bytes names last ++ after, pos := before.size } =
        (.ok h, { data := before ++ h.bytes names last ++ after,
                  pos := before.size + h.headerLength.toNat })) ∧
    (∀ c h d, scan.run c = (.ok h, d) →
      h.headerLength = lengthAt c ∧ 37 ≤ h.headerLength ∧ c.pos + h.headerLength ≤ c.data.size ∧
        d = { c with pos := c.pos + h.headerLength.toNat } ∧
        ∃ names last, h.Writable names ∧ c.Has (h.bytes names last)) ∧
    (∀ c, (∃ h d, scan.run c = (.ok h, d)) ↔
      37 ≤ lengthAt c ∧ c.pos + lengthAt c ≤ c.data.size) ∧
    ∀ c, c.pos + 18 ≤ c.data.size → lengthAt c < 37 →
      scan.run c =
        (.error (.malformed (.keyTooShort (lengthAt c))), { c with pos := c.pos + 18 }) := by
  refine ⟨fun h names last before after writable => ?_, fun c h d ran => scan_ok ran,
    fun c => ⟨fun ⟨h, d, ran⟩ => ?_, fun ⟨enough, room⟩ => exists_of_length enough room⟩,
    fun c room short => scan_of_short room short⟩
  · have takes := undoes_scan writable last _ (Cursor.has_middle before (h.bytes names last) after)
    obtain ⟨-, -, -, stop, -⟩ := scan_ok takes
    rw [stop] at takes
    exact takes
  · obtain ⟨length, enough, room, -⟩ := scan_ok ran
    rw [length] at enough room
    exact ⟨enough, room⟩

/-- the header of two entries between other bytes, and one that is too short by a byte -/
theorem scan_of_written_pair :
    scan.run { data := #[7] ++ (Basket.pairHeader 56).bytes #[] 0 ++ #[8, 9], pos := 1 } =
      (.ok (Basket.pairHeader 56),
        { data := #[7] ++ (Basket.pairHeader 56).bytes #[] 0 ++ #[8, 9], pos := 38 }) ∧
    scan.run { data := ({ Basket.pairHeader 56 with headerLength := 36 } : BasketHeader).front } =
      (.error (.malformed (.keyTooShort 36)),
        { data := ({ Basket.pairHeader 56 with headerLength := 36 } : BasketHeader).front,
          pos := 18 }) := by
  have fits : Bytes.Signed 4 56 := by decide
  refine ⟨?_, ?_⟩
  · exact scan_of_written.1 _ #[] 0 #[7] #[8, 9] (Basket.describes_pair fits).writable
  · exact scan_of_written.2.2.2
      { data := ({ Basket.pairHeader 56 with headerLength := 36 } : BasketHeader).front }
      (by decide +kernel) (by decide +kernel)

end BasketHeader

end Baskets

/-!
# Reading text out of bytes that may not be text

`Text.lossy` decodes UTF-8 and never fails: each longest stretch that begins a character and breaks
off becomes one replacement character U+FFFD, and decoding goes on right behind it.
-/

namespace Baskets.Text

/-- the shape a leading byte announces -/
structure Lead where
  /-- its share of the code point -/
  high : Nat
  /-- the bytes that follow it -/
  more : Nat
  /-- the least second byte: a smaller one would be an overlong form -/
  least : UInt8 := 0x80
  /-- the greatest second byte: a greater one would be a surrogate or past the last plane -/
  greatest : UInt8 := 0xbf

/-- what a byte outside ASCII announces as first byte of a character -/
def Lead.ofByte? (b : UInt8) : Option Lead :=
  if b < 0xc2 then none
  else if b < 0xe0 then some { high := b.toNat - 0xc0, more := 1 }
  else if b = 0xe0 then some { high := 0, more := 2, least := 0xa0 }
  else if b = 0xed then some { high := 0xd, more := 2, greatest := 0x9f }
  else if b < 0xf0 then some { high := b.toNat - 0xe0, more := 2 }
  else if b = 0xf0 then some { high := 0, more := 3, least := 0x90 }
  else if b < 0xf4 then some { high := b.toNat - 0xf0, more := 3 }
  else if b = 0xf4 then some { high := 4, more := 3, greatest := 0x8f }
  else none

/-- takes `more` following bytes in, the first of them between the bounds; gives the code point
unless a byte does not fit, and the bytes behind those that did -/
def follow (code : Nat) (least greatest : UInt8) : Nat → List UInt8 → Option Nat × List UInt8
  | 0, rest => (some code, rest)
  | _ + 1, [] => (none, [])
  | more + 1, b :: rest =>
    if least ≤ b && b ≤ greatest then follow (code * 64 + (b.toNat - 0x80)) 0x80 0xbf more rest
    else (none, b :: rest)

theorem length_follow_le (code : Nat) (least greatest : UInt8) (more : Nat) (bytes : List UInt8) :
    (follow code least greatest more bytes).2.length ≤ bytes.length := by
  induction more generalizing code least greatest bytes with
  | zero => simp [follow]
  | succ more ih =>
    cases bytes with
    | nil => simp [follow]
    | cons b rest =>
      simp only [follow]
      split
      · exact Nat.le_succ_of_le (ih _ _ _ rest)
      · simp

/-- the characters of a byte string, broken stretches replaced -/
def lossyChars : List UInt8 → List Char
  | [] => []
  | b :: rest =>
    if b < 0x80 then Char.ofNat b.toNat :: lossyChars rest
    else match Lead.ofByte? b with
      | none => '\ufffd' :: lossyChars rest
      | some lead =>
        let next := follow lead.high lead.least lead.greatest lead.more rest
        (next.1.elim '\ufffd' Char.ofNat) :: lossyChars next.2
termination_by bytes => bytes.length
decreasing_by
  · simp
  · simp
  · exact Nat.lt_succ_of_le (length_follow_le ..)

def lossy (bytes : Array UInt8) : String := String.ofList (lossyChars bytes.toList)

end Baskets.Text

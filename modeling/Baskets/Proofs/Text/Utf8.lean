import Baskets.Text.Lossy
import Mathlib.Data.UInt
import Mathlib.Tactic.IntervalCases

/-!
# Texts that were written as UTF-8

What is read of the UTF-8 bytes of a text is the text.  A character takes one to four bytes, and in
each case the first of them announces how many follow and between which bounds the second one must
be; of the characters of three and of four bytes the first and the last ones touch these bounds.
-/

namespace Baskets.Text

theorem toNat_ofNat_of_lt {n : Nat} (small : n < 256) : (UInt8.ofNat n).toNat = n :=
  UInt8.toNat_ofNat_of_lt' small

/-- a byte that follows another adds six bits -/
theorem follow_digit {code digit : Nat} {least greatest : UInt8} (small : digit < 64)
    (low : least.toNat ≤ digit + 128) (high : digit + 128 ≤ greatest.toNat) (more : Nat)
    (rest : List UInt8) :
    follow code least greatest (more + 1) (UInt8.ofNat (digit + 128) :: rest) =
      follow (code * 64 + digit) 0x80 0xbf more rest := by
  have byte : (UInt8.ofNat (digit + 128)).toNat = digit + 128 := toNat_ofNat_of_lt (by omega)
  have inside : (least ≤ UInt8.ofNat (digit + 128) && UInt8.ofNat (digit + 128) ≤ greatest) = true := by
    rw [Bool.and_eq_true, decide_eq_true_iff, decide_eq_true_iff, UInt8.le_iff_toNat_le,
      UInt8.le_iff_toNat_le, byte]
    exact ⟨low, high⟩
  show (if _ then follow (code * 64 + ((UInt8.ofNat (digit + 128)).toNat - 0x80)) 0x80 0xbf more rest
    else _) = _
  rw [if_pos inside, byte, Nat.add_sub_cancel]

/-- a byte that follows others may be any with the mark of one -/
theorem follow_plain {code digit : Nat} (small : digit < 64) (more : Nat) (rest : List UInt8) :
    follow code 0x80 0xbf (more + 1) (UInt8.ofNat (digit + 128) :: rest) =
      follow (code * 64 + digit) 0x80 0xbf more rest := by
  refine follow_digit small ?_ ?_ more rest
  · show 128 ≤ digit + 128
    omega
  · show digit + 128 ≤ 191
    omega

/-- a character whose bytes follow one that announces them -/
theorem lossyChars_lead {b : UInt8} {lead : Lead} (other : ¬ b < 0x80)
    (announces : Lead.ofByte? b = some lead) {rest behind : List UInt8} {c : Char}
    (followed : follow lead.high lead.least lead.greatest lead.more rest = (some c.toNat, behind)) :
    lossyChars (b :: rest) = c :: lossyChars behind := by
  rw [lossyChars, if_neg other, announces]
  dsimp only
  rw [followed]
  show Char.ofNat c.toNat :: _ = _
  rw [Char.ofNat_toNat]

theorem ofByte?_two {n : Nat} (least : 2 ≤ n) (small : n < 32) :
    Lead.ofByte? (UInt8.ofNat (n + 192)) = some { high := n, more := 1 } := by
  have byte : (UInt8.ofNat (n + 192)).toNat = n + 192 := toNat_ofNat_of_lt (by omega)
  unfold Lead.ofByte?
  rw [if_neg, if_pos, byte, Nat.add_sub_cancel]
  · rw [UInt8.lt_iff_toNat_lt, byte]
    show n + 192 < 224
    omega
  · rw [UInt8.lt_iff_toNat_lt, byte]
    show ¬ n + 192 < 194
    omega

/-- the bounds of the second byte of three -/
def leastOfThree (n : Nat) : UInt8 := if n = 0 then 0xa0 else 0x80

def greatestOfThree (n : Nat) : UInt8 := if n = 13 then 0x9f else 0xbf

theorem ofByte?_three {n : Nat} (small : n < 16) :
    Lead.ofByte? (UInt8.ofNat (n + 224)) =
      some { high := n, more := 2, least := leastOfThree n, greatest := greatestOfThree n } := by
  interval_cases n <;> rfl

/-- the bounds of the second byte of four -/
def leastOfFour (n : Nat) : UInt8 := if n = 0 then 0x90 else 0x80

def greatestOfFour (n : Nat) : UInt8 := if n = 4 then 0x8f else 0xbf

theorem ofByte?_four {n : Nat} (small : n < 5) :
    Lead.ofByte? (UInt8.ofNat (n + 240)) =
      some { high := n, more := 3, least := leastOfFour n, greatest := greatestOfFour n } := by
  interval_cases n <;> rfl

theorem not_lt_ascii {n : Nat} (least : 128 ≤ n) (small : n < 256) : ¬ UInt8.ofNat n < 0x80 := by
  rw [UInt8.lt_iff_toNat_lt, toNat_ofNat_of_lt small]
  exact Nat.not_lt.2 least

theorem follow_end {code n : Nat} (same : code = n) (least greatest : UInt8) (rest : List UInt8) :
    follow code least greatest 0 rest = (some n, rest) := by
  rw [← same]
  rfl

/-- the bytes of a character, by how many there are -/
theorem encode_eq (c : Char) : String.utf8EncodeChar c =
    if c.toNat ≤ 127 then [UInt8.ofNat c.toNat]
    else if c.toNat ≤ 2047 then
      [UInt8.ofNat (c.toNat / 64 % 32 + 192), UInt8.ofNat (c.toNat % 64 + 128)]
    else if c.toNat ≤ 65535 then
      [UInt8.ofNat (c.toNat / 4096 % 16 + 224), UInt8.ofNat (c.toNat / 64 % 64 + 128),
        UInt8.ofNat (c.toNat % 64 + 128)]
    else
      [UInt8.ofNat (c.toNat / 262144 % 8 + 240), UInt8.ofNat (c.toNat / 4096 % 64 + 128),
        UInt8.ofNat (c.toNat / 64 % 64 + 128), UInt8.ofNat (c.toNat % 64 + 128)] :=
  String.utf8EncodeChar.eq_1 c

/-- the bytes of a character are read as the character -/
@[simp] theorem lossyChars_encode (c : Char) (rest : List UInt8) :
    lossyChars (String.utf8EncodeChar c ++ rest) = c :: lossyChars rest := by
  have valid : c.toNat < 0xd800 ∨ 0xdfff < c.toNat ∧ c.toNat < 0x110000 := c.valid
  rw [encode_eq]
  by_cases one : c.toNat ≤ 127
  · have byte : (UInt8.ofNat c.toNat).toNat = c.toNat := toNat_ofNat_of_lt (by omega)
    have ascii : UInt8.ofNat c.toNat < 0x80 := by
      rw [UInt8.lt_iff_toNat_lt, byte]
      show c.toNat < 128
      omega
    rw [if_pos one]
    show lossyChars (UInt8.ofNat c.toNat :: rest) = _
    rw [lossyChars, if_pos ascii, byte, Char.ofNat_toNat]
  rw [if_neg one]
  by_cases two : c.toNat ≤ 2047
  · rw [if_pos two, List.cons_append, List.cons_append, List.nil_append]
    refine lossyChars_lead (not_lt_ascii (by omega) (by omega))
      (ofByte?_two (by omega) (by omega)) ?_
    show follow (c.toNat / 64 % 32) 0x80 0xbf 1 _ = _
    rw [follow_plain (by omega)]
    exact follow_end (by omega) _ _ _
  rw [if_neg two]
  by_cases three : c.toNat ≤ 65535
  · rw [if_pos three, List.cons_append, List.cons_append, List.cons_append, List.nil_append]
    refine lossyChars_lead (not_lt_ascii (by omega) (by omega)) (ofByte?_three (by omega)) ?_
    have low : (leastOfThree (c.toNat / 4096 % 16)).toNat ≤ c.toNat / 64 % 64 + 128 := by
      unfold leastOfThree
      split
      · show 160 ≤ _
        omega
      · show 128 ≤ _
        omega
    have high : c.toNat / 64 % 64 + 128 ≤ (greatestOfThree (c.toNat / 4096 % 16)).toNat := by
      unfold greatestOfThree
      split
      · show _ ≤ 159
        omega
      · show _ ≤ 191
        omega
    show follow (c.toNat / 4096 % 16) (leastOfThree _) (greatestOfThree _) 2 _ = _
    rw [follow_digit (by omega) low high, follow_plain (by omega)]
    exact follow_end (by omega) _ _ _
  · rw [if_neg three, List.cons_append, List.cons_append, List.cons_append, List.cons_append,
      List.nil_append]
    refine lossyChars_lead (not_lt_ascii (by omega) (by omega)) (ofByte?_four (by omega)) ?_
    have low : (leastOfFour (c.toNat / 262144 % 8)).toNat ≤ c.toNat / 4096 % 64 + 128 := by
      unfold leastOfFour
      split
      · show 144 ≤ _
        omega
      · show 128 ≤ _
        omega
    have high : c.toNat / 4096 % 64 + 128 ≤ (greatestOfFour (c.toNat / 262144 % 8)).toNat := by
      unfold greatestOfFour
      split
      · show _ ≤ 143
        omega
      · show _ ≤ 191
        omega
    show follow (c.toNat / 262144 % 8) (leastOfFour _) (greatestOfFour _) 3 _ = _
    rw [follow_digit (by omega) low high, follow_plain (by omega), follow_plain (by omega)]
    exact follow_end (by omega) _ _ _

@[simp] theorem lossyChars_flatMap (chars : List Char) :
    lossyChars (chars.flatMap String.utf8EncodeChar) = chars := by
  induction chars with
  | nil => rw [List.flatMap_nil, lossyChars]
  | cons c chars ih => rw [List.flatMap_cons, lossyChars_encode, ih]

/-- the bytes of a text -/
def utf8 (s : String) : Array UInt8 := s.toUTF8.data

@[simp]
theorem toList_utf8 (s : String) : (utf8 s).toList = s.toList.flatMap String.utf8EncodeChar := by
  show s.toByteArray.data.toList = _
  conv_lhs => rw [← String.ofList_toList (s := s)]
  exact List.toList_data_toByteArray

/-- the bytes of a text are read as the text -/
@[simp] theorem lossy_utf8 (s : String) : lossy (utf8 s) = s := by
  unfold lossy
  simp

/-! ## what the bytes of a text are not -/

theorem loop_toList (bytes : ByteArray) (place : Nat) (before : List UInt8) :
    ByteArray.toList.loop bytes place before =
      before.reverse ++ bytes.data.toList.drop place := by
  fun_induction ByteArray.toList.loop bytes place before with
  | case1 place before inside ih =>
    have there : place < bytes.data.toList.length := inside
    have head : bytes.get! place = bytes.data.toList[place] :=
      getElem!_pos bytes.data place inside
    rw [ih, head, List.reverse_cons, List.append_assoc, List.drop_eq_getElem_cons there]
    rfl
  | case2 place before outside =>
    have beyond : bytes.data.toList.length ≤ place := Nat.not_lt.1 outside
    rw [List.drop_eq_nil_of_le beyond, List.append_nil]

@[simp]
theorem toList_toUTF8 (s : String) : s.toUTF8.toList = s.toList.flatMap String.utf8EncodeChar := by
  have loop := loop_toList s.toUTF8 0 []
  rw [List.reverse_nil, List.nil_append, List.drop_zero] at loop
  exact loop.trans (toList_utf8 s)

theorem toUTF8_inj {s t : String} (same : s.toUTF8.toList = t.toUTF8.toList) : s = t := by
  rw [toList_toUTF8, toList_toUTF8] at same
  have chars := congrArg lossyChars same
  rwa [lossyChars_flatMap, lossyChars_flatMap, String.toList_inj] at chars

/-- the greatest byte is in no character, and zero in the one of that number only -/
theorem of_mem_encode {c : Char} {b : UInt8} (mem : b ∈ String.utf8EncodeChar c) :
    b ≠ 0xff ∧ (b = 0 → c = '\x00') := by
  have valid : c.toNat < 0xd800 ∨ 0xdfff < c.toNat ∧ c.toNat < 0x110000 := c.valid
  have high {n : Nat} (least : 128 ≤ n) (small : n < 255) (same : b = UInt8.ofNat n) :
      b ≠ 0xff ∧ (b = 0 → c = '\x00') := by
    have number : b.toNat = n := same ▸ toNat_ofNat_of_lt (by omega)
    refine ⟨fun last => ?_, fun zero => ?_⟩
    · rw [last] at number
      exact absurd number.symm (Nat.ne_of_lt small)
    · rw [zero] at number
      exact absurd number.symm (Nat.ne_of_gt (Nat.lt_of_lt_of_le (by decide) least))
  rw [encode_eq] at mem
  split_ifs at mem with one two three
  · have number : b.toNat = c.toNat :=
      List.mem_singleton.1 mem ▸ toNat_ofNat_of_lt (by omega)
    refine ⟨fun last => ?_, fun zero => ?_⟩
    · rw [last] at number
      exact absurd (number ▸ one) (by decide)
    · rw [zero] at number
      exact Char.ext (UInt32.toNat_inj.1 number.symm)
  · rcases List.mem_pair.1 mem with same | same
    all_goals exact high (by omega) (by omega) same
  · simp only [List.mem_cons, List.not_mem_nil, or_false] at mem
    rcases mem with same | same | same
    all_goals exact high (by omega) (by omega) same
  · simp only [List.mem_cons, List.not_mem_nil, or_false] at mem
    rcases mem with same | same | same | same
    all_goals exact high (by omega) (by omega) same

theorem last_notMem_toUTF8 (s : String) : 0xff ∉ s.toUTF8.toList := by
  intro mem
  rw [toList_toUTF8] at mem
  obtain ⟨c, -, mem⟩ := List.mem_flatMap.1 mem
  exact (of_mem_encode mem).1 rfl

theorem zero_notMem_toUTF8 {s : String} (plain : '\x00' ∉ s.toList) : 0 ∉ s.toUTF8.toList := by
  intro mem
  rw [toList_toUTF8] at mem
  obtain ⟨c, there, mem⟩ := List.mem_flatMap.1 mem
  exact plain ((of_mem_encode mem).2 rfl ▸ there)

end Baskets.Text

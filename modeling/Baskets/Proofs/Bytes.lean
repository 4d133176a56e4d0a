import Baskets.Bytes
import Mathlib.Data.List.Induction
import Mathlib.Tactic.Ring

/-!
# Numbers and the bytes they are written in

`bigOf` and `signedOf` write what `big` and `bigSigned` read.  A number that was read from some
bytes is one that so many bytes can hold, and a number that so many bytes can hold is read again
from what was written of it.
-/

namespace Baskets.Bytes

/-! ## digits in base 256 -/

theorem last_digit (n : Nat) (b : UInt8) : (n * 256 + b.toNat).toUInt8 = b := by
  have digit := b.toNat_lt
  apply UInt8.toNat.inj
  rw [show _ = (_ : Nat) % 256 from UInt8.toNat_ofNat']
  omega

theorem other_digits (n : Nat) (b : UInt8) : (n * 256 + b.toNat) / 256 = n := by
  have digit := b.toNat_lt
  omega

/-! ## most significant byte first -/

theorem big_eq_foldl (bytes : Bytes) :
    bytes.big = bytes.toList.foldl (fun n b => n * 256 + b.toNat) 0 :=
  (Array.foldl_toList _).symm

theorem foldl_digits_lt (digits : List UInt8) (n : Nat) :
    digits.foldl (fun n b => n * 256 + b.toNat) n < (n + 1) * 256 ^ digits.length := by
  induction digits generalizing n with
  | nil => simp
  | cons b rest ih =>
    have digit := b.toNat_lt
    have head : n * 256 + b.toNat + 1 ≤ (n + 1) * 256 := by omega
    calc rest.foldl (fun n b => n * 256 + b.toNat) (n * 256 + b.toNat)
        < (n * 256 + b.toNat + 1) * 256 ^ rest.length := ih _
      _ ≤ (n + 1) * 256 * 256 ^ rest.length := Nat.mul_le_mul_right _ head
      _ = (n + 1) * 256 ^ (rest.length + 1) := by ring

theorem big_lt (bytes : Bytes) : bytes.big < 256 ^ bytes.size := by
  have bound := foldl_digits_lt bytes.toList 0
  rw [Nat.zero_add, Nat.one_mul, Array.length_toList] at bound
  exact (big_eq_foldl bytes).trans_lt bound

/-- the `width` last digits of a number in base 256 -/
def bigOf : (width n : Nat) → Bytes
  | 0, _ => #[]
  | width + 1, n => (bigOf width (n / 256)).push n.toUInt8

@[simp] theorem size_bigOf (width n : Nat) : (bigOf width n).size = width := by
  induction width generalizing n with
  | zero => rfl
  | succ width ih =>
    show ((bigOf width (n / 256)).push n.toUInt8).size = width + 1
    rw [Array.size_push, ih]

@[simp] theorem big_bigOf (width n : Nat) : (bigOf width n).big = n % 256 ^ width := by
  induction width generalizing n with
  | zero =>
    rw [Nat.pow_zero, Nat.mod_one]
    rfl
  | succ width ih =>
    have digit : n.toUInt8.toNat = n % 256 := UInt8.toNat_ofNat'
    show big ((bigOf width (n / 256)).push n.toUInt8) = _
    rw [big_eq_foldl, Array.toList_push, List.foldl_append, ← big_eq_foldl, ih]
    show n / 256 % 256 ^ width * 256 + n.toUInt8.toNat = _
    rw [digit, Nat.pow_succ', Nat.mod_mul, Nat.add_comm, Nat.mul_comm]

theorem big_bigOf_of_lt {width n : Nat} (small : n < 256 ^ width) : (bigOf width n).big = n := by
  simp [Nat.mod_eq_of_lt small]

@[simp] theorem bigOf_big (bytes : Bytes) : bigOf bytes.size bytes.big = bytes := by
  obtain ⟨digits⟩ := bytes
  rw [big_eq_foldl]
  show bigOf digits.length (digits.foldl (fun n b => n * 256 + b.toNat) 0) = _
  induction digits using List.reverseRecOn with
  | nil => rfl
  | append_singleton rest b ih =>
    rw [List.length_append, List.foldl_append]
    show (bigOf rest.length ((rest.foldl _ 0 * 256 + b.toNat) / 256)).push
      (rest.foldl _ 0 * 256 + b.toNat).toUInt8 = _
    rw [last_digit, other_digits, ih, List.push_toArray]

theorem big_append (front behind : Bytes) :
    big (front ++ behind) = front.big * 256 ^ behind.size + behind.big := by
  obtain ⟨digits⟩ := behind
  rw [big_eq_foldl, big_eq_foldl front, big_eq_foldl, Array.toList_append, List.foldl_append]
  generalize front.toList.foldl (fun n b => n * 256 + b.toNat) 0 = high
  show digits.foldl (fun n b => n * 256 + b.toNat) high =
    high * 256 ^ digits.length + digits.foldl (fun n b => n * 256 + b.toNat) 0
  induction digits using List.reverseRecOn with
  | nil => rw [List.length_nil, Nat.pow_zero, Nat.mul_one]; rfl
  | append_singleton rest b ih =>
    rw [List.foldl_append, List.foldl_append, List.length_append, ih]
    show (high * 256 ^ rest.length + rest.foldl (fun n b => n * 256 + b.toNat) 0) * 256 + b.toNat =
      high * 256 ^ (rest.length + 1) +
        (rest.foldl (fun n b => n * 256 + b.toNat) 0 * 256 + b.toNat)
    ring

/-! ### two's complement -/

/-- whether a number has a two's complement form of so many bytes -/
def Signed (width : Nat) (n : Int) : Prop :=
  -((256 ^ width : Nat) : Int) ≤ n * 2 ∧ n * 2 < ((256 ^ width : Nat) : Int)

instance (width : Nat) (n : Int) : Decidable (Signed width n) := inferInstanceAs (Decidable (_ ∧ _))

theorem bigSigned_eq (bytes : Bytes) :
    bytes.bigSigned = (bytes.big : Int).bmod (256 ^ bytes.size) := by
  unfold bigSigned
  rw [Nat.one_shiftLeft, Nat.pow_mul]

theorem signed_bigSigned (bytes : Bytes) : Signed bytes.size bytes.bigSigned := by
  have positive : 0 < 256 ^ bytes.size := Nat.pow_pos (by decide)
  have least := Int.le_bmod (x := (bytes.big : Int)) positive
  have greatest := Int.bmod_lt (x := (bytes.big : Int)) positive
  rw [bigSigned_eq]
  constructor <;> omega

/-- a number in two's complement -/
def signedOf (width : Nat) (n : Int) : Bytes := bigOf width (n % (256 ^ width : Nat)).toNat

@[simp]
theorem size_signedOf (width : Nat) (n : Int) : (signedOf width n).size = width := size_bigOf _ _

theorem bigSigned_signedOf {width : Nat} {n : Int} (signed : Signed width n) :
    (signedOf width n).bigSigned = n := by
  have positive : (0 : Int) < (256 ^ width : Nat) := by exact_mod_cast Nat.pow_pos (by decide)
  have nonneg := Int.emod_nonneg n positive.ne'
  have below := Int.emod_lt_of_pos n positive
  have small : (n % (256 ^ width : Nat)).toNat < 256 ^ width := by omega
  rw [bigSigned_eq, size_signedOf]
  unfold signedOf
  rw [big_bigOf_of_lt small, Int.toNat_of_nonneg nonneg, Int.emod_bmod]
  exact Int.bmod_eq_of_le_mul_two signed.1 signed.2

@[simp]
theorem signedOf_bigSigned (bytes : Bytes) : signedOf bytes.size bytes.bigSigned = bytes := by
  have positive : (0 : Int) < (256 ^ bytes.size : Nat) := by exact_mod_cast Nat.pow_pos (by decide)
  have number : (bytes.bigSigned % (256 ^ bytes.size : Nat)).toNat = bytes.big := by
    rw [bigSigned_eq, Int.bmod_emod, Int.emod_eq_of_lt (by omega) (by exact_mod_cast big_lt bytes)]
    exact Int.toNat_natCast _
  unfold signedOf
  rw [number, bigOf_big]

/-! ## least significant byte first -/

@[simp] theorem little_littleOf (width n : Nat) :
    little (littleOf width n).toArray = n % 256 ^ width := by
  unfold little
  rw [List.foldr_toArray]
  induction width generalizing n with
  | zero =>
    rw [Nat.pow_zero, Nat.mod_one]
    rfl
  | succ width ih =>
    have digit : n.toUInt8.toNat = n % 256 := UInt8.toNat_ofNat'
    show (littleOf width (n / 256)).foldr (fun b n => n * 256 + b.toNat) 0 * 256 +
      n.toUInt8.toNat = _
    rw [ih, digit, Nat.pow_succ', Nat.mod_mul, Nat.add_comm, Nat.mul_comm]

theorem littleOf_inj {width n m : Nat} (small : n < 256 ^ width) (small' : m < 256 ^ width)
    (same : littleOf width n = littleOf width m) : n = m := by
  have numbers := congrArg (fun bytes => little bytes.toArray) same
  rwa [little_littleOf, little_littleOf, Nat.mod_eq_of_lt small, Nat.mod_eq_of_lt small'] at numbers

@[simp] theorem littleOf_little (bytes : Bytes) :
    littleOf bytes.size bytes.little = bytes.toList := by
  obtain ⟨digits⟩ := bytes
  unfold little
  rw [List.foldr_toArray]
  show littleOf digits.length _ = digits
  induction digits with
  | nil => rfl
  | cons b rest ih =>
    show (rest.foldr _ 0 * 256 + b.toNat).toUInt8 ::
      littleOf rest.length ((rest.foldr _ 0 * 256 + b.toNat) / 256) = b :: rest
    rw [last_digit, other_digits, ih]

theorem little_lt (bytes : Bytes) : bytes.little < 256 ^ bytes.size := by
  have again := little_littleOf bytes.size bytes.little
  rw [littleOf_little] at again
  have bound := Nat.mod_lt bytes.little (Nat.pow_pos (by decide) : 0 < 256 ^ bytes.size)
  exact again ▸ bound

/-! ## stretches -/

/-- adjacent stretches of bytes -/
theorem extract_split (data : Bytes) {start middle stop : Nat} (ordered : start ≤ middle)
    (onward : middle ≤ stop) :
    data.extract start stop = data.extract start middle ++ data.extract middle stop := by
  rw [Array.extract_append_extract, Nat.min_eq_left ordered, Nat.max_eq_right onward]

/-- a stretch of so many bytes -/
theorem size_extract_add {data : Bytes} {start count : Nat} (inside : start + count ≤ data.size) :
    (data.extract start (start + count)).size = count := by
  rw [Array.size_extract_of_le inside, Nat.add_sub_cancel_left]

end Baskets.Bytes

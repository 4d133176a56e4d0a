import Mathlib.Data.List.Nodup
import Baskets.Layout
import Baskets.Proofs.Hash

/-!
# How types are spelt

The spelling of a type is put together from those of its parts, and a class is spelt by its bare
name.  So a class may have a name that is the spelling of another type, or one that runs on into
what stands around it, and then the spelling does not say which of two types is meant.  But it does
where the names of classes keep to themselves (`StreamType.OwnName`): a name must not be the
spelling of another type, its brackets must close, and its commas must stand within its brackets
(`StreamType.signature_inj`).
-/

namespace Baskets.StreamType

/-! ## brackets -/

/-- how many brackets are open behind a character; nothing behind a bracket that closes none, nor
behind a comma outside of brackets -/
def bracket (c : Char) : Nat → Option Nat
  | 0 => if c = '<' then some 1 else if c = '>' ∨ c = ',' then none else some 0
  | n + 1 => some (if c = '<' then n + 2 else if c = '>' then n else n + 1)

/-- how many brackets are open behind a text -/
def level (n : Nat) (letters : List Char) : Option Nat :=
  letters.foldlM (fun n c => bracket c n) n

@[simp] theorem level_append (n : Nat) (front back : List Char) :
    level n (front ++ back) = (level n front).bind fun n => level n back :=
  List.foldlM_append

@[simp] theorem level_cons (n : Nat) (c : Char) (letters : List Char) :
    level n (c :: letters) = (bracket c n).bind fun n => level n letters :=
  List.foldlM_cons

theorem bracket_add {c : Char} {n m : Nat} (k : Nat) (open_ : bracket c n = some m) :
    bracket c (n + k) = some (m + k) := by
  unfold bracket at open_ ⊢
  cases n <;> cases k <;> split_ifs at open_ ⊢ <;> simp_all <;> omega

/-- around a text there may be any number of open brackets -/
theorem level_add {letters : List Char} {n m : Nat} (k : Nat) (open_ : level n letters = some m) :
    level (n + k) letters = some (m + k) := by
  induction letters generalizing n with
  | nil =>
    cases open_
    rfl
  | cons c letters ih =>
    rw [level_cons] at open_ ⊢
    obtain ⟨between, first, rest⟩ := Option.bind_eq_some_iff.1 open_
    rw [bracket_add k first]
    exact ih rest

theorem level_of_plain {letters : List Char} (plain : ∀ c ∈ letters, c ≠ '<' ∧ c ≠ '>' ∧ c ≠ ',')
    (n : Nat) : level n letters = some n := by
  induction letters with
  | nil => rfl
  | cons c letters ih =>
    obtain ⟨opening, closing, comma⟩ := plain c List.mem_cons_self
    have here : bracket c n = some n := by
      cases n <;> simp [bracket, opening, closing, comma]
    simpa [here] using ih fun other mem => plain other (List.mem_cons_of_mem _ mem)

/-- a comma outside of brackets ends a text that has none -/
theorem append_comma_inj {a b left right : List Char} (closedA : level 0 a = some 0)
    (closedB : level 0 b = some 0) (same : a ++ ',' :: left = b ++ ',' :: right) :
    a = b ∧ left = right := by
  -- a longer text would have that comma in it, where no bracket is open
  have longer {a b left right : List Char} (closedA : level 0 a = some 0)
      (closedB : level 0 b = some 0) {more : List Char} (split : b = a ++ more)
      (same : ',' :: left = more ++ ',' :: right) : more = [] := by
    cases more with
    | nil => rfl
    | cons c more =>
      rw [split, level_append, closedA, ← (List.cons.inj same).1] at closedB
      cases closedB
  rcases List.append_eq_append_iff.1 same with ⟨more, split, rest⟩ | ⟨more, split, rest⟩
  · have nothing := longer closedA closedB split rest
    subst nothing
    exact ⟨by rw [split, List.append_nil], (List.cons.inj rest).2⟩
  · have nothing := longer closedB closedA split rest
    subst nothing
    exact ⟨by rw [split, List.append_nil], (List.cons.inj rest).2.symm⟩

/-- a mark that is behind itself in neither of two texts divides them at the same place -/
theorem append_last_mark_inj {mark : Char} {a b left right : List Char} (notLeft : mark ∉ left)
    (notRight : mark ∉ right) (same : a ++ mark :: left = b ++ mark :: right) :
    a = b ∧ left = right := by
  have reversed : left.reverse ++ mark :: a.reverse = right.reverse ++ mark :: b.reverse := by
    have turned := congrArg List.reverse same
    rwa [List.reverse_append, List.reverse_append, List.reverse_cons, List.reverse_cons,
      List.append_assoc, List.append_assoc] at turned
  obtain ⟨behind, before⟩ := Hash.Form.append_mark_inj (mt List.mem_reverse.1 notLeft)
    (mt List.mem_reverse.1 notRight) reversed
  exact ⟨List.reverse_injective before, List.reverse_injective behind⟩

/-! ## spellings of parts -/

/-- the types that are spelt by a word of their own -/
def fixed : List StreamType :=
  Primitive.all.map .primitive ++
    [.text .tstring, .text .stdString, .object, .datime, .time, .ref, .refArray]

theorem fixed_inj {a b : StreamType} (inA : a ∈ fixed) (inB : b ∈ fixed)
    (same : a.signature = b.signature) : a = b := by
  have apart : (fixed.map signature).Nodup := by decide
  exact List.inj_on_of_nodup_map apart inA inB same

/-- the last letter of a word says that it is no spelling that was put together -/
theorem getLast?_fixed {type : StreamType} (mem : type ∈ fixed) :
    type.signature.toList.getLast? ≠ some '>' ∧ type.signature.toList.getLast? ≠ some ']' := by
  revert type
  decide

@[simp] theorem toList_vector (element : StreamType) : (vector element).signature.toList =
    "std::vector<".toList ++ (element.signature.toList ++ ['>']) := by
  show ("std::vector<" ++ element.signature ++ ">").toList = _
  rw [String.toList_append, String.toList_append, List.append_assoc]
  rfl

@[simp] theorem toList_array (element : StreamType) (count : UInt64) :
    (array element count).signature.toList =
      element.signature.toList ++ '[' :: (Nat.toDigits 10 count.toNat ++ [']']) := by
  show (element.signature ++ "[" ++ toString count.toNat ++ "]").toList = _
  have digits : (toString count.toNat).toList = Nat.toDigits 10 count.toNat := Nat.toList_repr
  rw [String.toList_append, String.toList_append, String.toList_append, digits, List.append_assoc,
    List.append_assoc]
  rfl

@[simp] theorem toList_map (key value : StreamType) : (map key value).signature.toList =
    "std::map<".toList ++ (key.signature.toList ++ ',' :: ' ' :: (value.signature.toList ++ ['>'])) := by
  show ("std::map<" ++ key.signature ++ ", " ++ value.signature ++ ">").toList = _
  rw [String.toList_append, String.toList_append, String.toList_append, String.toList_append]
  simp only [List.append_assoc]
  rfl

theorem plain_of_digit {n : Nat} {c : Char} (mem : c ∈ Nat.toDigits 10 n) :
    c ≠ '<' ∧ c ≠ '>' ∧ c ≠ ',' ∧ c ≠ '[' := by
  have digit := Nat.isDigit_of_mem_toDigits (by decide) (by decide) mem
  refine ⟨?_, ?_, ?_, ?_⟩ <;> rintro rfl <;> cases digit

/-- the brackets of a spelling close where those of the names in it do -/
theorem level_signature {type : StreamType}
    (closed : ∀ name ∈ type.classes, level 0 name.toList = some 0) :
    level 0 type.signature.toList = some 0 := by
  induction type with
  | vector element ih =>
    have inside : level 1 element.signature.toList = some 1 := level_add 1 (ih closed)
    have opens : level 0 "std::vector<".toList = some 1 := rfl
    rw [toList_vector, level_append, opens, Option.bind_some, level_append, inside]
    rfl
  | array element count ih =>
    have digits : level 0 (Nat.toDigits 10 count.toNat) = some 0 :=
      level_of_plain (fun c mem => ⟨(plain_of_digit mem).1, (plain_of_digit mem).2.1,
        (plain_of_digit mem).2.2.1⟩) 0
    have opens : bracket '[' 0 = some 0 := rfl
    rw [toList_array, level_append, ih closed, Option.bind_some, level_cons, opens,
      Option.bind_some, level_append, digits]
    rfl
  | map key value keys values =>
    have left : level 1 key.signature.toList = some 1 :=
      level_add 1 (keys fun name mem => closed name (List.mem_append_left _ mem))
    have right : level 1 value.signature.toList = some 1 :=
      level_add 1 (values fun name mem => closed name (List.mem_append_right _ mem))
    have opens : level 0 "std::map<".toList = some 1 := rfl
    have comma : bracket ',' 1 = some 1 := rfl
    have space : bracket ' ' 1 = some 1 := rfl
    rw [toList_map, level_append, opens, Option.bind_some, level_append, left, Option.bind_some,
      level_cons, comma, Option.bind_some, level_cons, space, Option.bind_some, level_append, right]
    rfl
  | named name => exact closed name (List.mem_singleton.2 rfl)
  | primitive p => cases p <;> rfl
  | text kind => cases kind <;> rfl
  | _ => rfl

/-! ## spellings of types -/

/-- a name that keeps to itself: it is spelt like no other type, its brackets close, and its commas
stand within them -/
structure OwnName (name : String) : Prop where
  closed : level 0 name.toList = some 0
  unlike : ∀ type : StreamType, type.signature = name → type = .named name

theorem getLast?_vector (element : StreamType) :
    (vector element).signature.toList.getLast? = some '>' := by
  rw [toList_vector, ← List.append_assoc, List.getLast?_concat]

theorem getLast?_array (element : StreamType) (count : UInt64) :
    (array element count).signature.toList.getLast? = some ']' := by
  rw [toList_array, ← List.cons_append, ← List.append_assoc, List.getLast?_concat]

theorem getLast?_map (key value : StreamType) :
    (map key value).signature.toList.getLast? = some '>' := by
  rw [toList_map, ← List.cons_append, ← List.cons_append, ← List.append_assoc, ← List.append_assoc,
    List.getLast?_concat]

theorem shape (type : StreamType) : type ∈ fixed ∨ (∃ element, type = .vector element) ∨
    (∃ element count, type = .array element count) ∨ (∃ key value, type = .map key value) ∨
    ∃ name, type = .named name := by
  cases type with
  | primitive p => exact .inl (List.mem_append_left _ (List.mem_map_of_mem p.mem_all))
  | text kind => cases kind <;> exact .inl (by decide)
  | object | datime | time | ref | refArray => exact .inl (by decide)
  | vector element => exact .inr (.inl ⟨element, rfl⟩)
  | array element count => exact .inr (.inr (.inl ⟨element, count, rfl⟩))
  | map key value => exact .inr (.inr (.inr (.inl ⟨key, value, rfl⟩)))
  | named name => exact .inr (.inr (.inr (.inr ⟨name, rfl⟩)))

variable {a b element other key value key' value' : StreamType} {count count' : UInt64}

theorem eq_of_fixed (word : a ∈ fixed) (own : ∀ name ∈ b.classes, OwnName name)
    (same : a.signature = b.signature) : a = b := by
  obtain ⟨noBracket, noIndex⟩ := getLast?_fixed word
  rcases b.shape with word' | ⟨element, rfl⟩ | ⟨element, count, rfl⟩ | ⟨key, value, rfl⟩ | ⟨name, rfl⟩
  · exact fixed_inj word word' same
  · exact absurd (same ▸ getLast?_vector element) noBracket
  · exact absurd (same ▸ getLast?_array element count) noIndex
  · exact absurd (same ▸ getLast?_map key value) noBracket
  · exact (own name (List.mem_singleton.2 rfl)).unlike a same

theorem vector_ne_map (same : (vector element).signature = (map key value).signature) : False := by
  have letters := congrArg (fun s => s.toList[5]?) same
  rw [toList_vector, toList_map] at letters
  cases letters

theorem element_of_vector (same : (vector element).signature = (vector other).signature) :
    element.signature = other.signature := by
  have letters := congrArg String.toList same
  rw [toList_vector, toList_vector, List.append_cancel_left_eq, List.append_cancel_right_eq] at letters
  exact String.toList_inj.1 letters

theorem element_of_array
    (same : (array element count).signature = (array other count').signature) :
    element.signature = other.signature ∧ count = count' := by
  have letters := congrArg String.toList same
  rw [toList_array, toList_array] at letters
  have noIndex (count : UInt64) : '[' ∉ Nat.toDigits 10 count.toNat ++ [']'] := by
    intro mem
    rcases List.mem_append.1 mem with mem | mem
    · exact (plain_of_digit mem).2.2.2 rfl
    · cases List.mem_singleton.1 mem
  obtain ⟨elements, counts⟩ := append_last_mark_inj (noIndex count) (noIndex count') letters
  have numbers := congrArg (fun digits => Nat.ofDigitChars 10 digits 0)
    (List.append_cancel_right counts)
  rw [Nat.ofDigitChars_ten_toDigits, Nat.ofDigitChars_ten_toDigits] at numbers
  exact ⟨String.toList_inj.1 elements, UInt64.toNat_inj.1 numbers⟩

theorem parts_of_map (closed : level 0 key.signature.toList = some 0)
    (closed' : level 0 key'.signature.toList = some 0)
    (same : (map key value).signature = (map key' value').signature) :
    key.signature = key'.signature ∧ value.signature = value'.signature := by
  have letters := congrArg String.toList same
  rw [toList_map, toList_map, List.append_cancel_left_eq] at letters
  obtain ⟨keys, values⟩ := append_comma_inj closed closed' letters
  have values := List.append_cancel_right (List.cons.inj values).2
  exact ⟨String.toList_inj.1 keys, String.toList_inj.1 values⟩

/-- most names are their own: those that are no word for a type and end in no bracket -/
theorem ownName_of_last {name : String} (closed : level 0 name.toList = some 0)
    (noWord : name ∉ fixed.map signature)
    (last : name.toList.getLast? ≠ some '>' ∧ name.toList.getLast? ≠ some ']') : OwnName name := by
  refine ⟨closed, fun type same => ?_⟩
  subst same
  rcases type.shape with word | ⟨element, rfl⟩ | ⟨element, count, rfl⟩ | ⟨key, value, rfl⟩ | ⟨name, rfl⟩
  · exact absurd (List.mem_map_of_mem word) noWord
  · exact absurd (getLast?_vector element) last.1
  · exact absurd (getLast?_array element count) last.2
  · exact absurd (getLast?_map key value) last.1
  · rfl

/-- **Spellings tell types apart** whose classes have names that keep to themselves. -/
theorem signature_inj (own : ∀ name ∈ a.classes, OwnName name)
    (own' : ∀ name ∈ b.classes, OwnName name) (same : a.signature = b.signature) : a = b := by
  -- the form of the other type is told by the ends of its spelling, unless it is a class
  induction a generalizing b with
  | vector element ih =>
    rcases b.shape with word | ⟨other, rfl⟩ | ⟨other, count, rfl⟩ | ⟨key, value, rfl⟩ | ⟨name, rfl⟩
    · exact (eq_of_fixed word own same.symm).symm
    · have inner : element = other := ih own own' (element_of_vector same)
      rw [inner]
    · have last := getLast?_vector element
      rw [same, getLast?_array] at last
      cases last
    · exact (vector_ne_map same).elim
    · exact (own' name (List.mem_singleton.2 rfl)).unlike _ same
  | array element count ih =>
    rcases b.shape with word | ⟨other, rfl⟩ | ⟨other, count', rfl⟩ | ⟨key, value, rfl⟩ | ⟨name, rfl⟩
    · exact (eq_of_fixed word own same.symm).symm
    · have last := getLast?_array element count
      rw [same, getLast?_vector] at last
      cases last
    · obtain ⟨elements, rfl⟩ := element_of_array same
      have inner : element = other := ih own own' elements
      rw [inner]
    · have last := getLast?_array element count
      rw [same, getLast?_map] at last
      cases last
    · exact (own' name (List.mem_singleton.2 rfl)).unlike _ same
  | map key value keys values =>
    rcases b.shape with word | ⟨other, rfl⟩ | ⟨other, count, rfl⟩ | ⟨key', value', rfl⟩ | ⟨name, rfl⟩
    · exact (eq_of_fixed word own same.symm).symm
    · exact (vector_ne_map same.symm).elim
    · have last := getLast?_map key value
      rw [same, getLast?_array] at last
      cases last
    · have left := fun name mem => own name (List.mem_append_left _ mem)
      have right := fun name mem => own name (List.mem_append_right _ mem)
      have left' := fun name mem => own' name (List.mem_append_left _ mem)
      have right' := fun name mem => own' name (List.mem_append_right _ mem)
      obtain ⟨first, second⟩ :=
        parts_of_map (level_signature fun name mem => (left name mem).closed)
          (level_signature fun name mem => (left' name mem).closed) same
      rw [keys left left' first, values right right' second]
    · exact (own' name (List.mem_singleton.2 rfl)).unlike _ same
  | named name => exact ((own name (List.mem_singleton.2 rfl)).unlike b same.symm).symm
  | primitive p =>
    exact eq_of_fixed (List.mem_append_left _ (List.mem_map_of_mem p.mem_all)) own' same
  | text kind => cases kind <;> exact eq_of_fixed (by decide) own' same
  | object | datime | time | ref | refArray => exact eq_of_fixed (by decide) own' same

end Baskets.StreamType

import Baskets.Hash
import Baskets.Proofs.Bytes
import Baskets.Proofs.Text.Utf8

/-!
# What was hashed can be told

Before a hash value is computed everything is written out as bytes.  Of what was written one after
the other every part can be told without knowing what comes behind it (`Hash.Form.Tells`): numbers
have a fixed width, texts end with a byte that no text has, and lists have their length in front.
-/

namespace Baskets.Hash.Form

variable {α : Type} {item : α → List UInt8}

/-- what is written for one thing can be told from what is written for the other, whatever comes
behind -/
def Tells (write : α → List UInt8) (a b : α) : Prop :=
  ∀ ⦃left right : List UInt8⦄, write a ++ left = write b ++ right → a = b ∧ left = right

/-! ## numbers -/

theorem tells_littleOf {width n m : Nat} (small : n < 256 ^ width) (small' : m < 256 ^ width) :
    Tells (Bytes.littleOf width) n m := by
  intro left right same
  obtain ⟨digits, behind⟩ := List.append_inj same
    (by rw [Bytes.length_littleOf, Bytes.length_littleOf])
  exact ⟨Bytes.littleOf_inj small small' digits, behind⟩

theorem tells_size {n m : Nat} (small : n < 2 ^ 64) (small' : m < 2 ^ 64) : Tells size n m := by
  have width : (2 : Nat) ^ 64 = 256 ^ 8 := by norm_num
  exact tells_littleOf (width ▸ small) (width ▸ small')

/-- a number of at most three digits -/
theorem exists_size_eq {n : Nat} (small : n < 256 ^ 3) :
    ∃ a b c, size n = [a, b, c, 0, 0, 0, 0, 0] := by
  have rest : n / 256 / 256 / 256 = 0 := by omega
  refine ⟨n.toUInt8, (n / 256).toUInt8, (n / 256 / 256).toUInt8, ?_⟩
  unfold size
  simp only [Bytes.littleOf, rest]
  rfl

/-! ## texts -/

/-- a mark that is in neither of two lists ends them at the same place -/
theorem append_mark_inj {β : Type} {mark : β} {a b left right : List β} (notA : mark ∉ a)
    (notB : mark ∉ b) (same : a ++ mark :: left = b ++ mark :: right) : a = b ∧ left = right := by
  induction a generalizing b with
  | nil =>
    cases b with
    | nil => exact ⟨rfl, (List.cons.inj same).2⟩
    | cons y b => exact absurd ((List.cons.inj same).1 ▸ List.mem_cons_self) notB
  | cons x a ih =>
    cases b with
    | nil => exact absurd ((List.cons.inj same).1 ▸ List.mem_cons_self) notA
    | cons y b =>
      obtain ⟨rfl, others⟩ := List.cons.inj same
      obtain ⟨rfl, behind⟩ := ih (fun mem => notA (List.mem_cons_of_mem _ mem))
        (fun mem => notB (List.mem_cons_of_mem _ mem)) others
      exact ⟨rfl, behind⟩

theorem tells_text (s t : String) : Tells text s t := by
  intro left right same
  unfold text at same
  rw [List.append_assoc, List.append_assoc] at same
  obtain ⟨bytes, behind⟩ :=
    append_mark_inj (Text.last_notMem_toUTF8 s) (Text.last_notMem_toUTF8 t) same
  exact ⟨Text.toUTF8_inj bytes, behind⟩

theorem zero_notMem_text {s : String} (plain : '\x00' ∉ s.toList) : 0 ∉ text s := by
  unfold text
  intro mem
  rcases List.mem_append.1 mem with mem | mem
  · exact Text.zero_notMem_toUTF8 plain mem
  · cases List.mem_singleton.1 mem

theorem text_ne_nil (s : String) : text s ≠ [] := List.append_ne_nil_of_right_ne_nil _ (by simp)

/-! ## lists -/

theorem tells_flatMap {xs ys : List α} (lengths : xs.length = ys.length)
    (items : ∀ x ∈ xs, ∀ y ∈ ys, Tells item x y) {left right : List UInt8}
    (same : xs.flatMap item ++ left = ys.flatMap item ++ right) : xs = ys ∧ left = right := by
  induction xs generalizing ys with
  | nil =>
    rw [List.length_eq_zero_iff.1 lengths.symm] at same ⊢
    exact ⟨rfl, same⟩
  | cons x xs ih =>
    cases ys with
    | nil => cases lengths
    | cons y ys =>
      rw [List.flatMap_cons, List.flatMap_cons, List.append_assoc, List.append_assoc] at same
      obtain ⟨rfl, others⟩ := items x List.mem_cons_self y List.mem_cons_self same
      obtain ⟨rfl, behind⟩ := ih (Nat.succ.inj lengths) (fun a inX b inY =>
        items a (List.mem_cons_of_mem _ inX) b (List.mem_cons_of_mem _ inY)) others
      exact ⟨rfl, behind⟩

theorem tells_list {xs ys : List α} (short : xs.length < 2 ^ 64) (short' : ys.length < 2 ^ 64)
    (items : ∀ x ∈ xs, ∀ y ∈ ys, Tells item x y) : Tells (list item) xs ys := by
  intro left right same
  unfold list at same
  rw [List.append_assoc, List.append_assoc] at same
  obtain ⟨lengths, same⟩ := tells_size short short' same
  exact tells_flatMap lengths items same

end Baskets.Hash.Form

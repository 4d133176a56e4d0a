import Baskets.Interpretation
import Baskets.Proofs.Signature

/-!
# What a key of a cache tells

The key of an interpretation is a text, and all that comes into it is found in it again: the
spelling of the type, the three options that a model depends on, and the fingerprint.  The parts
are read from behind, where each ends with a mark that none of them has.  So interpretations with
one key have one type as far as spellings tell types apart (`Interpretation.key_eq_iff`).
-/

namespace Baskets

open StreamType (append_last_mark_inj OwnName)

namespace Interpretation

/-! ## parts of a key -/

theorem boolText_inj {a b : Bool} (same : boolText a = boolText b) : a = b := by
  revert same
  revert a b
  decide

theorem mark_notMem_boolText : ∀ b : Bool, '=' ∉ (boolText b).toList := by decide

theorem outputType_inj {a b : IndexFormat} (same : a.outputType = b.outputType) : a = b := by
  cases a <;> cases b <;> first | rfl | exact absurd same (by decide)

theorem mark_notMem_outputType (format : IndexFormat) : '=' ∉ format.outputType.toList := by
  cases format <;> decide

theorem digitChar_inj : ∀ a b : Fin 16, Nat.digitChar a = Nat.digitChar b → a = b := by decide

theorem mark_ne_digitChar : ∀ a : Fin 16, '=' ≠ Nat.digitChar a := by decide

theorem toList_hexText (digits n : Nat) : (hexText (digits + 1) n).toList =
    (hexText digits (n / 16)).toList ++ [Nat.digitChar (n % 16)] := by
  show (hexText digits (n / 16) ++ (Nat.digitChar (n % 16)).toString).toList = _
  rw [String.toList_append, Char.toString_eq_singleton, String.toList_singleton]

theorem hexText_inj {digits n m : Nat} (small : n < 16 ^ digits) (small' : m < 16 ^ digits)
    (same : hexText digits n = hexText digits m) : n = m := by
  induction digits generalizing n m with
  | zero => omega
  | succ digits ih =>
    have letters := congrArg String.toList same
    rw [toList_hexText, toList_hexText] at letters
    obtain ⟨front, last⟩ := List.append_inj' letters rfl
    have rest := ih (Nat.div_lt_of_lt_mul (by omega)) (Nat.div_lt_of_lt_mul (by omega))
      (String.toList_inj.1 front)
    have digit := digitChar_inj ⟨n % 16, by omega⟩ ⟨m % 16, by omega⟩ (List.cons.inj last).1
    have digit : n % 16 = m % 16 := congrArg Fin.val digit
    omega

theorem mark_notMem_hexText (digits n : Nat) : '=' ∉ (hexText digits n).toList := by
  induction digits generalizing n with
  | zero => exact List.not_mem_nil
  | succ digits ih =>
    rw [toList_hexText]
    intro mem
    rcases List.mem_append.1 mem with mem | mem
    · exact ih _ mem
    · exact mark_ne_digitChar ⟨n % 16, by omega⟩ (List.mem_singleton.1 mem)

/-! ## the whole key -/

variable {a b : Interpretation}

theorem toList_key (interpretation : Interpretation) : interpretation.key.toList =
    ((((interpretation.type.signature.toList ++ " header".toList) ++
      '=' :: (boolText interpretation.options.header).toList) ++ " tobject_header".toList ++
      '=' :: (boolText interpretation.options.objectHead).toList) ++ " offsets".toList ++
      '=' :: interpretation.options.indexFormat.outputType.toList) ++ " layouts".toList ++
      '=' :: (hexText 16 (interpretation.registry.fingerprint interpretation.type).toNat).toList := by
  have header : " header=".toList = " header".toList ++ ['='] := rfl
  have head : " tobject_header=".toList = " tobject_header".toList ++ ['='] := rfl
  have offsets : " offsets=".toList = " offsets".toList ++ ['='] := rfl
  have layouts : " layouts=".toList = " layouts".toList ++ ['='] := rfl
  unfold key
  simp only [String.toList_append, header, head, offsets, layouts, List.append_assoc,
    List.cons_append, List.nil_append]

/-- what comes into a key -/
structure SameParts (a b : Interpretation) : Prop where
  signature : a.type.signature = b.type.signature
  header : a.options.header = b.options.header
  objectHead : a.options.objectHead = b.options.objectHead
  indexFormat : a.options.indexFormat = b.options.indexFormat
  fingerprint : a.registry.fingerprint a.type = b.registry.fingerprint b.type

theorem key_eq_of_parts (same : SameParts a b) : a.key = b.key := by
  unfold key
  dsimp only
  rw [same.signature, same.header, same.objectHead, same.indexFormat, same.fingerprint]

theorem parts_of_key_eq (same : a.key = b.key) : SameParts a b := by
  have letters := congrArg String.toList same
  rw [toList_key, toList_key] at letters
  obtain ⟨letters, hash⟩ :=
    append_last_mark_inj (mark_notMem_hexText _ _) (mark_notMem_hexText _ _) letters
  obtain ⟨letters, format⟩ := append_last_mark_inj (mark_notMem_outputType _)
    (mark_notMem_outputType _) (List.append_cancel_right letters)
  obtain ⟨letters, head⟩ := append_last_mark_inj (mark_notMem_boolText _)
    (mark_notMem_boolText _) (List.append_cancel_right letters)
  obtain ⟨letters, header⟩ := append_last_mark_inj (mark_notMem_boolText _)
    (mark_notMem_boolText _) (List.append_cancel_right letters)
  have small (word : UInt64) : word.toNat < 16 ^ 16 := word.toNat_lt.trans_eq (by norm_num)
  exact {
    signature := String.toList_inj.1 (List.append_cancel_right letters)
    header := boolText_inj (String.toList_inj.1 header)
    objectHead := boolText_inj (String.toList_inj.1 head)
    indexFormat := outputType_inj (String.toList_inj.1 format)
    fingerprint :=
      UInt64.toNat_inj.1 (hexText_inj (small _) (small _) (String.toList_inj.1 hash)) }

end Interpretation

/-- **A key tells the options, and the type as it is spelt.**  Two interpretations have one key just
when their types are spelt alike, the options that a model depends on are the same, and so are the
fingerprints; and then they have one type, where the names of all classes in both types keep to
themselves. -/
theorem Interpretation.key_eq_iff (a b : Interpretation) :
    (a.key = b.key ↔
      a.type.signature = b.type.signature ∧
      a.options.header = b.options.header ∧
      a.options.objectHead = b.options.objectHead ∧
      a.options.indexFormat = b.options.indexFormat ∧
      a.registry.fingerprint a.type = b.registry.fingerprint b.type) ∧
    ((∀ name ∈ a.type.classes ++ b.type.classes, OwnName name) → a.key = b.key →
      a.type = b.type) := by
  refine ⟨⟨fun same => ?_, fun ⟨spelt, header, head, format, hash⟩ => ?_⟩, fun own same => ?_⟩
  · have parts := parts_of_key_eq same
    exact ⟨parts.signature, parts.header, parts.objectHead, parts.indexFormat, parts.fingerprint⟩
  · exact key_eq_of_parts ⟨spelt, header, head, format, hash⟩
  · exact StreamType.signature_inj (fun name mem => own name (List.mem_append_left _ mem))
      (fun name mem => own name (List.mem_append_right _ mem)) (parts_of_key_eq same).signature

/-! ### a class by the name of int -/

/-- a class that has the name of a number type -/
def intClass : Registry where
  layouts := [{ name := "int", version := 1, members := [⟨"v", .primitive .uint8⟩] }]

/-- from objects to numbers -/
def objectsToNumbers : Interpretation where
  type := .map (.named "int") (.primitive .int32)
  registry := intClass

/-- from numbers to objects -/
def numbersToObjects : Interpretation where
  type := .map (.primitive .int32) (.named "int")
  registry := intClass

/-- two types, one spelling, one description and one key -/
theorem key_objectsToNumbers : objectsToNumbers.key = numbersToObjects.key ∧
    objectsToNumbers.registry.description objectsToNumbers.type =
      numbersToObjects.registry.description numbersToObjects.type ∧
    objectsToNumbers.type ≠ numbersToObjects.type :=
  ⟨Interpretation.key_eq_of_parts ⟨by decide, rfl, rfl, rfl, rfl⟩, rfl, by decide⟩

/-- a class whose name is no type -/
theorem key_eq_iff_hits :
    let hits : Interpretation := { objectsToNumbers with type := .vector (.named "Hit") }
    let wrapped : Interpretation := { hits with options := { cache := .disabled } }
    (∀ name ∈ hits.type.classes ++ wrapped.type.classes, OwnName name) ∧
      hits.key = wrapped.key ∧ hits.type = wrapped.type := by
  have own : OwnName "Hit" := StreamType.ownName_of_last rfl (by decide) (by decide)
  have all : ∀ name ∈ ["Hit", "Hit"], OwnName name := by
    intro name mem
    rcases List.mem_pair.1 mem with rfl | rfl
    all_goals exact own
  refine ⟨all, rfl, ?_⟩
  exact (Interpretation.key_eq_iff _ _).2 all rfl

end Baskets

import Baskets.Proofs.Plan
import Baskets.Proofs.Trace

/-!
# Bytes determine their trace

`Trace.Reads` is a relation, but a function of the bytes: where there is one layout of each class,
two traces of values of one type that begin at one cursor are equal and end at one cursor
(`Trace.Reads.unique`).
-/

namespace Baskets

theorem Scan.Takes.unique {α : Type} {s : Scan α} {c d e : Cursor} {a b : α} (first : s.Takes c a d)
    (second : s.Takes c b e) : a = b ∧ d = e := by
  have same : ((.ok a, d) : Except Fault α × Cursor) = (.ok b, e) := Eq.trans (Eq.symm first) second
  cases same
  exact ⟨rfl, rfl⟩

section
variable {ctx : Context} {c d e : Cursor} {header other : Nat}

theorem HeaderBefore.unique (first : HeaderBefore ctx c header d)
    (second : HeaderBefore ctx c other e) : header = other ∧ d = e := by
  cases first with
  | absent off =>
    cases second with
    | absent => exact ⟨rfl, rfl⟩
    | present on => exact absurd (off.symm.trans on) Bool.false_ne_true
  | present on takes =>
    cases second with
    | absent off => exact absurd (off.symm.trans on) Bool.false_ne_true
    | present _ takesToo =>
      obtain ⟨-, rfl⟩ := takes.unique takesToo
      exact ⟨rfl, rfl⟩

theorem MapHeaderBefore.unique (first : MapHeaderBefore ctx c header d)
    (second : MapHeaderBefore ctx c other e) : header = other ∧ d = e := by
  cases first with
  | absent off =>
    cases second with
    | absent => exact ⟨rfl, rfl⟩
    | present on => exact absurd (off.symm.trans on) Bool.false_ne_true
  | present on takes further =>
    cases second with
    | absent off => exact absurd (off.symm.trans on) Bool.false_ne_true
    | present _ takesToo furtherToo =>
      obtain ⟨-, rfl⟩ := takes.unique takesToo
      obtain ⟨-, rfl⟩ := further.unique furtherToo
      exact ⟨rfl, rfl⟩

theorem HeadAt.unique {words others : Nat × Nat} (first : HeadAt ctx c header words d)
    (second : HeadAt ctx c other others e) : header = other ∧ words = others ∧ d = e := by
  cases first with
  | absent off =>
    cases second with
    | absent => exact ⟨rfl, rfl, rfl⟩
    | present on => exact absurd (off.symm.trans on) Bool.false_ne_true
  | present on takes =>
    cases second with
    | absent off => exact absurd (off.symm.trans on) Bool.false_ne_true
    | present _ takesToo =>
      obtain ⟨rfl, rfl⟩ := takes.unique takesToo
      exact ⟨rfl, rfl, rfl⟩

end

theorem References.unique {refs others : List Int} {c d e : Cursor} (first : References c refs d)
    (second : References c others e) (same : refs.length = others.length) :
    refs = others ∧ d = e := by
  induction first generalizing others e with
  | nil =>
    cases second with
    | nil => exact ⟨rfl, rfl⟩
    | cons => cases same
  | cons takes rest ih =>
    cases second with
    | nil => cases same
    | cons takesToo restToo =>
      obtain ⟨rfl, rfl⟩ := takes.unique takesToo
      obtain ⟨rfl, rfl⟩ := ih restToo (Nat.succ.inj same)
      exact ⟨rfl, rfl⟩

namespace Trace

variable {registry : Registry} {type : StreamType} {ctx : Context} {c d e : Cursor}
  {traces others : List Trace}

/-- what begins at one cursor is one trace, and ends at one cursor -/
def Unique (registry : Registry) (type : StreamType) (ctx : Context) : Prop :=
  ∀ {trace other : Trace} {c d e : Cursor}, trace.Reads registry true type ctx c d →
    other.Reads registry true type ctx c e → trace = other ∧ d = e

theorem ReadsAll.unique (one : Unique registry type ctx)
    (first : ReadsAll registry true type ctx c traces d)
    (second : ReadsAll registry true type ctx c others e) (same : traces.length = others.length) :
    traces = others ∧ d = e := by
  induction traces generalizing others c with
  | nil =>
    cases List.length_eq_zero_iff.1 same.symm
    cases first
    cases second
    exact ⟨rfl, rfl⟩
  | cons trace traces ih =>
    cases first with
    | cons head tail =>
      cases second with
      | nil => cases same
      | cons headToo tailToo =>
        obtain ⟨rfl, rfl⟩ := one head headToo
        obtain ⟨rfl, rfl⟩ := ih tail tailToo (Nat.succ.inj same)
        exact ⟨rfl, rfl⟩

theorem ReadsParts.unique {parts : List Part}
    (one : ∀ part ∈ parts, Unique registry part.type (part.context ctx))
    (first : ReadsParts registry true ctx parts c traces d)
    (second : ReadsParts registry true ctx parts c others e) : traces = others ∧ d = e := by
  induction parts generalizing traces others c with
  | nil =>
    cases first
    cases second
    exact ⟨rfl, rfl⟩
  | cons part parts ih =>
    cases first with
    | cons head tail =>
      cases second with
      | cons headToo tailToo =>
        obtain ⟨rfl, rfl⟩ := one part List.mem_cons_self head headToo
        obtain ⟨rfl, rfl⟩ := ih (fun other mem => one other (List.mem_cons_of_mem _ mem)) tail tailToo
        exact ⟨rfl, rfl⟩

/-- a value of a type without further types in it is determined by what is taken for it -/
theorem Unique.of_simple (simple : type.isSimple = true) : Unique registry type ctx := by
  intro trace other c d e first second
  cases first with
  | number takes =>
    cases second with
    | number takesToo =>
      obtain ⟨rfl, rfl⟩ := takes.unique takesToo
      exact ⟨rfl, rfl⟩
  | tstring takes =>
    cases second with
    | tstring takesToo =>
      obtain ⟨rfl, rfl⟩ := takes.unique takesToo
      exact ⟨rfl, rfl⟩
  | stdString before takes =>
    cases second with
    | stdString beforeToo takesToo =>
      obtain ⟨rfl, rfl⟩ := before.unique beforeToo
      obtain ⟨rfl, rfl⟩ := takes.unique takesToo
      exact ⟨rfl, rfl⟩
  | head at_ =>
    cases second with
    | head atToo =>
      obtain ⟨rfl, same, rfl⟩ := at_.unique atToo
      cases same
      exact ⟨rfl, rfl⟩
  | datime takes =>
    cases second with
    | datime takesToo =>
      obtain ⟨rfl, rfl⟩ := takes.unique takesToo
      exact ⟨rfl, rfl⟩
  | time before takes =>
    cases second with
    | time beforeToo takesToo =>
      obtain ⟨rfl, rfl⟩ := before.unique beforeToo
      obtain ⟨rfl, rfl⟩ := takes.unique takesToo
      exact ⟨rfl, rfl⟩
  | ref before takes behind =>
    cases second with
    | ref beforeToo takesToo behindToo =>
      obtain ⟨-, rfl⟩ := before.unique beforeToo
      obtain ⟨rfl, rfl⟩ := takes.unique takesToo
      obtain ⟨-, rfl⟩ := behind.unique behindToo
      exact ⟨rfl, rfl⟩
  | refArray before lead named count gap takes =>
    cases second with
    | refArray beforeToo leadToo namedToo countToo gapToo takesToo =>
      obtain ⟨rfl, rfl⟩ := before.unique beforeToo
      obtain ⟨-, rfl⟩ := lead.unique leadToo
      obtain ⟨rfl, rfl⟩ := named.unique namedToo
      obtain ⟨length, rfl⟩ := count.unique countToo
      obtain ⟨-, rfl⟩ := gap.unique gapToo
      obtain ⟨rfl, rfl⟩ := takes.unique takesToo (Int.ofNat.inj length)
      exact ⟨rfl, rfl⟩
  | vector | array | map | object => cases simple

/-- **Bytes determine their trace.** -/
theorem Reads.unique (regular : registry.Regular) (type : StreamType) (ctx : Context) :
    Unique registry type ctx := by
  intro trace other c d e first second
  induction type, ctx using registry.walk generalizing trace other c d e with
  | vector element ctx ih =>
    cases first with
    | vector before count all =>
      cases second with
      | vector beforeToo countToo allToo =>
        obtain ⟨rfl, rfl⟩ := before.unique beforeToo
        obtain ⟨length, rfl⟩ := count.unique countToo
        obtain ⟨rfl, rfl⟩ := all.unique ih allToo length
        exact ⟨rfl, rfl⟩
  | array element count ctx ih =>
    cases first with
    | array length all =>
      cases second with
      | array lengthToo allToo =>
        obtain ⟨rfl, rfl⟩ := all.unique ih allToo (length.trans lengthToo.symm)
        exact ⟨rfl, rfl⟩
  | map key value ctx keys values =>
    cases first with
    | map before count same allKeys allValues =>
      cases second with
      | map beforeToo countToo sameToo allKeysToo allValuesToo =>
        obtain ⟨rfl, rfl⟩ := before.unique beforeToo
        obtain ⟨length, rfl⟩ := count.unique countToo
        obtain ⟨rfl, rfl⟩ := allKeys.unique keys allKeysToo length
        obtain ⟨rfl, rfl⟩ := allValues.unique values allValuesToo (same.trans sameToo.symm)
        exact ⟨rfl, rfl⟩
  | named name ctx ih =>
    cases first with
    | object outside known takes chosen all =>
      cases second with
      | object _ knownToo takesToo chosenToo allToo =>
        obtain rfl := Option.some.inj (known.symm.trans knownToo)
        obtain rfl := chosen.trans (regular.chosen known _)
        obtain rfl := chosenToo.trans (regular.chosen known _)
        obtain ⟨-, rfl⟩ := takes.unique takesToo
        rw [registry.partsIn_eq (outside rfl) known] at ih
        obtain ⟨rfl, rfl⟩ := all.unique ih allToo
        exact ⟨rfl, rfl⟩
  | _ => exact Unique.of_simple rfl first second

end Trace

end Baskets

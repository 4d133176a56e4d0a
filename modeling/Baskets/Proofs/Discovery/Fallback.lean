import Baskets.Proofs.Cache
import Baskets.Proofs.Discovery
import Baskets.Proofs.Node.Structural
import Baskets.Proofs.Reading.Faithful

/-!
# What a basket comes to when it can be read

A basket whose entries can all be read comes to a model or to just the values that were read, but
for one thing: the tree that its entries make may have no form, and then the fault of the form is
what the basket comes to (`Interpretation.array_of_interpret`).  Where there is one layout of each
class this never happens; with two versions of a class in one vector it does.
-/

namespace Baskets

/-! ## faults of forms -/

namespace Node

/-- the only faults are those of a tree without a form -/
def OnlyDerivation {α : Type} (result : Except Fault α) : Prop :=
  ∀ fault, result = .error fault → ∃ label cause, fault = .derivation label cause

namespace OnlyDerivation

variable {α β : Type}

theorem ok (a : α) : OnlyDerivation (.ok a) := by
  intro fault failed
  cases failed

theorem fault (info : NodeInfo) (cause : FormFault) :
    OnlyDerivation (Node.fault info cause : Except Fault α) := by
  intro fault failed
  cases failed
  exact ⟨_, _, rfl⟩

theorem bind {first : Except Fault α} {rest : α → Except Fault β} (inner : OnlyDerivation first)
    (outer : ∀ a, OnlyDerivation (rest a)) : OnlyDerivation (first >>= rest) := by
  intro fault failed
  cases result : first with
  | error other =>
    rw [result] at failed
    cases failed
    exact inner _ result
  | ok a =>
    rw [result] at failed
    exact outer a fault failed

end OnlyDerivation

mutual

theorem onlyDerivation_fieldName : (node : Node) → OnlyDerivation node.fieldName
  | .mk info children => by
    unfold fieldName
    split
    · exact .ok _
    · split
      · split
        · exact onlyDerivation_fieldName _
        · exact .fault info _
      · exact .fault info _
termination_by node => (sizeOf node, 0)

theorem onlyDerivation_form : (node : Node) → OnlyDerivation node.form
  | .mk info children => by
    unfold form
    split
    · exact .fault info _
    · exact .ok _
    · split
      · exact .ok _
      · exact .fault info _
    · split
      · split
        · split
          · exact .ok _
          · split
            · exact .ok _
            · exact .bind (onlyDerivation_form _) fun _ => .ok _
            · split
              · exact .bind (onlyDerivation_formAll _) fun _ => .ok _
              · exact .fault info _
        · exact .fault info _
      · split
        · split
          · exact onlyDerivation_form _
          · exact .fault info _
        · exact .bind (onlyDerivation_columnsAll _) fun _ => .ok _
termination_by node => (sizeOf node, 0)

theorem onlyDerivation_formAll : (nodes : List Node) → OnlyDerivation (formAll nodes)
  | [] => by
    unfold formAll
    exact .ok _
  | node :: nodes => by
    unfold formAll
    exact .bind (onlyDerivation_form node) fun _ =>
      .bind (onlyDerivation_formAll nodes) fun _ => .ok _
termination_by nodes => (sizeOf nodes, 0)

theorem onlyDerivation_columnsAll : (nodes : List Node) → OnlyDerivation (columnsAll nodes)
  | [] => by
    unfold columnsAll
    exact .ok _
  | node :: nodes => by
    unfold columnsAll
    exact .bind (onlyDerivation_columns node) fun _ =>
      .bind (onlyDerivation_columnsAll nodes) fun _ => .ok _
termination_by nodes => (sizeOf nodes, 0)

theorem onlyDerivation_columns : (node : Node) → OnlyDerivation node.columns
  | .mk info children => by
    unfold columns
    split
    · split
      · refine .bind (onlyDerivation_baseRecord true true _) fun record => ?_
        split
        · exact .ok _
        · exact .fault info _
      · exact .fault info _
    · exact .bind (onlyDerivation_fieldName _) fun _ =>
        .bind (onlyDerivation_form _) fun _ => .ok _
termination_by node => (sizeOf node, 1)

theorem onlyDerivation_baseRecord (dispatch version : Bool) :
    (node : Node) → OnlyDerivation (node.baseRecord dispatch version)
  | .mk info children => by
    unfold baseRecord
    split
    · split
      · split
        · exact onlyDerivation_baseRecord _ _ _
        · exact .fault info _
      · split
        · exact onlyDerivation_baseRecord _ _ _
        · exact .fault info _
      · refine .bind (onlyDerivation_form _) fun inner => ?_
        split
        · exact .ok _
        · exact .fault info _
      · exact .fault info _
    · split
      · split <;> exact .fault info _
      · split <;> exact .fault info _
      · exact .fault info _
      · exact .fault info _
termination_by node => (sizeOf node, 0)

end

end Node

/-! ## baskets that can be read -/

theorem exists_of_isOk {α : Type} {result : Except Fault α} (ok : result.isOk = true) :
    ∃ a, result = .ok a := by
  cases result with
  | error fault => cases ok
  | ok a => exact ⟨a, rfl⟩

namespace Interpretation

variable {interpretation : Interpretation} {list : List (Except Fault Bytes)}

theorem of_values_cons {first : Except Fault Bytes} {values : List Value}
    (read : interpretation.values (first :: list) = .ok values) :
    ∃ entry value others, first = .ok entry ∧ (interpretation.read entry none).1 = .ok value ∧
      interpretation.values list = .ok others ∧ values = value :: others := by
  unfold Interpretation.values at read
  obtain ⟨entry, there, read⟩ := bind_ok read
  obtain ⟨value, one, read⟩ := bind_ok read
  obtain ⟨others, after, read⟩ := bind_ok read
  exact ⟨entry, value, others, there, one, after, (Except.ok.inj read).symm⟩

/-- with a generator an entry gives the same value, unless its type is refused -/
theorem read_of_value {entry : Bytes} {value : Value}
    (read : (interpretation.read entry none).1 = .ok value) (g : Generator) :
    (∃ cause progress, interpretation.read entry (some g) =
      (.error (.ungeneratable cause), progress)) ∨
    ∃ cursor h, interpretation.read entry (some g) =
      (.ok value, { cursor, generator := some h }) := by
  obtain ⟨-, same, -⟩ := interpretation.registry.read_same_or_refused interpretation.type none
    interpretation.context { data := entry } g
  rcases same value read with ⟨made, -⟩ | ⟨cause, made⟩
  · have made : (interpretation.read entry (some g)).1 = .ok value := made
    have ok : (interpretation.read entry (some g)).1.isOk = true := by
      rw [made]
      rfl
    obtain ⟨other, cursor, h, all⟩ := exists_of_isOk ok
    rw [all] at made
    cases made
    exact .inr ⟨cursor, h, all⟩
  · exact .inl ⟨cause, _, Prod.ext made rfl⟩

/-- entries that can all be read give the model of those that make it, or none -/
theorem discoverFrom_of_values {values : List Value}
    (read : interpretation.values list = .ok values) (g : Generator) :
    interpretation.discoverFrom g list = .ok none ∨
      ∃ traces, interpretation.ShowsFrom list traces ∧
        (Trace.entries none interpretation.context traces g).incomplete = false ∧
        interpretation.discoverFrom g list =
          (Trace.entries none interpretation.context traces g).model.map some := by
  induction list generalizing g values with
  | nil => exact .inl rfl
  | cons first rest ih =>
    obtain ⟨entry, value, others, rfl, one, after, rfl⟩ := of_values_cons read
    rcases read_of_value one g.beginEntry with ⟨cause, progress, refused⟩ | ⟨cursor, h, made⟩
    · refine .inl ?_
      rw [discoverFrom_ok, refused]
      rfl
    · obtain ⟨trace, reads, -, rfl⟩ := read_traced made
      have incomplete := Trace.incomplete_contribute trace none interpretation.context g.beginEntry
      have clean : g.beginEntry.incomplete = false := rfl
      rw [clean, Bool.false_or] at incomplete
      rw [discoverFrom_cons made]
      cases full : trace.complete with
      | false =>
        rw [full, Bool.not_false] at incomplete
        rw [if_pos incomplete]
        rcases ih after (trace.contribute none interpretation.context g.beginEntry) with
          nothing | ⟨traces, shows_, complete, model⟩
        · exact .inl nothing
        · exact .inr ⟨trace :: traces, .next reads full shows_, complete, model⟩
      | true =>
        rw [full, Bool.not_true] at incomplete
        rw [if_neg (Bool.eq_false_iff.1 incomplete)]
        exact .inr ⟨[trace], .last reads full, incomplete, rfl⟩

end Interpretation

/-- only a tree without a form has no model -/
theorem Generator.exists_model_or (g : Generator) : (∃ m, g.model = .ok m) ∨
    ∃ label cause, g.node.form = .error (.derivation label cause) ∧
      g.model = .error (.derivation label cause) := by
  cases form : g.node.form with
  | ok form => exact .inl ⟨_, Generator.model_of_form form⟩
  | error fault =>
    obtain ⟨label, cause, rfl⟩ := g.node.onlyDerivation_form fault form
    refine .inr ⟨label, cause, rfl, ?_⟩
    unfold Generator.model Model.ofNode
    rw [form]
    rfl

namespace Interpretation

variable {interpretation : Interpretation} {basket : Basket}

theorem discover_of_entries {list : List (Except Fault Bytes)} (entries : basket.entries = .ok list) :
    interpretation.discover basket = interpretation.discoverFrom {} list := by
  unfold discover
  rw [entries]
  rfl

theorem array_fst_eq (cache : Cache Model) : (interpretation.array basket cache).1 =
    match (interpretation.compile basket cache).1 with
    | .error fault => .error fault
    | .ok (some model) => .ok (.model model)
    | .ok none => (interpretation.interpret basket).map .values := by
  unfold Interpretation.array
  split <;> rename_i same <;> rw [same]

/-- a basket comes to a model that was kept, or to what is discovered in it -/
theorem array_fst (cache : Cache Model) :
    (∃ model, cache.find? interpretation.key = some model ∧
      (interpretation.array basket cache).1 = .ok (.model model)) ∨
    ∃ number, (interpretation.array basket cache).1 =
      (match interpretation.discover basket with
        | .error fault => .error fault
        | .ok (some m) => .ok (.model { number, value := m })
        | .ok none => (interpretation.interpret basket).map .values) := by
  rw [array_fst_eq]
  unfold compile
  rcases cache.getOrBuild_fst interpretation.key (interpretation.discover basket) with
    ⟨built, there, kept⟩ | ⟨number, now⟩
  · rw [kept]
    exact .inl ⟨built, there, rfl⟩
  · rw [now]
    refine .inr ⟨number, ?_⟩
    cases interpretation.discover basket with
    | error fault => rfl
    | ok found => cases found <;> rfl

end Interpretation

/-- **What can be read comes to something.**  A basket whose entries can all be read comes to a
model, to just the values that were read, or to the fault of the form of the tree that its entries
make; and where there is one layout of each class, never to a fault. -/
theorem Interpretation.array_of_interpret {interpretation : Interpretation} {basket : Basket}
    {values : List Value} (read : interpretation.interpret basket = .ok values)
    (cache : Cache Model) :
    ((∃ model, (interpretation.array basket cache).1 = .ok (.model model)) ∨
      (interpretation.array basket cache).1 = .ok (.values values) ∨
      ∃ traces label cause, interpretation.Shows basket traces ∧
        (Trace.entries none interpretation.context traces {}).node.form =
          .error (.derivation label cause) ∧
        (interpretation.array basket cache).1 = .error (.derivation label cause)) ∧
    (interpretation.registry.Regular →
      Place.Apart (interpretation.registry.places interpretation.type interpretation.context) →
        (interpretation.array basket cache).1.isOk = true) := by
  rcases @array_fst interpretation basket cache with
    ⟨model, -, kept⟩ | ⟨number, now⟩
  · rw [kept]
    exact ⟨.inl ⟨model, rfl⟩, fun _ _ => rfl⟩
  obtain ⟨list, entries, all⟩ := bind_ok read
  rw [now, discover_of_entries entries]
  rcases interpretation.discoverFrom_of_values all {} with
    nothing | ⟨traces, shows_, complete, found⟩
  · rw [nothing, read]
    exact ⟨.inr (.inl rfl), fun _ _ => rfl⟩
  rw [found]
  rcases (Trace.entries none interpretation.context traces {}).exists_model_or with
    ⟨m, made⟩ | ⟨label, cause, form, failed⟩
  · rw [made]
    exact ⟨.inl ⟨_, rfl⟩, fun _ _ => rfl⟩
  · rw [failed]
    refine ⟨.inr (.inr ⟨traces, label, cause, ⟨list, entries, shows_⟩, form, rfl⟩), ?_⟩
    intro regular apart
    obtain ⟨m, made, -⟩ := model_of_traces regular apart shows_.reads shows_.ne_nil complete
    rw [failed] at made
    cases made

/-! ### hits of two versions -/

/-- vectors of hits, which once had a byte and now have two -/
def hits : Interpretation where
  type := .vector (.named "Hit")
  registry :=
    { layouts := [{ name := "Hit", version := 1, members := [⟨"x", .primitive .uint8⟩] },
        { name := "Hit", version := 2, members := [⟨"x", .primitive .uint8⟩,
          ⟨"y", .primitive .uint8⟩] }]
      ordered := by simp [Layout.precedes] }
  options := { header := false }

/-- a hit of each version -/
def mixedHits : Bytes :=
  #[0, 0, 0, 2] ++ (#[0x40, 0, 0, 3, 0, 1, 7] ++ #[0x40, 0, 0, 4, 0, 2, 8, 9])

/-- hits of both versions are read, and come to nothing -/
theorem array_mixedHits : ∃ values label cause,
    hits.interpret (oneEntry mixedHits) = .ok values ∧
      (hits.array (oneEntry mixedHits) {}).1 = .error (.derivation label cause) := by
  have readable : (hits.interpret (oneEntry mixedHits)).isOk = true := by decide +kernel
  have ok : (hits.read mixedHits (some {})).1.isOk = true := by decide +kernel
  have tree : (hits.read mixedHits (some {})).2.generator.map
      (fun g => (g.incomplete, (Node.Structural.form g.node).isOk)) = some (false, false) := by
    decide +kernel
  obtain ⟨value, cursor, g, read⟩ := Interpretation.exists_of_isOk ok
  rw [read] at tree
  obtain ⟨complete, formless⟩ := Prod.mk.inj (Option.some.inj tree)
  obtain ⟨values, all⟩ := exists_of_isOk readable
  rcases g.exists_model_or with ⟨m, made⟩ | ⟨label, cause, -, failed⟩
  · rw [← Node.form_eq_structural, (Generator.model_eq_ok made).1] at formless
    cases formless
  have discover : hits.discover (oneEntry mixedHits) = .error (.derivation label cause) := by
    rw [Interpretation.discover_of_entries (entries_oneEntry mixedHits),
      Interpretation.discoverFrom_cons (g := {}) read, if_neg (Bool.eq_false_iff.1 complete),
      failed]
    rfl
  refine ⟨values, label, cause, all, ?_⟩
  rcases @Interpretation.array_fst hits (oneEntry mixedHits) {} with ⟨_, kept, -⟩ | ⟨number, now⟩
  · cases kept
  · rw [now, discover]

theorem array_of_interpret_point : ∃ values,
    points.interpret (oneEntry point) = .ok values ∧
      (points.array (oneEntry point) {}).1.isOk = true := by
  have readable : (points.interpret (oneEntry point)).isOk = true := by decide +kernel
  obtain ⟨values, all⟩ := exists_of_isOk readable
  exact ⟨values, all,
    (Interpretation.array_of_interpret all {}).2 regular_points apart_points⟩

end Baskets

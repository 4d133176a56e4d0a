import Baskets.Form

/-!
# Names and contents, lists and their bottom

In a paired form, every record with names has one for each content (`Form.Paired`), however
deep it stands.  A form that is put to the bottom of lists in lists leaves them as they are
(`Form.Grafted`), and a paired one leaves them paired.
-/

namespace Baskets

namespace Form

/-! ## names and contents -/

mutual

/-- the form and all forms in it -/
def within : Form → List Form
  | .leaf primitive shape tags => [.leaf primitive shape tags]
  | .list offsets content tags => .list offsets content tags :: withinContent content
  | .regular size content tags => .regular size content tags :: withinContent content
  | .record fields contents tags => .record fields contents tags :: withinAll contents

def withinContent : Option Form → List Form
  | none => []
  | some form => form.within

def withinAll : List Form → List Form
  | [] => []
  | form :: forms => form.within ++ withinAll forms

end

/-- a record with names has one for each content -/
def Named : Form → Prop
  | .record (some fields) contents _ => fields.length = contents.length
  | _ => True

instance : DecidablePred Named
  | .record (some _) _ _ => inferInstanceAs (Decidable (_ = _))
  | .record none _ _ | .leaf .. | .list .. | .regular .. => instDecidableTrue

/-- every record with names, however deep in the form, has one for each content -/
def Paired (form : Form) : Prop := ∀ part ∈ form.within, part.Named

instance : DecidablePred Paired := fun form =>
  inferInstanceAs (Decidable (∀ part ∈ form.within, part.Named))

section
variable {offsets : IndexFormat} {size : Nat}
  {content : Option Form} {fields : Option (List String)} {contents : List Form} {tags : Tags}

theorem mem_withinAll {forms : List Form} {part : Form} :
    part ∈ withinAll forms ↔ ∃ form ∈ forms, part ∈ form.within := by
  induction forms with
  | nil => simp [withinAll]
  | cons form forms ih => simp [withinAll, ih]

theorem forall_withinContent {p : Form → Prop} :
    (∀ part ∈ withinContent content, p part) ↔
      ∀ inner ∈ content, ∀ part ∈ inner.within, p part := by
  cases content <;> simp [withinContent]

theorem paired_list :
    (list offsets content tags).Paired ↔ ∀ inner ∈ content, inner.Paired :=
  List.forall_mem_cons.trans ((and_iff_right trivial).trans forall_withinContent)

theorem paired_regular :
    (regular size content tags).Paired ↔ ∀ inner ∈ content, inner.Paired :=
  List.forall_mem_cons.trans ((and_iff_right trivial).trans forall_withinContent)

theorem paired_record : (record fields contents tags).Paired ↔
    (∀ names ∈ fields, names.length = contents.length) ∧ ∀ form ∈ contents, form.Paired := by
  refine List.forall_mem_cons.trans (and_congr ?_ ?_)
  · cases fields <;> simp [Named]
  · unfold Paired
    simp only [mem_withinAll]
    exact ⟨fun all form mem part inside => all part ⟨form, mem, inside⟩,
      fun all part ⟨form, mem, inside⟩ => all form mem part inside⟩

end

/-! ## lists in lists -/

/-- a list without its content -/
inductive Layer where
  | list (offsets : IndexFormat) (tags : Tags)
  | regular (size : Nat) (tags : Tags)

/-- the list with that content -/
def Layer.around (content : Option Form) : Layer → Form
  | .list offsets tags => .list offsets content tags
  | .regular size tags => .regular size content tags

/-- lists in lists, and a content in the last of them -/
def chain (layers : List Layer) (content : Option Form) : Option Form :=
  layers.foldr (fun layer inner => some (layer.around inner)) content

/-- The form is a chain of lists down to a content that is no list, or not known, and the result is
the same chain down to another content. -/
def Grafted (form bottom result : Form) : Prop :=
  ∃ layers content, chain layers content = some form ∧ (∀ inner ∈ content, inner.isList = false) ∧
    chain layers (some bottom) = some result

variable {form bottom result : Form}

@[simp] theorem isList_around (layer : Layer) (content : Option Form) :
    (layer.around content).isList = true := by
  cases layer <;> rfl

theorem grafted_around {layer : Layer} {content : Option Form}
    (last : ∀ inner ∈ content, inner.isList = false) :
    Grafted (layer.around content) bottom (layer.around (some bottom)) :=
  ⟨[layer], content, rfl, last, rfl⟩

theorem Grafted.around (grafted : form.Grafted bottom result) (layer : Layer) :
    Grafted (layer.around (some form)) bottom (layer.around (some result)) := by
  obtain ⟨layers, content, own, last, made⟩ := grafted
  refine ⟨layer :: layers, content, ?_, last, ?_⟩
  · show some (layer.around (chain layers content)) = _
    rw [own]
  · show some (layer.around (chain layers (some bottom))) = _
    rw [made]

theorem graft_around (bottom : Form) (layer : Layer) (content : Option Form) :
    graft bottom (layer.around content) = layer.around (some (content.elim bottom fun inner =>
      if inner.isList then graft bottom inner else bottom)) := by
  cases layer <;> cases content <;> rw [Layer.around, graft] <;> rfl

/-- below a list is another list, or the place for the bottom -/
theorem grafted_graft_around (layer : Layer) {content : Option Form}
    (deeper : ∀ inner ∈ content, inner.isList = true → inner.Grafted bottom (graft bottom inner)) :
    Grafted (layer.around content) bottom (graft bottom (layer.around content)) := by
  rw [graft_around]
  cases content with
  | none => exact grafted_around nofun
  | some inner =>
    show Grafted _ _ (layer.around (some (if _ then _ else _)))
    by_cases list : inner.isList = true
    · rw [if_pos list]
      exact (deeper inner rfl list).around layer
    · rw [if_neg list]
      exact grafted_around fun _ same => Option.some.inj same ▸ Bool.eq_false_iff.2 list

/-- a list stays the list it is, down to the content of the last list in it -/
theorem grafted_graft : (form : Form) → form.isList = true →
    form.Grafted bottom (graft bottom form)
  | .list offsets none tags, _ => grafted_graft_around (.list offsets tags) nofun
  | .list offsets (some inner) tags, _ =>
    grafted_graft_around (.list offsets tags) fun _ same list =>
      Option.some.inj same ▸ grafted_graft inner (Option.some.inj same ▸ list)
  | .regular size none tags, _ => grafted_graft_around (.regular size tags) nofun
  | .regular size (some inner) tags, _ =>
    grafted_graft_around (.regular size tags) fun _ same list =>
      Option.some.inj same ▸ grafted_graft inner (Option.some.inj same ▸ list)

/-- there is one such result -/
theorem Grafted.eq_graft (grafted : form.Grafted bottom result) (list : form.isList = true) :
    result = graft bottom form := by
  obtain ⟨layers, content, own, last, made⟩ := grafted
  induction layers generalizing form result with
  | nil => exact absurd (last form own) (by simp [list])
  | cons layer layers ih =>
    obtain rfl : layer.around (chain layers content) = form := Option.some.inj own
    obtain rfl : layer.around (chain layers (some bottom)) = result := Option.some.inj made
    rw [graft_around]
    congr 1
    cases layers with
    | nil =>
      show some bottom = some (content.elim bottom _)
      cases content with
      | none => rfl
      | some inner => simp [last inner rfl]
    | cons next layers =>
      have deeper := ih (isList_around next _) rfl rfl
      show some (next.around (chain layers (some bottom))) = some (if _ then _ else _)
      rw [if_pos (isList_around next _)]
      exact congrArg some deeper

theorem paired_around {layer : Layer} {content : Option Form} :
    (layer.around content).Paired ↔ ∀ inner ∈ content, inner.Paired := by
  cases layer with
  | list => exact paired_list
  | regular => exact paired_regular

theorem Paired.grafted (grafted : form.Grafted bottom result) (below : bottom.Paired) :
    result.Paired := by
  obtain ⟨layers, content, -, -, made⟩ := grafted
  induction layers generalizing result with
  | nil => exact Option.some.inj made ▸ below
  | cons layer layers ih =>
    obtain rfl := Option.some.inj made
    exact paired_around.2 fun inner mem => ih mem

end Form

end Baskets

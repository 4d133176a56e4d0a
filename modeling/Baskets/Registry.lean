import Baskets.Layout

/-!
# Known layouts

A `Registry` holds at most one layout for each version of a class.  It is kept in ascending order
of versions, whatever the order of registration, so that `Registry.ofClass` lists the versions of a
class in order and the newest layout is the last.

`Registry.reach` walks from class to class through bases and members, each class once, before the
classes it mentions.  Only a registered class mentions others, so the walk ends: each step either
shortens the list of classes still to be visited or visits a registered class for the first time.
-/

namespace Baskets

/-- the order in which layouts are kept; the name counts only to keep two layouts apart -/
def Layout.precedes (a b : Layout) : Prop :=
  a.version < b.version ∨ a.version = b.version ∧ a.name ≠ b.name

structure Registry where
  layouts : List Layout := []
  ordered : layouts.Pairwise Layout.precedes := by simp

namespace Registry

def empty : Registry := {}

/-- puts a layout in its place, over the one of the same class and version if there is one -/
def place (layout : Layout) : List Layout → List Layout
  | [] => [layout]
  | other :: rest =>
    if layout.version < other.version then layout :: other :: rest
    else if layout.version = other.version ∧ layout.name = other.name then layout :: rest
    else other :: place layout rest

theorem mem_place {layout other : Layout} {layouts : List Layout}
    (h : other ∈ place layout layouts) : other = layout ∨ other ∈ layouts := by
  fun_induction place layout layouts with
  | case1 => simpa using h
  | case2 first rest _ => simpa using h
  | case3 first rest _ _ =>
    rcases List.mem_cons.1 h with h | h
    · exact .inl h
    · exact .inr (List.mem_cons_of_mem _ h)
  | case4 first rest _ _ ih =>
    rcases List.mem_cons.1 h with h | h
    · exact .inr (h ▸ List.mem_cons_self)
    · exact (ih h).imp_right (List.mem_cons_of_mem _)

theorem pairwise_place {layouts : List Layout} (layout : Layout)
    (h : layouts.Pairwise Layout.precedes) : (place layout layouts).Pairwise Layout.precedes := by
  fun_induction place layout layouts with
  | case1 => simp
  | case2 first rest less =>
    refine List.pairwise_cons.2 ⟨fun other mem => .inl ?_, h⟩
    rcases List.mem_cons.1 mem with rfl | mem
    · exact less
    · rcases (List.pairwise_cons.1 h).1 other mem with lt | ⟨eq, _⟩
      · exact UInt16.lt_trans less lt
      · exact eq ▸ less
  | case3 first rest _ same =>
    obtain ⟨head, tail⟩ := List.pairwise_cons.1 h
    refine List.pairwise_cons.2 ⟨fun other mem => ?_, tail⟩
    simpa [Layout.precedes, same] using head other mem
  | case4 first rest notLess differs ih =>
    obtain ⟨head, tail⟩ := List.pairwise_cons.1 h
    refine List.pairwise_cons.2 ⟨fun other mem => ?_, ih tail⟩
    rcases mem_place mem with rfl | mem
    · rcases UInt16.lt_or_eq_of_le (UInt16.not_lt.1 notLess) with lt | eq
      · exact .inl lt
      · exact .inr ⟨eq, fun name => differs ⟨eq.symm, name.symm⟩⟩
    · exact head other mem

/-- adds a layout, or replaces the one of the same class and version -/
def register (registry : Registry) (layout : Layout) : Registry where
  layouts := place layout registry.layouts
  ordered := pairwise_place layout registry.ordered

def ofList (layouts : List Layout) : Registry := layouts.foldl register empty

/-- the layouts of a class, oldest version first -/
def ofClass (registry : Registry) (name : String) : List Layout :=
  registry.layouts.filter fun layout => layout.name = name

def get? (registry : Registry) (name : String) (version : Nat) : Option Layout :=
  (registry.ofClass name).find? fun layout => layout.version.toNat = version

/-- the layout of the newest version -/
def latest? (registry : Registry) (name : String) : Option Layout :=
  (registry.ofClass name).getLast?

def versions (registry : Registry) (name : String) : List UInt16 :=
  (registry.ofClass name).map (·.version)

def contains (registry : Registry) (name : String) : Bool := !(registry.ofClass name).isEmpty

/-! ## reachable classes -/

/-- the classes that the layouts of a class mention -/
def mentioned (registry : Registry) (name : String) : List String :=
  (registry.ofClass name).flatMap Layout.classes

/-- how many layouts belong to classes not in the list -/
def unseen (registry : Registry) (seen : List String) : Nat :=
  (registry.layouts.filter fun layout => layout.name ∉ seen).length

theorem unseen_cons (registry : Registry) (name : String) (seen : List String) (h : name ∉ seen) :
    registry.unseen (name :: seen) + (registry.ofClass name).length = registry.unseen seen := by
  unfold unseen ofClass
  induction registry.layouts with
  | nil => rfl
  | cons layout rest ih =>
    by_cases here : layout.name = name
    · have : layout.name ∉ seen := here ▸ h
      simp [here, h] at ih ⊢
      omega
    · by_cases old : layout.name ∈ seen
      · simpa [here, old] using ih
      · simp [here, old] at ih ⊢
        omega

theorem unseen_cons_lt {registry : Registry} {name : String} {seen : List String}
    (h : name ∉ seen) (known : registry.ofClass name ≠ []) :
    registry.unseen (name :: seen) < registry.unseen seen := by
  have := registry.unseen_cons name seen h
  have := List.length_pos_iff.2 known
  omega

/-- the classes found from those still to be visited, in the order of their first visit -/
def reach (registry : Registry) : (pending seen : List String) → List String
  | [], _ => []
  | name :: pending, seen =>
    if name ∈ seen then registry.reach pending seen
    else name :: registry.reach (registry.mentioned name ++ pending) (name :: seen)
termination_by pending seen => (registry.unseen seen, pending.length)
decreasing_by
  · exact .right _ (by simp)
  · rename_i new
    by_cases known : registry.ofClass name = []
    · have : registry.unseen (name :: seen) = registry.unseen seen := by
        have := registry.unseen_cons name seen new
        simpa [known] using this
      rw [this]
      exact .right _ (by simp [mentioned, known])
    · exact .left _ _ (unseen_cons_lt new known)

/-- every class that a value of the type can hold, as far as the layouts tell -/
def reachable (registry : Registry) (type : StreamType) : List String :=
  registry.reach type.classes []

end Registry

end Baskets

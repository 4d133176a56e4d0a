import Baskets.Proofs.Generator.Standing
import Baskets.Proofs.Plan.Kinds

/-!
# Reading grows the tree of the type

A generator that reads values of a type has, at every moment, some part of the tree of the type.
Between reads this part is tidy: a node that is present has all of its children or none, because a
list that was empty shows no elements, and all else shows everything.  `Reached` says what a read
does to the part that is present, and `Plan.grows` that every read of every type does so.

What a node passes over is settled when the node comes up: it is the length of the header before the
first value that was read at its place (`Settled`).
-/

namespace Baskets

/-! ## tidy parts -/

namespace Node

mutual

/-- the node is present, and everywhere in it all children of a node are, or none -/
def Tidy (present : List NodeKind) : Node → Prop
  | .mk info children => info.kind ∈ present ∧
    (TidyAll present children ∨ ∀ kind ∈ kindsAll children, kind ∉ present)

def TidyAll (present : List NodeKind) : List Node → Prop
  | [] => True
  | node :: nodes => node.Tidy present ∧ TidyAll present nodes

end

/-- nothing of the tree is present -/
def Absent (present : List NodeKind) (node : Node) : Prop := ∀ kind ∈ node.kinds, kind ∉ present

def AllAbsent (present : List NodeKind) (nodes : List Node) : Prop :=
  ∀ kind ∈ kindsAll nodes, kind ∉ present

variable {present later : List NodeKind}

theorem Tidy.kind_mem {node : Node} (tidy : node.Tidy present) : node.kind ∈ present := by
  cases node with
  | mk info children => exact tidy.1

mutual

/-- only the kinds of the tree matter -/
theorem tidy_congr : (node : Node) → (∀ kind ∈ node.kinds, kind ∈ present ↔ kind ∈ later) →
    (node.Tidy present ↔ node.Tidy later)
  | .mk info children, same => by
    have root := same info.kind List.mem_cons_self
    have below := tidyAll_congr children fun kind mem => same kind (List.mem_cons_of_mem _ mem)
    have none : (∀ kind ∈ kindsAll children, kind ∉ present) ↔
        ∀ kind ∈ kindsAll children, kind ∉ later :=
      forall₂_congr fun kind mem => not_congr (same kind (List.mem_cons_of_mem _ mem))
    exact and_congr root (or_congr below none)

theorem tidyAll_congr : (nodes : List Node) →
    (∀ kind ∈ kindsAll nodes, kind ∈ present ↔ kind ∈ later) →
      (TidyAll present nodes ↔ TidyAll later nodes)
  | [], _ => Iff.rfl
  | node :: nodes, same => by
    have first := tidy_congr node fun kind mem => same kind (List.mem_append_left _ mem)
    have rest := tidyAll_congr nodes fun kind mem => same kind (List.mem_append_right _ mem)
    exact and_congr first rest

end

theorem tidy_looped (start : Instruction) (node : Node) :
    (node.looped start).Tidy present ↔ node.Tidy present := by
  cases node with
  | mk info children => exact Iff.rfl

theorem length_restrictAll_pair {first second : Node} (here : first.kind ∈ present)
    (there : second.kind ∈ present) : (restrictAll present [first, second]).length = 2 := by
  rw [restrictAll_cons, if_pos here, restrictAll_cons, if_pos there]
  rfl

theorem AllAbsent.congr {nodes : List Node} (absent : AllAbsent present nodes)
    (same : ∀ kind ∈ kindsAll nodes, kind ∈ present ↔ kind ∈ later) : AllAbsent later nodes :=
  fun kind mem there => absent kind mem ((same kind mem).2 there)

end Node

/-! ## settled headers -/

/-- every header is passed over by a node that is present, or is as long as the node will have it;
the nodes of the headers before it count as present -/
def Settled (length : NodeKind → Nat) : List NodeKind → List Mark → Prop
  | _, [] => True
  | present, mark :: marks =>
    (mark.node ∈ present ∨ mark.length = length mark.node) ∧
      Settled length (mark.node :: present) marks

namespace Settled

variable {length : NodeKind → Nat} {present later : List NodeKind} {marks others : List Mark}

theorem mono (settled : Settled length present marks) (sub : present ⊆ later) :
    Settled length later marks := by
  induction marks generalizing present later with
  | nil => trivial
  | cons mark marks ih =>
    exact ⟨settled.1.imp_left fun mem => sub mem, ih settled.2 (List.cons_subset_cons _ sub)⟩

theorem append_left (settled : Settled length present (marks ++ others)) :
    Settled length present marks := by
  induction marks generalizing present with
  | nil => trivial
  | cons mark marks ih => exact ⟨settled.1, ih settled.2⟩

/-- once the nodes of the first headers are present, the others are settled -/
theorem append_right (settled : Settled length present (marks ++ others)) (sub : present ⊆ later)
    (there : ∀ mark ∈ marks, mark.node ∈ later) : Settled length later others := by
  induction marks generalizing present with
  | nil => exact settled.mono sub
  | cons mark marks ih =>
    refine ih settled.2 ?_ fun other mem => there other (List.mem_cons_of_mem _ mem)
    exact List.cons_subset.2 ⟨there mark List.mem_cons_self, sub⟩

end Settled

/-! ## what reads do -/

/-- more is present, but only of these kinds, and all nodes that the headers belong to -/
structure Grown (kinds : List NodeKind) (marks : List Mark) (present later : List NodeKind) :
    Prop where
  sub : present ⊆ later
  only : ∀ kind ∈ later, kind ∈ present ∨ kind ∈ kinds
  marked : ∀ mark ∈ marks, mark.node ∈ later

namespace Grown

variable {kinds more : List NodeKind} {marks others : List Mark}
  {present later last : List NodeKind}

theorem refl (kinds : List NodeKind) (present : List NodeKind) : Grown kinds [] present present :=
  ⟨List.Subset.refl _, fun _ mem => .inl mem, fun _ mem => absurd mem List.not_mem_nil⟩

theorem trans (first : Grown kinds marks present later) (second : Grown kinds others later last) :
    Grown kinds (marks ++ others) present last := by
  refine ⟨fun _ mem => second.sub (first.sub mem), fun kind mem => ?_, fun mark mem => ?_⟩
  · rcases second.only kind mem with mem | mem
    · exact first.only kind mem
    · exact .inr mem
  · rcases List.mem_append.1 mem with mem | mem
    · exact second.sub (first.marked mark mem)
    · exact second.marked mark mem

theorem mono (grown : Grown kinds marks present later) (sub : kinds ⊆ more) :
    Grown more marks present later :=
  ⟨grown.sub, fun kind mem => (grown.only kind mem).imp_right fun mem => sub mem, grown.marked⟩

/-- where none of the kinds occurs, nothing changes -/
theorem same (grown : Grown kinds marks present later) {nodes : List NodeKind}
    (apart : ∀ kind ∈ nodes, kind ∉ kinds) : ∀ kind ∈ nodes, kind ∈ present ↔ kind ∈ later := by
  intro kind mem
  refine ⟨fun there => grown.sub there, fun there => ?_⟩
  exact (grown.only kind there).resolve_right (apart kind mem)

end Grown

/-- what a read does that grows one node among the children of the active one, from a tidy part to
a tidy part, and to the whole node if the read was full -/
def Reached (length : NodeKind → Nat) (node : Node) (marks : List Mark) (full : Bool)
    (grow : Generator → Generator) : Prop :=
  ∀ ⦃g : Generator⦄ ⦃frames : List Frame⦄ ⦃info own : NodeInfo⦄ ⦃before after : List Node⦄
    ⦃present : List NodeKind⦄, own.kind = node.kind →
    g.Stands frames info (before ++ .mk own node.children :: after) present →
    node.Tidy present ∨ own = node.info ∧ node.Absent present ∧ Node.AllAbsent present after →
    Settled length present marks →
    ∃ later, Grown node.kinds marks present later ∧ node.Tidy later ∧
      (full = true → node.kinds ⊆ later) ∧
      (grow g).Stands frames info (before ++ .mk own node.children :: after) later

/-- what a read does that grows the children of the active node, wherever it ends -/
def ReachedBelow (length : NodeKind → Nat) (children : List Node) (marks : List Mark)
    (full : Bool) (grow : Generator → Generator) : Prop :=
  ∀ ⦃g : Generator⦄ ⦃frames : List Frame⦄ ⦃info : NodeInfo⦄ ⦃present : List NodeKind⦄,
    g.Stands frames info children present →
    Node.TidyAll present children ∨ Node.AllAbsent present children →
    Settled length present marks →
    ∃ later, Grown (Node.kindsAll children) marks present later ∧
      (Node.TidyAll later children ∨ Node.AllAbsent later children) ∧
      (full = true → Node.kindsAll children ⊆ later) ∧
      (grow g).Shows (Node.plug frames (.mk info children)) later

section
variable {length : NodeKind → Nat} {node : Node} {children : List Node}
  {marks others front : List Mark} {full whole : Bool} {grow more : Generator → Generator}
  {planned made : NodeInfo}

/-- one read after another at the same place -/
theorem Reached.comp (first : Reached length node marks full grow)
    (second : Reached length node others whole more) :
    Reached length node (marks ++ others) (full && whole) fun g => more (grow g) := by
  intro g frames info own before after present kind stands tidy settled
  obtain ⟨later, grown, tidyLater, fullLater, standsLater⟩ :=
    first kind stands tidy settled.append_left
  obtain ⟨last, grownLast, tidyLast, -, standsLast⟩ :=
    second kind standsLater (.inl tidyLater) (settled.append_right grown.sub grown.marked)
  refine ⟨last, grown.trans grownLast, tidyLast, fun both => ?_, standsLast⟩
  have fullFirst := fullLater (Bool.and_eq_true_iff.1 both).1
  exact fun kind mem => grownLast.sub (fullFirst mem)

/-! ## one node -/

/-- the node that a read makes is the planned one, if the header before the value is as planned -/
structure Fits (length : NodeKind → Nat) (planned made : NodeInfo) (front : List Mark) : Prop where
  kind : made.kind = planned.kind
  marked : ∀ mark ∈ front, mark.node = planned.kind
  settled : ∀ {present : List NodeKind}, Settled length present front →
    planned.kind ∈ present ∨ made = planned

theorem Fits.refl (length : NodeKind → Nat) (info : NodeInfo) : Fits length info info [] :=
  ⟨rfl, fun _ mem => absurd mem List.not_mem_nil, fun _ => .inr rfl⟩

theorem Fits.of_header {node : NodeKind} {path : List String} {header : Nat}
    (named : planned.kind = node) (kind : made.kind = planned.kind)
    (same : header = length node → made = planned) :
    Fits length planned made [{ path, node, length := header }] := by
  subst named
  refine ⟨kind, fun mark mem => ?_, fun settled => settled.1.imp_right same⟩
  rw [List.mem_singleton.1 mem]

/-- a node that is made is the planned one, or present already -/
theorem Fits.next {own : NodeInfo} {after : List Node} {present : List NodeKind}
    (fits : Fits length planned made front) (kind : own.kind = planned.kind)
    (tidy : (Node.mk planned children).Tidy present ∨ own = planned ∧
      (Node.mk planned children).Absent present ∧ Node.AllAbsent present after)
    (settled : Settled length present front) :
    Generator.Stands.Next made own children after present := by
  rcases tidy with tidy | ⟨rfl, absent, later⟩
  · exact .inl (kind ▸ tidy.1)
  · rcases fits.settled settled with there | same
    · exact absurd there (absent _ List.mem_cons_self)
    · exact .inr ⟨same, absent, later⟩

/-- when a node has come up, its children are as before -/
theorem Node.tidyAll_of_tidy {own : NodeInfo} {present : List NodeKind}
    (once : (Node.mk own children).kinds.Nodup)
    (tidy : (Node.mk planned children).Tidy present ∨ (Node.mk planned children).Absent present) :
    Node.TidyAll (own.kind :: present) children ∨
      Node.AllAbsent (own.kind :: present) children := by
  have same : ∀ other ∈ Node.kindsAll children, other ∈ present ↔ other ∈ own.kind :: present := by
    intro other mem
    have differs : other ≠ own.kind := fun eq => (List.nodup_cons.1 once).1 (eq ▸ mem)
    simp [differs]
  rcases tidy with ⟨-, tidy | absent⟩ | absent
  · exact .inl ((Node.tidyAll_congr children same).1 tidy)
  · exact .inr (Node.AllAbsent.congr absent same)
  · exact .inr (Node.AllAbsent.congr (fun other mem => absent other (List.mem_cons_of_mem _ mem))
      same)

/-- a node comes up, and nothing else does -/
theorem Grown.comes (own : NodeInfo) (children : List Node) (present : List NodeKind)
    (fits : Fits length planned made front) (kind : own.kind = planned.kind) :
    Grown (planned.kind :: Node.kindsAll children) front present (own.kind :: present) := by
  refine ⟨List.subset_cons_self _ _, fun other mem => ?_, fun mark mem => ?_⟩
  · rcases List.mem_cons.1 mem with rfl | mem
    · exact .inr (kind ▸ List.mem_cons_self)
    · exact .inl mem
  · rw [fits.marked mark mem, kind]
    exact List.mem_cons_self

/-- a node without children -/
theorem Reached.leaf (fits : Fits length planned made front) :
    Reached length (.mk planned []) front true fun g => (g.add (.mk made [])).2 := by
  intro g frames info own before after present kind stands tidy settled
  obtain ⟨added, -⟩ := stands.add (fits.kind.trans kind.symm) (fits.next kind tidy settled)
  have there : planned.kind ∈ own.kind :: present := kind ▸ List.mem_cons_self
  refine ⟨_, Grown.comes own [] present fits kind, ⟨there, .inl trivial⟩, fun _ other mem => ?_, added⟩
  rw [List.mem_singleton.1 mem]
  exact there

/-- a node that is entered and left, with what comes up below it -/
theorem Reached.entered (grow : Generator → Generator) (fits : Fits length planned made front)
    (leaves : ∀ g, Generator.Keeps g (grow (g.enter made)).left)
    (below : ReachedBelow length children marks full grow) :
    Reached length (.mk planned children) (front ++ marks) full
      fun g => (grow (g.enter made)).left := by
  intro g frames info own before after present kind stands tidy settled
  have inside := stands.enter (fits.kind.trans kind.symm)
    (fits.next kind tidy settled.append_left)
  have grownNode := Grown.comes own children present fits kind
  obtain ⟨later, grown, tidyLater, fullLater, shows⟩ := below inside
    (Node.tidyAll_of_tidy (Node.nodup_of_plug inside.once)
      (tidy.imp_right fun fresh => fresh.2.1))
    (settled.append_right grownNode.sub grownNode.marked)
  have all := grownNode.trans (grown.mono (List.subset_cons_self planned.kind _))
  have sameKind : own.kind = planned.kind := kind
  have there : planned.kind ∈ later := sameKind ▸ grown.sub List.mem_cons_self
  refine ⟨later, all, ⟨there, tidyLater⟩, fun complete => ?_, ?_⟩
  · exact List.cons_subset.2 ⟨there, fullLater complete⟩
  · rw [Generator.Stands.plug_frame] at shows
    exact stands.keep (leaves g) (shows.of_slots_eq (Generator.slots_left _)) all.sub

/-- a node that is entered for good, with what comes up below it -/
theorem ReachedBelow.descended (fits : Fits length planned made front)
    (below : ReachedBelow length children marks full grow) :
    ReachedBelow length [.mk planned children] (front ++ marks) full
      fun g => grow (g.descend made) := by
  intro g frames info present stands tidy settled
  have tidyNode : (Node.mk planned children).Tidy present ∨
      (Node.mk planned children).Absent present := by
    refine tidy.imp (fun tidy => tidy.1) fun absent kind mem => absent kind ?_
    exact List.mem_append_left _ mem
  have first : g.Stands frames info ([] ++ .mk planned children :: []) present := stands
  have inside := first.descend fits.kind (fits.next rfl (tidyNode.imp_right fun absent =>
    ⟨rfl, absent, fun _ mem => absurd mem List.not_mem_nil⟩) settled.append_left)
  have grownNode := Grown.comes planned children present fits rfl
  obtain ⟨later, grown, tidyLater, fullLater, shows⟩ := below inside
    (Node.tidyAll_of_tidy (Node.nodup_of_plug inside.once) tidyNode)
    (settled.append_right grownNode.sub grownNode.marked)
  have all := grownNode.trans (grown.mono (List.subset_cons_self planned.kind _))
  have there : planned.kind ∈ later := grown.sub List.mem_cons_self
  rw [Generator.Stands.plug_frame] at shows
  have kinds : Node.kindsAll [.mk planned children] = planned.kind :: Node.kindsAll children :=
    List.append_nil _
  rw [kinds]
  exact ⟨later, all, .inl ⟨⟨there, tidyLater⟩, trivial⟩,
    fun complete => List.cons_subset.2 ⟨there, fullLater complete⟩, shows⟩

/-! ## children -/

/-- nothing comes up, and that is all there is only if there are no children -/
theorem ReachedBelow.nothing (children : List Node) (same : ∀ g, (grow g).slots = g.slots)
    (none : full = true → children = []) : ReachedBelow length children [] full grow := by
  intro g frames info present stands tidy _
  refine ⟨present, .refl _ present, tidy, fun complete => ?_, stands.shows.of_slots_eq (same g)⟩
  rw [none complete]
  exact List.nil_subset _

/-- the only child -/
theorem ReachedBelow.child (one : Reached length node marks full grow) :
    ReachedBelow length [node] marks full grow := by
  intro g frames info present stands tidy settled
  cases node with
  | mk planned children =>
    have kinds : Node.kindsAll [.mk planned children] = (Node.mk planned children).kinds :=
      List.append_nil _
    have tidyNode : (Node.mk planned children).Tidy present ∨ planned = planned ∧
        (Node.mk planned children).Absent present ∧ Node.AllAbsent present [] := by
      refine tidy.imp (fun tidy => tidy.1) fun absent => ⟨rfl, fun kind mem => absent kind ?_,
        fun _ mem => absurd mem List.not_mem_nil⟩
      exact List.mem_append_left _ mem
    have first : g.Stands frames info ([] ++ .mk planned children :: []) present := stands
    obtain ⟨later, grown, tidyLater, fullLater, standsLater⟩ := one rfl first tidyNode settled
    rw [kinds]
    exact ⟨later, grown, .inl ⟨tidyLater, trivial⟩, fullLater, standsLater.shows⟩

/-! ## loops -/

theorem Node.children_disjoint {info : NodeInfo} (before : List Node) {after : List Node}
    (once : (Node.mk info (before ++ node :: after)).kinds.Nodup) :
    (∀ kind ∈ Node.kindsAll before, kind ∉ node.kinds) ∧
      ∀ kind ∈ Node.kindsAll after, kind ∉ node.kinds := by
  have below := (List.nodup_cons.1 once).2
  rw [Node.kindsAll_append] at below
  obtain ⟨-, inner, apart⟩ := List.nodup_append.1 below
  obtain ⟨-, -, behind⟩ := List.nodup_append.1 inner
  exact ⟨fun kind mem there => apart kind mem kind (List.mem_append_left _ there) rfl,
    fun kind mem there => behind kind there kind mem rfl⟩

/-- a loop is put around a node when it comes up, and never again -/
theorem Reached.looping {slot : Nat} {start : Instruction} {g : Generator} {frames : List Frame}
    {info : NodeInfo} (before : List Node) {after : List Node} {present : List NodeKind}
    (one : Reached length node marks full grow) (kept : ∀ g, Generator.Keeps g (grow g))
    (stands : g.Stands frames info (before ++ node.looped start :: after) present)
    (settled : Settled length present marks)
    (tidy : node.Tidy present ∧
        (Node.restrictAll present (before ++ node.looped start :: after)).length ≠ slot ∨
      node.Absent present ∧ Node.AllAbsent present after ∧
        (Node.restrictAll present before).length = slot) :
    ∃ later, Grown node.kinds marks present later ∧ node.Tidy later ∧
      (full = true → node.kinds ⊆ later) ∧
      (g.looping slot start grow).Stands frames info (before ++ node.looped start :: after)
        later := by
  have count := stands.length_children
  cases node with
  | mk planned children =>
    unfold Generator.looping
    rcases tidy with ⟨tidy, other⟩ | ⟨absent, absentAfter, place⟩
    · rw [if_neg (count ▸ other)]
      exact one rfl stands (.inl tidy) settled
    · have notThere : ((Node.mk planned children).looped start).kind ∉ present :=
        absent _ List.mem_cons_self
      have restricted := Node.restrictAll_of_absent before notThere absentAfter
      have plain : g.Stands frames info (before ++ .mk planned children :: after) present := by
        refine stands.congr ?_ ?_
        · rw [Node.kindsAll_append, Node.kindsAll_append]
          rfl
        · rw [restricted]
          exact Node.restrictAll_of_absent before (absent _ List.mem_cons_self) absentAfter
      rw [restricted, place] at count
      rw [if_pos count]
      obtain ⟨later, grown, tidyLater, fullLater, standsLater⟩ :=
        one rfl plain (.inr ⟨rfl, absent, absentAfter⟩) settled
      obtain ⟨disjointBefore, disjointAfter⟩ :=
        Node.children_disjoint before (Node.nodup_of_plug plain.once)
      have placeLater : (Node.restrictAll later before).length = slot := by
        rw [← place, Node.restrictAll_congr before (grown.same disjointBefore)]
      have looped : (Contribution.loopChild (grow g).active slot start (grow g)).Stands frames info
          (before ++ .mk (Contribution.looped start planned) children :: after) later :=
        standsLater.loopChild tidyLater.1 (absentAfter.congr (grown.same disjointAfter)) placeLater
      rw [(kept g).place.active] at looped
      exact ⟨later, grown, tidyLater, fullLater, looped⟩

/-- a loop around nothing -/
@[simp] theorem Generator.looping_nothing (slot : Nat) (start : Instruction) (g : Generator) :
    g.looping slot start (fun g => g) = g := by
  unfold Generator.looping
  split
  · rename_i here
    unfold Contribution.loopChild
    rw [List.drop_of_length_le (Nat.le_of_eq here)]
  · rfl

/-- the kinds of two nodes with loops around them -/
@[simp] theorem Node.kindsAll_loops (node second : Node) (start next : Instruction) :
    kindsAll [node.looped start, second.looped next] = node.kinds ++ second.kinds := by
  show (node.looped start).kinds ++ ((second.looped next).kinds ++ []) = _
  simp

/-- both of two nodes with loops around them have come up, or none of them has -/
theorem Node.tidy_or_absent_of_loops {second : Node} {start next : Instruction}
    {present : List NodeKind}
    (tidy : TidyAll present [node.looped start, second.looped next] ∨
      AllAbsent present [node.looped start, second.looped next]) :
    node.Tidy present ∧ second.Tidy present ∨ node.Absent present ∧ second.Absent present := by
  rcases tidy with ⟨first, rest, -⟩ | absent
  · exact .inl ⟨(tidy_looped start node).1 first, (tidy_looped next second).1 rest⟩
  · rw [AllAbsent, kindsAll_loops] at absent
    exact .inr (List.forall_mem_append.1 absent)

/-- the two loops of a map -/
theorem ReachedBelow.loops {second : Node} {start next : Instruction}
    (keys : Reached length node marks full grow) (values : Reached length second others whole more)
    (keptKeys : ∀ g, Generator.Keeps g (grow g)) (keptValues : ∀ g, Generator.Keeps g (more g)) :
    ReachedBelow length [node.looped start, second.looped next] (marks ++ others) (full && whole)
      fun g => (g.looping 0 start grow).looping 1 next more := by
  intro g frames info present stands tidy settled
  have apart : ∀ kind ∈ second.kinds, kind ∉ node.kinds := by
    intro kind mem
    rw [← Plan.kinds_looped start node]
    refine (Node.children_disjoint [] (Node.nodup_of_plug stands.once)).2 kind ?_
    exact List.mem_append_left _ (Plan.kinds_looped next second ▸ mem)
  have cases := Node.tidy_or_absent_of_loops tidy
  -- both children are there from the start, or come up one after the other
  have inKeys : node.Tidy present ∧
      (Node.restrictAll present [node.looped start, second.looped next]).length ≠ 0 ∨
      node.Absent present ∧ Node.AllAbsent present [second.looped next] ∧
        (Node.restrictAll present []).length = 0 := by
    rcases cases with ⟨first, rest⟩ | ⟨first, rest⟩
    · refine .inl ⟨first, ?_⟩
      rw [Node.length_restrictAll_pair ((Node.tidy_looped start node).2 first).kind_mem
        ((Node.tidy_looped next second).2 rest).kind_mem]
      exact Nat.succ_ne_zero 1
    · refine .inr ⟨first, ?_, rfl⟩
      intro kind mem
      rw [Node.kindsAll, Plan.kinds_looped, Node.kindsAll, List.append_nil] at mem
      exact rest kind mem
  obtain ⟨later, grown, tidyLater, fullLater, standsLater⟩ :=
    Reached.looping [] keys keptKeys stands settled.append_left inKeys
  have sameSecond := grown.same apart
  have inValues : second.Tidy later ∧
      (Node.restrictAll later ([node.looped start] ++ second.looped next :: [])).length ≠ 1 ∨
      second.Absent later ∧ Node.AllAbsent later [] ∧
        (Node.restrictAll later [node.looped start]).length = 1 := by
    have first := ((Node.tidy_looped start node).2 tidyLater).kind_mem
    rcases cases with ⟨-, rest⟩ | ⟨-, rest⟩
    · have restLater := (Node.tidy_congr second sameSecond).1 rest
      refine .inl ⟨restLater, ?_⟩
      rw [List.singleton_append, Node.length_restrictAll_pair first
        ((Node.tidy_looped next second).2 restLater).kind_mem]
      exact (by decide : (2 : Nat) ≠ 1)
    · refine .inr ⟨fun kind mem there => rest kind mem ((sameSecond kind mem).2 there),
        fun _ mem => absurd mem List.not_mem_nil, ?_⟩
      rw [Node.restrictAll_cons, if_pos first]
      rfl
  obtain ⟨last, grownLast, tidyLast, fullLast, standsLast⟩ :=
    Reached.looping [node.looped start] values keptValues standsLater
      (settled.append_right grown.sub grown.marked) inValues
  have sameFirst := grownLast.same fun kind mem there => apart kind there mem
  rw [Node.kindsAll_loops]
  refine ⟨last, (grown.mono (List.subset_append_left _ _)).trans
    (grownLast.mono (List.subset_append_right _ _)), .inl ⟨?_, ?_, trivial⟩, fun both => ?_,
    standsLast.shows⟩
  · exact (Node.tidy_looped start node).2 ((Node.tidy_congr node sameFirst).1 tidyLater)
  · exact (Node.tidy_looped next second).2 tidyLast
  · obtain ⟨fullFirst, fullSecond⟩ := Bool.and_eq_true_iff.1 both
    exact List.append_subset.2 ⟨fun kind mem => grownLast.sub (fullLater fullFirst mem),
      fullLast fullSecond⟩

end

/-! ## reads of each type -/

namespace Plan

open Trace

variable {plan : Plan} {type element : StreamType} {ctx inner : Context} {c d : Cursor}
  {planned made : NodeInfo} {front : List Mark}

/-- every read of the type grows its node -/
def Grows (plan : Plan) (type : StreamType) (ctx : Context) : Prop :=
  ∀ (field : Option String) (trace : Trace) (c d : Cursor),
    trace.Reads plan.registry true type ctx c d →
      Reached plan.length (plan.node type field ctx) (trace.marks ctx) trace.complete
        (trace.contribute field ctx)

/-- one element after the other -/
theorem Grows.items (one : plan.Grows type ctx) (field : Option String) {traces : List Trace}
    (reads : ReadsAll plan.registry true type ctx c traces d) (some_ : traces ≠ []) :
    Reached plan.length (plan.node type field ctx) (marksAll ctx traces) (completeAll traces)
      (contributeAll field ctx traces) := by
  induction traces generalizing c with
  | nil => exact absurd rfl some_
  | cons trace rest ih =>
    cases reads with
    | cons first others =>
      have head := one field trace _ _ first
      cases rest with
      | nil =>
        show Reached _ _ (trace.marks ctx ++ []) (trace.complete && true) _
        rw [List.append_nil, Bool.and_true]
        exact head
      | cons next rest => exact head.comp (ih others (List.cons_ne_nil _ _))

/-- numbers in a list have no headers -/
theorem marksAll_numbers {p : Primitive} {traces : List Trace}
    (reads : ReadsAll plan.registry true (.primitive p) ctx c traces d) :
    marksAll ctx traces = [] := by
  induction traces generalizing c with
  | nil => rfl
  | cons trace rest ih =>
    cases reads with
    | cons first others =>
      cases first
      exact ih others

/-- the node of a list, with the node of its elements if they are not numbers -/
theorem Grows.list (one : plan.Grows element inner) (field : Option String) {items : List Trace}
    (fits : Fits plan.length planned made front)
    (reads : ReadsAll plan.registry true element inner c items d) :
    Reached plan.length
      (.mk planned (if element.primitive?.isSome then [] else [plan.node element field inner]))
      (front ++ marksAll inner items)
      (element.primitive?.isSome || (!items.isEmpty && completeAll items))
      (Generator.inList element items.length made (contributeAll field inner items)) := by
  unfold Generator.inList
  cases kind : element.primitive? with
  | some p =>
    have here : element = .primitive p := by
      cases element <;> cases kind
      rfl
    subst here
    rw [marksAll_numbers reads, List.append_nil]
    exact Reached.leaf fits
  | none =>
    have kept : ∀ g, Generator.Keeps g (contributeAll field inner items
        (if items.length = 0 then g.markIncomplete else g)) := by
      intro g
      split
      · exact (Generator.keeps_markIncomplete g).trans (keeps_contributeAll field inner items _)
      · exact keeps_contributeAll field inner items g
    have leaves : ∀ g, Generator.Keeps g (contributeAll field inner items
        (if items.length = 0 then (g.enter made).markIncomplete else g.enter made)).left :=
      fun g => (Generator.entered_enter g made).left (Generator.extends_enter g made) (kept _)
    refine Reached.entered (fun g => contributeAll field inner items
      (if items.length = 0 then g.markIncomplete else g)) fits leaves ?_
    cases items with
    | nil => exact .nothing _ (fun _ => rfl) fun none => by cases none
    | cons item items =>
      exact .child (one.items field reads (List.cons_ne_nil _ _))

/-- the node of a part of an object -/
theorem Grows.part {ctx : Context} {part : Part} (one : plan.Grows part.type (part.context ctx))
    {trace : Trace} (reads : trace.Reads plan.registry true part.type (part.context ctx) c d) :
    Reached plan.length (plan.partNode ctx part) (trace.marks (part.context ctx)) trace.complete
      (trace.contributePart ctx part) := by
  cases part with
  | base name =>
    have below := ReachedBelow.child (one none trace c d reads)
    have leaves : ∀ g : Generator, Generator.Keeps g (trace.contribute none (ctx.inBase name)
        (g.enter (Contribution.base name (ctx.inBase name)))).left :=
      fun g => (Generator.entered_enter g _).left (Generator.extends_enter g _)
        (keeps_contribute trace none (ctx.inBase name) _)
    exact Reached.entered (trace.contribute none (ctx.inBase name)) (.refl _ _) leaves below
  | member own => exact one (some own.name) trace c d reads

/-- the parts of an object, one after the other -/
theorem Grows.parts {ctx : Context} {parts : List Part}
    (one : ∀ part ∈ parts, plan.Grows part.type (part.context ctx)) {traces : List Trace}
    (reads : ReadsParts plan.registry true ctx parts c traces d) {g : Generator}
    {frames : List Frame} {info : NodeInfo} (before : List Node) {present : List NodeKind}
    (stands : g.Stands frames info (before ++ parts.map (plan.partNode ctx)) present)
    (tidy : Node.TidyAll present (parts.map (plan.partNode ctx)) ∨
      Node.AllAbsent present (parts.map (plan.partNode ctx)))
    (settled : Settled plan.length present (marksParts ctx parts traces)) :
    ∃ later, Grown (Node.kindsAll (parts.map (plan.partNode ctx))) (marksParts ctx parts traces)
        present later ∧
      Node.TidyAll later (parts.map (plan.partNode ctx)) ∧
      (completeParts parts traces = true →
        Node.kindsAll (parts.map (plan.partNode ctx)) ⊆ later) ∧
      (contributeParts ctx parts traces g).Stands frames info
        (before ++ parts.map (plan.partNode ctx)) later := by
  induction parts generalizing traces c g before present with
  | nil =>
    cases reads with
    | nil => exact ⟨present, .refl _ _, trivial, fun _ => List.nil_subset _, stands⟩
  | cons part parts ih =>
    cases reads with
    | @cons _ _ _ _ m _ trace traces first rest =>
      have head := Grows.part (one part List.mem_cons_self) first
      have more := fun other mem => one other (List.mem_cons_of_mem part mem)
      have same := Node.mk_info_children (plan.partNode ctx part)
      rw [List.map_cons] at stands tidy ⊢
      have once := Node.nodup_of_plug stands.once
      have apart := (Node.children_disjoint before once).2
      have tidyHead : (plan.partNode ctx part).Tidy present ∨
          (plan.partNode ctx part).info = (plan.partNode ctx part).info ∧
            (plan.partNode ctx part).Absent present ∧
            Node.AllAbsent present (parts.map (plan.partNode ctx)) := by
        refine tidy.imp (fun tidy => tidy.1) fun absent => ⟨rfl, fun kind mem => ?_, fun kind mem => ?_⟩
        · exact absent kind (List.mem_append_left _ mem)
        · exact absent kind (List.mem_append_right _ mem)
      rw [← same] at stands
      obtain ⟨later, grown, tidyLater, fullLater, standsLater⟩ :=
        head rfl stands tidyHead settled.append_left
      have tidyRest : Node.TidyAll later (parts.map (plan.partNode ctx)) ∨
          Node.AllAbsent later (parts.map (plan.partNode ctx)) := by
        refine tidy.imp (fun tidy => ?_) fun absent => ?_
        · exact (Node.tidyAll_congr _ (grown.same apart)).1 tidy.2
        · exact Node.AllAbsent.congr (fun kind mem => absent kind (List.mem_append_right _ mem))
            (grown.same apart)
      rw [same, List.append_cons] at standsLater
      obtain ⟨last, grownLast, tidyLast, fullLast, standsLast⟩ :=
        ih more rest _ standsLater tidyRest (settled.append_right grown.sub grown.marked)
      have sameHead := grownLast.same fun kind mem there => apart kind there mem
      rw [← List.append_cons] at standsLast
      rw [contributeParts_cons]
      refine ⟨last, (grown.mono (List.subset_append_left _ _)).trans
        (grownLast.mono (List.subset_append_right _ _)), ⟨?_, tidyLast⟩, fun both => ?_, standsLast⟩
      · exact (Node.tidy_congr _ sameHead).1 tidyLater
      · obtain ⟨fullHead, fullRest⟩ := Bool.and_eq_true_iff.1 both
        exact List.append_subset.2 ⟨fun kind mem => grownLast.sub (fullLater fullHead mem),
          fullLast fullRest⟩

/-- an object of a class, when the types of its parts grow -/
theorem Grows.object (regular : plan.registry.Regular) {name : String} {outer : Context}
    (one : ∀ part ∈ plan.registry.partsIn outer.breadcrumbs name,
      plan.Grows part.type (part.context (outer.inClass name))) :
    plan.Grows (.named name) outer := by
  intro field trace c d reads
  cases reads with
  | @object _ _ _ e _ header latest layout parts outside known takes chosen all =>
    have same : layout = latest := chosen.trans (regular.chosen known header.version)
    subst same
    rw [Registry.partsIn_eq (outside rfl) known] at one
    rw [node_named, Registry.partsIn_eq (outside rfl) known]
    have newest : decide (layout.version ≠ layout.version) = false := by simp
    have grow : ReachedBelow plan.length (layout.parts.map (plan.partNode (outer.inClass name)))
        (marksParts (outer.inClass name) layout.parts parts) (completeParts layout.parts parts)
        (contributeParts (outer.inClass name) layout.parts parts) := by
      intro g frames info present stands tidy settled
      obtain ⟨later, grown, tidyLater, fullLater, standsLater⟩ :=
        Grows.parts one all [] stands tidy settled
      exact ⟨later, grown, .inl tidyLater, fullLater, standsLater.shows⟩
    have fits : Fits plan.length
        (Contribution.dispatch name
          (plan.length (.dispatch ((outer.inClass name).label name "dispatch"))) field
          (outer.inClass name))
        (Contribution.dispatch name (e.pos - c.pos) field (outer.inClass name))
        [{ path := (outer.inClass name).path,
           node := .dispatch ((outer.inClass name).label name "dispatch"),
           length := e.pos - c.pos }] := by
      refine .of_header rfl rfl fun same => ?_
      rw [same]
    let inside (g : Generator) : Generator :=
      contributeParts (outer.inClass name) layout.parts parts
        ((g.descend (Contribution.start name (outer.inClass name))).descend
          (Contribution.record name (outer.inClass name)))
    have leaves : ∀ g : Generator, Generator.Keeps g
        (inside (g.enter (Contribution.dispatch name (e.pos - c.pos) field
          (outer.inClass name)))).left :=
      fun g => keeps_contribute (.object name (e.pos - c.pos) layout false parts) field outer g
    have below := ReachedBelow.descended (.refl _ (Contribution.start name (outer.inClass name)))
      (.descended (.refl _ (Contribution.record name (outer.inClass name))) grow)
    rw [newest]
    exact Reached.entered inside fits leaves below

/-- a map, when its keys and values grow -/
theorem Grows.map {key value : StreamType} (keysGrow : plan.Grows key ctx.mapKeys)
    (valuesGrow : plan.Grows value ctx.mapValues) : plan.Grows (.map key value) ctx := by
  intro field trace c d reads
  cases reads with
  | @map _ _ _ _ _ _ _ _ header keys values before count same allKeys allValues =>
    have fits : Fits plan.length
        (Contribution.map (plan.length (.field (ctx.nodeName ""))) field ctx)
        (Contribution.map header field ctx)
        [{ path := ctx.path, node := .field (ctx.nodeName ""), length := header }] := by
      refine .of_header rfl rfl fun same => ?_
      rw [same]
    let inside (g : Generator) : Generator :=
      ((if keys.length = 0 then g.markIncomplete else g).looping 0 .loopKeeping
        (contributeAll none ctx.mapKeys keys)).looping 1 .loopTaking
          (contributeAll none ctx.mapValues values)
    have leaves : ∀ g : Generator,
        Generator.Keeps g (inside (g.enter (Contribution.map header field ctx))).left :=
      fun g => keeps_contribute (.map header keys values) field ctx g
    rw [node]
    refine Reached.entered inside fits leaves ?_
    cases keys with
    | nil =>
      have none : values = [] := List.length_eq_zero_iff.1 same
      subst none
      refine .nothing _ (fun g => ?_) fun none => by cases none
      show ((g.markIncomplete.looping 0 .loopKeeping fun g => g).looping 1 .loopTaking
        fun g => g).slots = g.slots
      rw [Generator.looping_nothing, Generator.looping_nothing]
      rfl
    | cons first rest =>
      have some_ : values ≠ [] := by
        intro none
        rw [none] at same
        cases same
      exact .loops (keysGrow.items none allKeys (List.cons_ne_nil _ _))
        (valuesGrow.items none allValues some_) (keeps_contributeAll none ctx.mapKeys _)
        (keeps_contributeAll none ctx.mapValues _)

/-- **Reading grows the tree of the type.** -/
theorem grows (regular : plan.registry.Regular) (type : StreamType) (ctx : Context) :
    plan.Grows type ctx := by
  induction type, ctx using plan.registry.walk with
  | primitive | datime | ref =>
    intro field trace c d reads
    cases reads
    rw [node]
    exact .leaf (.refl _ _)
  | time | refArray =>
    intro field trace c d reads
    cases reads
    rw [node]
    refine .leaf (.of_header rfl rfl fun same => ?_)
    rw [same]
  | text kind ctx =>
    intro field trace c d reads
    cases reads with
    | tstring takes =>
      rw [node]
      exact .leaf (.refl _ _)
    | stdString before takes =>
      rw [node]
      refine .leaf (.of_header rfl rfl fun same => ?_)
      rw [same]
  | object ctx =>
    intro field trace c d reads
    cases reads with
    | @head _ _ _ header _ _ at_ =>
      have fits : Fits plan.length
          (Contribution.objectStart (plan.length (.start (ctx.label "TObject" "model"))) field ctx)
          (Contribution.objectStart header field ctx)
          [{ path := ctx.path, node := .start (ctx.label "TObject" "model"), length := header }] := by
        refine .of_header rfl rfl fun same => ?_
        rw [same]
      have leaves (g : Generator) := keeps_contribute (.head header 0 0) field ctx g
      rw [node]
      exact Reached.entered (fun g => (g.add (.mk (Contribution.record "TObject" ctx) [])).2) fits
        leaves (.child (.leaf (.refl _ _)))
  | vector element ctx ih =>
    intro field trace c d reads
    cases reads with
    | @vector _ _ _ _ _ _ header items before count all =>
      have kind := kind_vector element
      have fits : Fits plan.length
          (Contribution.vector element (plan.length (.field (ctx.nodeName ""))) field ctx)
          (Contribution.vector element header field ctx)
          [{ path := ctx.path, node := .field (ctx.nodeName ""), length := header }] := by
        refine .of_header (kind _ _ _) ((kind _ _ _).trans (kind _ _ _).symm) fun same => ?_
        rw [same]
      rw [node]
      exact ih.list none fits all
  | array element count ctx ih =>
    intro field trace c d reads
    cases reads with
    | array length all =>
      rw [node, ← length]
      exact ih.list field (.refl _ _) all
  | map key value ctx keys values => exact .map keys values
  | named name ctx ih => exact .object regular ih

end Plan

end Baskets

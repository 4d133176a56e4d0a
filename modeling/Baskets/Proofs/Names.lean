import Baskets.Proofs.Plan.Kinds
import Baskets.Proofs.Signature

/-!
# Names tell places

The name of a node is a hash value, so two places can have one name.  They can only by a collision
of the hash function: what is hashed is told apart by the path and the role, whatever texts these
are, and nothing else goes into it (`Context.keyBytes_inj`).  The wrappers of an object put the name
of its class in front, and a space between.  The space is the last one in the label, so the class is
found again whatever its name is (`Context.label_inj`).
-/

namespace Baskets

namespace Hash.Form

/-- texts are told apart from others even where their number is not known -/
theorem flatMap_text_inj {texts others : List String}
    (same : texts.flatMap text = others.flatMap text) : texts = others := by
  induction texts generalizing others with
  | nil =>
    cases others with
    | nil => rfl
    | cons other others =>
      have none_ := (List.append_eq_nil_iff.1 same.symm).1
      exact absurd none_ (text_ne_nil other)
  | cons first rest ih =>
    cases others with
    | nil =>
      have none_ := (List.append_eq_nil_iff.1 same).1
      exact absurd none_ (text_ne_nil first)
    | cons other others =>
      rw [List.flatMap_cons, List.flatMap_cons] at same
      obtain ⟨rfl, behind⟩ := tells_text first other same
      rw [ih behind]

end Hash.Form

namespace Context

variable {a b : Context} {role other : String}

/-! ## what is hashed -/

/-- the bytes for a place are the number of its slots, then the slots and the role alike -/
theorem keyBytes_eq (ctx : Context) (role : String) :
    ctx.keyBytes role =
      Hash.Form.size ctx.path.length ++ (ctx.path ++ [role]).flatMap Hash.Form.text := by
  unfold keyBytes Hash.Form.list
  rw [List.flatMap_append, List.flatMap_singleton, List.append_assoc]

theorem keyBytes_inj (same : a.keyBytes role = b.keyBytes other) :
    a.path = b.path ∧ role = other := by
  rw [keyBytes_eq, keyBytes_eq] at same
  have width (n : Nat) : (Hash.Form.size n).length = 8 := Bytes.length_littleOf 8 n
  -- the number of slots has a fixed width, and is not needed to tell where the path ends
  obtain ⟨-, texts⟩ := List.append_inj same (by rw [width, width])
  obtain ⟨path, roles⟩ := List.append_inj' (Hash.Form.flatMap_text_inj texts) rfl
  exact ⟨path, List.singleton_inj.1 roles⟩

theorem keyBytes_congr (path : a.path = b.path) : a.keyBytes role = b.keyBytes role := by
  unfold keyBytes
  rw [path]

/-! ## labels -/

variable {className otherClass : String}

theorem label_inj (same : a.label className role = b.label otherClass other) :
    className = otherClass ∧ a.key role = b.key other := by
  have letters := congrArg String.toList same
  rw [NodeKind.toList_label, NodeKind.toList_label, List.append_assoc, List.append_assoc,
    List.singleton_append, List.singleton_append] at letters
  -- a class may have spaces in its name, but the name of a place has none
  obtain ⟨classes, places⟩ := StreamType.append_last_mark_inj
    (Place.space_notMem_name (a.path, role)) (Place.space_notMem_name (b.path, other)) letters
  have keys : placeKey (a.path, role) = placeKey (b.path, other) :=
    Place.placeKey_eq_of_name_eq (String.toList_inj.1 places)
  exact ⟨String.toList_inj.1 classes, keys⟩

theorem label_congr (class_ : className = otherClass) (key : a.key role = b.key other) :
    a.label className role = b.label otherClass other := by
  unfold label nodeName
  rw [class_, key]

end Context

/-- the nodes around the bases and members of an object, and the role that each is named with -/
inductive Wraps : (className : String) → Context → (role : String) → NodeInfo → Prop where
  | dispatch (className : String) (skipped : Nat) (field : Option String) (ctx : Context) :
    Wraps className ctx "dispatch" (Contribution.dispatch className skipped field ctx)
  | wrongVersion (className : String) (ctx : Context) :
    Wraps className ctx "wrong" (Contribution.wrongVersion className ctx)
  | start (className : String) (ctx : Context) :
    Wraps className ctx "model" (Contribution.start className ctx)
  | base (className : String) (ctx : Context) :
    Wraps className ctx "base" (Contribution.base className ctx)
  | objectStart (skipped : Nat) (field : Option String) (ctx : Context) :
    Wraps "TObject" ctx "model" (Contribution.objectStart skipped field ctx)

theorem Wraps.name {className : String} {ctx : Context} {role : String} {info : NodeInfo}
    (wraps : Wraps className ctx role info) : info.kind.name = ctx.label className role := by
  cases wraps <;> rfl

/-- **Names tell places, but for collisions.**  The same bytes are hashed for two places just when
path and role are the same, whatever else the contexts say; and two labels are the same text just
when they have one class and one key, so that wrappers of any two kinds have one name just when they
are of one class and have one key. -/
theorem Context.names_tell (a b : Context) :
    (∀ role other, a.keyBytes role = b.keyBytes other ↔ a.path = b.path ∧ role = other) ∧
    (∀ className otherClass role other,
      a.label className role = b.label otherClass other ↔
        className = otherClass ∧ a.key role = b.key other) ∧
    ∀ className otherClass role other info info', Wraps className a role info →
      Wraps otherClass b other info' →
        (info.kind.name = info'.kind.name ↔
          className = otherClass ∧ a.key role = b.key other) := by
  have labels (className otherClass role other : String) :
      a.label className role = b.label otherClass other ↔
        className = otherClass ∧ a.key role = b.key other :=
    ⟨Context.label_inj, fun ⟨class_, key⟩ => Context.label_congr class_ key⟩
  refine ⟨fun role other => ⟨Context.keyBytes_inj, ?_⟩, labels, ?_⟩
  · rintro ⟨path, rfl⟩
    exact Context.keyBytes_congr path
  · intro className otherClass role other info info' wraps wraps'
    rw [wraps.name, wraps'.name]
    exact labels className otherClass role other

/-- a class whose name ends like a label, and the class whose label that is -/
theorem Context.names_tell_node : ∃ place : Context,
    (Contribution.start "Hit node 7" place).kind.name ≠
      (Contribution.dispatch "Hit" 6 none place).kind.name := by
  let place : Context := { Context.ofOptions {} with path := ["hits 1"] }
  refine ⟨place, fun same => ?_⟩
  have told := ((place.names_tell place).2.2 "Hit node 7" "Hit" "model" "dispatch" _ _
    (.start _ _) (.dispatch _ _ _ _)).1 same
  exact absurd told.1 (by decide)

end Baskets

import Baskets.Proofs.Node.Present
import Baskets.Proofs.Plan

/-!
# Which node hangs below which

A tree whose nodes have kinds of their own says of each kind which one it hangs below, whatever its
nodes hold and in whatever order they come.  `Node.links` lists what it says, and a `Lineage` is a
list of this sort by itself: each kind has one parent, and the root has none.
-/

namespace Baskets

namespace Node

mutual

/-- the kinds of a tree, each with the kind that it hangs below -/
def links (host : NodeKind) : Node → List (NodeKind × NodeKind)
  | .mk info children => (host, info.kind) :: linksAll info.kind children

def linksAll (host : NodeKind) : List Node → List (NodeKind × NodeKind)
  | [] => []
  | node :: nodes => node.links host ++ linksAll host nodes

end

mutual

theorem map_snd_links (host : NodeKind) : (node : Node) → (node.links host).map Prod.snd = node.kinds
  | .mk info children => congrArg (info.kind :: ·) (map_snd_linksAll info.kind children)

theorem map_snd_linksAll (host : NodeKind) : (nodes : List Node) →
    (linksAll host nodes).map Prod.snd = kindsAll nodes
  | [] => rfl
  | node :: nodes => by
    show (node.links host ++ linksAll host nodes).map Prod.snd = node.kinds ++ kindsAll nodes
    rw [List.map_append, map_snd_links host node, map_snd_linksAll host nodes]

end

@[simp] theorem linksAll_append (host : NodeKind) (nodes others : List Node) :
    linksAll host (nodes ++ others) = linksAll host nodes ++ linksAll host others := by
  induction nodes with
  | nil => rfl
  | cons node nodes ih =>
    show node.links host ++ linksAll host (nodes ++ others) = (node.links host ++ _) ++ _
    rw [ih, List.append_assoc]

theorem link_mem_links (host : NodeKind) (node : Node) : (host, node.kind) ∈ node.links host := by
  cases node with
  | mk info children => exact List.mem_cons_self

@[simp] theorem links_looped (host : NodeKind) (start : Instruction) (node : Node) :
    (node.looped start).links host = node.links host := by
  cases node with
  | mk info children => rfl

mutual

/-- no kind hangs below itself -/
theorem links_ne {host : NodeKind} : (node : Node) → (host :: node.kinds).Nodup →
    ∀ link ∈ node.links host, link.1 ≠ link.2
  | .mk info children, once => by
    obtain ⟨outside, inner⟩ := List.nodup_cons.1 once
    intro link mem
    rcases List.mem_cons.1 mem with rfl | mem
    · exact fun same => outside (List.mem_cons.2 (.inl same))
    · exact linksAll_ne children inner link mem

theorem linksAll_ne {host : NodeKind} : (nodes : List Node) → (host :: kindsAll nodes).Nodup →
    ∀ link ∈ linksAll host nodes, link.1 ≠ link.2
  | [], _ => fun _ mem => absurd mem List.not_mem_nil
  | node :: nodes, once => by
    obtain ⟨outside, inner⟩ := List.nodup_cons.1 once
    obtain ⟨first, rest, -⟩ := List.nodup_append.1 inner
    intro link mem
    rcases List.mem_append.1 mem with mem | mem
    · refine links_ne node (List.nodup_cons.2 ⟨fun mem => ?_, first⟩) link mem
      exact outside (List.mem_append_left _ mem)
    · refine linksAll_ne nodes (List.nodup_cons.2 ⟨fun mem => ?_, rest⟩) link mem
      exact outside (List.mem_append_right _ mem)

end

end Node

/-- of each kind the one that it hangs below; the root hangs below none -/
structure Lineage where
  links : List (NodeKind × NodeKind)
  once : (links.map Prod.snd).Nodup
  root : .top ∉ links.map Prod.snd
  differs : ∀ link ∈ links, link.1 ≠ link.2

namespace Lineage

variable {lineage : Lineage} {host other kind : NodeKind}

/-- the parent of a kind is told by the kind -/
theorem host_eq (first : (host, kind) ∈ lineage.links) (second : (other, kind) ∈ lineage.links) :
    host = other :=
  (Prod.mk.inj (List.inj_on_of_nodup_map lineage.once first second rfl)).1

theorem ne_top (link : (host, kind) ∈ lineage.links) : kind ≠ .top :=
  fun same => lineage.root (same ▸ List.mem_map_of_mem link)

/-- what the tree below the root says, if its nodes have kinds of their own -/
def ofNode (node : Node) (once : (.top :: node.kinds).Nodup) : Lineage where
  links := node.links .top
  once := by
    rw [Node.map_snd_links]
    exact (List.nodup_cons.1 once).2
  root := by
    rw [Node.map_snd_links]
    exact (List.nodup_cons.1 once).1
  differs := Node.links_ne node once

end Lineage

end Baskets

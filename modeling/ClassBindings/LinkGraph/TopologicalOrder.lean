import ClassBindings.LinkGraph

/-! # Topological orders

`topologicalOrder` lists the nodes of a graph so that each link leads from an earlier node to a
later one, or names a node at which that is impossible.

A depth-first search (`finish`) lists each node once everything that can be reached from it is
listed; read from the last node to the first, that is the order wanted if there is one.  The search
itself notices only links from a node to itself.  Any other cycle shows in the list as a node that
comes before one of its predecessors (`firstMisplaced?`). -/
namespace ClassBindings.LinkGraph

/-- A node has at most as many successors as there are links, so a visit adds that many to a
stack. -/
theorem length_filter_successors_le (g : LinkGraph) (node : Nat) (p : Nat → Bool) :
    ((g.successors node).filter p).length ≤ g.links.length := by
  refine Nat.le_trans (List.length_filter_le _ _) ?_
  rw [successors, List.length_map]
  exact List.length_filter_le _ _

/-- Lists nodes in the reverse of the order in which the search is done with them.  `unvisited` are
the nodes not yet met, `finished` those done with, and the stack holds what is still to look at,
next first: a node met for the first time stays on the stack below its successors, and is done with
when it is on top again.  A node with a link to itself ends the search. -/
def finish (g : LinkGraph) (unvisited finished : List Nat) : (stack : List Nat) →
    Except Nat (List Nat)
  | [] => .ok finished
  | node :: stack =>
    if _h : node ∈ unvisited then
      if node ∈ g.successors node then .error node
      else
        let unvisited' := unvisited.erase node
        g.finish unvisited' finished
          ((g.successors node).filter (· ∈ unvisited') ++ node :: stack)
    else g.finish unvisited (if node ∈ finished then finished else node :: finished) stack
termination_by stack => unvisited.length * (g.links.length + 1) + stack.length
decreasing_by
  · have hfew := length_filter_successors_le g node (· ∈ unvisited.erase node)
    have hpos := List.length_pos_of_mem _h
    obtain ⟨rest, hrest⟩ := Nat.exists_eq_add_of_lt hpos
    have herase := List.length_erase_of_mem _h
    simp only [hrest, Nat.zero_add, Nat.add_sub_cancel] at herase ⊢
    rw [herase, Nat.succ_mul, List.length_append, List.length_cons]
    omega
  · rw [List.length_cons]
    omega

/-- For the first node of the list with a predecessor neither before it nor in `before`, the oldest
such predecessor. -/
def firstMisplaced? (g : LinkGraph) (before : List Nat) : (order : List Nat) → Option Nat
  | [] => none
  | node :: rest =>
    match (g.predecessors node).find? (· ∉ node :: before) with
    | some predecessor => some predecessor
    | none => g.firstMisplaced? (node :: before) rest

/-- The nodes, each after its predecessors, or a node on account of which there is no such order. -/
def topologicalOrder (g : LinkGraph) : Except Nat (List Nat) := do
  let order ← g.finish g.nodes [] g.nodes
  match g.firstMisplaced? [] order with
  | some node => .error node
  | none => .ok order

end ClassBindings.LinkGraph

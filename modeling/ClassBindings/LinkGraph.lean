/-! # Graphs of links

A `LinkGraph` is a number of nodes and a list of links between them, in the order in which they were
made.  That order decides between the orders in which nodes can be listed, so it is kept. -/
namespace ClassBindings

/-- A directed graph on the first `size` numbers. -/
structure LinkGraph where
  size : Nat
  /-- Source and target of each link, oldest first. -/
  links : List (Nat × Nat)

namespace LinkGraph

/-- The nodes. -/
def nodes (g : LinkGraph) : List Nat := List.range g.size

/-- Where the links from a node lead, oldest first. -/
def successors (g : LinkGraph) (node : Nat) : List Nat :=
  (g.links.filter (·.1 = node)).map (·.2)

/-- Where the links to a node come from, oldest first. -/
def predecessors (g : LinkGraph) (node : Nat) : List Nat :=
  (g.links.filter (·.2 = node)).map (·.1)

theorem mem_successors {g : LinkGraph} {a b : Nat} : b ∈ g.successors a ↔ (a, b) ∈ g.links := by
  simp [successors]

theorem mem_predecessors {g : LinkGraph} {a b : Nat} : a ∈ g.predecessors b ↔ (a, b) ∈ g.links := by
  simp [predecessors]

end LinkGraph

end ClassBindings

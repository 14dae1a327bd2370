import ClassBindings.LinkGraph.TopologicalOrder
import Mathlib.Data.List.Perm.Basic
import Mathlib.Logic.Relation

/-! # Finish orders are topological

`topologicalOrder` is correct on every graph whose links stay among its nodes.  Where it lists the
nodes, it lists each once and after its predecessors (`topologicalOrder_ok`); where it names a node
instead, that node lies on a cycle (`topologicalOrder_error`).  So it lists the nodes of every graph
without cycles (`topologicalOrder_of_acyclic`), and of no other (`topologicalOrder_ok_iff`).

The search is between visiting a node and closing it while the node is `Open`: it lies on the stack,
above it only what it reaches, and each of its successors is done with, or lies above it, or reaches
it in turn.  Without the last case the search would be right on acyclic graphs only; with it the
same invariant (`Search`) carries both results. -/
namespace ClassBindings.LinkGraph

variable {g : LinkGraph}

/-- There is a link from `a` to `b`. -/
def Link (g : LinkGraph) (a b : Nat) : Prop := (a, b) ∈ g.links

/-- Links, at least one, lead from `a` to `b`. -/
def Reaches (g : LinkGraph) : Nat → Nat → Prop := Relation.TransGen g.Link

/-- Links lead from nodes to nodes. -/
def InRange (g : LinkGraph) : Prop := ∀ a b, g.Link a b → a < g.size ∧ b < g.size

/-- The list has every node once, each after its predecessors. -/
structure Topological (g : LinkGraph) (order : List Nat) : Prop where
  perm : order.Perm g.nodes
  link : ∀ done v rest, order = done ++ v :: rest → ∀ a, g.Link a v → a ∈ done

/-- Read from the last finished node to the first: each has its successors behind it, except those
that reach it. -/
def Settled (g : LinkGraph) : (finished : List Nat) → Prop
  | [] => True
  | v :: rest => ¬g.Link v v ∧ (∀ w, g.Link v w → w ∈ rest ∨ g.Reaches w v) ∧ g.Settled rest

/-- The search has visited the node and is not done with it. -/
def Open (g : LinkGraph) (finished stack : List Nat) (v : Nat) : Prop :=
  ∃ above below, stack = above ++ v :: below ∧ v ∉ above ∧ ¬g.Link v v ∧
    (∀ w ∈ above, g.Reaches v w) ∧
    ∀ w, g.Link v w → w ∈ finished ∨ w ∈ above ∨ g.Reaches w v

/-- What holds at each point of the search. -/
structure Search (g : LinkGraph) (unvisited finished stack : List Nat) : Prop where
  unvisited_nodup : unvisited.Nodup
  finished_nodup : finished.Nodup
  finished_visited : ∀ v ∈ finished, v ∉ unvisited
  finished_lt : ∀ v ∈ finished, v < g.size
  stack_lt : ∀ v ∈ stack, v < g.size
  /-- What has not been visited is still to be looked at. -/
  unvisited_stack : ∀ v ∈ unvisited, v ∈ stack
  settled : g.Settled finished
  opened : ∀ v < g.size, v ∉ unvisited → v ∉ finished → g.Open finished stack v

/-! ## Steps of the search -/

theorem search_start (g : LinkGraph) : g.Search g.nodes [] g.nodes where
  unvisited_nodup := List.nodup_range
  finished_nodup := List.nodup_nil
  finished_visited _ hv := by cases hv
  finished_lt _ hv := by cases hv
  stack_lt _ hv := List.mem_range.1 hv
  unvisited_stack _ hv := hv
  settled := trivial
  opened _ hlt hv := absurd (List.mem_range.2 hlt) hv

variable {unvisited finished stack : List Nat} {node v : Nat}

/-- A node below the top of the stack has the top above it. -/
theorem Open.top_above (h : g.Open finished (node :: stack) v) (hne : v ≠ node) :
    ∃ above below, stack = above ++ v :: below ∧ v ∉ above ∧ ¬g.Link v v ∧ g.Reaches v node ∧
      (∀ w ∈ above, g.Reaches v w) ∧
      ∀ w, g.Link v w → w ∈ finished ∨ w = node ∨ w ∈ above ∨ g.Reaches w v := by
  obtain ⟨above, below, hstack, hnot, hself, hreach, hlinks⟩ := h
  cases above with
  | nil =>
    rw [List.nil_append, List.cons.injEq] at hstack
    exact absurd hstack.1.symm hne
  | cons top above =>
    rw [List.cons_append, List.cons.injEq] at hstack
    obtain ⟨rfl, hstack⟩ := hstack
    refine ⟨above, below, hstack, fun hv => hnot (List.mem_cons_of_mem _ hv), hself,
      hreach _ List.mem_cons_self, fun w hw => hreach w (List.mem_cons_of_mem _ hw), fun w hw => ?_⟩
    rcases hlinks w hw with hw | hw | hw
    · exact Or.inl hw
    · rcases List.mem_cons.1 hw with hw | hw
      · exact Or.inr (Or.inl hw)
      · exact Or.inr (Or.inr (Or.inl hw))
    · exact Or.inr (Or.inr (Or.inr hw))

/-- An open node on top of the stack has no successor left to look at. -/
theorem Open.of_top (h : g.Open finished (v :: stack) v) :
    ¬g.Link v v ∧ ∀ w, g.Link v w → w ∈ finished ∨ g.Reaches w v := by
  obtain ⟨above, below, hstack, hnot, hself, _, hlinks⟩ := h
  cases above with
  | nil =>
    refine ⟨hself, fun w hw => ?_⟩
    rcases hlinks w hw with hw | hw | hw
    · exact Or.inl hw
    · cases hw
    · exact Or.inr hw
  | cons top above =>
    rw [List.cons_append, List.cons.injEq] at hstack
    exact absurd (hstack.1 ▸ List.mem_cons_self) hnot

/-- An open node stays open when successors of the top are pushed above it. -/
theorem Open.push (h : g.Open finished (node :: stack) v) (hne : v ≠ node) {pushed : List Nat}
    (hpushed : ∀ w ∈ pushed, g.Link node w) (hv : v ∉ pushed) :
    g.Open finished (pushed ++ node :: stack) v := by
  obtain ⟨above, below, hstack, hnot, hself, htop, hreach, hlinks⟩ := h.top_above hne
  refine ⟨pushed ++ node :: above, below, ?_, ?_, hself, ?_, ?_⟩
  · rw [hstack, List.append_assoc, List.cons_append]
  · intro hmem
    rcases List.mem_append.1 hmem with hmem | hmem
    · exact hv hmem
    · rcases List.mem_cons.1 hmem with hmem | hmem
      · exact hne hmem
      · exact hnot hmem
  · intro w hw
    rcases List.mem_append.1 hw with hw | hw
    · exact Relation.TransGen.tail htop (hpushed w hw)
    · rcases List.mem_cons.1 hw with rfl | hw
      · exact htop
      · exact hreach w hw
  · intro w hw
    rcases hlinks w hw with hw | rfl | hw | hw
    · exact Or.inl hw
    · exact Or.inr (Or.inl (List.mem_append_right _ List.mem_cons_self))
    · exact Or.inr (Or.inl (List.mem_append_right _ (List.mem_cons_of_mem _ hw)))
    · exact Or.inr (Or.inr hw)

/-- An open node stays open when the top is taken off, which is then done with. -/
theorem Open.pop (h : g.Open finished (node :: stack) v) (hne : v ≠ node) {finished' : List Nat}
    (hsub : ∀ w ∈ finished, w ∈ finished') (hnode : node ∈ finished') :
    g.Open finished' stack v := by
  obtain ⟨above, below, hstack, hnot, hself, _, hreach, hlinks⟩ := h.top_above hne
  refine ⟨above, below, hstack, hnot, hself, hreach, fun w hw => ?_⟩
  rcases hlinks w hw with hw | rfl | hw
  · exact Or.inl (hsub w hw)
  · exact Or.inl hnode
  · exact Or.inr hw

/-- The successors of a node that have not been visited. -/
def fresh (g : LinkGraph) (unvisited : List Nat) (node : Nat) : List Nat :=
  (g.successors node).filter (· ∈ unvisited)

theorem mem_fresh {w : Nat} : w ∈ g.fresh unvisited node ↔ g.Link node w ∧ w ∈ unvisited := by
  rw [fresh, List.mem_filter, mem_successors, decide_eq_true_eq]
  rfl

/-- A node that has just been visited is open: a successor that is open already lies below it and
reaches it. -/
theorem Search.open_visited (hg : g.InRange) (h : g.Search unvisited finished (node :: stack))
    (hself : ¬g.Link node node) :
    g.Open finished (g.fresh (unvisited.erase node) node ++ node :: stack) node := by
  refine ⟨_, stack, rfl, fun hmem => ?_, hself, fun w hw => .single (mem_fresh.1 hw).1,
    fun w hw => ?_⟩
  · exact (h.unvisited_nodup.mem_erase_iff.1 (mem_fresh.1 hmem).2).1 rfl
  · have hne : w ≠ node := fun he => hself (he ▸ hw)
    by_cases hwu : w ∈ unvisited
    · exact Or.inr (Or.inl (mem_fresh.2 ⟨hw, h.unvisited_nodup.mem_erase_iff.2 ⟨hne, hwu⟩⟩))
    · by_cases hwf : w ∈ finished
      · exact Or.inl hwf
      · -- The successor is open, so it lies below the node on the stack.
        have hwo := h.opened w (hg _ _ hw).2 hwu hwf
        obtain ⟨_, _, _, _, _, hreach, _⟩ := hwo.top_above hne
        exact Or.inr (Or.inr hreach)

/-- **A node met for the first time** becomes open, below its unvisited successors. -/
theorem Search.visit (hg : g.InRange) (h : g.Search unvisited finished (node :: stack))
    (hself : ¬g.Link node node) :
    g.Search (unvisited.erase node) finished
      (g.fresh (unvisited.erase node) node ++ node :: stack) where
  unvisited_nodup := h.unvisited_nodup.erase node
  finished_nodup := h.finished_nodup
  finished_visited v hv hmem := h.finished_visited v hv (List.mem_of_mem_erase hmem)
  finished_lt := h.finished_lt
  stack_lt v hv := by
    rcases List.mem_append.1 hv with hv | hv
    · exact (hg _ _ (mem_fresh.1 hv).1).2
    · exact h.stack_lt v hv
  unvisited_stack v hv :=
    List.mem_append_right _ (h.unvisited_stack v (List.mem_of_mem_erase hv))
  settled := h.settled
  opened v hlt hv hfin := by
    by_cases hne : v = node
    · subst hne
      exact h.open_visited hg hself
    · have hvu : v ∉ unvisited := fun hmem => hv (h.unvisited_nodup.mem_erase_iff.2 ⟨hne, hmem⟩)
      exact (h.opened v hlt hvu hfin).push hne (fun w hw => (mem_fresh.1 hw).1)
        fun hmem => hv (mem_fresh.1 hmem).2

/-- What is taken off the stack was visited, so nothing unvisited is lost. -/
theorem Search.unvisited_of_pop (h : g.Search unvisited finished (node :: stack))
    (hnode : node ∉ unvisited) (hv : v ∈ unvisited) : v ∈ stack := by
  rcases List.mem_cons.1 (h.unvisited_stack v hv) with rfl | hmem
  · exact absurd hv hnode
  · exact hmem

/-- **A node met again after it was closed** is passed over. -/
theorem Search.skip (h : g.Search unvisited finished (node :: stack)) (hnode : node ∈ finished) :
    g.Search unvisited finished stack where
  unvisited_nodup := h.unvisited_nodup
  finished_nodup := h.finished_nodup
  finished_visited := h.finished_visited
  finished_lt := h.finished_lt
  stack_lt v hv := h.stack_lt v (List.mem_cons_of_mem _ hv)
  unvisited_stack _ hv := h.unvisited_of_pop (h.finished_visited node hnode) hv
  settled := h.settled
  opened v hlt hv hfin :=
    (h.opened v hlt hv hfin).pop (fun he => hfin (he ▸ hnode)) (fun _ hw => hw) hnode

/-- **An open node met again** is closed: all its successors are done with or reach it. -/
theorem Search.close (h : g.Search unvisited finished (node :: stack)) (hnode : node ∉ unvisited)
    (hopen : node ∉ finished) : g.Search unvisited (node :: finished) stack where
  unvisited_nodup := h.unvisited_nodup
  finished_nodup := List.nodup_cons.2 ⟨hopen, h.finished_nodup⟩
  finished_visited v hv := by
    rcases List.mem_cons.1 hv with rfl | hv
    · exact hnode
    · exact h.finished_visited v hv
  finished_lt v hv := by
    rcases List.mem_cons.1 hv with rfl | hv
    · exact h.stack_lt v List.mem_cons_self
    · exact h.finished_lt v hv
  stack_lt v hv := h.stack_lt v (List.mem_cons_of_mem _ hv)
  unvisited_stack _ hv := h.unvisited_of_pop hnode hv
  settled :=
    have htop := (h.opened node (h.stack_lt node List.mem_cons_self) hnode hopen).of_top
    ⟨htop.1, htop.2, h.settled⟩
  opened v hlt hv hfin :=
    (h.opened v hlt hv fun hmem => hfin (List.mem_cons_of_mem _ hmem)).pop
      (fun he => hfin (he ▸ List.mem_cons_self)) (fun _ hw => List.mem_cons_of_mem _ hw)
      List.mem_cons_self

/-! ## The whole search -/

/-- A search that comes to an end has closed every node. -/
theorem finish_ok (hg : g.InRange) {order : List Nat} (h : g.Search unvisited finished stack)
    (hok : g.finish unvisited finished stack = .ok order) : g.Search [] order [] := by
  induction unvisited, finished, stack using finish.induct g with
  | case1 unvisited finished =>
    -- The stack is empty, and all that is unvisited would be on it.
    rw [finish] at hok
    cases hok
    have hnil : unvisited = [] := List.eq_nil_iff_forall_not_mem.2 fun v hv => by
      cases h.unvisited_stack v hv
    exact hnil ▸ h
  | case2 unvisited finished node stack hnode hself =>
    rw [finish, dif_pos hnode, if_pos hself] at hok
    cases hok
  | case3 unvisited finished node stack hnode hself unvisited' ih =>
    rw [finish, dif_pos hnode, if_neg hself] at hok
    exact ih (h.visit hg fun hlink => hself (mem_successors.2 hlink)) hok
  | case4 unvisited finished node stack hnode ih =>
    rw [finish, dif_neg hnode] at hok
    refine ih ?_ hok
    split
    · exact h.skip ‹_›
    · exact h.close hnode ‹_›

/-- A search that gives up has met a node with a link to itself. -/
theorem finish_error (hok : g.finish unvisited finished stack = .error v) : g.Link v v := by
  induction unvisited, finished, stack using finish.induct g with
  | case1 unvisited finished =>
    rw [finish] at hok
    cases hok
  | case2 unvisited finished node stack hnode hself =>
    rw [finish, dif_pos hnode, if_pos hself] at hok
    cases hok
    exact mem_successors.1 hself
  | case3 unvisited finished node stack hnode hself unvisited' ih =>
    rw [finish, dif_pos hnode, if_neg hself] at hok
    exact ih hok
  | case4 unvisited finished node stack hnode ih =>
    rw [finish, dif_neg hnode] at hok
    exact ih hok

/-! ## The order -/

theorem Settled.of_split {done rest : List Nat} (h : g.Settled (done ++ v :: rest)) :
    ¬g.Link v v ∧ ∀ w, g.Link v w → w ∈ rest ∨ g.Reaches w v := by
  induction done with
  | nil => exact ⟨h.1, h.2.1⟩
  | cons first done ih => exact ih h.2.2

/-- A finished search lists the nodes. -/
theorem Search.perm (h : g.Search [] finished []) : finished.Perm g.nodes := by
  refine (List.perm_ext_iff_of_nodup h.finished_nodup List.nodup_range).2 fun v => ?_
  refine ⟨fun hv => List.mem_range.2 (h.finished_lt v hv), fun hv => ?_⟩
  by_contra hfin
  obtain ⟨above, below, hstack, _⟩ := h.opened v (List.mem_range.1 hv) List.not_mem_nil hfin
  simp at hstack

/-- Nothing is misplaced where each node has its predecessors before it. -/
theorem firstMisplaced?_eq_none {before order : List Nat}
    (h : g.firstMisplaced? before order = none) {done rest : List Nat}
    (horder : order = done ++ v :: rest) {a : Nat} (ha : g.Link a v) :
    a ∈ done ∨ a = v ∨ a ∈ before := by
  induction order generalizing before done with
  | nil => simp at horder
  | cons first order ih =>
    rw [firstMisplaced?] at h
    split at h
    · cases h
    · rename_i hnone
      cases done with
      | nil =>
        rw [List.nil_append, List.cons.injEq] at horder
        obtain ⟨rfl, _⟩ := horder
        have hmem := List.find?_eq_none.1 hnone a (mem_predecessors.2 ha)
        rw [decide_eq_true_eq, not_not] at hmem
        exact Or.inr (List.mem_cons.1 hmem)
      | cons top done =>
        rw [List.cons_append, List.cons.injEq] at horder
        obtain ⟨rfl, horder⟩ := horder
        rcases ih h horder with hdone | heq | hbefore
        · exact Or.inl (List.mem_cons_of_mem _ hdone)
        · exact Or.inr (Or.inl heq)
        · rcases List.mem_cons.1 hbefore with rfl | hbefore
          · exact Or.inl List.mem_cons_self
          · exact Or.inr (Or.inr hbefore)

/-- The node named is a predecessor that comes after its successor. -/
theorem firstMisplaced?_eq_some {before order : List Nat} {a : Nat}
    (h : g.firstMisplaced? before order = some a) :
    ∃ done v rest, order = done ++ v :: rest ∧ g.Link a v ∧ a ∉ done ∧ a ≠ v ∧ a ∉ before := by
  induction order generalizing before with
  | nil =>
    rw [firstMisplaced?] at h
    cases h
  | cons first order ih =>
    rw [firstMisplaced?] at h
    split at h
    · rename_i a' hfind
      cases h
      have hnot : a ∉ first :: before := by simpa using List.find?_some hfind
      have hlink := mem_predecessors.1 (List.mem_of_find?_eq_some hfind)
      exact ⟨[], first, order, rfl, hlink, List.not_mem_nil,
        fun he => hnot (he ▸ List.mem_cons_self), fun hb => hnot (List.mem_cons_of_mem _ hb)⟩
    · obtain ⟨done, v, rest, rfl, hlink, hdone, hne, hbefore⟩ := ih h
      refine ⟨first :: done, v, rest, rfl, hlink, fun hmem => ?_, hne,
        fun hb => hbefore (List.mem_cons_of_mem _ hb)⟩
      rcases List.mem_cons.1 hmem with rfl | hmem
      · exact hbefore List.mem_cons_self
      · exact hdone hmem

/-- **The order is topological** where there is one. -/
theorem topologicalOrder_ok (hg : g.InRange) {order : List Nat}
    (h : g.topologicalOrder = .ok order) : g.Topological order := by
  rw [topologicalOrder] at h
  cases hfinish : g.finish g.nodes [] g.nodes with
  | error node =>
    rw [hfinish] at h
    cases h
  | ok order' =>
    rw [hfinish] at h
    have hsearch := finish_ok hg (search_start g) hfinish
    cases hmisplaced : g.firstMisplaced? [] order' with
    | some node => simp [hmisplaced, bind, Except.bind] at h
    | none =>
      simp only [bind, Except.bind, hmisplaced, Except.ok.injEq] at h
      subst h
      refine ⟨hsearch.perm, fun done v rest horder a ha => ?_⟩
      rcases firstMisplaced?_eq_none hmisplaced horder ha with hdone | rfl | hnil
      · exact hdone
      · exact absurd ha (horder ▸ hsearch.settled).of_split.1
      · cases hnil

/-- **The node named lies on a cycle** where there is no order.  It precedes a node that the search
closed later; by the invariant that node reaches it. -/
theorem topologicalOrder_error (hg : g.InRange) (h : g.topologicalOrder = .error v) :
    g.Reaches v v := by
  rw [topologicalOrder] at h
  cases hfinish : g.finish g.nodes [] g.nodes with
  | error node =>
    rw [hfinish] at h
    cases h
    exact .single (finish_error hfinish)
  | ok order =>
    rw [hfinish] at h
    have hsearch := finish_ok hg (search_start g) hfinish
    cases hmisplaced : g.firstMisplaced? [] order with
    | none => simp [hmisplaced, bind, Except.bind] at h
    | some node =>
      simp only [bind, Except.bind, hmisplaced, Except.error.injEq] at h
      subst h
      -- The node comes behind its successor `w`, though links should lead forward.
      obtain ⟨done, w, rest, rfl, hlink, hdone, hne, _⟩ := firstMisplaced?_eq_some hmisplaced
      have hmem : node ∈ done ++ w :: rest :=
        hsearch.perm.mem_iff.2 (List.mem_range.2 (hg _ _ hlink).1)
      have hrest : node ∈ rest := by
        rcases List.mem_append.1 hmem with hmem | hmem
        · exact absurd hmem hdone
        · exact (List.mem_cons.1 hmem).resolve_left hne
      obtain ⟨between, after, rfl⟩ := List.append_of_mem hrest
      have hsettled : g.Settled ((done ++ w :: between) ++ node :: after) := by
        rw [List.append_assoc, List.cons_append]
        exact hsearch.settled
      rcases hsettled.of_split.2 w hlink with hafter | hreach
      · have hnodup := (List.nodup_append.1 hsearch.finished_nodup).2.1
        exact absurd (List.mem_append_right _ (List.mem_cons_of_mem _ hafter))
          (List.nodup_cons.1 hnodup).1
      · exact Relation.TransGen.head hlink hreach

/-- **A graph without cycles has a topological order, and it is found.** -/
theorem topologicalOrder_of_acyclic (hg : g.InRange) (hacyclic : ∀ v, ¬g.Reaches v v) :
    ∃ order, g.topologicalOrder = .ok order ∧ g.Topological order := by
  cases h : g.topologicalOrder with
  | error v => exact absurd (topologicalOrder_error hg h) (hacyclic v)
  | ok order => exact ⟨order, rfl, topologicalOrder_ok hg h⟩

/-! ## Cycles -/

/-- In a topological order all that reaches a node comes before it. -/
theorem Topological.mem_of_reaches {order done rest : List Nat} {a b : Nat}
    (h : g.Topological order) (hab : g.Reaches a b) (horder : order = done ++ b :: rest) :
    a ∈ done := by
  induction hab generalizing done rest with
  | single hlink => exact h.link done _ rest horder a hlink
  | tail _ hlink ih =>
    obtain ⟨before, after, rfl⟩ := List.append_of_mem (h.link done _ rest horder _ hlink)
    rw [List.append_assoc, List.cons_append] at horder
    exact List.mem_append_left _ (ih horder)

/-- A graph that has a topological order has no cycle: a node on one would come before itself. -/
theorem Topological.acyclic {order : List Nat} (hg : g.InRange) (h : g.Topological order) (v : Nat) :
    ¬g.Reaches v v := by
  intro hv
  obtain ⟨w, hlink, _⟩ := Relation.TransGen.head'_iff.1 hv
  have hmem : v ∈ order := h.perm.mem_iff.2 (List.mem_range.2 (hg _ _ hlink).1)
  obtain ⟨done, rest, horder⟩ := List.append_of_mem hmem
  have hnodup : (done ++ v :: rest).Nodup := horder ▸ h.perm.nodup_iff.2 List.nodup_range
  exact (List.nodup_append.1 hnodup).2.2 v (h.mem_of_reaches hv horder) v List.mem_cons_self rfl

/-- **A graph has its nodes listed exactly if it has no cycle.** -/
theorem topologicalOrder_ok_iff (hg : g.InRange) :
    (∃ order, g.topologicalOrder = .ok order) ↔ ∀ v, ¬g.Reaches v v := by
  constructor
  · rintro ⟨order, horder⟩
    exact (topologicalOrder_ok hg horder).acyclic hg
  · intro hacyclic
    obtain ⟨order, horder, _⟩ := topologicalOrder_of_acyclic hg hacyclic
    exact ⟨order, horder⟩

end ClassBindings.LinkGraph

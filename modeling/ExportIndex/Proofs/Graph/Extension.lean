import ExportIndex.Proofs.Graph.Components

/-!
# Graphs with further nodes

A larger graph may begin with a graph, its further nodes coming later and the first nodes having no
edges to them. A search enters the first nodes first and does not leave them until all are done, so
that their components come first in the larger graph too, each with its nodes in the same order.
-/

namespace ExportIndex.Graph

open Relation

variable {α : Type u} {g larger : Graph α}

/-- A larger graph begins with the nodes of a graph, and these have the same neighbours there. -/
structure Begins (g larger : Graph α) : Prop where
  nodes : g.nodes <+: larger.nodes
  neighbours : ∀ node ∈ g.nodes, larger.neighbours node = g.neighbours node

theorem Begins.leads_iff (h : g.Begins larger) (hclosed : g.Closed) {node target : α}
    (hnode : node ∈ g.nodes) : larger.Leads node target ↔ g.Leads node target := by
  constructor
  · intro hleads
    induction hleads with
    | refl => exact .refl
    | tail _ hnext ih =>
        rw [h.neighbours _ (ih.mem_nodes hclosed hnode)] at hnext
        exact ih.tail hnext
  · intro hleads
    induction hleads with
    | refl => exact .refl
    | tail hmiddle hnext ih =>
        rw [← h.neighbours _ (Leads.mem_nodes hclosed hmiddle hnode)] at hnext
        exact ih.tail hnext

theorem Begins.mutual_iff (h : g.Begins larger) (hclosed : g.Closed) {node other : α}
    (hnode : node ∈ g.nodes) (hother : other ∈ g.nodes) :
    larger.Mutual node other ↔ g.Mutual node other :=
  and_congr (h.leads_iff hclosed hnode) (h.leads_iff hclosed hother)

namespace Search

/-- A search went on: it keeps what it entered, and leaves more nodes after those that it left. -/
structure Later (s next : Search α) : Prop where
  entered : ∀ node ∈ s.entered, node ∈ next.entered
  finished : s.finished <+: next.finished

theorem Later.refl (s : Search α) : Later s s := ⟨fun _ h => h, List.prefix_rfl⟩

theorem Later.trans {s middle next : Search α} (h : Later s middle) (h' : Later middle next) :
    Later s next :=
  ⟨fun node hnode => h'.entered node (h.entered node hnode), h.finished.trans h'.finished⟩

theorem later_foldl {visit : Search α → α → Search α} (hvisit : ∀ s node, Later s (visit s node))
    (starts : List α) (s : Search α) : Later s (starts.foldl visit s) := by
  induction starts generalizing s with
  | nil => exact .refl s
  | cons node rest ih => exact (hvisit s node).trans (ih _)

variable [DecidableEq α]

theorem later_visit (g : Graph α) (depth : Nat) (s : Search α) (node : α) :
    Later s (g.visit depth s node) := by
  induction depth generalizing s node with
  | zero => exact .refl s
  | succ depth ih =>
      rw [visit]
      split
      next => exact .refl s
      next =>
        have hbelow := later_foldl ih (g.neighbours node) (s.enter node)
        exact ⟨fun other hother => hbelow.entered other (List.mem_cons_of_mem _ hother),
          hbelow.finished.trans (List.prefix_append _ _)⟩

/-- Two ways of visiting that agree while there is little room agree along a list of starts. -/
theorem foldl_eq {visit visit' : Search α → α → Search α} {limit : Nat}
    (hlater : ∀ s node, Later s (visit s node))
    (hsame : ∀ s, ∀ node ∈ g.nodes, room g s < limit → visit' s node = visit s node)
    {starts : List α} (hstarts : ∀ node ∈ starts, node ∈ g.nodes) {s : Search α}
    (hroom : room g s < limit) : starts.foldl visit' s = starts.foldl visit s := by
  induction starts generalizing s with
  | nil => rfl
  | cons node rest ih =>
      have hnext := room_le_of_entered (g := g) (hlater s node).entered
      rw [List.foldl_cons, List.foldl_cons, hsame s node (hstarts node List.mem_cons_self) hroom]
      exact ih (fun other hother => hstarts other (List.mem_cons_of_mem _ hother)) (by omega)

/-- A visit of a first node is the same in both graphs, however many levels it may go down beyond the
number of nodes that are left to enter. -/
theorem visit_eq (h : g.Begins larger) (hclosed : g.Closed) {depth depth' : Nat} {s : Search α}
    {node : α} (hnode : node ∈ g.nodes) (hroom : room g s < depth) (hroom' : room g s < depth') :
    larger.visit depth' s node = g.visit depth s node := by
  -- entering a node uses up one level, and leaves room for one node less
  induction depth generalizing depth' s node with
  | zero => omega
  | succ depth ih =>
      obtain ⟨depth', rfl⟩ : ∃ fewer, depth' = fewer + 1 := ⟨depth' - 1, by omega⟩
      rw [visit, visit, h.neighbours node hnode]
      split
      next => rfl
      next hnew =>
        have henter := room_enter_lt hnode hnew
        have hsame : ∀ s, ∀ node ∈ g.nodes, room g s < min depth depth' →
            larger.visit depth' s node = g.visit depth s node :=
          fun _ _ hnode hroom => ih hnode (by omega) (by omega)
        have hbelow : (g.neighbours node).foldl (larger.visit depth') (s.enter node) =
            (g.neighbours node).foldl (g.visit depth) (s.enter node) :=
          foldl_eq (later_visit g depth) hsame (hclosed node hnode) (by omega)
        exact congrArg (Search.leave · node) hbelow

end Search

variable [DecidableEq α]

section Begins

variable (h : g.Begins larger) (hclosed : g.Closed) (hclosed' : larger.Closed)

include h hclosed hclosed'

/-- The first nodes are left first, in the same order. -/
theorem Begins.exists_finishOrder :
    ∃ rest, larger.finishOrder = g.finishOrder ++ rest ∧ ∀ node ∈ rest, node ∉ g.nodes := by
  obtain ⟨more, hmore⟩ := h.nodes
  have hroom : Search.room g {} < g.nodes.length + 1 := Nat.lt_succ_of_le List.countP_le_length
  have hlength : g.nodes.length ≤ larger.nodes.length := h.nodes.length_le
  have hfirst : g.nodes.foldl (larger.visit (larger.nodes.length + 1)) {} =
      g.nodes.foldl (g.visit (g.nodes.length + 1)) {} :=
    Search.foldl_eq (Search.later_visit g _)
      (fun s node hnode hroom => Search.visit_eq h hclosed hnode hroom (by omega))
      (fun _ hnode => hnode) hroom
  obtain ⟨rest, hrest⟩ := (Search.later_foldl (Search.later_visit larger (larger.nodes.length + 1))
    more (g.nodes.foldl (g.visit (g.nodes.length + 1)) {})).finished
  -- after the first nodes the search only adds to the order in which it left them
  have horder : larger.finishOrder = g.finishOrder ++ rest := by
    rw [finishOrder, finishFrom]
    nth_rewrite 2 [← hmore]
    rw [List.foldl_append, hfirst]
    exact hrest.symm
  refine ⟨rest, horder, fun node hnode hmem => ?_⟩
  have hnodup := nodup_finishOrder hclosed'
  rw [horder] at hnodup
  exact (List.nodup_append.mp hnodup).2.2 node ((mem_finishOrder_iff hclosed).mpr hmem) node hnode
    rfl

theorem Begins.classOf_eq {node : α} (hnode : node ∈ g.nodes) :
    classOf larger.reachTable larger.finishOrder node =
      classOf g.reachTable g.finishOrder node := by
  obtain ⟨rest, horder, hrest⟩ := h.exists_finishOrder hclosed hclosed'
  have hnode' : node ∈ larger.nodes := h.nodes.subset hnode
  have hfurther : rest.filter (fun other => reaches larger.reachTable node other &&
      reaches larger.reachTable other node) = [] := by
    apply List.filter_eq_nil_iff.mpr
    intro other hother hkept
    have hleads := (reaches_iff hclosed' hnode').mp (Bool.and_eq_true_iff.mp hkept).1
    exact hrest other hother (((h.leads_iff hclosed hnode).mp hleads).mem_nodes hclosed hnode)
  rw [classOf, horder, List.filter_append, hfurther, List.append_nil, classOf]
  apply List.filter_congr
  intro other hother
  have hother := (mem_finishOrder_iff hclosed).mp hother
  rw [Bool.eq_iff_iff, Bool.and_eq_true, Bool.and_eq_true, reaches_iff hclosed' hnode',
    reaches_iff hclosed' (h.nodes.subset hother), reaches_iff hclosed hnode,
    reaches_iff hclosed hother]
  exact h.mutual_iff hclosed hnode hother

/-- The components of a graph are the first of the larger graph. -/
theorem Begins.components : g.components <+: larger.components := by
  obtain ⟨rest, horder, -⟩ := h.exists_finishOrder hclosed hclosed'
  have hfirst : g.finishOrder.filterMap larger.componentAt? =
      g.finishOrder.filterMap g.componentAt? := by
    apply List.filterMap_congr
    intro node hnode
    rw [componentAt?, componentAt?,
      h.classOf_eq hclosed hclosed' ((mem_finishOrder_iff hclosed).mp hnode)]
  rw [components_eq, components_eq, horder, List.filterMap_append, hfirst]
  exact List.prefix_append _ _

end Begins

theorem Begins.isCyclic_eq (h : g.Begins larger) {component : List α}
    (hcomponent : component ⊆ g.nodes) : larger.isCyclic component = g.isCyclic component := by
  match component with
  | [] => rfl
  | [node] => simp only [isCyclic, h.neighbours node (hcomponent List.mem_cons_self)]
  | first :: second :: rest => rfl

end ExportIndex.Graph

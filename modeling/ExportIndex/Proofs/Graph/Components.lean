import ExportIndex.Proofs.Graph.Search
import Mathlib.Data.List.Basic
import Mathlib.Data.List.Nodup

/-!
# Components

Every node lies in exactly one component, the nodes of a component lead to each other, and a
component comes after all others that its nodes have neighbours in. A component holds a cycle if
and only if its nodes lie on cycles.
-/

namespace ExportIndex.Graph

open Relation

variable {α : Type u} [DecidableEq α] {g : Graph α}

theorem find?_reachTable {node : α} (hnode : node ∈ g.nodes) :
    g.reachTable.find? (·.1 = node) = some (node, g.reachable node) := by
  have hmap : ∀ nodes : List α, node ∈ nodes →
      (nodes.map fun node => (node, g.reachable node)).find? (·.1 = node) =
        some (node, g.reachable node) := by
    intro nodes hmem
    induction nodes with
    | nil => cases hmem
    | cons head rest ih =>
        by_cases heq : head = node
        · simp [heq]
        · have hrest : node ∈ rest := (List.mem_cons.mp hmem).resolve_left (Ne.symm heq)
          simp [heq, ih hrest]
  exact hmap g.nodes hnode

section Closed

variable (hclosed : g.Closed)

include hclosed

theorem mem_finishOrder_iff {node : α} : node ∈ g.finishOrder ↔ node ∈ g.nodes := by
  rw [finishOrder, mem_finishFrom_iff hclosed fun _ h => h]
  constructor
  · rintro ⟨start, hstart, hleads⟩
    exact hleads.mem_nodes hclosed hstart
  · exact fun hnode => ⟨node, hnode, .refl⟩

theorem nodup_finishOrder : g.finishOrder.Nodup := nodup_finishFrom hclosed fun _ h => h

theorem reaches_iff {first second : α} (hfirst : first ∈ g.nodes) :
    reaches g.reachTable first second = true ↔ g.Leads first second := by
  have hstart : ∀ node ∈ [first], node ∈ g.nodes := by simpa using hfirst
  rw [reaches, find?_reachTable hfirst, List.contains_iff_mem, reachable,
    mem_finishFrom_iff hclosed hstart]
  simp

/-- The class of a node holds the nodes that lead to it and that it leads to. -/
theorem mem_classOf_iff {node other : α} (hnode : node ∈ g.nodes) :
    other ∈ classOf g.reachTable g.finishOrder node ↔ g.Mutual node other := by
  simp only [classOf, List.mem_filter, Bool.and_eq_true, mem_finishOrder_iff hclosed]
  constructor
  · rintro ⟨hother, hfrom, hto⟩
    exact ⟨(reaches_iff hclosed hnode).mp hfrom, (reaches_iff hclosed hother).mp hto⟩
  · rintro ⟨hfrom, hto⟩
    have hother := hfrom.mem_nodes hclosed hnode
    exact ⟨hother, (reaches_iff hclosed hnode).mpr hfrom, (reaches_iff hclosed hother).mpr hto⟩

theorem classOf_eq_of_mutual {node other : α} (hnode : node ∈ g.nodes)
    (h : g.Mutual node other) :
    classOf g.reachTable g.finishOrder node = classOf g.reachTable g.finishOrder other := by
  have hother := h.1.mem_nodes hclosed hnode
  apply List.filter_congr
  intro third hthird
  have hnodes := (mem_finishOrder_iff hclosed).mp hthird
  rw [Bool.eq_iff_iff, Bool.and_eq_true, Bool.and_eq_true, reaches_iff hclosed hnode,
    reaches_iff hclosed hnodes, reaches_iff hclosed hother, reaches_iff hclosed hnodes]
  exact ⟨fun hthird => h.symm.trans hthird, fun hthird => h.trans hthird⟩

end Closed

/-- The component that ends at a node, if one does. -/
def componentAt? (g : Graph α) (node : α) : Option (List α) :=
  let members := classOf g.reachTable g.finishOrder node
  if members.getLast? = some node then some members else none

theorem components_eq : g.components = g.finishOrder.filterMap g.componentAt? := rfl

theorem componentAt?_eq_some {node : α} {component : List α}
    (h : g.componentAt? node = some component) :
    component = classOf g.reachTable g.finishOrder node ∧ component.getLast? = some node := by
  simp only [componentAt?] at h
  split at h
  next hlast =>
    obtain rfl := Option.some.inj h
    exact ⟨rfl, hlast⟩
  next => cases h

theorem componentAt?_self {node : α}
    (h : (classOf g.reachTable g.finishOrder node).getLast? = some node) :
    g.componentAt? node = some (classOf g.reachTable g.finishOrder node) := if_pos h

section Closed

variable (hclosed : g.Closed)

include hclosed

/-- The nodes of a component are those that lead to one of them and back. -/
theorem mem_component_iff {component : List α} (hcomponent : component ∈ g.components)
    {node other : α} (hnode : node ∈ component) : other ∈ component ↔ g.Mutual node other := by
  rw [components_eq] at hcomponent
  obtain ⟨last, hlast, hat⟩ := List.mem_filterMap.mp hcomponent
  have hlastNode := (mem_finishOrder_iff hclosed).mp hlast
  obtain ⟨rfl, -⟩ := componentAt?_eq_some hat
  have hmutual := (mem_classOf_iff hclosed hlastNode).mp hnode
  rw [mem_classOf_iff hclosed hlastNode]
  exact ⟨fun hother => hmutual.symm.trans hother, fun hother => hmutual.trans hother⟩

theorem mem_nodes_of_mem_component {component : List α} (hcomponent : component ∈ g.components)
    {node : α} (hnode : node ∈ component) : node ∈ g.nodes := by
  rw [components_eq] at hcomponent
  obtain ⟨last, hlast, hat⟩ := List.mem_filterMap.mp hcomponent
  obtain ⟨rfl, -⟩ := componentAt?_eq_some hat
  exact (mem_finishOrder_iff hclosed).mp (List.mem_filter.mp hnode).1

theorem nodup_component {component : List α} (hcomponent : component ∈ g.components) :
    component.Nodup := by
  rw [components_eq] at hcomponent
  obtain ⟨last, hlast, hat⟩ := List.mem_filterMap.mp hcomponent
  obtain ⟨rfl, -⟩ := componentAt?_eq_some hat
  exact (nodup_finishOrder hclosed).filter _

/-- The node at which the component of a node ends. -/
theorem exists_last_of_mem_nodes {node : α} (hnode : node ∈ g.nodes) :
    ∃ last, g.Mutual node last ∧
      g.componentAt? last = some (classOf g.reachTable g.finishOrder node) := by
  -- the class of a node holds the node, so that it has a last member
  have hself : node ∈ classOf g.reachTable g.finishOrder node :=
    (mem_classOf_iff hclosed hnode).mpr ⟨.refl, .refl⟩
  obtain ⟨last, hlast⟩ : ∃ last, (classOf g.reachTable g.finishOrder node).getLast? = some last :=
    ⟨_, List.getLast?_eq_some_getLast (List.ne_nil_of_mem hself)⟩
  have hmutual := (mem_classOf_iff hclosed hnode).mp (List.mem_of_getLast? hlast)
  rw [classOf_eq_of_mutual hclosed hnode hmutual] at hlast ⊢
  exact ⟨last, hmutual, componentAt?_self hlast⟩

/-- Every node lies in a component. -/
theorem exists_component_of_mem_nodes {node : α} (hnode : node ∈ g.nodes) :
    ∃ component ∈ g.components, node ∈ component := by
  obtain ⟨last, hmutual, hat⟩ := exists_last_of_mem_nodes hclosed hnode
  refine ⟨_, List.mem_filterMap.mpr ⟨last, ?_, hat⟩,
    (mem_classOf_iff hclosed hnode).mpr ⟨.refl, .refl⟩⟩
  exact (mem_finishOrder_iff hclosed).mpr (hmutual.1.mem_nodes hclosed hnode)

theorem exists_split_of_mem_nodes {node : α} (hnode : node ∈ g.nodes) :
    ∃ before component after, g.components = before ++ component :: after ∧ node ∈ component := by
  obtain ⟨component, hcomponent, hmem⟩ := exists_component_of_mem_nodes hclosed hnode
  obtain ⟨before, after, hsplit⟩ := List.append_of_mem hcomponent
  exact ⟨before, component, after, hsplit, hmem⟩

/-- No node lies in two components. -/
theorem pairwise_disjoint_components : g.components.Pairwise List.Disjoint := by
  rw [components_eq, List.pairwise_filterMap]
  apply (nodup_finishOrder hclosed).imp_of_mem
  intro first second hfirst hsecond hne component hcomponent component' hcomponent' node hnode hnode'
  have hfirst' := (mem_finishOrder_iff hclosed).mp hfirst
  have hsecond' := (mem_finishOrder_iff hclosed).mp hsecond
  obtain ⟨rfl, hlast⟩ := componentAt?_eq_some hcomponent
  obtain ⟨rfl, hlast'⟩ := componentAt?_eq_some hcomponent'
  have hmutual := ((mem_classOf_iff hclosed hfirst').mp hnode).trans
    ((mem_classOf_iff hclosed hsecond').mp hnode').symm
  rw [classOf_eq_of_mutual hclosed hfirst' hmutual, hlast'] at hlast
  exact hne (Option.some.inj hlast).symm

/-- The node at which a component ends is the last of it that a search leaves. -/
theorem not_mutual_of_later {before after : List α} {last : α} {component : List α}
    (horder : g.finishOrder = before ++ last :: after) (hat : g.componentAt? last = some component)
    {other : α} (hother : other ∈ after) : ¬ g.Mutual last other := by
  intro hmutual
  have hnode : last ∈ g.nodes := (mem_finishOrder_iff hclosed).mp (horder ▸ by simp)
  obtain ⟨rfl, hlast⟩ := componentAt?_eq_some hat
  have hclass := (mem_classOf_iff hclosed hnode).mpr hmutual
  have hkept := (List.mem_filter.mp hclass).2
  have hmem : other ∈ after.filter fun other =>
      reaches g.reachTable last other && reaches g.reachTable other last :=
    List.mem_filter.mpr ⟨hother, hkept⟩
  rw [classOf, horder, ← List.singleton_append, ← List.append_assoc, List.filter_append,
    List.getLast?_append_of_ne_nil _ (List.ne_nil_of_mem hmem)] at hlast
  have hlater := (List.mem_filter.mp (List.mem_of_getLast? hlast)).1
  have hnodup := nodup_finishOrder hclosed
  rw [horder] at hnodup
  exact (List.nodup_cons.mp (List.nodup_append.mp hnodup).2.1).1 hlater

/-- A neighbour of a node of a component lies in the same component or in an earlier one. -/
theorem mem_component_or_earlier {before after : List (List α)} {component : List α}
    (hsplit : g.components = before ++ component :: after) {node next : α}
    (hnode : node ∈ component) (hnext : next ∈ g.neighbours node) :
    next ∈ component ∨ ∃ earlier ∈ before, next ∈ earlier := by
  have hcomponent : component ∈ g.components := hsplit ▸ by simp
  rw [components_eq] at hsplit
  obtain ⟨left, rest, horder, hleft, hrest⟩ := List.filterMap_eq_append_iff.mp hsplit
  obtain ⟨skipped, last, right, rfl, hskipped, hat, -⟩ := List.filterMap_eq_cons_iff.mp hrest
  have horder' : g.finishOrder = (left ++ skipped) ++ last :: right := by simp [horder]
  obtain ⟨hclass, hlast⟩ := componentAt?_eq_some hat
  have hlastMem : last ∈ component := List.mem_of_getLast? hlast
  have hnodes := hclosed node (mem_nodes_of_mem_component hclosed hcomponent hnode) next hnext
  have hlastLeads : g.Leads last next :=
    ((mem_component_iff hclosed hcomponent hlastMem).mp hnode).1.tail hnext
  obtain ⟨end', hmutual, hatEnd⟩ := exists_last_of_mem_nodes hclosed hnodes
  have hself : next ∈ classOf g.reachTable g.finishOrder next :=
    (mem_classOf_iff hclosed hnodes).mpr ⟨.refl, .refl⟩
  -- the neighbour's component cannot end later: a search leaves first what it can leave first
  have hbefore : end' ∈ (left ++ skipped) ++ [last] := by
    refine (finishFrom_settled hclosed (fun _ h => h) horder'
      (hlastLeads.trans hmutual.1)).resolve_right ?_
    rintro ⟨other, hother, hback⟩
    exact not_mutual_of_later hclosed horder' hat hother hback
  rcases List.mem_append.mp hbefore with hbefore | hbefore
  · rcases List.mem_append.mp hbefore with hbefore | hbefore
    · exact .inr ⟨_, hleft ▸ List.mem_filterMap.mpr ⟨end', hbefore, hatEnd⟩, hself⟩
    · rw [hskipped end' hbefore] at hatEnd
      cases hatEnd
  · rw [List.mem_singleton.mp hbefore, hat] at hatEnd
    exact .inl (Option.some.inj hatEnd ▸ hself)

end Closed

/-- The components together hold every node once. -/
theorem flatten_components_perm (hclosed : g.Closed) (hnodup : g.nodes.Nodup) :
    g.components.flatten.Perm g.nodes := by
  have hflatten : g.components.flatten.Nodup :=
    List.nodup_flatten.mpr ⟨fun _ hcomponent => nodup_component hclosed hcomponent,
      pairwise_disjoint_components hclosed⟩
  apply (List.perm_ext_iff_of_nodup hflatten hnodup).mpr
  intro node
  rw [List.mem_flatten]
  constructor
  · rintro ⟨component, hcomponent, hnode⟩
    exact mem_nodes_of_mem_component hclosed hcomponent hnode
  · exact exists_component_of_mem_nodes hclosed

/-! ## Cycles -/

/-- A node lies on a cycle if a way of at least one step leads from it back to itself. -/
def OnCycle (g : Graph α) (node : α) : Prop :=
  TransGen (fun node next => next ∈ g.neighbours node) node node

theorem isCyclic_eq_false_iff {component : List α} :
    g.isCyclic component = false ↔
      component = [] ∨ ∃ node, component = [node] ∧ node ∉ g.neighbours node := by
  match component with
  | [] => simp [isCyclic]
  | [node] => simp [isCyclic]
  | first :: second :: rest => simp [isCyclic]

/-- A component holds a cycle exactly if one of its nodes lies on a cycle. -/
theorem isCyclic_iff_onCycle (hclosed : g.Closed) {component : List α}
    (hcomponent : component ∈ g.components) {node : α} (hnode : node ∈ component) :
    g.isCyclic component = true ↔ g.OnCycle node := by
  constructor
  · intro hcyclic
    match component, hcyclic with
    | [single], hcyclic =>
        obtain rfl := List.mem_singleton.mp hnode
        exact TransGen.single (List.contains_iff_mem.mp hcyclic)
    | first :: second :: rest, _ =>
        -- of two different members, one is not the node itself
        have hne : first ≠ second := by
          rintro rfl
          exact (List.nodup_cons.mp (nodup_component hclosed hcomponent)).1 List.mem_cons_self
        obtain ⟨other, hother, hdiff⟩ : ∃ other ∈ first :: second :: rest, other ≠ node := by
          by_cases heq : first = node
          · exact ⟨second, by simp, fun h => hne (heq.trans h.symm)⟩
          · exact ⟨first, List.mem_cons_self, heq⟩
        obtain ⟨hto, hback⟩ := (mem_component_iff hclosed hcomponent hnode).mp hother
        rcases reflTransGen_iff_eq_or_transGen.mp hto with heq | hto
        · exact absurd heq hdiff
        · exact hto.trans_left hback
  · intro hcycle
    by_contra hcyclic
    rcases isCyclic_eq_false_iff.mp (by simpa using hcyclic) with rfl | ⟨single, rfl, hself⟩
    · cases hnode
    · obtain rfl := List.mem_singleton.mp hnode
      -- the first step of the cycle stays within the component
      obtain ⟨next, hnext, hback⟩ := TransGen.head'_iff.mp hcycle
      have hmem := (mem_component_iff hclosed hcomponent hnode).mpr
        ⟨Leads.of_neighbour hnext, hback⟩
      exact hself (List.mem_singleton.mp hmem ▸ hnext)

end ExportIndex.Graph

import ExportIndex.Graph
import Mathlib.Logic.Relation

/-!
# Depth-first search

A search leaves exactly the nodes that its starts lead to, each once. When it leaves a node, every
node that can be reached from there has been left before, unless the way back is still open: then
some node of the same cycle is left later.
-/

namespace ExportIndex.Graph

open Relation

variable {α : Type u}

/-- A node leads to the nodes that can be reached along neighbours, itself included. -/
def Leads (g : Graph α) : α → α → Prop := ReflTransGen fun node next => next ∈ g.neighbours node

/-- Neighbours of nodes are nodes. -/
def Closed (g : Graph α) : Prop := ∀ node ∈ g.nodes, ∀ next ∈ g.neighbours node, next ∈ g.nodes

def Mutual (g : Graph α) (first second : α) : Prop := g.Leads first second ∧ g.Leads second first

theorem Leads.of_neighbour {g : Graph α} {node next : α} (h : next ∈ g.neighbours node) :
    g.Leads node next := ReflTransGen.single h

theorem Mutual.symm {g : Graph α} {first second : α} (h : g.Mutual first second) :
    g.Mutual second first := ⟨h.2, h.1⟩

theorem Mutual.trans {g : Graph α} {first second third : α} (h : g.Mutual first second)
    (h' : g.Mutual second third) : g.Mutual first third := ⟨h.1.trans h'.1, h'.2.trans h.2⟩

theorem Leads.mem_nodes {g : Graph α} (hclosed : g.Closed) {first second : α}
    (h : g.Leads first second) (hfirst : first ∈ g.nodes) : second ∈ g.nodes := by
  induction h with
  | refl => exact hfirst
  | tail _ hnext ih => exact hclosed _ ih _ hnext

namespace Search

/-- A node is open while a search is below it. -/
def Open (s : Search α) (node : α) : Prop := node ∈ s.entered ∧ node ∉ s.finished

def enter (s : Search α) (node : α) : Search α := { s with entered := node :: s.entered }

def leave (s : Search α) (node : α) : Search α := { s with finished := s.finished ++ [node] }

/-- What holds of a search at any time. -/
structure Sound (g : Graph α) (s : Search α) : Prop where
  nodup : s.finished.Nodup
  /-- A node is entered before it is left. -/
  entered : ∀ node ∈ s.finished, node ∈ s.entered
  /-- The neighbours of a node are entered before the node is left. -/
  neighbours : ∀ node ∈ s.finished, ∀ next ∈ g.neighbours node, next ∈ s.entered
  /-- What a node leads to is left before it, unless a node of a common cycle is left after it. -/
  settled : ∀ before node after, s.finished = before ++ node :: after →
    ∀ target, g.Leads node target → target ∈ before ++ [node] ∨
      ∃ other ∈ s.entered, other ∉ before ++ [node] ∧ g.Mutual node other

/-- A search went on from some starts. -/
structure Extends (g : Graph α) (starts : List α) (s next : Search α) : Prop where
  sound : Sound g next
  entered : ∀ node ∈ s.entered, node ∈ next.entered
  starts_entered : ∀ node ∈ starts, node ∈ next.entered
  /-- No node stays open that was not open. -/
  opened : ∀ node, next.Open node → s.Open node
  finished : ∃ new, next.finished = s.finished ++ new ∧
    ∀ node ∈ new, node ∉ s.entered ∧ ∃ start ∈ starts, g.Leads start node

theorem sound_empty (g : Graph α) : Sound g ({} : Search α) where
  nodup := List.nodup_nil
  entered := by simp
  neighbours := by simp
  settled := by simp

theorem Sound.enter {g : Graph α} {s : Search α} (h : Sound g s) (node : α) :
    Sound g (s.enter node) where
  nodup := h.nodup
  entered other hother := List.mem_cons_of_mem _ (h.entered other hother)
  neighbours other hother next hnext :=
    List.mem_cons_of_mem _ (h.neighbours other hother next hnext)
  settled before left after hsplit target hleads := by
    apply (h.settled before left after hsplit target hleads).imp_right
    rintro ⟨other, hother, hrest⟩
    exact ⟨other, List.mem_cons_of_mem _ hother, hrest⟩

theorem Open.of_enter {s : Search α} {node other : α} (h : (s.enter node).Open other) :
    other = node ∨ s.Open other :=
  (List.mem_cons.mp h.1).imp_right fun hmem => ⟨hmem, h.2⟩

theorem Sound.extends_nil {g : Graph α} {s : Search α} (h : Sound g s) : Extends g [] s s where
  sound := h
  entered _ hnode := hnode
  starts_entered := by simp
  opened _ hnode := hnode
  finished := ⟨[], by simp, by simp⟩

/-- A start that has been entered needs no search. -/
theorem Sound.extends_entered {g : Graph α} {s : Search α} (h : Sound g s) {node : α}
    (hnode : node ∈ s.entered) : Extends g [node] s s where
  sound := h
  entered _ hmem := hmem
  starts_entered := by simpa using hnode
  opened _ hopen := hopen
  finished := ⟨[], by simp, by simp⟩

theorem Extends.cons {g : Graph α} {start : α} {starts : List α} {s middle last : Search α}
    (hfirst : Extends g [start] s middle) (hrest : Extends g starts middle last) :
    Extends g (start :: starts) s last where
  sound := hrest.sound
  entered node hnode := hrest.entered node (hfirst.entered node hnode)
  starts_entered node hnode := by
    rcases List.mem_cons.mp hnode with rfl | hnode
    · exact hrest.entered node (hfirst.starts_entered node (by simp))
    · exact hrest.starts_entered node hnode
  opened node hopen := hfirst.opened node (hrest.opened node hopen)
  finished := by
    obtain ⟨new, hnew, hfrom⟩ := hfirst.finished
    obtain ⟨more, hmore, hfrom'⟩ := hrest.finished
    refine ⟨new ++ more, by rw [hmore, hnew, List.append_assoc], ?_⟩
    intro node hnode
    rcases List.mem_append.mp hnode with hnode | hnode
    · obtain ⟨hentered, first, hfirst, hleads⟩ := hfrom node hnode
      exact ⟨hentered, first, by simp_all, hleads⟩
    · obtain ⟨hentered, first, hfirst', hleads⟩ := hfrom' node hnode
      exact ⟨fun hmem => hentered (hfirst.entered node hmem), first,
        List.mem_cons_of_mem _ hfirst', hleads⟩

/-- What a node that was left leads to was left too, or is behind an open node. -/
theorem Sound.finished_or_open {g : Graph α} {s : Search α} (h : Sound g s) {node target : α}
    (hnode : node ∈ s.finished) (hleads : g.Leads node target) :
    target ∈ s.finished ∨ ∃ other, s.Open other ∧ g.Leads node other := by
  induction hleads with
  | refl => exact .inl hnode
  | @tail middle target hmiddle hnext ih =>
      rcases ih with ih | ih
      · have hentered := h.neighbours middle ih target hnext
        by_cases hfinished : target ∈ s.finished
        · exact .inl hfinished
        · exact .inr ⟨target, ⟨hentered, hfinished⟩, hmiddle.tail hnext⟩
      · exact .inr ih

section Leave

variable {g : Graph α} {s : Search α} (h : Sound g s) {node : α}
  (hneighbours : ∀ next ∈ g.neighbours node, next ∈ s.entered)
  (hway : ∀ other, s.Open other → g.Leads other node)

include h hneighbours

theorem Sound.neighbours_leave {left : α} (hleft : left ∈ s.finished ++ [node]) {next : α}
    (hnext : next ∈ g.neighbours left) : next ∈ s.entered := by
  rcases List.mem_append.mp hleft with hleft | hleft
  · exact h.neighbours left hleft next hnext
  · rw [List.mem_singleton.mp hleft] at hnext
    exact hneighbours next hnext

include hway

theorem Sound.settled_leave {target : α} (hleads : g.Leads node target) :
    target ∈ s.finished ++ [node] ∨
      ∃ other ∈ s.entered, other ∉ s.finished ++ [node] ∧ g.Mutual node other := by
  -- induction along the way to the target: the first node on it that was not left is still open
  induction hleads with
  | refl => exact .inl (by simp)
  | @tail middle target hmiddle hnext ih =>
      rcases ih with ih | ih
      · have hentered := h.neighbours_leave hneighbours ih hnext
        by_cases hfinished : target ∈ s.finished ++ [node]
        · exact .inl hfinished
        · have hother : s.Open target :=
            ⟨hentered, fun hmem => hfinished (List.mem_append_left _ hmem)⟩
          exact .inr ⟨target, hentered, hfinished, hmiddle.tail hnext, hway target hother⟩
      · exact .inr ih

/-- Leaving a node below which everything has been searched. The nodes that are still open lie on
the way to it. -/
theorem Sound.leave (hopen : s.Open node) : Sound g (s.leave node) := by
  refine ⟨?_, ?_, fun left hleft next hnext => h.neighbours_leave hneighbours hleft hnext, ?_⟩
  · exact List.nodup_append.mpr ⟨h.nodup, by simp, by
      rintro left hleft other hother rfl
      exact hopen.2 (List.mem_singleton.mp hother ▸ hleft)⟩
  · intro left hleft
    rcases List.mem_append.mp hleft with hleft | hleft
    · exact h.entered left hleft
    · exact List.mem_singleton.mp hleft ▸ hopen.1
  · intro before left after hsplit
    rcases List.eq_nil_or_concat after with rfl | ⟨after, last, rfl⟩
    · obtain ⟨rfl, hleft⟩ := List.append_inj' hsplit rfl
      obtain rfl : node = left := by simpa using hleft
      exact fun target hleads => h.settled_leave hneighbours hway hleads
    · have hsplit' : s.finished ++ [node] = (before ++ left :: after) ++ [last] := by
        simpa [Search.leave] using hsplit
      exact h.settled before left after (List.append_inj' hsplit' rfl).1

end Leave

theorem Extends.open_of_enter {g : Graph α} {starts : List α} {s next : Search α} {node : α}
    (hs : Sound g s) (hnew : node ∉ s.entered) (h : Extends g starts (s.enter node) next) :
    next.Open node := by
  refine ⟨h.entered node List.mem_cons_self, ?_⟩
  obtain ⟨new, hnewFinished, hfrom⟩ := h.finished
  rw [hnewFinished]
  intro hmem
  rcases List.mem_append.mp hmem with hmem | hmem
  · exact hnew (hs.entered node hmem)
  · exact (hfrom node hmem).1 List.mem_cons_self

/-- Entering a node, searching below it and leaving it goes on from the node. -/
theorem Extends.leave {g : Graph α} {s next : Search α} {node : α} (hs : Sound g s)
    (hnew : node ∉ s.entered) (hway : ∀ other, s.Open other → g.Leads other node)
    (h : Extends g (g.neighbours node) (s.enter node) next) :
    Extends g [node] s (next.leave node) := by
  obtain ⟨new, hnewFinished, hfrom⟩ := h.finished
  have hopen := h.open_of_enter hs hnew
  refine ⟨h.sound.leave h.starts_entered ?_ hopen, ?_, by simpa [Search.leave] using hopen.1, ?_, ?_⟩
  · intro other hother
    rcases (h.opened other hother).of_enter with rfl | hother
    · exact .refl
    · exact hway other hother
  · exact fun other hother => h.entered other (List.mem_cons_of_mem _ hother)
  · rintro other ⟨hentered, hnot⟩
    simp only [Search.leave, List.mem_append, List.mem_singleton, not_or] at hnot
    exact (h.opened other ⟨hentered, hnot.1⟩).of_enter.resolve_left hnot.2
  · refine ⟨new ++ [node], by simp [Search.leave, hnewFinished, Search.enter], ?_⟩
    intro left hleft
    refine ⟨?_, node, List.mem_singleton_self node, ?_⟩
    · rcases List.mem_append.mp hleft with hleft | hleft
      · exact fun hmem => (hfrom left hleft).1 (List.mem_cons_of_mem _ hmem)
      · exact List.mem_singleton.mp hleft ▸ hnew
    · rcases List.mem_append.mp hleft with hleft | hleft
      · obtain ⟨_, first, hfirst, hleads⟩ := hfrom left hleft
        exact (Leads.of_neighbour hfirst).trans hleads
      · rw [List.mem_singleton.mp hleft]
        exact .refl

variable [DecidableEq α]

/-- How many nodes have not been entered yet. -/
def room (g : Graph α) (s : Search α) : Nat := g.nodes.countP (· ∉ s.entered)

theorem room_le_of_entered {g : Graph α} {s next : Search α}
    (h : ∀ node ∈ s.entered, node ∈ next.entered) : room g next ≤ room g s := by
  apply List.countP_mono_left
  intro node _ hnode
  simp only [decide_eq_true_eq] at hnode ⊢
  exact fun hmem => hnode (h node hmem)

theorem room_enter_lt {g : Graph α} {s : Search α} {node : α} (hnode : node ∈ g.nodes)
    (hnew : node ∉ s.entered) : room g (s.enter node) < room g s := by
  obtain ⟨before, after, hsplit⟩ := List.append_of_mem hnode
  have hle : ∀ nodes : List α,
      nodes.countP (· ∉ (s.enter node).entered) ≤ nodes.countP (· ∉ s.entered) := by
    intro nodes
    apply List.countP_mono_left
    intro other _ hother
    simp_all [enter]
  have hbefore := hle before
  have hafter := hle after
  have hentered : node ∈ (s.enter node).entered := List.mem_cons_self
  rw [room, room, hsplit]
  simp only [List.countP_append, List.countP_cons, hentered, hnew, not_true_eq_false,
    not_false_eq_true, decide_true, decide_false, if_true, Bool.false_eq_true, if_false]
  omega

/-- Visiting starts one after another goes on from them, if every single visit does. -/
theorem extends_foldl {g : Graph α} {visit : Search α → α → Search α} {depth : Nat}
    (hvisit : ∀ s node, Sound g s → node ∈ g.nodes → room g s < depth →
      (∀ other, s.Open other → g.Leads other node) → Extends g [node] s (visit s node))
    (starts : List α) (s : Search α) (hs : Sound g s) (hstarts : ∀ node ∈ starts, node ∈ g.nodes)
    (hroom : room g s < depth)
    (hway : ∀ other, s.Open other → ∀ node ∈ starts, g.Leads other node) :
    Extends g starts s (starts.foldl visit s) := by
  induction starts generalizing s with
  | nil => exact hs.extends_nil
  | cons node rest ih =>
      have hfirst := hvisit s node hs (hstarts node List.mem_cons_self) hroom
        (fun other hopen => hway other hopen node List.mem_cons_self)
      refine hfirst.cons (ih _ hfirst.sound ?_ ?_ ?_)
      · exact fun other hother => hstarts other (List.mem_cons_of_mem _ hother)
      · exact Nat.lt_of_le_of_lt (room_le_of_entered hfirst.entered) hroom
      · intro other hopen next hnext
        exact hway other (hfirst.opened other hopen) next (List.mem_cons_of_mem _ hnext)

/-- A visit that may go down more levels than there are nodes left to enter goes on from its node.
The induction is on the number of levels: every level enters a node. -/
theorem extends_visit {g : Graph α} (hclosed : g.Closed) (depth : Nat) (s : Search α) (node : α)
    (hs : Sound g s) (hnode : node ∈ g.nodes) (hroom : room g s < depth)
    (hway : ∀ other, s.Open other → g.Leads other node) :
    Extends g [node] s (g.visit depth s node) := by
  induction depth generalizing s node with
  | zero => omega
  | succ depth ih =>
      rw [visit]
      split
      next hentered => exact hs.extends_entered hentered
      next hnew =>
        refine Extends.leave hs hnew hway (extends_foldl ih _ _ (hs.enter node) ?_ ?_ ?_)
        · exact hclosed node hnode
        · have := room_enter_lt hnode hnew
          omega
        · intro other hopen next hnext
          rcases hopen.of_enter with rfl | hopen
          · exact Leads.of_neighbour hnext
          · exact (hway other hopen).tail hnext

/-- The search from some starts, all the way. -/
theorem extends_finishFrom {g : Graph α} (hclosed : g.Closed) {starts : List α}
    (hstarts : ∀ node ∈ starts, node ∈ g.nodes) :
    Extends g starts {} (starts.foldl (g.visit (g.nodes.length + 1)) {}) := by
  apply extends_foldl (extends_visit hclosed _) _ _ (sound_empty g) hstarts
  · exact Nat.lt_succ_of_le List.countP_le_length
  · rintro other ⟨hentered, _⟩
    simp at hentered

end Search

variable [DecidableEq α]

section FinishFrom

variable {g : Graph α} (hclosed : g.Closed) {starts : List α}
  (hstarts : ∀ node ∈ starts, node ∈ g.nodes)

include hclosed hstarts

theorem nodup_finishFrom : (g.finishFrom starts).Nodup :=
  (Search.extends_finishFrom hclosed hstarts).sound.nodup

/-- In the end no node is open. -/
theorem mem_finishFrom_of_entered {node : α}
    (hnode : node ∈ (starts.foldl (g.visit (g.nodes.length + 1)) {}).entered) :
    node ∈ g.finishFrom starts := by
  by_cases hleft : node ∈ g.finishFrom starts
  · exact hleft
  · simpa using ((Search.extends_finishFrom hclosed hstarts).opened node ⟨hnode, hleft⟩).1

/-- A search leaves exactly what its starts lead to. -/
theorem mem_finishFrom_iff {node : α} :
    node ∈ g.finishFrom starts ↔ ∃ start ∈ starts, g.Leads start node := by
  have hsearch := Search.extends_finishFrom hclosed hstarts
  constructor
  · intro hnode
    obtain ⟨new, hnew, hfrom⟩ := hsearch.finished
    have hmem : node ∈ new := by simpa [finishFrom, hnew] using hnode
    exact (hfrom node hmem).2
  · rintro ⟨start, hstart, hleads⟩
    have hleft : start ∈ g.finishFrom starts :=
      mem_finishFrom_of_entered hclosed hstarts (hsearch.starts_entered start hstart)
    rcases hsearch.sound.finished_or_open hleft hleads with hnode | ⟨other, hopen, _⟩
    · exact hnode
    · simpa using (hsearch.opened other hopen).1

/-- What a node leads to is left before it, unless a node of a common cycle is left after it. -/
theorem finishFrom_settled {before after : List α} {node target : α}
    (hsplit : g.finishFrom starts = before ++ node :: after) (hleads : g.Leads node target) :
    target ∈ before ++ [node] ∨ ∃ other ∈ after, g.Mutual node other := by
  have hsearch := Search.extends_finishFrom hclosed hstarts
  apply (hsearch.sound.settled before node after hsplit target hleads).imp_right
  rintro ⟨other, hentered, hnot, hmutual⟩
  have hleft := mem_finishFrom_of_entered hclosed hstarts hentered
  rw [hsplit] at hleft
  simp only [List.mem_append, List.mem_cons, List.not_mem_nil, or_false, not_or] at hleft hnot
  exact ⟨other, (hleft.resolve_left hnot.1).resolve_left hnot.2, hmutual⟩

end FinishFrom

end ExportIndex.Graph

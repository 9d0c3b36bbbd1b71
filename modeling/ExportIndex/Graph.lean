/-!
# Components of a graph

A graph lists its nodes and, for every node, its neighbours. A depth-first search leaves a node
when it has left everything that it entered from there. The components are the classes of nodes
that reach each other, in the order in which the last of their nodes is left, so that a component
comes after those that it has edges to.
-/

namespace ExportIndex

/-- A directed graph, with nodes and neighbours in the order in which a search takes them. -/
structure Graph (α : Type u) where
  nodes : List α
  neighbours : α → List α

namespace Graph

/-- The state of a depth-first search. -/
structure Search (α : Type u) where
  /-- The nodes that have been entered. -/
  entered : List α := []
  /-- The nodes that have been left, in that order. -/
  finished : List α := []

variable {α : Type u} [DecidableEq α]

/-- Enter a node, visit its neighbours one after another, and leave it. A node is entered once. The
first argument bounds the number of nodes on the way from the start. -/
def visit (g : Graph α) : Nat → Search α → α → Search α
  | 0, search, _ => search
  | depth + 1, search, node =>
    if node ∈ search.entered then search
    else
      let start : Search α := { search with entered := node :: search.entered }
      let search := (g.neighbours node).foldl (g.visit depth) start
      { search with finished := search.finished ++ [node] }

/-- The nodes that a search from some starts enters, in the order in which it leaves them. No way
without repetition is longer than the number of nodes. -/
def finishFrom (g : Graph α) (starts : List α) : List α :=
  (starts.foldl (g.visit (g.nodes.length + 1)) {}).finished

/-- All nodes, in the order in which a search leaves them. -/
def finishOrder (g : Graph α) : List α := g.finishFrom g.nodes

/-- The nodes that a node reaches, itself included. -/
def reachable (g : Graph α) (node : α) : List α := g.finishFrom [node]

def reachTable (g : Graph α) : List (α × List α) :=
  g.nodes.map fun node => (node, g.reachable node)

/-- Whether a node reaches another, by a table. -/
def reaches (table : List (α × List α)) (first second : α) : Bool :=
  match table.find? (·.1 = first) with
  | some entry => entry.2.contains second
  | none => false

/-- The nodes among some that a node is connected with in both directions. -/
def classOf (table : List (α × List α)) (order : List α) (node : α) : List α :=
  order.filter fun other => reaches table node other && reaches table other node

/-- The components, each at the place of the last of its nodes. -/
def components (g : Graph α) : List (List α) :=
  let order := g.finishOrder
  let table := g.reachTable
  order.filterMap fun node =>
    let members := classOf table order node
    if members.getLast? = some node then some members else none

/-- Whether a component holds a cycle: it has several nodes, or a node that is its own
neighbour. -/
def isCyclic (g : Graph α) : List α → Bool
  | [] => false
  | [node] => (g.neighbours node).contains node
  | _ => true

end Graph

end ExportIndex

import ExportIndex.Span

/-!
# Syntax trees

A node has a kind, covers a span of the source text and holds its children in source order:
statements, names, keywords, punctuation and comments alike. Sites are nodes together with the
place in the tree at which they stand.
-/

namespace ExportIndex

structure Node where
  kind : String
  /-- Whether the node is a construct of its own and not just a keyword or a mark. -/
  named : Bool
  /-- Whether the node stands for text that is required and absent. -/
  missing : Bool
  span : Span
  /-- The names of the fields of the parent that hold this node. -/
  fields : List String
  children : List Node
  deriving Inhabited

namespace Node

/-- A child is smaller than its parent. -/
theorem sizeOf_child {node child : Node} (h : child ∈ node.children) :
    sizeOf child < sizeOf node := by
  have := List.sizeOf_lt_of_mem h
  cases node
  simp at this ⊢
  omega

def namedChildren (node : Node) : List Node := node.children.filter (·.named)

def inField (node : Node) (field : String) : Bool := field ∈ node.fields

def field? (node : Node) (field : String) : Option Node := node.children.find? (·.inField field)

def childrenOfKind (node : Node) (kinds : List String) : List Node :=
  node.namedChildren.filter fun child => child.kind ∈ kinds

def childOfKind? (node : Node) (kind : String) : Option Node :=
  node.namedChildren.find? fun child => child.kind = kind

/-- Whether a keyword or mark stands directly below a node. -/
def hasToken (node : Node) (token : String) : Bool :=
  node.children.any fun child => !child.named && child.kind = token

/-- The tree without its comments. -/
def withoutComments (node : Node) : Node :=
  { node with
    children := (node.children.filter fun child => child.kind ≠ "comment").map
      fun child => child.withoutComments }
termination_by node
decreasing_by exact sizeOf_child ‹_›

end Node

/-- Child positions on the way from a node up to the root of its tree. -/
abbrev Address := List Nat

/-- A node with the place in the tree at which it stands. -/
structure Site where
  node : Node
  /-- The way up to the root, by child positions. -/
  address : Address
  /-- The nodes above, from the parent to the root. -/
  ancestors : List Node

namespace Site

def ofRoot (root : Node) : Site := ⟨root, [], []⟩

/-- The sites directly below a site. -/
def children (site : Site) : List Site :=
  site.node.children.mapIdx fun index child =>
    ⟨child, index :: site.address, site.node :: site.ancestors⟩

theorem node_mem_of_mem_children {site child : Site} (h : child ∈ site.children) :
    child.node ∈ site.node.children := by
  simp only [children, List.mem_mapIdx] at h
  obtain ⟨index, hlt, rfl⟩ := h
  exact List.getElem_mem hlt

def namedChildren (site : Site) : List Site := site.children.filter (·.node.named)

def field? (site : Site) (field : String) : Option Site :=
  site.children.find? (·.node.inField field)

def childOfKind? (site : Site) (kind : String) : Option Site :=
  site.namedChildren.find? fun child => child.node.kind = kind

/-- The sites of a tree below and at a site, each before the sites below it. -/
def preorder (site : Site) : List Site :=
  site :: site.children.attach.flatMap fun child => preorder child.1
termination_by site.node
decreasing_by exact Node.sizeOf_child (node_mem_of_mem_children child.2)

def parent? (site : Site) : Option Node := site.ancestors.head?

end Site

end ExportIndex

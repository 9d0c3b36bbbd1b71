import ExportIndex.Proofs.Collections.Repetitions
import ExportIndex.Proofs.Extraction.SourceOrder

/-!
# Members of a class

A class takes its members by their names. So it loses a getter or setter that is named like a constructor, and
a method that shares its name with a static one or the other way round, and a static method may stand in the
place of the constructor. Apart from these it loses no member but overloads.
-/

namespace ExportIndex

/-- Whether a method is an overload of another: they have one name, and both are static or neither is. -/
def Method.overloads (m other : Method) : Bool :=
  other.name = m.name && other.isStatic = m.isStatic

namespace Node

/-- Whether a member is a method, an accessor or a constructor. -/
def isCallable (member : Node) : Bool := member.kind ∈ methodKinds

/-- The methods, accessors and constructors in the body of a class, in source order. -/
def callables (node : Node) : List Node :=
  (node.field? "body").toList.flatMap (·.namedChildren.filter isCallable)

def isStatic (member : Node) : Bool := member.modifiers.contains "static"

def isNamedConstructor (source : String) (member : Node) : Bool :=
  member.memberName source = "constructor"

/-- Whether a member is none of a getter, a setter and a constructor. -/
def isPlainMethod (source : String) (member : Node) : Bool :=
  !member.isAccessor && !member.isNamedConstructor source

/-- The last definition, and the first signature if there is no definition. -/
def countedConstructor? (members : List Node) : Option Node :=
  (members.filter (·.kind = "method_definition")).getLast?.or
    (members.find? (·.kind ≠ "method_definition"))

end Node

namespace ClassDeclaration

/-- A class lists its accessors and its methods in source order, apart from overloads of methods that it
lists, and has the constructor that counts among those that are not static. -/
structure ListsMembers (source : String) (members : List Node) (c : ClassDeclaration) : Prop where
  accessors_eq : c.accessors = (members.filter Node.isAccessor).map (Node.toAccessor source)
  methods_eq : c.methods =
    ((members.filter (Node.isPlainMethod source)).map (Node.toMethod source)).eraseDupsBy
      Method.overloads
  constructor?_eq : c.constructor? =
    (Node.countedConstructor? (members.filter fun m => m.isNamedConstructor source && !m.isStatic)).map
      (Node.toConstructor source)

/-- What a class lists if it goes by the names of its members alone. -/
structure ListsByName (source : String) (members : List Node) (c : ClassDeclaration) : Prop where
  accessors_eq : c.accessors =
    (members.filter fun m => m.isAccessor && !m.isNamedConstructor source).map (Node.toAccessor source)
  methods_eq : c.methods =
    ((members.filter (Node.isPlainMethod source)).map (Node.toMethod source)).eraseDupsBy
      fun m other => other.name = m.name
  constructor?_eq : c.constructor? =
    (Node.countedConstructor? (members.filter (Node.isNamedConstructor source))).map
      (Node.toConstructor source)

end ClassDeclaration

/-- The names of the members tell the same of them as the members themselves: no getter or setter is named
like a constructor, methods of one name are all static or all not, and the constructor that counts is not
static. -/
structure Node.NamesTellMembers (source : String) (members : List Node) : Prop where
  accessors : ∀ m ∈ members, m.isAccessor = true → m.isNamedConstructor source = false
  methods : ∀ m ∈ members, m.isPlainMethod source = true → ∀ other ∈ members,
    other.isPlainMethod source = true → other.memberName source = m.memberName source →
      other.isStatic = m.isStatic
  constructors : ∀ m ∈ countedConstructor? (members.filter (isNamedConstructor source)), m.isStatic = false

/-! ## Taking members in -/

theorem Node.countedConstructor?_concat (members : List Node) (member : Node) :
    countedConstructor? (members ++ [member]) =
      if (countedConstructor? members).isNone || member.kind = "method_definition" then some member
      else countedConstructor? members := by
  rw [countedConstructor?, countedConstructor?, List.filter_append, List.find?_append]
  by_cases hdefinition : member.kind = "method_definition"
  · simp [hdefinition]
  · rw [List.filter_cons_of_neg (by simpa using hdefinition), List.filter_nil, List.append_nil,
      List.find?_singleton, if_pos (decide_eq_true hdefinition), decide_eq_false hdefinition, Bool.or_false]
    generalize (members.filter (·.kind = "method_definition")).getLast? = definition?
    generalize members.find? (·.kind ≠ "method_definition") = signature?
    cases definition? <;> cases signature? <;> rfl

theorem addMethod_eraseDupsBy (methods : List Method) (method : Method) :
    addMethod (methods.eraseDupsBy fun m other => other.name = m.name) method =
      (methods ++ [method]).eraseDupsBy fun m other => other.name = m.name := by
  rw [eraseDupsBy_concat, addMethod]

namespace ClassDeclaration

variable {source : String} {members : List Node} {c : ClassDeclaration} {member : Node}

/-- The ways in which a class takes a member in. -/
inductive Takes (source : String) (c : ClassDeclaration) (member : Node) : ClassDeclaration → Prop where
  | constructing (hcallable : member.isCallable = true)
      (hname : member.isNamedConstructor source = true) :
      Takes source c member (c.addConstructor source member)
  | accessing (hcallable : member.isCallable = true) (hname : member.isNamedConstructor source = false)
      (haccessor : member.isAccessor = true) :
      Takes source c member { c with accessors := c.accessors ++ [member.toAccessor source] }
  | calling (hcallable : member.isCallable = true) (hplain : member.isPlainMethod source = true) :
      Takes source c member { c with methods := addMethod c.methods (member.toMethod source) }
  | holding (hcallable : member.isCallable = false) (properties : List Property) :
      Takes source c member { c with properties }

theorem takes_addMember (source : String) (c : ClassDeclaration) (member : Node) :
    c.Takes source member (c.addMember source member) := by
  unfold addMember
  split
  next hkind =>
    have hcallable : member.isCallable = true := decide_eq_true hkind
    split
    next hname => exact .constructing hcallable (decide_eq_true hname)
    next hname =>
      have hname : member.isNamedConstructor source = false := decide_eq_false hname
      split
      next haccessor => exact .accessing hcallable hname haccessor
      next haccessor =>
        exact .calling hcallable (by simp [Node.isPlainMethod, hname, Bool.eq_false_iff.mpr haccessor])
  next hkind =>
    have hcallable : member.isCallable = false := decide_eq_false hkind
    split
    · exact .holding hcallable _
    · exact .holding hcallable c.properties

theorem ListsByName.addConstructor (h : c.ListsByName source members)
    (hname : member.isNamedConstructor source = true) :
    (c.addConstructor source member).ListsByName source (members ++ [member]) := by
  have haccessors : (c.addConstructor source member).accessors = c.accessors := by
    unfold ClassDeclaration.addConstructor
    split <;> rfl
  have hmethods : (c.addConstructor source member).methods = c.methods := by
    unfold ClassDeclaration.addConstructor
    split <;> rfl
  have hconstructor : (c.addConstructor source member).constructor? =
      if c.constructor?.isNone || member.kind = "method_definition" then
        some (member.toConstructor source)
      else c.constructor? := by
    unfold ClassDeclaration.addConstructor
    split <;> simp_all
  refine ⟨?_, ?_, ?_⟩
  · rw [haccessors, h.accessors_eq]
    simp [hname]
  · rw [hmethods, h.methods_eq]
    simp [Node.isPlainMethod, hname]
  · rw [hconstructor, h.constructor?_eq, Option.isNone_map, List.filter_append,
      List.filter_cons_of_pos hname, List.filter_nil, Node.countedConstructor?_concat]
    split <;> rfl

/-- A member that is taken in is listed by its name, behind the others. -/
theorem ListsByName.addMember (h : c.ListsByName source (members.filter Node.isCallable))
    (member : Node) : (c.addMember source member).ListsByName source
      ((members ++ [member]).filter Node.isCallable) := by
  have htakes := takes_addMember source c member
  generalize c.addMember source member = next at htakes ⊢
  rw [List.filter_append]
  cases htakes with
  | constructing hcallable hname =>
      rw [List.filter_cons_of_pos hcallable, List.filter_nil]
      exact h.addConstructor hname
  | accessing hcallable hname haccessor =>
      rw [List.filter_cons_of_pos hcallable, List.filter_nil]
      refine ⟨?_, ?_, ?_⟩
      · simp [h.accessors_eq, hname, haccessor]
      · simp [h.methods_eq, Node.isPlainMethod, haccessor]
      · simp [h.constructor?_eq, hname]
  | calling hcallable hplain =>
      obtain ⟨haccessor, hname⟩ : member.isAccessor = false ∧ member.isNamedConstructor source = false := by
        simpa [Node.isPlainMethod] using hplain
      rw [List.filter_cons_of_pos hcallable, List.filter_nil]
      refine ⟨?_, ?_, ?_⟩
      · simp [h.accessors_eq, haccessor]
      · simp [h.methods_eq, hplain, addMethod_eraseDupsBy]
      · simp [h.constructor?_eq, hname]
  | holding hcallable properties =>
      rw [List.filter_cons_of_neg (Bool.eq_false_iff.mp hcallable), List.filter_nil, List.append_nil]
      exact ⟨h.accessors_eq, h.methods_eq, h.constructor?_eq⟩

theorem listsByName_foldl_addMember {header : ClassDeclaration} (h : header.ListsByName source [])
    (members : List Node) : (members.foldl (ClassDeclaration.addMember source) header).ListsByName source
      (members.filter Node.isCallable) := by
  induction members using List.reverseRecOn with
  | nil => exact h
  | append_singleton rest member ih =>
      rw [List.foldl_append]
      exact ih.addMember member

end ClassDeclaration

namespace Node

variable {source : String} {exported : Bool} {node : Node}

theorem listsByName_toClass : (node.toClass source exported).ListsByName source node.callables := by
  have hempty : ∀ header : ClassDeclaration, header.accessors = [] → header.methods = [] →
      header.constructor? = none → header.ListsByName source [] := by
    intro header haccessors hmethods hconstructor
    exact ⟨haccessors, hmethods, hconstructor⟩
  rw [toClass, callables]
  cases node.field? "body" with
  | none => exact hempty _ rfl rfl rfl
  | some body =>
      simp only [Option.toList_some, List.flatMap_singleton]
      exact ClassDeclaration.listsByName_foldl_addMember (hempty _ rfl rfl rfl) body.namedChildren

/-! ## Members with a place of their own -/

/-- A span that covers some text is not empty. -/
theorem start_lt_stop_of_textOf {span : Span} (h : textOf source span ≠ "") :
    span.start < span.stop := by
  unfold textOf at h
  split at h
  next hfits =>
    refine Nat.lt_of_le_of_ne hfits.1 fun heq => h ?_
    rw [heq, ByteArray.extract_same]
    decide
  next => exact absurd rfl h

theorem start_lt_stop_of_isNamedConstructor (h : node.WellPlaced)
    (hname : node.isNamedConstructor source = true) : node.span.start < node.span.stop := by
  have hname : node.memberName source = "constructor" := of_decide_eq_true hname
  rw [memberName, fieldText?] at hname
  cases hfield : node.field? "name" with
  | none =>
      rw [hfield, Option.map_none, Option.getD_none] at hname
      exact absurd hname (by decide)
  | some name =>
      rw [hfield, Option.map_some, Option.getD_some] at hname
      have htext : textOf source name.span ≠ "" := by
        intro hempty
        rw [text, hempty] at hname
        exact absurd hname (by decide)
      have hwithin := h.within (List.mem_of_find?_eq_some hfield)
      exact Nat.lt_of_le_of_lt hwithin.1 (Nat.lt_of_lt_of_le (start_lt_stop_of_textOf htext) hwithin.2)

/-- Children that are not empty have spans of their own. -/
theorem WellPlaced.eq_of_span_eq (h : node.WellPlaced) {child other : Node}
    (hchild : child ∈ node.children) (hother : other ∈ node.children)
    (hlt : child.span.start < child.span.stop) (heq : child.span = other.span) : child = other := by
  have happart : node.children.Pairwise fun first second =>
      first.span.start < first.span.stop → first.span = second.span → first = second := by
    apply h.apart.imp
    intro first second hbefore hfirst hspan
    rw [Span.Before, hspan] at hbefore
    rw [hspan] at hfirst
    exact absurd hfirst (Nat.not_lt.mpr hbefore)
  have hflip : node.children.Pairwise (flip fun first second =>
      first.span.start < first.span.stop → first.span = second.span → first = second) := by
    apply happart.imp
    intro first second heq' hsecond hspan
    exact (heq' (hspan ▸ hsecond) hspan.symm).symm
  exact happart.forall_of_forall_of_flip (fun _ _ _ _ => rfl) hflip hchild hother hlt heq

theorem exists_parent_of_mem_callables (h : node.WellPlaced) :
    ∃ body : Node, body.WellPlaced ∧ ∀ member ∈ node.callables, member ∈ body.children := by
  rw [callables]
  cases hbody : node.field? "body" with
  | none => exact ⟨node, h, by simp⟩
  | some body =>
      refine ⟨body, h.of_mem_children (List.mem_of_find?_eq_some hbody), fun member hmember => ?_⟩
      have hmember : member ∈ body.namedChildren.filter isCallable := by simpa using hmember
      exact (List.mem_filter.mp (List.mem_filter.mp hmember).1).1

/-! ## Members and their names -/

theorem mem_of_mem_countedConstructor? {members : List Node} {member : Node}
    (h : member ∈ countedConstructor? members) : member ∈ members := by
  rcases Option.or_eq_some_iff.mp h with hdefinition | ⟨-, hsignature⟩
  · exact (List.mem_filter.mp (List.mem_of_getLast? hdefinition)).1
  · exact List.mem_of_find?_eq_some hsignature

/-- A member that counts still counts if others are left out. -/
theorem countedConstructor?_filter {members : List Node} {member : Node} {kept : Node → Bool}
    (h : countedConstructor? members = some member) (hkept : kept member = true) :
    countedConstructor? (members.filter kept) = some member := by
  rw [countedConstructor?, List.filter_comm]
  rcases Option.or_eq_some_iff.mp h with hdefinition | ⟨hnone, hsignature⟩
  · obtain ⟨before, hbefore⟩ := List.getLast?_eq_some_iff.mp hdefinition
    rw [hbefore, List.filter_append, List.filter_cons_of_pos hkept, List.filter_nil, List.getLast?_concat,
      Option.some_or]
  · obtain ⟨hkind, before, after, rfl, hbefore⟩ := List.find?_eq_some_iff_append.mp hsignature
    rw [List.getLast?_eq_none_iff.mp hnone, List.filter_nil, List.getLast?_nil, Option.none_or,
      List.filter_append, List.filter_cons_of_pos hkept, List.find?_append, List.find?_cons]
    have hnot : (before.filter kept).find? (·.kind ≠ "method_definition") = none :=
      List.find?_eq_none.mpr fun other hother => by
        simpa using hbefore other (List.mem_filter.mp hother).1
    rw [hnot, Option.none_or, hkind]

theorem countedConstructor?_eq_none {members : List Node} (h : countedConstructor? members = none) :
    members = [] := by
  obtain ⟨hdefinition, hsignature⟩ := Option.or_eq_none_iff.mp h
  rw [List.getLast?_eq_none_iff, List.filter_eq_nil_iff] at hdefinition
  rw [List.find?_eq_none] at hsignature
  cases members with
  | nil => rfl
  | cons first rest =>
      have hkind := hdefinition first List.mem_cons_self
      exact absurd (by simpa using hkind) (hsignature first List.mem_cons_self)

theorem accessors_eq_iff {members : List Node} :
    (members.filter fun m => m.isAccessor && !m.isNamedConstructor source).map (toAccessor source) =
        (members.filter isAccessor).map (toAccessor source) ↔
      ∀ m ∈ members, m.isAccessor = true → m.isNamedConstructor source = false := by
  have hfilter : (members.filter fun m => m.isAccessor && !m.isNamedConstructor source) =
      (members.filter isAccessor).filter fun m => !m.isNamedConstructor source := by
    rw [List.filter_filter]
    simp only [Bool.and_comm]
  rw [hfilter]
  constructor
  · intro heq m hm haccessor
    have hlength := congrArg List.length heq
    rw [List.length_map, List.length_map, List.length_filter_eq_length_iff] at hlength
    simpa using hlength m (List.mem_filter.mpr ⟨hm, haccessor⟩)
  · intro h
    rw [List.filter_eq_self.mpr]
    intro m hm
    obtain ⟨hmem, haccessor⟩ := List.mem_filter.mp hm
    rw [h m hmem haccessor, Bool.not_false]

theorem methods_eq_iff {members : List Node} :
    (((members.filter (isPlainMethod source)).map (toMethod source)).eraseDupsBy
        fun m other => other.name = m.name) =
      ((members.filter (isPlainMethod source)).map (toMethod source)).eraseDupsBy Method.overloads ↔
      ∀ m ∈ members, m.isPlainMethod source = true → ∀ other ∈ members,
        other.isPlainMethod source = true → other.memberName source = m.memberName source →
          other.isStatic = m.isStatic := by
  rw [eraseDupsBy_eq_iff]
  · simp only [List.forall_mem_map, List.forall_mem_filter, Method.overloads, decide_eq_true_eq,
      Bool.and_eq_true]
    constructor
    · intro h m hm hplain other hother hplain' hname
      exact (h m hm hplain other hother hplain' hname).2
    · intro h m hm hplain other hother hplain' hname
      exact ⟨hname, h m hm hplain other hother hplain' hname⟩
  · exact ⟨fun _ => decide_eq_true rfl, fun h => decide_eq_true (of_decide_eq_true h).symm,
      fun h h' => decide_eq_true ((of_decide_eq_true h').trans (of_decide_eq_true h))⟩
  · simp only [Method.overloads, Bool.and_eq_true, decide_eq_true_eq]
    exact ⟨fun _ => ⟨rfl, rfl⟩, fun h => ⟨h.1.symm, h.2.symm⟩,
      fun h h' => ⟨h'.1.trans h.1, h'.2.trans h.2⟩⟩
  · intro m other h
    rw [Method.overloads, Bool.and_eq_true] at h
    exact h.1

/-- A static member that counts among constructors has a constructor that no other member has. -/
theorem constructor?_eq_iff (h : node.WellPlaced) :
    (countedConstructor? (node.callables.filter (isNamedConstructor source))).map (toConstructor source) =
        (countedConstructor? (node.callables.filter fun m => m.isNamedConstructor source && !m.isStatic)).map
          (toConstructor source) ↔
      ∀ m ∈ countedConstructor? (node.callables.filter (isNamedConstructor source)),
        m.isStatic = false := by
  have hfilter : (node.callables.filter fun m => m.isNamedConstructor source && !m.isStatic) =
      (node.callables.filter (isNamedConstructor source)).filter fun m => !m.isStatic := by
    rw [List.filter_filter]
    simp only [Bool.and_comm]
  rw [hfilter]
  constructor
  · intro heq m hm
    rw [Option.mem_def.mp hm, Option.map_some] at heq
    obtain ⟨other, hother, hsame⟩ := Option.map_eq_some_iff.mp heq.symm
    obtain ⟨hmem', hstatic⟩ := List.mem_filter.mp (mem_of_mem_countedConstructor? hother)
    obtain ⟨hmem, hname⟩ := List.mem_filter.mp (mem_of_mem_countedConstructor? hm)
    obtain ⟨body, hbody, hchildren⟩ := exists_parent_of_mem_callables h
    have hchild := hchildren m hmem
    have hlt := start_lt_stop_of_isNamedConstructor (hbody.of_mem_children hchild) hname
    have hspan : m.span = other.span := (congrArg Constructor.span hsame).symm
    obtain rfl := hbody.eq_of_span_eq hchild (hchildren other (List.mem_filter.mp hmem').1) hlt hspan
    simpa using hstatic
  · intro hstatic
    cases hcounted : countedConstructor? (node.callables.filter (isNamedConstructor source)) with
    | some m => rw [countedConstructor?_filter hcounted (by rw [hstatic m hcounted, Bool.not_false])]
    | none =>
        rw [countedConstructor?_eq_none hcounted]
        rfl

/-- A class goes by the names of its members. It loses no member but overloads, and has the right
constructor, exactly if the names tell the same of the members as the members themselves. -/
theorem toClass_listsMembers_iff (source : String) (exported : Bool) (node : Node) :
    (node.toClass source exported).ListsByName source node.callables ∧
      (node.WellPlaced → ((node.toClass source exported).ListsMembers source node.callables ↔
        NamesTellMembers source node.callables)) := by
  have hlists : (node.toClass source exported).ListsByName source node.callables := listsByName_toClass
  refine ⟨hlists, fun hplaced => ?_⟩
  obtain ⟨haccessors, hmethods, hconstructor⟩ := hlists
  constructor
  · rintro ⟨haccessors', hmethods', hconstructor'⟩
    exact ⟨accessors_eq_iff.mp (haccessors ▸ haccessors'), methods_eq_iff.mp (hmethods ▸ hmethods'),
      (constructor?_eq_iff hplaced).mp (hconstructor ▸ hconstructor')⟩
  · rintro ⟨htells, htells', htells''⟩
    exact ⟨haccessors.trans (accessors_eq_iff.mpr htells), hmethods.trans (methods_eq_iff.mpr htells'),
      hconstructor.trans ((constructor?_eq_iff hplaced).mpr htells'')⟩

end Node

namespace Document

/-- A method of a sample, behind a keyword or without one. Its name has one letter. -/
def methodPart (keywords : List Node) (start name : Nat) : Node :=
  part "method_definition" start (name + 6) []
    (keywords ++
      [part "property_identifier" name (name + 1) ["name"] [],
        part "formal_parameters" (name + 1) (name + 3) ["parameters"] [],
        part "statement_block" (name + 4) (name + 6) ["body"] []])

/-- A class with overloads of its constructor and of a method, and with a getter. -/
def signedClass : Node :=
  part "class_declaration" 0 66 []
    [mark "class" 0 5, part "type_identifier" 6 7 ["name"] [],
      part "class_body" 8 66 ["body"]
        [part "method_signature" 10 23 []
          [part "property_identifier" 10 21 ["name"] [], part "formal_parameters" 21 23 ["parameters"] []],
          part "method_definition" 25 41 []
            [part "property_identifier" 25 36 ["name"] [],
              part "formal_parameters" 36 38 ["parameters"] [], part "statement_block" 39 41 ["body"] []],
          part "method_signature" 42 45 []
            [part "property_identifier" 42 43 ["name"] [], part "formal_parameters" 43 45 ["parameters"] []],
          methodPart [] 47 47, methodPart [mark "get" 54 57] 54 58]]

def signedText : String :=
  "class C \x7b constructor(); constructor() \x7b\x7d f(); f() \x7b\x7d get g() \x7b\x7d \x7d"

theorem listsMembers_signedClass :
    signedClass.WellPlaced ∧ Node.NamesTellMembers signedText signedClass.callables ∧
      (signedClass.toClass signedText false).ListsMembers signedText signedClass.callables ∧
      (signedClass.toClass signedText false).methods.map Method.span = [⟨42, 45⟩] ∧
      (signedClass.toClass signedText false).constructor?.map Constructor.span = some ⟨25, 41⟩ := by
  have hplaced : signedClass.WellPlaced := by
    simp [signedClass, methodPart, part, mark, Node.wellPlaced_mk, Span.Within, Span.Before]
  have htells : Node.NamesTellMembers signedText signedClass.callables :=
    ⟨by decide +kernel, by decide +kernel, by decide +kernel⟩
  refine ⟨hplaced, htells, ?_, by decide +kernel, by decide +kernel⟩
  exact ((Node.toClass_listsMembers_iff signedText false signedClass).2 hplaced).mpr htells

/-- A class with a static method and another one of the same name. -/
def twinClass : Node :=
  part "class_declaration" 0 32 []
    [mark "class" 0 5, part "type_identifier" 6 7 ["name"] [],
      part "class_body" 8 32 ["body"] [methodPart [mark "static" 10 16] 10 17, methodPart [] 24 24]]

def twins : Document where
  text := "class C \x7b static f() \x7b\x7d f() \x7b\x7d \x7d"
  root := part "program" 0 32 [] [twinClass]

/-- Behind a static method another one of the same name is lost. -/
theorem not_listsMembers_twinClass :
    (twins.toResource ⟨"/w/a.ts"⟩ ⟨"/w"⟩).declarations = [.ofClass (twinClass.toClass twins.text false)] ∧
      (twinClass.toClass twins.text false).methods.map Method.isStatic = [true] ∧
      ¬ (twinClass.toClass twins.text false).ListsMembers twins.text twinClass.callables := by
  refine ⟨?_, by decide +kernel, fun h => ?_⟩
  · rw [view_toResource Resource.declarations_withoutUsages]
    rfl
  · exact absurd (congrArg List.length h.methods_eq) (by decide +kernel)

end Document

end ExportIndex

import ExportIndex.Proofs.Comments.Nodes

/-!
# Declarations without comments

What the nodes of a tidy tree declare, import and export is the same without comments.
-/

namespace ExportIndex

namespace Node

variable {source : String} {node : Node}

/-! ## Constructs -/

theorem fieldText?_withoutComments (h : node.Tidy) (field : String) :
    node.withoutComments.fieldText? source field = node.fieldText? source field := by
  rw [fieldText?, fieldText?, field?_withoutComments h, Option.map_map]
  exact Option.map_congr fun child _ => by rw [Function.comp_apply, text_withoutComments]

theorem visibility_withoutComments (h : node.Tidy) :
    node.withoutComments.visibility source = node.visibility source := by
  rw [visibility, visibility, field?_withoutComments h,
    childOfKind?_withoutComments node (by decide), Option.map_map, Option.any_map]
  simp [Function.comp_def]

theorem typeText?_withoutComments (h : node.Tidy) :
    node.withoutComments.typeText? source = node.typeText? source := by
  rw [typeText?, typeText?, kind_withoutComments, text_withoutComments]
  split
  next hkind =>
    have hleading : node.kind ∈ leadingKinds := List.mem_append_left _ hkind
    rw [head?_namedChildren_withoutComments h hleading, Option.map_map]
    exact Option.map_congr fun child _ => text_withoutComments source child
  next => rfl

theorem fieldType?_withoutComments (h : node.Tidy) (field : String) :
    node.withoutComments.fieldType? source field = node.fieldType? source field := by
  rw [fieldType?, fieldType?, field?_withoutComments h, Option.bind_map]
  exact Option.bind_congr fun child hchild => typeText?_withoutComments (h.of_field? hchild)

theorem typeParameters_withoutComments (h : node.Tidy) :
    node.withoutComments.typeParameters source = node.typeParameters source := by
  rw [typeParameters, typeParameters, field?_withoutComments h]
  cases hlist : node.field? "type_parameters" with
  | none => rfl
  | some list =>
      have hkinds : "comment" ∉ ["type_parameter"] := by decide
      rw [Option.map_some]
      simp only [childrenOfKind_withoutComments list hkinds, List.filterMap_map]
      exact List.filterMap_congr fun parameter hparameter =>
        fieldText?_withoutComments ((h.of_field? hlist).of_mem_childrenOfKind hparameter) "name"

/-! ## Parameters and variables -/

theorem parameterNodes_withoutComments (h : node.Tidy) :
    node.withoutComments.parameterNodes = node.parameterNodes.map withoutComments := by
  rw [parameterNodes, parameterNodes, field?_withoutComments h]
  cases node.field? "parameters" with
  | none => rfl
  | some list => exact childrenOfKind_withoutComments list (by decide)

theorem Tidy.of_mem_parameterNodes (h : node.Tidy) {parameter : Node}
    (hparameter : parameter ∈ node.parameterNodes) : parameter.Tidy := by
  unfold parameterNodes at hparameter
  split at hparameter
  next list hlist => exact (h.of_field? hlist).of_mem_childrenOfKind hparameter
  next => cases hparameter

theorem patternName_withoutComments (h : node.Tidy) :
    patternName source node.withoutComments = patternName source node := by
  rw [patternName, patternName, kind_withoutComments, text_withoutComments]
  split
  next hkind =>
    have hleading : node.kind ∈ leadingKinds := by rw [hkind]; decide
    rw [head?_namedChildren_withoutComments h hleading, Option.map_map]
    congr 1
    exact Option.map_congr fun child _ => text_withoutComments source child
  next => rfl

theorem toParameter_withoutComments (h : node.Tidy) :
    node.withoutComments.toParameter source = node.toParameter source := by
  have hname : (node.field? "pattern").map (patternName source ∘ withoutComments) =
      (node.field? "pattern").map (patternName source) :=
    Option.map_congr fun pattern hpattern => patternName_withoutComments (h.of_field? hpattern)
  simp only [toParameter, field?_withoutComments h, fieldType?_withoutComments h, Option.map_map,
    hname, Option.isSome_map, Option.any_map, kind_withoutComments, span_withoutComments]

theorem parameters_withoutComments (h : node.Tidy) :
    node.withoutComments.parameters source = node.parameters source := by
  rw [parameters, parameters, parameterNodes_withoutComments h, List.map_map]
  exact List.map_congr_left fun parameter hparameter =>
    toParameter_withoutComments (h.of_mem_parameterNodes hparameter)

theorem Tidy.of_patternStep (h : node.Tidy) {children : List Node} {child : Node}
    (hstep : node.patternStep = .into children) (hchild : child ∈ children) : child.Tidy :=
  h.of_mem_children (mem_children_of_patternStep hstep hchild)

/-- A pattern without its comments leads to the same patterns in it, but for comments. -/
theorem patternStep_withoutComments (h : node.Tidy) :
    node.withoutComments.patternStep = match node.patternStep with
      | .name => .name
      | .into children => .into ((children.filter (·.kind ≠ "comment")).map withoutComments) := by
  -- nothing is left out of a list that holds no comment
  have hkept {child? : Option Node} (hchild : ∀ child ∈ child?, child.kind ≠ "comment") :
      child?.toList.filter (·.kind ≠ "comment") = child?.toList :=
    List.filter_eq_self.mpr fun child hmem => decide_eq_true (hchild child (Option.mem_toList.mp hmem))
  have hfield (field : String) : ∀ child ∈ node.field? field, child.kind ≠ "comment" :=
    fun child hchild => h.kind_ne_of_field? (Option.mem_def.mp hchild)
  unfold patternStep
  rw [kind_withoutComments]
  split <;> simp only
  · rw [field?_withoutComments h, hkept (hfield "value"), Option.toList_map]
  · rw [field?_withoutComments h, hkept (hfield "left"), Option.toList_map]
  · rw [field?_withoutComments h, hkept (hfield "left"), Option.toList_map]
  next hkind =>
    have hleading : node.kind ∈ leadingKinds := by rw [hkind]; decide
    rw [head?_namedChildren_withoutComments h hleading,
      hkept fun child hchild => h.kind_head?_ne hleading hchild, Option.toList_map]
  · rw [namedChildren_withoutComments]
  · rw [namedChildren_withoutComments]
  · rfl

theorem boundNames_of_name (h : node.patternStep = .name) :
    node.boundNames source = [node.text source] := by
  rw [boundNames]
  split
  · rfl
  next hstep => rw [h] at hstep; cases hstep

theorem boundNames_of_into {children : List Node} (h : node.patternStep = .into children) :
    node.boundNames source = children.flatMap (boundNames source) := by
  rw [boundNames]
  split
  next hstep => rw [h] at hstep; cases hstep
  next found hstep =>
    rw [h] at hstep
    obtain rfl := PatternStep.into.inj hstep
    simp

theorem boundNames_of_comment (hkind : node.kind = "comment") : node.boundNames source = [] := by
  have hstep : node.patternStep = .into [] := by
    unfold patternStep
    split <;> simp_all
  rw [boundNames_of_into hstep, List.flatMap_nil]

theorem boundNames_withoutComments {node : Node} (h : node.Tidy) :
    node.withoutComments.boundNames source = node.boundNames source := by
  have hwithout := patternStep_withoutComments h
  cases hstep : node.patternStep with
  | name =>
      rw [hstep] at hwithout
      rw [boundNames_of_name hstep, boundNames_of_name hwithout, text_withoutComments]
  | into children =>
      rw [hstep] at hwithout
      rw [boundNames_of_into hstep, boundNames_of_into hwithout]
      refine flatMap_map_filter (fun child hchild _ => ?_) fun child _ hleft => ?_
      · exact boundNames_withoutComments (h.of_patternStep hstep hchild)
      · exact boundNames_of_comment (by simpa using hleft)
termination_by node
decreasing_by exact sizeOf_child (mem_children_of_patternStep hstep hchild)

theorem declaratorVariables_withoutComments {exported isConst : Bool} {scope : VariableScope}
    (h : node.Tidy) : node.withoutComments.declaratorVariables source exported isConst scope =
      node.declaratorVariables source exported isConst scope := by
  rw [declaratorVariables, declaratorVariables, field?_withoutComments h]
  cases hname : node.field? "name" with
  | none => rfl
  | some pattern =>
      simp only [Option.map_some, boundNames_withoutComments (h.of_field? hname),
        kind_withoutComments, fieldType?_withoutComments h, span_withoutComments]

theorem declaredVariables_withoutComments {exported : Bool} {scope : VariableScope} (h : node.Tidy) :
    node.withoutComments.declaredVariables source exported scope =
      node.declaredVariables source exported scope := by
  have hkinds : "comment" ∉ ["variable_declarator"] := by decide
  simp only [declaredVariables, field?_withoutComments h, Option.any_map, text_withoutComments,
    childrenOfKind_withoutComments node hkinds, List.flatMap_map]
  exact List.flatMap_congr fun declarator hdeclarator =>
    declaratorVariables_withoutComments (h.of_mem_childrenOfKind hdeclarator)

theorem opensScope_withoutComments (node : Node) :
    node.withoutComments.opensScope = node.opensScope := by
  rw [opensScope, opensScope, kind_withoutComments]

theorem variablesBelow_eq (source : String) (node : Node) :
    node.variablesBelow source = node.namedChildren.flatMap fun child =>
      if child.kind = "variable_declaration" then child.declaredVariables source false .functionBody
      else if child.kind = "lexical_declaration" then child.declaredVariables source false .block
      else if child.opensScope then []
      else child.variablesBelow source := by
  rw [variablesBelow]
  simp

theorem variablesBelow_withoutComments {node : Node} (h : node.Tidy) :
    node.withoutComments.variablesBelow source = node.variablesBelow source := by
  rw [variablesBelow_eq, variablesBelow_eq, namedChildren_withoutComments]
  refine flatMap_map_filter (fun child hchild _ => ?_) fun child hchild hleft => ?_
  · have hmem := (List.mem_filter.mp hchild).1
    have hinner := h.of_mem_children hmem
    rw [kind_withoutComments, declaredVariables_withoutComments hinner,
      declaredVariables_withoutComments hinner, opensScope_withoutComments,
      variablesBelow_withoutComments hinner]
  · have hkind : child.kind = "comment" := by simpa using hleft
    have hchildren := (h.leaf (List.mem_filter.mp hchild).1 hkind).2
    rw [variablesBelow_eq source child, namedChildren, hchildren]
    simp [hkind]
termination_by node
decreasing_by exact sizeOf_child hmem

theorem bodyVariables_withoutComments (h : node.Tidy) :
    node.withoutComments.bodyVariables source = node.bodyVariables source := by
  rw [bodyVariables, bodyVariables, field?_withoutComments h]
  cases hbody : node.field? "body" with
  | none => rfl
  | some body => exact variablesBelow_withoutComments (h.of_field? hbody)

/-! ## Members -/

section Members

theorem memberName_withoutComments (h : node.Tidy) :
    node.withoutComments.memberName source = node.memberName source := by
  rw [memberName, memberName, fieldText?_withoutComments h]

theorem declaredName_withoutComments (h : node.Tidy) :
    node.withoutComments.declaredName source = node.declaredName source := by
  rw [declaredName, declaredName, fieldText?_withoutComments h]

theorem isAbstractMember_withoutComments (h : node.Tidy) :
    node.withoutComments.isAbstractMember = node.isAbstractMember := by
  rw [isAbstractMember, isAbstractMember, kind_withoutComments,
    contains_modifiers_withoutComments h (by decide)]

theorem isAccessor_withoutComments (h : node.Tidy) :
    node.withoutComments.isAccessor = node.isAccessor := by
  rw [isAccessor, isAccessor, contains_modifiers_withoutComments h (by decide),
    contains_modifiers_withoutComments h (by decide)]

theorem toMethod_withoutComments (h : node.Tidy) :
    node.withoutComments.toMethod source = node.toMethod source := by
  have hmodifier {modifier : String} (hne : modifier ≠ "comment") :=
    contains_modifiers_withoutComments h hne
  rw [toMethod, toMethod, memberName_withoutComments h, visibility_withoutComments h,
    parameters_withoutComments h, fieldType?_withoutComments h, isAbstractMember_withoutComments h,
    hmodifier (by decide), hmodifier (by decide), hasToken_withoutComments node (by decide),
    bodyVariables_withoutComments h, span_withoutComments]

theorem toAccessor_withoutComments (h : node.Tidy) :
    node.withoutComments.toAccessor source = node.toAccessor source := by
  have hmodifier {modifier : String} (hne : modifier ≠ "comment") :=
    contains_modifiers_withoutComments h hne
  have hparameter : (node.withoutComments.parameterNodes.head?.bind fun parameter =>
      parameter.fieldType? source "type") =
        node.parameterNodes.head?.bind fun parameter => parameter.fieldType? source "type" := by
    rw [parameterNodes_withoutComments h, List.head?_map, Option.bind_map]
    exact Option.bind_congr fun parameter hparameter =>
      fieldType?_withoutComments (h.of_mem_parameterNodes (List.mem_of_mem_head? hparameter)) "type"
  rw [toAccessor, toAccessor, hparameter, memberName_withoutComments h,
    visibility_withoutComments h, fieldType?_withoutComments h, isAbstractMember_withoutComments h,
    hmodifier (by decide), hmodifier (by decide), span_withoutComments]

theorem toProperty_withoutComments (h : node.Tidy) :
    node.withoutComments.toProperty source = node.toProperty source := by
  have hmodifier {modifier : String} (hne : modifier ≠ "comment") :=
    contains_modifiers_withoutComments h hne
  rw [toProperty, toProperty, memberName_withoutComments h, visibility_withoutComments h,
    fieldType?_withoutComments h, hmodifier (by decide), hmodifier (by decide),
    hasToken_withoutComments node (by decide), span_withoutComments]

theorem promotesProperty_withoutComments (node : Node) :
    node.withoutComments.promotesProperty = node.promotesProperty := by
  rw [promotesProperty, promotesProperty, childOfKind?_withoutComments node (by decide),
    hasToken_withoutComments node (by decide), Option.isSome_map]

theorem promotedProperties_withoutComments (h : node.Tidy) :
    node.withoutComments.promotedProperties source = node.promotedProperties source := by
  have hpromotes : promotesProperty ∘ withoutComments = promotesProperty :=
    funext promotesProperty_withoutComments
  rw [promotedProperties, promotedProperties, parameterNodes_withoutComments h, List.filter_map,
    List.filterMap_map, hpromotes]
  refine List.filterMap_congr fun parameter hmem => ?_
  have hparameter := h.of_mem_parameterNodes (List.mem_filter.mp hmem).1
  simp only [Function.comp_apply, field?_withoutComments hparameter, Option.map_map,
    visibility_withoutComments hparameter, fieldType?_withoutComments hparameter,
    hasToken_withoutComments parameter (show "readonly" ≠ "comment" by decide),
    kind_withoutComments, span_withoutComments]
  exact Option.map_congr fun pattern _ => by simp

theorem toConstructor_withoutComments (h : node.Tidy) :
    node.withoutComments.toConstructor source = node.toConstructor source := by
  rw [toConstructor, toConstructor, parameters_withoutComments h, bodyVariables_withoutComments h,
    span_withoutComments]

end Members

end Node

namespace ClassDeclaration

variable {source : String} {member : Node}

theorem addConstructor_withoutComments (h : member.Tidy) (c : ClassDeclaration) :
    c.addConstructor source member.withoutComments = c.addConstructor source member := by
  rw [addConstructor, addConstructor, Node.kind_withoutComments,
    Node.promotedProperties_withoutComments h, Node.toConstructor_withoutComments h]

theorem addMember_withoutComments (h : member.Tidy) (c : ClassDeclaration) :
    c.addMember source member.withoutComments = c.addMember source member := by
  rw [addMember, addMember, Node.kind_withoutComments, Node.memberName_withoutComments h,
    addConstructor_withoutComments h, Node.isAccessor_withoutComments h,
    Node.toAccessor_withoutComments h, Node.toMethod_withoutComments h,
    Node.toProperty_withoutComments h]

theorem addMember_of_comment (hkind : member.kind = "comment") (c : ClassDeclaration) :
    c.addMember source member = c := by
  rw [addMember, hkind]
  rfl

end ClassDeclaration

theorem InterfaceDeclaration.addMember_withoutComments {source : String} {member : Node}
    (h : member.Tidy) (i : InterfaceDeclaration) :
    i.addMember source member.withoutComments = i.addMember source member := by
  rw [addMember, addMember, Node.kind_withoutComments, Node.toMethod_withoutComments h,
    Node.toProperty_withoutComments h]

namespace Node

variable {source : String} {node : Node}

theorem toClass_withoutComments {exported : Bool} (h : node.Tidy) :
    node.withoutComments.toClass source exported = node.toClass source exported := by
  simp only [toClass, declaredName_withoutComments h, typeParameters_withoutComments h,
    field?_withoutComments h, kind_withoutComments, span_withoutComments]
  cases hbody : node.field? "body" with
  | none => rfl
  | some body =>
      simp only [Option.map_some, namedChildren_withoutComments]
      have hbody := h.of_field? hbody
      refine foldl_map_filter (fun member hmember _ c => ?_) (fun member _ hleft c => ?_) _
      · exact ClassDeclaration.addMember_withoutComments (hbody.of_mem_namedChildren hmember) c
      · exact ClassDeclaration.addMember_of_comment (by simpa using hleft) c

theorem toInterface_withoutComments {exported : Bool} (h : node.Tidy) :
    node.withoutComments.toInterface source exported = node.toInterface source exported := by
  simp only [toInterface, declaredName_withoutComments h, typeParameters_withoutComments h,
    field?_withoutComments h, span_withoutComments]
  cases hbody : node.field? "body" with
  | none => rfl
  | some body =>
      have hkinds : "comment" ∉ ["property_signature", "method_signature"] := by decide
      simp only [Option.map_some, childrenOfKind_withoutComments body hkinds, List.foldl_map]
      refine List.foldl_ext _ _ _ fun i member hmember => ?_
      exact InterfaceDeclaration.addMember_withoutComments
        ((h.of_field? hbody).of_mem_childrenOfKind hmember) i

/-! ## Statements -/

theorem enumMemberName?_withoutComments (h : node.Tidy) :
    enumMemberName? source node.withoutComments = enumMemberName? source node := by
  rw [enumMemberName?, enumMemberName?, kind_withoutComments, fieldText?_withoutComments h,
    text_withoutComments]

theorem enumMembers_withoutComments (h : node.Tidy) :
    node.withoutComments.enumMembers source = node.enumMembers source := by
  rw [enumMembers, enumMembers, field?_withoutComments h]
  cases hbody : node.field? "body" with
  | none => rfl
  | some body =>
      simp only [Option.map_some, namedChildren_withoutComments, List.filter_map,
        List.filterMap_map, Function.comp_def, kind_withoutComments, List.filter_filter,
        Bool.and_self]
      refine List.filterMap_congr fun member hmember => ?_
      exact enumMemberName?_withoutComments
        ((h.of_field? hbody).of_mem_namedChildren (List.mem_filter.mp hmember).1)

theorem toEnum_withoutComments {exported : Bool} (h : node.Tidy) :
    node.withoutComments.toEnum source exported = node.toEnum source exported := by
  rw [toEnum, toEnum, declaredName_withoutComments h, hasToken_withoutComments node (by decide),
    enumMembers_withoutComments h, span_withoutComments]

theorem toTypeAlias_withoutComments {exported : Bool} (h : node.Tidy) :
    node.withoutComments.toTypeAlias source exported = node.toTypeAlias source exported := by
  simp only [toTypeAlias, declaredName_withoutComments h, typeParameters_withoutComments h,
    field?_withoutComments h, Option.map_map, Function.comp_def, text_withoutComments,
    span_withoutComments]

theorem toFunction_withoutComments {exported : Bool} (h : node.Tidy) :
    node.withoutComments.toFunction source exported = node.toFunction source exported := by
  rw [toFunction, toFunction, declaredName_withoutComments h,
    hasToken_withoutComments node (by decide), typeParameters_withoutComments h,
    parameters_withoutComments h, bodyVariables_withoutComments h, fieldType?_withoutComments h,
    span_withoutComments]

theorem declarations_withoutComments {exported : Bool} (h : node.Tidy) :
    node.withoutComments.declarations source exported = node.declarations source exported := by
  unfold declarations
  rw [kind_withoutComments, toClass_withoutComments h, toInterface_withoutComments h,
    toEnum_withoutComments h, toTypeAlias_withoutComments h, toFunction_withoutComments h,
    declaredVariables_withoutComments h]

theorem defaultExport_withoutComments {span : Span} (h : node.Tidy) :
    node.withoutComments.defaultExport source span = node.defaultExport source span := by
  rw [defaultExport, defaultExport, declarations_withoutComments h]

/-! ## Import and export statements -/

theorem specifiers_withoutComments {kind : String} (hkind : kind ≠ "comment") (h : node.Tidy) :
    node.withoutComments.specifiers source kind = node.specifiers source kind := by
  rw [specifiers, specifiers, childrenOfKind_withoutComments node (by simpa using hkind.symm),
    List.filterMap_map]
  refine List.filterMap_congr fun entry hentry => ?_
  have hentry := h.of_mem_childrenOfKind hentry
  rw [Function.comp_apply, fieldText?_withoutComments hentry, fieldText?_withoutComments hentry]

theorem requireImport?_withoutComments {span : Span} (h : node.Tidy) :
    node.withoutComments.requireImport? source span = node.requireImport? source span := by
  rw [requireImport?, requireImport?, childOfKind?_withoutComments node (by decide),
    fieldText?_withoutComments h]
  cases node.childOfKind? "identifier" with
  | none => rfl
  | some name =>
      cases node.fieldText? source "source" with
      | none => rfl
      | some library => simp only [Option.map_some, text_withoutComments]

/-- The text of the child of some kind. -/
theorem map_text_childOfKind?_withoutComments (source : String) (node : Node) {kind : String}
    (hkind : kind ≠ "comment") : (node.withoutComments.childOfKind? kind).map (text source) =
      (node.childOfKind? kind).map (text source) := by
  rw [childOfKind?_withoutComments node hkind, Option.map_map]
  exact Option.map_congr fun child _ => text_withoutComments source child

theorem clauseImports_withoutComments {library : String} {isTypeOnly : Bool} {span : Span}
    (h : node.Tidy) : node.withoutComments.clauseImports source library isTypeOnly span =
      node.clauseImports source library isTypeOnly span := by
  have hidentifier (child : Node) :=
    map_text_childOfKind?_withoutComments source child (show "identifier" ≠ "comment" by decide)
  have hstar : ((node.withoutComments.childOfKind? "namespace_import").bind fun star =>
      (star.childOfKind? "identifier").map (text source)) =
        (node.childOfKind? "namespace_import").bind fun star =>
          (star.childOfKind? "identifier").map (text source) := by
    rw [childOfKind?_withoutComments node (by decide), Option.bind_map]
    exact Option.bind_congr fun star _ => hidentifier star
  simp only [clauseImports, hidentifier, hstar]
  rw [childOfKind?_withoutComments node (by decide)]
  cases hentries : node.childOfKind? "named_imports" with
  | none => rfl
  | some entries =>
      have hspecifiers : entries.withoutComments.specifiers source "import_specifier" =
          entries.specifiers source "import_specifier" :=
        specifiers_withoutComments (by decide) (h.of_childOfKind? hentries)
      rw [Option.map_some]
      cases (node.childOfKind? "namespace_import").bind fun star =>
          (star.childOfKind? "identifier").map (text source) with
      | none => simp only [hspecifiers]
      | some starLocal => rfl

theorem imports_withoutComments (h : node.Tidy) :
    node.withoutComments.imports source = node.imports source := by
  rw [imports, imports, childOfKind?_withoutComments node (by decide),
    childOfKind?_withoutComments node (by decide), fieldText?_withoutComments h,
    hasToken_withoutComments node (by decide), span_withoutComments]
  cases hrequire : node.childOfKind? "import_require_clause" with
  | some clause =>
      simp only [Option.map_some, requireImport?_withoutComments (h.of_childOfKind? hrequire)]
  | none =>
      cases hclause : node.childOfKind? "import_clause" with
      | none => rfl
      | some clause =>
          simp only [Option.map_some, Option.map_none,
            clauseImports_withoutComments (h.of_childOfKind? hclause)]

theorem assignedExport?_withoutComments (node : Node) :
    node.withoutComments.assignedExport? source = node.assignedExport? source := by
  rw [assignedExport?, assignedExport?, namedChildren_withoutComments, span_withoutComments,
    List.filter_map, List.filter_filter, List.getLast?_map, Option.map_map]
  simp only [Function.comp_def, kind_withoutComments, Bool.and_self, text_withoutComments]

theorem starName?_withoutComments (h : node.Tidy) :
    node.withoutComments.starName? source = node.starName? source := by
  have hhead : (node.withoutComments.childOfKind? "namespace_export").bind (·.namedChildren.head?) =
      ((node.childOfKind? "namespace_export").bind (·.namedChildren.head?)).map withoutComments := by
    rw [childOfKind?_withoutComments node (by decide), Option.bind_map, Option.map_bind]
    refine Option.bind_congr fun star hstar => ?_
    have hkind := List.find?_some hstar
    have hleading : star.kind ∈ leadingKinds := by rw [of_decide_eq_true hkind]; decide
    exact head?_namedChildren_withoutComments (h.of_childOfKind? hstar) hleading
  rw [starName?, starName?, hhead, Option.map_map]
  exact Option.map_congr fun name _ => by rw [Function.comp_apply, text_withoutComments]

theorem clauseExport?_withoutComments (h : node.Tidy) :
    node.withoutComments.clauseExport? source = node.clauseExport? source := by
  rw [clauseExport?, clauseExport?, childOfKind?_withoutComments node (by decide),
    fieldText?_withoutComments h, starName?_withoutComments h,
    hasToken_withoutComments node (by decide), hasToken_withoutComments node (by decide),
    span_withoutComments]
  cases hclause : node.childOfKind? "export_clause" with
  | none => rfl
  | some clause =>
      have hspecifiers : clause.withoutComments.specifiers source "export_specifier" =
          clause.specifiers source "export_specifier" :=
        specifiers_withoutComments (by decide) (h.of_childOfKind? hclause)
      simp only [Option.map_some, hspecifiers]

theorem export?_withoutComments (h : node.Tidy) :
    node.withoutComments.export? source = node.export? source := by
  rw [export?, export?, hasToken_withoutComments node (by decide),
    hasToken_withoutComments node (by decide), hasToken_withoutComments node (by decide),
    assignedExport?_withoutComments, clauseExport?_withoutComments h]

end Node

end ExportIndex

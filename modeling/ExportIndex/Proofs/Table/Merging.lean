import ExportIndex.Proofs.Resolution.Shape
import ExportIndex.Proofs.Table.Modules

/-!
# Blocks that make one module

The blocks of one name are joined in their order. What they hold stands block after block, and a
target of an `export =` moves past what stands before its own block, so that it points at the item
that it pointed at before.
-/

namespace ExportIndex

/-- The targets of an `export =`. -/
def Export.targets : Export → List AssignedTarget
  | assigned _ targets _ => targets
  | _ => []

/-- A target, once some blocks stand before its own. -/
def AssignedTarget.behind (before : List Resource) : AssignedTarget → AssignedTarget
  | declaration index => declaration (index + (before.flatMap Resource.declarations).length)
  | resource index => resource (index + (before.flatMap Resource.resources).length)

/-- An export, once some blocks stand before its own. -/
def Export.behind (before : List Resource) : Export → Export
  | assigned name targets span => assigned name (targets.map (AssignedTarget.behind before)) span
  | e => e

namespace Resource

/-- The item that a target points at. -/
def targeted? (r : Resource) : AssignedTarget → Option (Declaration ⊕ Resource)
  | .declaration index => r.declarations[index]?.map .inl
  | .resource index => r.resources[index]?.map .inr

/-- Every target of an `export =` points at an item. -/
def TargetsInRange (r : Resource) : Prop :=
  ∀ e ∈ r.exports, ∀ target ∈ e.targets, (r.targeted? target).isSome

/-- A resource holds what some blocks hold, one after another. -/
structure Concatenates (whole : Resource) (blocks : List Resource) : Prop where
  declarations_eq : whole.declarations = blocks.flatMap declarations
  imports_eq : whole.imports = blocks.flatMap imports
  resources_eq : whole.resources = blocks.flatMap resources
  usages_eq : whole.usages.toList = (blocks.flatMap fun block => block.usages.toList).eraseDups
  length_exports : whole.exports.length = (blocks.flatMap exports).length

/-- Moreover, the exports are those of the blocks, and what their targets point at is found behind
the blocks before. -/
structure Joins (whole : Resource) (blocks : List Resource) : Prop
    extends Concatenates whole blocks where
  exports_eq : whole.exports = blocks.zipIdx.flatMap fun (block, position) =>
    block.exports.map (Export.behind (blocks.take position))
  targeted?_eq : ∀ before block after, blocks = before ++ block :: after →
    ∀ e ∈ block.exports, ∀ target ∈ e.targets,
      whole.targeted? (target.behind before) = block.targeted? target ∧
      (block.targeted? target).isSome

/-- The value under a name of what some targets of a resource point at. -/
def valueAt (r : Resource) (name : String) (targets : List AssignedTarget) : AssignedValue where
  name
  declarations := (targets.filterMap r.targeted?).filterMap Sum.getLeft?
  resources := (targets.filterMap r.targeted?).filterMap Sum.getRight?

/-- A module has the value of the first block that has an `export =`. The value lists what the targets of
this statement point at inside its own block. -/
structure TakesFirstValue (value? : Option AssignedValue) (blocks : List Resource) : Prop where
  of_assigned : ∀ before block after earlier name targets span later,
    blocks = before ++ block :: after → (∀ other ∈ before, ∀ e ∈ other.exports, e.isAssigned = false) →
    block.exports = earlier ++ .assigned name targets span :: later →
    (∀ e ∈ earlier, e.isAssigned = false) → value? = some (block.valueAt name targets)
  of_not_assigned : (∀ block ∈ blocks, ∀ e ∈ block.exports, e.isAssigned = false) → value? = none

variable {r later : Resource} {target : AssignedTarget}

/-! ## One block after another -/

/-- What a target points at stays where it is when another block comes. -/
theorem targeted?_merge (h : (r.targeted? target).isSome) :
    (r.merge later).targeted? target = r.targeted? target := by
  cases target with
  | declaration index =>
      have hindex : index < r.declarations.length := by simpa [targeted?] using h
      simp [targeted?, merge, List.getElem?_append_left hindex]
  | resource index =>
      have hindex : index < r.resources.length := by simpa [targeted?] using h
      simp [targeted?, merge, List.getElem?_append_left hindex]

/-- A target of the block that comes moves with what it points at. -/
theorem targeted?_merge_moveBehind (h : (later.targeted? target).isSome) :
    (r.merge later).targeted? (target.moveBehind r later) = later.targeted? target := by
  cases target with
  | declaration index =>
      have hindex : index < later.declarations.length := by simpa [targeted?] using h
      simp [targeted?, merge, AssignedTarget.moveBehind, movePosition, hindex,
        List.getElem?_append_right]
  | resource index =>
      have hindex : index < later.resources.length := by simpa [targeted?] using h
      simp [targeted?, merge, AssignedTarget.moveBehind, movePosition, hindex,
        List.getElem?_append_right]

theorem targets_moveBehind (r later : Resource) (e : Export) :
    (e.moveBehind r later).targets = e.targets.map (AssignedTarget.moveBehind r later) := by
  cases e <;> rfl

theorem TargetsInRange.merge (hr : r.TargetsInRange) (hlater : later.TargetsInRange) :
    (r.merge later).TargetsInRange := by
  intro e he target htarget
  rcases List.mem_append.mp he with he | he
  · rw [targeted?_merge (hr e he target htarget)]
    exact hr e he target htarget
  · obtain ⟨own, hown, rfl⟩ := List.mem_map.mp he
    rw [targets_moveBehind] at htarget
    obtain ⟨unmoved, hunmoved, rfl⟩ := List.mem_map.mp htarget
    rw [targeted?_merge_moveBehind (hlater own hown unmoved hunmoved)]
    exact hlater own hown unmoved hunmoved

/-! ## Any number of blocks -/

theorem Concatenates.single (r : Resource) : r.Concatenates [r] where
  declarations_eq := by simp
  imports_eq := by simp
  resources_eq := by simp
  usages_eq := by rw [List.flatMap_singleton, ← NameSet.toList_ofList, NameSet.ofList_toList]
  length_exports := by simp

theorem Joins.single (r : Resource) (hr : r.TargetsInRange) : r.Joins [r] where
  toConcatenates := .single r
  exports_eq := by
    have htarget : AssignedTarget.behind [] = id := by
      funext target
      cases target <;> rfl
    have hstays : Export.behind [] = id := by
      funext e
      cases e <;> simp [Export.behind, htarget]
    simp [hstays]
  targeted?_eq before block after hsplit e he target htarget := by
    obtain ⟨rfl, rfl⟩ : before = [] ∧ block = r := by
      cases before <;> simp_all
    refine ⟨?_, hr e he target htarget⟩
    cases target <;> rfl

variable {whole block : Resource} {blocks : List Resource}

theorem Concatenates.merge (hwhole : whole.Concatenates blocks) (block : Resource) :
    (whole.merge block).Concatenates (blocks ++ [block]) where
  declarations_eq := by simp [Resource.merge, hwhole.declarations_eq]
  imports_eq := by simp [Resource.merge, hwhole.imports_eq]
  resources_eq := by simp [Resource.merge, hwhole.resources_eq]
  usages_eq := by
    rw [Resource.merge, NameSet.union_eq_ofList, NameSet.toList_ofList, hwhole.usages_eq,
      List.flatMap_append, List.flatMap_singleton, eraseDups_eraseDups_append]
  length_exports := by
    rw [Resource.merge, List.length_append, List.length_map, hwhole.length_exports,
      List.flatMap_append, List.flatMap_singleton, List.length_append]

/-- A target moves by as much as the blocks before hold. -/
theorem Joins.moveBehind_target (hjoins : whole.Joins blocks)
    (h : (block.targeted? target).isSome) :
    target.moveBehind whole block = target.behind blocks := by
  cases target with
  | declaration index =>
      have hindex : index < block.declarations.length := by simpa [targeted?] using h
      rw [AssignedTarget.moveBehind, movePosition, if_pos hindex, hjoins.declarations_eq]
      rfl
  | resource index =>
      have hindex : index < block.resources.length := by simpa [targeted?] using h
      rw [AssignedTarget.moveBehind, movePosition, if_pos hindex, hjoins.resources_eq]
      rfl

theorem Joins.moveBehind_exports (hjoins : whole.Joins blocks) (hblock : block.TargetsInRange) :
    block.exports.map (Export.moveBehind whole block) = block.exports.map (Export.behind blocks) := by
  refine List.map_congr_left fun e he => ?_
  cases e with
  | assigned name targets span =>
      have htargets : ∀ target ∈ targets, target.moveBehind whole block = target.behind blocks :=
        fun target htarget => hjoins.moveBehind_target (hblock _ he target htarget)
      rw [Export.moveBehind, Export.behind, List.map_congr_left htargets]
  | all | named => rfl

theorem Joins.merge (hjoins : whole.Joins blocks) (hblock : block.TargetsInRange) :
    (whole.merge block).Joins (blocks ++ [block]) where
  toConcatenates := hjoins.toConcatenates.merge block
  exports_eq := by
    have hearlier : ∀ pair ∈ blocks.zipIdx,
        pair.1.exports.map (Export.behind ((blocks ++ [block]).take pair.2)) =
          pair.1.exports.map (Export.behind (blocks.take pair.2)) := by
      intro pair hpair
      have hposition := List.snd_lt_of_mem_zipIdx hpair
      rw [List.take_append_of_le_length (by omega)]
    rw [Resource.merge, hjoins.moveBehind_exports hblock, hjoins.exports_eq, List.zipIdx_append,
      List.flatMap_append, List.flatMap_congr hearlier]
    simp
  targeted?_eq before other after hsplit e he target htarget := by
    rcases List.eq_nil_or_concat after with rfl | ⟨rest, last, rfl⟩
    · obtain ⟨rfl, hlast⟩ := List.append_inj' hsplit rfl
      obtain rfl := List.singleton_inj.mp hlast
      have hrange := hblock e he target htarget
      rw [← hjoins.moveBehind_target hrange]
      exact ⟨targeted?_merge_moveBehind hrange, hrange⟩
    · have hblocks : blocks = before ++ other :: rest := by
        have hconcat : blocks ++ [block] = (before ++ other :: rest) ++ [last] := by simpa using hsplit
        exact (List.append_inj' hconcat rfl).1
      obtain ⟨hsame, hrange⟩ := hjoins.targeted?_eq before other rest hblocks e he target htarget
      rw [targeted?_merge (by rwa [hsame])]
      exact ⟨hsame, hrange⟩

/-! ## The value of an `export =` -/

theorem assignedDeclarations_eq (r : Resource) (targets : List AssignedTarget) :
    r.assignedDeclarations targets = (targets.filterMap r.targeted?).filterMap Sum.getLeft? := by
  rw [assignedDeclarations, List.filterMap_filterMap]
  refine List.filterMap_congr fun target _ => ?_
  cases target <;> simp [targeted?, Option.bind_map, Function.comp_def]

theorem assignedResources_eq (r : Resource) (targets : List AssignedTarget) :
    r.assignedResources targets = (targets.filterMap r.targeted?).filterMap Sum.getRight? := by
  rw [assignedResources, List.filterMap_filterMap]
  refine List.filterMap_congr fun target _ => ?_
  cases target <;> simp [targeted?, Option.bind_map, Function.comp_def]

theorem isAssigned_behind (before : List Resource) (e : Export) :
    (e.behind before).isAssigned = e.isAssigned := by
  cases e <;> rfl

variable {before after : List Resource}

/-- The exports of a block stand behind those of the blocks before it. -/
theorem Joins.exports_split (hjoins : whole.Joins blocks) (hsplit : blocks = before ++ block :: after) :
    ∃ first last, whole.exports = first ++ block.exports.map (Export.behind before) ++ last ∧
      ∀ e ∈ first, ∃ other ∈ before, ∃ own ∈ other.exports, e.isAssigned = own.isAssigned := by
  have htake : blocks.take before.length = before := by simp [hsplit]
  refine ⟨before.zipIdx.flatMap fun found => found.1.exports.map (Export.behind (blocks.take found.2)),
    (after.zipIdx (before.length + 1)).flatMap fun found =>
      found.1.exports.map (Export.behind (blocks.take found.2)), ?_, ?_⟩
  · have hzip : blocks.zipIdx = before.zipIdx ++ (block, before.length) ::
        after.zipIdx (before.length + 1) := by
      rw [hsplit, List.zipIdx_append, List.zipIdx_cons]
      simp
    rw [hjoins.exports_eq, hzip, List.flatMap_append, List.flatMap_cons, List.append_assoc]
    dsimp only
    rw [htake]
  · intro e he
    obtain ⟨⟨other, position⟩, hother, he⟩ := List.mem_flatMap.mp he
    obtain ⟨own, hown, rfl⟩ := List.mem_map.mp he
    exact ⟨other, List.mem_of_getElem? (List.mem_zipIdx_iff_getElem?.mp hother), own, hown,
      isAssigned_behind _ own⟩

/-- What the moved targets of a block point at is what they pointed at inside the block. -/
theorem Joins.filterMap_targeted? (hjoins : whole.Joins blocks)
    (hsplit : blocks = before ++ block :: after) {e : Export} (he : e ∈ block.exports) :
    (e.targets.map (AssignedTarget.behind before)).filterMap whole.targeted? =
      e.targets.filterMap block.targeted? := by
  rw [List.filterMap_map]
  exact List.filterMap_congr fun target htarget =>
    (hjoins.targeted?_eq before block after hsplit e he target htarget).1

end Resource

theorem ModuleEntry.takesFirstValue {entry : ModuleEntry} (hfilled : entry.Filled)
    {blocks : List Resource} (hjoins : entry.resource.Joins blocks) :
    Resource.TakesFirstValue entry.assignedValue? blocks where
  of_assigned before block after earlier name targets span later hsplit hbefore hexports hearlier := by
    obtain ⟨first, last, hwhole, hfirst⟩ := hjoins.exports_split hsplit
    have hmoved : entry.resource.exports = (first ++ earlier.map (Export.behind before)) ++
        .assigned name (targets.map (AssignedTarget.behind before)) span ::
          (later.map (Export.behind before) ++ last) := by
      simp [hwhole, hexports, Export.behind]
    have hnone : ∀ e ∈ first ++ earlier.map (Export.behind before), e.isAssigned = false := by
      intro e he
      rcases List.mem_append.mp he with he | he
      · obtain ⟨other, hother, own, hown, heq⟩ := hfirst e he
        rw [heq, hbefore other hother own hown]
      · obtain ⟨own, hown, rfl⟩ := List.mem_map.mp he
        rw [Resource.isAssigned_behind, hearlier own hown]
    have htargets : (targets.map (AssignedTarget.behind before)).filterMap entry.resource.targeted? =
        targets.filterMap block.targeted? :=
      hjoins.filterMap_targeted? hsplit (e := .assigned name targets span) (by simp [hexports])
    rw [assignedValue?_of_split hfilled hmoved hnone, Resource.assignedDeclarations_eq,
      Resource.assignedResources_eq, htargets]
    rfl
  of_not_assigned h := by
    apply assignedValue?_of_not_assigned
    intro e he
    rw [hjoins.exports_eq] at he
    obtain ⟨⟨block, position⟩, hblock, he⟩ := List.mem_flatMap.mp he
    obtain ⟨own, hown, rfl⟩ := List.mem_map.mp he
    rw [Resource.isAssigned_behind]
    exact h block (List.mem_of_getElem? (List.mem_zipIdx_iff_getElem?.mp hblock)) own hown

/-! ## The modules that blocks make -/

/-- A module holds what the blocks hold that make it. -/
theorem ModuleSources.concatenates_of_joined? {blocks : List AmbientModule} {whole : AmbientModule}
    (h : joined? blocks = some whole) : whole.resource.Concatenates (blocks.map (·.resource)) := by
  induction blocks using List.reverseRecOn generalizing whole with
  | nil => cases h
  | append_singleton blocks block ih =>
      rw [joined?_concat, Option.some.injEq] at h
      subst h
      rw [List.map_append, List.map_singleton]
      cases hbefore : joined? blocks with
      | none =>
          rw [joined?_eq_none_iff.mp hbefore]
          exact .single _
      | some earlier => exact (ih hbefore).merge _

/-- Blocks make a module that holds all they hold, and in which their targets point at what they pointed
at before. -/
theorem ModuleSources.exists_joined {blocks : List AmbientModule} (hne : blocks ≠ [])
    (hrange : ∀ block ∈ blocks, block.resource.TargetsInRange) :
    ∃ whole, joined? blocks = some whole ∧ whole.resource.TargetsInRange ∧
      whole.resource.Joins (blocks.map (·.resource)) := by
  induction blocks using List.reverseRecOn with
  | nil => exact absurd rfl hne
  | append_singleton blocks block ih =>
      have hblock := hrange block (List.mem_append_right _ List.mem_cons_self)
      rcases List.eq_nil_or_concat blocks with rfl | hconcat
      · exact ⟨block, rfl, hblock, .single _ hblock⟩
      · obtain ⟨earlier, hearlier, hinRange, hjoins⟩ := ih
          (by rintro rfl; simp at hconcat)
          fun other hother => hrange other (List.mem_append_left _ hother)
        refine ⟨_, by rw [joined?_concat, hearlier], hinRange.merge hblock, ?_⟩
        rw [List.map_append]
        exact hjoins.merge hblock

namespace ModuleTable

open ModuleSources

/-- The module of a name that no file has for a key is made of all blocks of this name. It holds what
they hold, in their order; it is declared in the file of the first of them; what a target of a block
points at is found in the module where the target has moved to; and the value that the module ends up
with lists what the first `export =` of the blocks points at inside its own block. -/
theorem build_joins {resources : List Resource} {key : ModuleKey}
    (hkey : key ∈ (build true resources).keys) (hhoisted : key ∉ resources.map Resource.identifier)
    (hrange : ∀ block ∈ blocksOf key resources, block.resource.TargetsInRange) :
    ∃ entry first rest, (build true resources).get? key = some entry ∧
      blocksOf key resources = first :: rest ∧ entry.declaredIn? = some first.declaredIn ∧
      entry.resource.Joins ((blocksOf key resources).map (·.resource)) ∧
      Resource.TakesFirstValue ((build true resources).resolve.source key).assigned?
        ((blocksOf key resources).map (·.resource)) := by
  rw [keys_build_eq, List.mem_append, List.mem_eraseDups, mem_hoistedNames_iff] at hkey
  have hne := blocksOf_ne_nil_iff.mpr (hkey.resolve_left hhoisted).2.1
  obtain ⟨whole, hwhole, -, hjoins⟩ := exists_joined hne hrange
  obtain ⟨first, rest, hblocks⟩ := List.exists_cons_of_ne_nil hne
  have hfile : whole.declaredIn = first.declaredIn := by
    simpa [hblocks] using (declaredIn_of_joined? hwhole).symm
  have hget : (build true resources).get? key = some (ModuleEntry.ofResource
      (ofResources true resources).isKnown (some whole.declaredIn) key whole.resource) := by
    rw [get?_build_of_notMem hhoisted, if_pos rfl, hwhole]
    rfl
  refine ⟨_, first, rest, hget, hblocks, congrArg some hfile, hjoins, ?_⟩
  obtain ⟨seen, hseen⟩ := exists_surface_eq_resolve hget
  rw [hseen, (ModuleEntry.assigned?_surface _ seen).1]
  exact ModuleEntry.takesFirstValue (ModuleEntry.filled_ofTargets _ _ _ _ _) hjoins

/-- A block `declare module "x"` with some constants and an `export =` of the last of them, or with
none. -/
def constantsBlock (names : List String) (assigns : Bool) : Resource :=
  { kind := .moduleBlock
    name? := some "x"
    ambient := true
    declarations := names.map exportedConstant
    exports := if assigns then
        [.assigned (names.getLastD "") [.declaration (names.length - 1)] default]
      else [] }

/-- Three declaration files with blocks of one name. The second and the third have an `export =`. -/
def blockFiles : List Resource :=
  [{ workspaceFile "a.d" [] [] [] with resources := [constantsBlock ["p"] false] },
    { workspaceFile "b.d" [] [] [] with resources := [constantsBlock ["q", "r"] true] },
    { workspaceFile "c.d" [] [] [] with resources := [constantsBlock ["s"] true] }]

theorem build_joins_blockFiles :
    (∃ entry first rest, (build true blockFiles).get? "x" = some entry ∧
      blocksOf "x" blockFiles = first :: rest ∧ entry.declaredIn? = some first.declaredIn ∧
      entry.resource.Joins ((blocksOf "x" blockFiles).map (·.resource)) ∧
      Resource.TakesFirstValue ((build true blockFiles).resolve.source "x").assigned?
        ((blocksOf "x" blockFiles).map (·.resource))) ∧
    "x" ∈ (build true blockFiles).keys ∧ "x" ∉ blockFiles.map Resource.identifier ∧
    ∀ block ∈ blocksOf "x" blockFiles, block.resource.TargetsInRange := by
  have hkey : "x" ∈ (build true blockFiles).keys := by decide +kernel
  have hhoisted : "x" ∉ blockFiles.map Resource.identifier := by decide +kernel
  have hrange : ∀ block ∈ blocksOf "x" blockFiles, block.resource.TargetsInRange := by
    unfold Resource.TargetsInRange
    decide +kernel
  exact ⟨build_joins hkey hhoisted hrange, hkey, hhoisted, hrange⟩

example : ((build true blockFiles).get? "x").map (·.resource.exports) =
      some [.assigned "r" [.declaration 2] default, .assigned "s" [.declaration 3] default] ∧
    ((build true blockFiles).resolve.source "x").assigned?.map (·.declarations.map Declaration.name?) =
      some [some "r"] := by
  decide +kernel

end ModuleTable

end ExportIndex

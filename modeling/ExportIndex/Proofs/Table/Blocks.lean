import ExportIndex.ModuleTable
import ExportIndex.Proofs.Collections.Registries

/-!
# Module blocks

A declaration file declares modules by blocks. The blocks of one name, in whatever files they stand,
make one module, which is declared in the file of the first of them.
-/

namespace ExportIndex

/-- The blocks by which a declaration file declares modules. Other files declare none. -/
def Resource.moduleBlocks (r : Resource) : List Resource :=
  if r.isTypings then r.resources.filter Resource.isAmbientModule else []

def Resource.blockNames (r : Resource) : List ModuleKey := r.moduleBlocks.map Resource.identifier

namespace ModuleSources

/-- The module blocks of some files in their order, each with the file that declares it. -/
def blocks (resources : List Resource) : List AmbientModule :=
  resources.flatMap fun r => r.moduleBlocks.map fun block => ⟨block, r.identifier⟩

/-- The blocks of one name. -/
def blocksOf (name : ModuleKey) (resources : List Resource) : List AmbientModule :=
  (blocks resources).filter (·.resource.identifier = name)

/-- What a block makes of the module that the blocks before it have made. -/
def joinBlock (block : AmbientModule) : Option AmbientModule → AmbientModule
  | some earlier => { earlier with resource := earlier.resource.merge block.resource }
  | none => block

/-- The module that some blocks make together. -/
def joined? (blocks : List AmbientModule) : Option AmbientModule :=
  blocks.foldl (fun earlier? block => some (joinBlock block earlier?)) none

/-- The names of the modules that blocks may make. -/
def blockNames (resources : List Resource) : List ModuleKey :=
  (blocks resources).map (·.resource.identifier)

variable {resources : List Resource} {name : ModuleKey}

theorem blockNames_eq_flatMap (resources : List Resource) :
    blockNames resources = resources.flatMap Resource.blockNames := by
  rw [blockNames, blocks, List.map_flatMap]
  exact List.flatMap_congr fun r _ => List.map_map

theorem mem_blocks_iff {block : AmbientModule} : block ∈ blocks resources ↔
    ∃ r ∈ resources, block.resource ∈ r.moduleBlocks ∧ block.declaredIn = r.identifier := by
  simp only [blocks, List.mem_flatMap, List.mem_map]
  constructor
  · rintro ⟨r, hr, inner, hinner, rfl⟩
    exact ⟨r, hr, hinner, rfl⟩
  · rintro ⟨r, hr, hinner, hfile⟩
    exact ⟨r, hr, _, hinner, by rw [← hfile]⟩

theorem blocksOf_append (name : ModuleKey) (first second : List Resource) :
    blocksOf name (first ++ second) = blocksOf name first ++ blocksOf name second := by
  rw [blocksOf, blocks, List.flatMap_append, List.filter_append]
  rfl

theorem blocksOf_cons (name : ModuleKey) (r : Resource) (rest : List Resource) :
    blocksOf name (r :: rest) = blocksOf name [r] ++ blocksOf name rest :=
  blocksOf_append name [r] rest

theorem blocksOf_ne_nil_iff : blocksOf name resources ≠ [] ↔ name ∈ blockNames resources := by
  simp [blocksOf, blockNames, List.filter_eq_nil_iff]

theorem joined?_append (first second : List AmbientModule) : joined? (first ++ second) =
    second.foldl (fun earlier? block => some (joinBlock block earlier?)) (joined? first) :=
  List.foldl_append

theorem joined?_concat (blocks : List AmbientModule) (block : AmbientModule) :
    joined? (blocks ++ [block]) = some (joinBlock block (joined? blocks)) :=
  joined?_append blocks [block]

theorem joined?_eq_none_iff {blocks : List AmbientModule} : joined? blocks = none ↔ blocks = [] := by
  induction blocks using List.reverseRecOn with
  | nil => simp [joined?]
  | append_singleton blocks block _ => simp [joined?_concat]

theorem exists_joined?_of_mem {blocks : List AmbientModule} {block : AmbientModule}
    (h : block ∈ blocks) : ∃ whole, joined? blocks = some whole :=
  Option.ne_none_iff_exists'.mp fun hnone => List.ne_nil_of_mem h (joined?_eq_none_iff.mp hnone)

/-- The file of the first block declares the module. -/
theorem declaredIn_of_joined? {blocks : List AmbientModule} {whole : AmbientModule}
    (h : joined? blocks = some whole) : blocks.head?.map (·.declaredIn) = some whole.declaredIn := by
  induction blocks using List.reverseRecOn generalizing whole with
  | nil => simp [joined?] at h
  | append_singleton blocks block ih =>
      rw [joined?_concat, Option.some.injEq] at h
      subst h
      cases hbefore : joined? blocks with
      | none => simp [joined?_eq_none_iff.mp hbefore, joinBlock]
      | some earlier =>
          have hhead := ih hbefore
          cases blocks with
          | nil => simp at hhead
          | cons first rest => simpa [joinBlock] using hhead

/-! ## Modules by name -/

theorem ambientsOf_eq (resources : List Resource) :
    ambientsOf resources = (blocks resources).foldl
      (fun modules block => modules.upsert block.resource.identifier (joinBlock block)) .empty := by
  rw [ambientsOf, blocks, List.foldl_flatMap]
  refine List.foldl_ext _ _ _ fun modules r _ => ?_
  rw [addBlocks, Resource.moduleBlocks]
  split
  · rw [List.foldl_map]
    refine List.foldl_ext _ _ _ fun modules block _ => ?_
    rw [addBlock]
    congr 1
  · rfl

theorem keys_ambientsOf (resources : List Resource) :
    (ambientsOf resources).keys = (blockNames resources).eraseDups := by
  rw [ambientsOf_eq]
  exact Registry.keys_foldl_upsert (·.resource.identifier) joinBlock (blocks resources)

/-- A name stands for the module that all its blocks make. -/
theorem get?_ambientsOf (resources : List Resource) (name : ModuleKey) :
    (ambientsOf resources).get? name = joined? (blocksOf name resources) := by
  rw [ambientsOf_eq]
  exact Registry.get?_foldl_upsert (·.resource.identifier) joinBlock (blocks resources) .empty name

/-! ## The modules of some resources -/

section OfResources

theorem keys_filesOf (resources : List Resource) :
    (filesOf resources).keys = (resources.map Resource.identifier).eraseDups := by
  rw [filesOf, Registry.keys_ofList_eq, List.map_map]
  rfl

/-- The last of several files with one key stands. -/
theorem get?_filesOf (resources : List Resource) (key : ModuleKey) :
    (filesOf resources).get? key = (resources.filter (·.identifier = key)).getLast? := by
  rw [filesOf, Registry.get?_ofList, List.filter_map, List.map_map, Function.comp_def,
    Function.comp_def, List.map_id']

theorem contains_filesOf (resources : List Resource) (key : ModuleKey) :
    (filesOf resources).contains key = decide (key ∈ resources.map Resource.identifier) := by
  rw [Bool.eq_iff_iff, decide_eq_true_iff, Registry.contains_iff, keys_filesOf, List.mem_eraseDups]

variable (hoists : Bool) (resources : List Resource)

/-- The names of the blocks that become modules of their own: no file has taken them. -/
def hoistedNames : List ModuleKey :=
  if hoists then
    (blockNames resources).eraseDups.filter (· ∉ resources.map Resource.identifier)
  else []

theorem files_ofResources : (ofResources hoists resources).files = filesOf resources := rfl

theorem ambients_eq : (ofResources hoists resources).ambients =
    (if hoists then ambientsOf resources else .empty).filter
      fun name _ => decide (name ∉ resources.map Resource.identifier) := by
  simp only [ofResources, contains_filesOf, decide_not]

theorem keys_ambients :
    (ofResources hoists resources).ambients.keys = hoistedNames hoists resources := by
  rw [ambients_eq, Registry.keys_filter, hoistedNames]
  cases hoists with
  | false => rfl
  | true => rw [if_pos rfl, if_pos rfl, keys_ambientsOf]

theorem get?_ambients {name : ModuleKey} (hname : name ∉ resources.map Resource.identifier) :
    (ofResources hoists resources).ambients.get? name =
      if hoists then joined? (blocksOf name resources) else none := by
  rw [ambients_eq, Registry.get?_filter, if_pos (by simpa using hname)]
  cases hoists with
  | false => rfl
  | true => exact get?_ambientsOf resources name

theorem mem_hoistedNames_iff {hoists : Bool} {resources : List Resource} {name : ModuleKey} :
    name ∈ hoistedNames hoists resources ↔
      hoists = true ∧ name ∈ blockNames resources ∧ name ∉ resources.map Resource.identifier := by
  cases hoists <;> simp [hoistedNames]

end OfResources

end ModuleSources

end ExportIndex

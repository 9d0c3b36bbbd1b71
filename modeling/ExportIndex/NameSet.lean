/-!
# Name sets

A name set lists distinct names in the order in which they were first seen.
-/

namespace ExportIndex

/-- Distinct names in the order in which they were first seen. -/
structure NameSet where
  toList : List String
  nodup : toList.Nodup
  deriving DecidableEq

namespace NameSet

def empty : NameSet := ⟨[], by simp⟩

instance : Inhabited NameSet := ⟨empty⟩

/-- Add a name at the end unless it is there already. -/
def insert (s : NameSet) (name : String) : NameSet :=
  if h : name ∈ s.toList then s
  else ⟨s.toList ++ [name], by
    refine List.nodup_append.mpr ⟨s.nodup, by simp, ?_⟩
    intro a ha b hb hab
    simp only [List.mem_singleton] at hb
    exact h (hb ▸ hab ▸ ha)⟩

def insertAll (s : NameSet) (names : List String) : NameSet := names.foldl insert s

/-- The distinct names of a list, in the order of their first occurrence. -/
def ofList (names : List String) : NameSet := empty.insertAll names

/-- Add the names of another set, in its order. -/
def union (s other : NameSet) : NameSet := s.insertAll other.toList

theorem toList_insert (s : NameSet) (name : String) :
    (s.insert name).toList = if name ∈ s.toList then s.toList else s.toList ++ [name] := by
  unfold insert
  split <;> simp_all

@[simp] theorem mem_toList_insert {s : NameSet} {name other : String} :
    other ∈ (s.insert name).toList ↔ other ∈ s.toList ∨ other = name := by
  rw [toList_insert]
  split
  · next h =>
    exact ⟨Or.inl, fun hor => hor.elim id fun e => e ▸ h⟩
  · simp

theorem mem_toList_insertAll {s : NameSet} {names : List String} {name : String} :
    name ∈ (s.insertAll names).toList ↔ name ∈ s.toList ∨ name ∈ names := by
  unfold insertAll
  induction names generalizing s with
  | nil => simp
  | cons head rest ih => rw [List.foldl_cons, ih, mem_toList_insert, List.mem_cons, or_assoc]

@[simp] theorem mem_toList_ofList {names : List String} {name : String} :
    name ∈ (ofList names).toList ↔ name ∈ names := by
  simp [ofList, mem_toList_insertAll, empty]

end NameSet

end ExportIndex

import ExportIndex.Json

/-!
# Records, tags and words

A record is written as an object with one field for each of its parts. When it is read, an array of
the values of all fields, in their order, stands for it as well. A tagged record has its kind in
front of the other values. What stands inside a tagged record may be shortened further: a position
may stand for a tag, and a word may come with an empty object.
-/

namespace ExportIndex

namespace Json

/-- The object that stands for the record with the given fields. -/
def record? (names : List String) : Json → Option Json
  | object fields => some (object fields)
  | array items =>
    if items.length = names.length then some (object (names.zip items)) else none
  | _ => none

/-- The object that stands for the record with the given fields, the last of which may be absent
from an array. -/
def openRecord? (names : List String) : Json → Option Json
  | object fields => some (object fields)
  | array items =>
    if items.length ≤ names.length then some (object (names.zip items)) else none
  | _ => none

/-- The tag of a tagged record, and what it is the tag of. -/
def tagged? : Json → Option (Json × Json)
  | object fields => (fields.lookup "kind").map fun tag => (tag, object fields)
  | array (tag :: rest) => some (tag, array rest)
  | _ => none

/-- Where a value stands. -/
inductive Place where
  | outside
  | inside
  deriving DecidableEq

/-- The tag that a value gives: a text, or inside a tagged record the position of one of the known
tags. -/
def tag? (place : Place) (tags : List String) : Json → Option String
  | text tag => some tag
  | natural index => if place = .inside then tags[index]? else none
  | _ => none

/-- Whether a value adds nothing to the word that it comes with. -/
def addsNothing (place : Place) : Json → Bool
  | null => true
  | object [] => place = .inside
  | _ => false

/-- The word that a value gives: a text, or the only field of an object that adds nothing to it. -/
def word? (place : Place) : Json → Option String
  | text word => some word
  | object [(word, value)] => if value.addsNothing place then some word else none
  | _ => none

@[simp] theorem record?_object (names : List String) (fields : List (String × Json)) :
    record? names (object fields) = some (object fields) := rfl

theorem mem_of_lookup_zip {names : List String} {items : List Json} {field : String}
    {inner : Json} (h : (names.zip items).lookup field = some inner) : inner ∈ items := by
  induction names generalizing items with
  | nil => simp at h
  | cons name names ih =>
    cases items with
    | nil => simp at h
    | cons item items =>
      rw [List.zip_cons_cons, List.lookup_cons] at h
      split at h
      · cases h
        exact List.mem_cons_self
      · exact List.mem_cons_of_mem _ (ih h)

/-- A field is smaller than the value that stands for its record. -/
theorem sizeOf_of_get?_record? {names : List String} {value record inner : Json} {field : String}
    (hrecord : value.record? names = some record) (h : record.get? field = some inner) :
    sizeOf inner < sizeOf value := by
  cases value with
  | object fields =>
    cases hrecord
    exact sizeOf_of_get? h
  | array items =>
    simp only [record?] at hrecord
    split at hrecord
    · cases hrecord
      exact sizeOf_of_mem_items? rfl (mem_of_lookup_zip h)
    · cases hrecord
  | _ => cases hrecord

/-- What a tag is the tag of is no larger than the tagged record. -/
theorem sizeOf_of_tagged? {value tag content : Json} (h : value.tagged? = some (tag, content)) :
    sizeOf content ≤ sizeOf value := by
  unfold tagged? at h
  split at h
  · simp only [Option.map_eq_some_iff, Prod.mk.injEq] at h
    obtain ⟨_, _, _, rfl⟩ := h
    exact Nat.le_refl _
  · cases h
    simp
  · cases h

end Json

end ExportIndex

import ExportIndex.Span

/-!
# JSON values

The values in which the model is written down, and how parts of them are read. Reading gives no
value when a part is absent or of the wrong form.
-/

namespace ExportIndex

/-- A JSON value. A number is a natural number, or kept as it is written if it is in any other
form. Object fields keep their order. -/
inductive Json where
  | null
  | bool (value : Bool)
  | natural (value : Nat)
  | otherNumber (literal : String)
  | text (value : String)
  | array (items : List Json)
  | object (fields : List (String × Json))
  deriving Inhabited

namespace Json

def bool? : Json → Option Bool
  | bool value => some value
  | _ => none

/-- The number below a limit that a value is. -/
def naturalBelow? (limit : Nat) : Json → Option Nat
  | natural value => if value < limit then some value else none
  | _ => none

def natural? : Json → Option Nat := naturalBelow? numberLimit

def text? : Json → Option String
  | text value => some value
  | _ => none

def items? : Json → Option (List Json)
  | array items => some items
  | _ => none

def fields? : Json → Option (List (String × Json))
  | object fields => some fields
  | _ => none

/-- The field of an object, as it stands. -/
def get? (value : Json) (field : String) : Option Json :=
  value.fields?.bind (·.lookup field)

/-- A field that has to be there. -/
def required? (value : Json) (field : String) (read? : Json → Option α) : Option α :=
  (value.get? field).bind read?

/-- A field that may be absent or null. The outer option tells whether it can be read. -/
def optional? (value : Json) (field : String) (read? : Json → Option α) : Option (Option α) :=
  match value.get? field with
  | none | some null => some none
  | some inner => (read? inner).map some

/-- A field that stands for a given value when it is absent. -/
def withDefault? (value : Json) (field : String) (fallback : α) (read? : Json → Option α) :
    Option α :=
  match value.get? field with
  | none => some fallback
  | some inner => read? inner

/-- The items of an array, all of which have to be readable. -/
def list? (read? : Json → Option α) (value : Json) : Option (List α) :=
  value.items?.bind fun items => items.mapM read?

/-- An object, whose optional fields are left out when they have no value. -/
def ofFields (fields : List (String × Option Json)) : Json :=
  object (fields.filterMap fun field => field.2.map fun value => (field.1, value))

def ofTexts (texts : List String) : Json := array (texts.map text)

theorem sizeOf_of_lookup {fields : List (String × Json)} {field : String} {inner : Json}
    (h : fields.lookup field = some inner) : sizeOf inner < sizeOf fields := by
  induction fields with
  | nil => simp at h
  | cons head rest ih =>
    obtain ⟨name, value⟩ := head
    rw [List.lookup_cons] at h
    split at h
    · cases h
      simp
      omega
    · have := ih h
      simp
      omega

/-- A field is smaller than the object that holds it. -/
theorem sizeOf_of_get? {value inner : Json} {field : String} (h : value.get? field = some inner) :
    sizeOf inner < sizeOf value := by
  cases value with
  | object fields =>
    have := sizeOf_of_lookup (by simpa [get?, fields?] using h)
    simp
    omega
  | _ => simp [get?, fields?] at h

/-- An item is smaller than the array that holds it. -/
theorem sizeOf_of_mem_items? {value item : Json} {items : List Json}
    (h : value.items? = some items) (hmem : item ∈ items) : sizeOf item < sizeOf value := by
  cases value with
  | array inner =>
    cases h
    have := List.sizeOf_lt_of_mem hmem
    simp
    omega
  | _ => simp [items?] at h

end Json

end ExportIndex

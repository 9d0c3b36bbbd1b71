import ExportIndex.Proofs.Key.Segments

/-!
# Walks along path segments

A relative specifier leads from a place below a directory to another. Where it leads does not depend on
what stands above the directory, as long as the walk never leaves it, and a walk that starts deeper
ends deeper by as much. A path is normalized by such a walk, which never makes it longer.
-/

namespace ExportIndex

/-- A segment that names a file or a directory. -/
structure PlainSegment (segment : String) : Prop where
  ne_empty : segment ≠ ""
  ne_dot : segment ≠ "."
  ne_dots : segment ≠ ".."
  slash_notMem : '/' ∉ segment.toList

instance : DecidablePred PlainSegment := fun segment =>
  decidable_of_iff (segment ≠ "" ∧ segment ≠ "." ∧ segment ≠ ".." ∧ '/' ∉ segment.toList)
    ⟨fun ⟨hempty, hdot, hdots, hslash⟩ => ⟨hempty, hdot, hdots, hslash⟩,
      fun ⟨hempty, hdot, hdots, hslash⟩ => ⟨hempty, hdot, hdots, hslash⟩⟩

/-- A walk along segments from one place to another that never leaves the directory. Places are given
by the segments below the directory, innermost first. -/
inductive Walks : List String → List String → List String → Prop
  | done (here) : Walks here [] here
  | stay {here steps there step} (hstep : step = "" ∨ step = ".") (rest : Walks here steps there) :
      Walks here (step :: steps) there
  | up {name here steps there} (rest : Walks here steps there) :
      Walks (name :: here) (".." :: steps) there
  | down {here steps there name} (hname : PlainSegment name)
      (rest : Walks (name :: here) steps there) : Walks here (name :: steps) there

/-- The segments of a specifier, empty ones included. -/
def stepsOf (specifier : String) : List String :=
  (specifier.toList.splitOn '/').map String.ofList

theorem map_toList_stepsOf (specifier : String) :
    (stepsOf specifier).map String.toList = specifier.toList.splitOn '/' := by
  simp [stepsOf]

/-- A specifier leads from one place to another without leaving the directory below which both
stand. -/
def Leads (here : List String) (specifier : String) (there : List String) : Prop :=
  Walks here.reverse (stepsOf specifier) there.reverse

theorem walkSegment_of_stay {step : String} (h : step = "" ∨ step = ".")
    (walked : List (List Char)) : walkSegment walked step.toList = walked := by
  rcases h with rfl | rfl <;> rfl

theorem walkSegment_dots (walked : List (List Char)) :
    walkSegment walked "..".toList = walked.tail := rfl

theorem PlainSegment.walkSegment_eq {name : String} (h : PlainSegment name)
    (walked : List (List Char)) : walkSegment walked name.toList = name.toList :: walked := by
  have hstay : ¬ (name.toList = [] ∨ name.toList = ['.']) := by
    rintro (hempty | hdot)
    · exact h.ne_empty (String.toList_inj.mp hempty)
    · exact h.ne_dot (String.toList_inj.mp hdot)
  have hup : name.toList ≠ ['.', '.'] := fun hdots => h.ne_dots (String.toList_inj.mp hdots)
  rw [walkSegment, if_neg hstay, if_neg hup]

theorem foldl_walkSegment_plain {names : List String} (h : ∀ name ∈ names, PlainSegment name)
    (walked : List (List Char)) :
    (names.map String.toList).foldl walkSegment walked =
      names.reverse.map String.toList ++ walked := by
  induction names generalizing walked with
  | nil => rfl
  | cons name rest ih =>
      rw [List.map_cons, List.foldl_cons, (h name List.mem_cons_self).walkSegment_eq,
        ih fun other hother => h other (List.mem_cons_of_mem _ hother)]
      simp

namespace Walks

variable {here steps there : List String}

/-- What stands above the directory is left as it is. -/
theorem foldl_walkSegment (h : Walks here steps there) (above : List (List Char)) :
    (steps.map String.toList).foldl walkSegment (here.map String.toList ++ above) =
      there.map String.toList ++ above := by
  induction h with
  | done here => rfl
  | stay hstep _ ih => rw [List.map_cons, List.foldl_cons, walkSegment_of_stay hstep, ih]
  | up _ ih => exact ih
  | down hname _ ih =>
      rw [List.map_cons, List.foldl_cons, hname.walkSegment_eq]
      exact ih

/-- The same steps from another place, no less deep than the first, end deeper by the difference. -/
theorem length_foldl_walkSegment (h : Walks here steps there) (walked : List (List Char))
    (hdeep : here.length ≤ walked.length) :
    ((steps.map String.toList).foldl walkSegment walked).length + here.length =
      walked.length + there.length := by
  induction h generalizing walked with
  | done here => rfl
  | stay hstep _ ih =>
      rw [List.map_cons, List.foldl_cons, walkSegment_of_stay hstep]
      exact ih walked hdeep
  | up _ ih =>
      rw [List.map_cons, List.foldl_cons, walkSegment_dots]
      rw [List.length_cons] at hdeep ⊢
      have htail : walked.tail.length = walked.length - 1 := List.length_tail
      have hrest := ih walked.tail (by omega)
      omega
  | @down here steps there name hname _ ih =>
      rw [List.map_cons, List.foldl_cons, hname.walkSegment_eq]
      have hrest := ih (name.toList :: walked) (Nat.succ_le_succ hdeep)
      rw [List.length_cons, List.length_cons] at hrest
      omega

end Walks

/-- A walk adds only segments of the path. -/
theorem mem_foldl_walkSegment {steps walked : List (List Char)} {segment : List Char}
    (h : segment ∈ steps.foldl walkSegment walked) : segment ∈ walked ∨ segment ∈ steps := by
  induction steps generalizing walked with
  | nil => exact .inl h
  | cons step rest ih =>
      rcases ih h with hwalked | hrest
      · have hstep : segment ∈ walked ∨ segment = step := by
          unfold walkSegment at hwalked
          split at hwalked
          · exact .inl hwalked
          · split at hwalked
            · exact .inl (List.mem_of_mem_tail hwalked)
            · exact (List.mem_cons.mp hwalked).symm
        exact hstep.imp_right fun heq => List.mem_cons.mpr (.inl heq)
      · exact .inr (List.mem_cons_of_mem _ hrest)

/-! ## Normalized paths -/

/-- Where a specifier leads from a directory. -/
def walkFrom (directories : List String) (specifier : String) : List String :=
  ((specifier.toList.splitOn '/').foldl walkSegment
    (directories.reverse.map String.toList)).reverse.map String.ofList

/-- Segments below a directory lead to segments below it. -/
theorem walkFrom_of_leads {here there : List String} {specifier : String}
    (h : Leads here specifier there) (above : List String) :
    walkFrom (above ++ here) specifier = above ++ there := by
  have hwalk := Walks.foldl_walkSegment h (above.reverse.map String.toList)
  rw [map_toList_stepsOf] at hwalk
  rw [walkFrom, List.reverse_append, List.map_append, hwalk]
  simp [Function.comp_def]

theorem length_walkFrom {here there directories : List String} {specifier : String}
    (h : Leads here specifier there) (hdeep : here.length ≤ directories.length) :
    (walkFrom directories specifier).length + here.length =
      directories.length + there.length := by
  have hlength := Walks.length_foldl_walkSegment h (directories.reverse.map String.toList)
    (by simpa using hdeep)
  rw [map_toList_stepsOf] at hlength
  simpa [walkFrom] using hlength

theorem slashFree_walkFrom {directories : List String} (h : SlashFree directories)
    (specifier : String) : SlashFree (walkFrom directories specifier) := by
  intro segment hmem
  obtain ⟨chars, hchars, rfl⟩ := List.mem_map.mp hmem
  rw [String.toList_ofList]
  rcases mem_foldl_walkSegment (List.mem_reverse.mp hchars) with hdirectory | hstep
  · obtain ⟨directory, hmember, rfl⟩ := List.mem_map.mp hdirectory
    exact h directory (List.mem_reverse.mp hmember)
  · exact Text.notMem_of_mem_splitOn hstep

theorem slashFree_of_plain {segments : List String}
    (h : ∀ segment ∈ segments, PlainSegment segment) : SlashFree segments :=
  fun segment hmem => (h segment hmem).slash_notMem

/-- A text that starts with a plain segment has no slash in front. -/
theorem PlainSegment.head?_ne_slash {first : String} (h : PlainSegment first) (rest : String) :
    (first ++ rest).toList.head? ≠ some '/' := by
  rw [String.toList_append]
  cases hchars : first.toList with
  | nil => exact absurd (String.toList_eq_nil_iff.mp hchars) h.ne_empty
  | cons c others =>
      have hslash := h.slash_notMem
      rw [hchars, List.mem_cons, not_or] at hslash
      simpa using Ne.symm hslash.1

theorem intercalate_cons (first : String) (rest : List String) :
    "/".intercalate (first :: rest) = first ++ "/".intercalate ("" :: rest) := by
  rw [← String.intercalate_cons_append, String.append_empty]

/-- The walk along an absolute path of plain segments ends at the last of them. -/
theorem foldl_walkSegment_absolute {segments : List String}
    (h : ∀ segment ∈ segments, PlainSegment segment) :
    (("/" ++ "/".intercalate segments).toList.splitOn '/').foldl walkSegment [] =
      segments.reverse.map String.toList := by
  by_cases hne : segments = []
  · subst hne
    decide
  · have hfree : SlashFree ("" :: segments) :=
      List.forall_mem_cons.mpr ⟨by decide, slashFree_of_plain h⟩
    rw [← intercalate_empty_cons hne, splitOn_intercalate hfree (List.cons_ne_nil _ _),
      List.map_cons, List.foldl_cons, walkSegment_of_stay (.inl rfl), foldl_walkSegment_plain h,
      List.append_nil]

/-- A path that starts with plain directories is normalized by a walk from there. -/
theorem normalizeModulePath_append {directories : List String}
    (h : ∀ directory ∈ directories, PlainSegment directory) (hne : directories ≠ [])
    (specifier : String) :
    normalizeModulePath ("/".intercalate directories ++ "/" ++ specifier) =
      "/".intercalate (walkFrom directories specifier) := by
  have hhead : ("/".intercalate directories ++ "/" ++ specifier).toList.head? ≠ some '/' := by
    obtain ⟨first, rest, rfl⟩ := List.exists_cons_of_ne_nil hne
    rw [intercalate_cons, String.append_assoc, String.append_assoc]
    exact (h first List.mem_cons_self).head?_ne_slash _
  rw [normalizeModulePath, normalizePathChars, if_neg hhead, walkedSegments, toList_append_slash,
    List.splitOn_append_cons_self, splitOn_intercalate (slashFree_of_plain h) hne, List.foldl_append,
    foldl_walkSegment_plain h, List.append_nil]
  exact String.toList_inj.mp (by simp [walkFrom, Function.comp_def])

/-- How long a text gets when a slash is put after each segment. -/
def totalLength : List (List Char) → Nat
  | [] => 0
  | segment :: rest => segment.length + 1 + totalLength rest

theorem totalLength_append (first second : List (List Char)) :
    totalLength (first ++ second) = totalLength first + totalLength second := by
  induction first with
  | nil => simp [totalLength]
  | cons segment rest ih => simp [totalLength, ih]; omega

theorem totalLength_reverse (segments : List (List Char)) :
    totalLength segments.reverse = totalLength segments := by
  induction segments with
  | nil => rfl
  | cons segment rest ih => simp [totalLength, totalLength_append, ih]; omega

theorem length_intercalate (segments : List (List Char)) :
    (['/'].intercalate segments).length = totalLength segments - 1 := by
  induction segments with
  | nil => rfl
  | cons segment rest ih =>
      cases rest with
      | nil => simp [totalLength]
      | cons next rest =>
          rw [List.intercalate_cons_cons, List.length_append, List.length_append, ih]
          simp [totalLength]
          omega

theorem totalLength_walkSegment_le (walked : List (List Char)) (segment : List Char) :
    totalLength (walkSegment walked segment) ≤ totalLength walked + (segment.length + 1) := by
  unfold walkSegment
  split
  · omega
  · split
    · cases walked with
      | nil => simp [totalLength]
      | cons last walked => simp [totalLength]; omega
    · simp [totalLength]; omega

theorem totalLength_foldl_walkSegment_le (segments walked : List (List Char)) :
    totalLength (segments.foldl walkSegment walked) ≤ totalLength walked + totalLength segments := by
  induction segments generalizing walked with
  | nil => simp [totalLength]
  | cons segment rest ih =>
      have hstep := totalLength_walkSegment_le walked segment
      have hrest := ih (walkSegment walked segment)
      simp only [List.foldl_cons, totalLength] at hrest ⊢
      omega

/-- Normalizing an absolute path does not make it longer. -/
theorem length_normalizeModulePath_le {path : String} (h : path.toList.head? = some '/') :
    (normalizeModulePath path).length ≤ path.length := by
  obtain ⟨rest, hrest⟩ := List.head?_eq_some_iff.mp h
  have hsplit : path.toList.splitOn '/' = [] :: rest.splitOn '/' := by
    simp [hrest, List.splitOn_cons_eq_if_modifyHead]
  have hpath : rest.length = totalLength (rest.splitOn '/') - 1 := by
    rw [← length_intercalate, List.intercalate_splitOn]
  -- the empty segment before the leading slash is not walked
  have hwalk := totalLength_foldl_walkSegment_le (rest.splitOn '/') []
  have hwalked : totalLength (walkedSegments path.toList) ≤ totalLength (rest.splitOn '/') := by
    rw [walkedSegments, hsplit, totalLength_reverse]
    simpa [totalLength, walkSegment] using hwalk
  have hlength : path.length = rest.length + 1 := by
    rw [← String.length_toList, hrest, List.length_cons]
  rw [normalizeModulePath, normalizePathChars, if_pos h, String.length_ofList, List.length_cons,
    length_intercalate]
  omega

/-! ## Kinds of specifiers -/

/-- A path specifier that is not absolute. -/
def IsRelative (specifier : String) : Prop :=
  isPathSpecifier specifier = true ∧ specifier.toList.head? ≠ some '/'

/-- A relative specifier starts with `.` or `..`. -/
theorem IsRelative.head?_splitOn {specifier : String} (h : IsRelative specifier) :
    ∃ lead ∈ [".", ".."], (specifier.toList.splitOn '/').head? = some lead.toList := by
  obtain ⟨hpath, hhead⟩ := h
  simp only [isPathSpecifier, Bool.or_eq_true, decide_eq_true_eq, List.isPrefixOf_iff_prefix] at hpath
  rcases hpath with (((rfl | rfl) | ⟨rest, hrest⟩) | ⟨rest, hrest⟩) | habsolute
  · exact ⟨".", by decide, by decide⟩
  · exact ⟨"..", by decide, by decide⟩
  · exact ⟨".", by decide, by simp [← hrest, List.splitOn_cons_eq_if_modifyHead]⟩
  · exact ⟨"..", by decide, by simp [← hrest, List.splitOn_cons_eq_if_modifyHead]⟩
  · exact absurd habsolute hhead

/-- A text that starts with a plain segment names a library. -/
theorem isPathSpecifier_intercalate {first : String} {rest : List String} (hfirst : PlainSegment first)
    (hfree : SlashFree (first :: rest)) :
    isPathSpecifier ("/".intercalate (first :: rest)) = false := by
  by_contra hpath
  have hhead : ("/".intercalate (first :: rest)).toList.head? ≠ some '/' := by
    rw [intercalate_cons]
    exact hfirst.head?_ne_slash _
  obtain ⟨lead, hlead, hsplit⟩ := IsRelative.head?_splitOn ⟨Bool.not_eq_false _ ▸ hpath, hhead⟩
  rw [splitOn_intercalate hfree (List.cons_ne_nil _ _), List.map_cons, List.head?_cons,
    Option.some_inj, String.toList_inj] at hsplit
  subst hsplit
  simp [hfirst.ne_dot, hfirst.ne_dots] at hlead

end ExportIndex

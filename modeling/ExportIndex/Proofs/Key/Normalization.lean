import ExportIndex.Proofs.Key.Walk

/-!
# Normal paths

Normalization gives every path one of the normal paths, which it leaves as they are. Only the segments to
which a path leads count for what is put behind it, so a chain of relative steps can be taken one by one or
all at once.
-/

namespace ExportIndex

def IsAbsolutePath (path : String) : Prop := path.toList.head? = some '/'

instance : DecidablePred IsAbsolutePath :=
  fun path => inferInstanceAs (Decidable (path.toList.head? = some '/'))

/-- The segments of a path, empty ones included, without what stands before the slash of an absolute
path. -/
def segmentsBelowRoot (path : String) : List String :=
  if IsAbsolutePath path then (stepsOf path).tail else stepsOf path

/-- A path without empty, `.` and `..` segments. The root and the empty path have no segments at all. -/
def IsNormalPath (path : String) : Prop :=
  path = "/" ∨ path = "" ∨ ∀ segment ∈ segmentsBelowRoot path, PlainSegment segment

/-! ## Paths of plain segments -/

/-- The path of some segments, from the root or relative. -/
def joinSegments (fromRoot : Bool) (segments : List String) : String :=
  if fromRoot then "/" ++ "/".intercalate segments else "/".intercalate segments

/-- The segments to which a path leads. -/
def normalSegments (path : String) : List String := (walkedSegments path.toList).map String.ofList

theorem normalizeModulePath_eq (path : String) : normalizeModulePath path =
    joinSegments (decide (IsAbsolutePath path)) (normalSegments path) := by
  have hjoined : String.ofList (['/'].intercalate (walkedSegments path.toList)) =
      "/".intercalate (normalSegments path) :=
    String.toList_inj.mp (by simp [normalSegments, Function.comp_def])
  rw [normalizeModulePath, normalizePathChars, joinSegments, ← hjoined]
  by_cases hhead : path.toList.head? = some '/'
  · have habsolute : IsAbsolutePath path := hhead
    rw [if_pos hhead, if_pos (decide_eq_true habsolute)]
    exact String.toList_inj.mp (by simp)
  · have hrelative : ¬ IsAbsolutePath path := hhead
    rw [if_neg hhead, decide_eq_false hrelative, if_neg Bool.false_ne_true]

theorem exists_stepsOf_of_absolute {path : String} (h : IsAbsolutePath path) :
    ∃ rest : String, path = "/" ++ rest ∧ stepsOf path = "" :: stepsOf rest := by
  obtain ⟨chars, hchars⟩ := List.head?_eq_some_iff.mp h
  refine ⟨String.ofList chars, String.toList_inj.mp (by simp [hchars]), ?_⟩
  simp [stepsOf, hchars, List.splitOn_cons_eq_if_modifyHead]

theorem intercalate_stepsOf (path : String) : "/".intercalate (stepsOf path) = path := by
  apply String.toList_inj.mp
  rw [toList_intercalate_slash, map_toList_stepsOf, List.intercalate_splitOn]

theorem stepsOf_intercalate {segments : List String}
    (h : ∀ segment ∈ segments, PlainSegment segment) (hne : segments ≠ []) :
    stepsOf ("/".intercalate segments) = segments := by
  rw [stepsOf, splitOn_intercalate (slashFree_of_plain h) hne, List.map_map]
  simp [Function.comp_def]

theorem isAbsolutePath_joinSegments {segments : List String}
    (h : ∀ segment ∈ segments, PlainSegment segment) (fromRoot : Bool) :
    IsAbsolutePath (joinSegments fromRoot segments) ↔ fromRoot = true := by
  cases fromRoot with
  | true => simp [joinSegments, IsAbsolutePath]
  | false =>
      cases segments with
      | nil => simp [joinSegments, IsAbsolutePath]
      | cons first rest =>
          have hhead : ¬ IsAbsolutePath ("/".intercalate (first :: rest)) := by
            rw [intercalate_cons]
            exact (h first List.mem_cons_self).head?_ne_slash _
          simpa [joinSegments] using hhead

/-- A path of plain segments leads to them. -/
theorem normalSegments_joinSegments {segments : List String}
    (h : ∀ segment ∈ segments, PlainSegment segment) (fromRoot : Bool) :
    normalSegments (joinSegments fromRoot segments) = segments := by
  have hwalk : ((joinSegments fromRoot segments).toList.splitOn '/').foldl walkSegment [] =
      segments.reverse.map String.toList := by
    cases fromRoot with
    | true => exact foldl_walkSegment_absolute h
    | false =>
        by_cases hne : segments = []
        · subst hne
          decide
        · rw [joinSegments, if_neg Bool.false_ne_true,
            splitOn_intercalate (slashFree_of_plain h) hne, foldl_walkSegment_plain h, List.append_nil]
  rw [normalSegments, walkedSegments, hwalk]
  simp [Function.comp_def]

theorem normalizeModulePath_joinSegments {segments : List String}
    (h : ∀ segment ∈ segments, PlainSegment segment) (fromRoot : Bool) :
    normalizeModulePath (joinSegments fromRoot segments) = joinSegments fromRoot segments := by
  have hroot : decide (IsAbsolutePath (joinSegments fromRoot segments)) = fromRoot :=
    Bool.eq_iff_iff.mpr (decide_eq_true_iff.trans (isAbsolutePath_joinSegments h fromRoot))
  rw [normalizeModulePath_eq, normalSegments_joinSegments h, hroot]

theorem isNormalPath_iff {path : String} : IsNormalPath path ↔
    ∃ fromRoot segments, (∀ segment ∈ segments, PlainSegment segment) ∧
      path = joinSegments fromRoot segments := by
  constructor
  · rintro (rfl | rfl | hplain)
    · exact ⟨true, [], by simp, rfl⟩
    · exact ⟨false, [], by simp, rfl⟩
    · unfold segmentsBelowRoot at hplain
      split at hplain
      next habsolute =>
        obtain ⟨rest, hpath, hsteps⟩ := exists_stepsOf_of_absolute habsolute
        rw [hsteps, List.tail_cons] at hplain
        refine ⟨true, stepsOf rest, hplain, ?_⟩
        rw [joinSegments, if_pos rfl, intercalate_stepsOf, hpath]
      next =>
        refine ⟨false, stepsOf path, hplain, ?_⟩
        rw [joinSegments, if_neg Bool.false_ne_true, intercalate_stepsOf]
  · rintro ⟨fromRoot, segments, hplain, rfl⟩
    by_cases hne : segments = []
    · subst hne
      cases fromRoot with
      | true => exact .inl rfl
      | false => exact .inr (.inl rfl)
    · refine .inr (.inr ?_)
      have habsolute := isAbsolutePath_joinSegments hplain fromRoot
      cases fromRoot with
      | true =>
          obtain ⟨rest, hpath, hsteps⟩ := exists_stepsOf_of_absolute (habsolute.mpr rfl)
          have hrest : rest = "/".intercalate segments := (String.append_right_inj "/").mp hpath.symm
          rwa [segmentsBelowRoot, if_pos (habsolute.mpr rfl), hsteps, hrest, List.tail_cons,
            stepsOf_intercalate hplain hne]
      | false =>
          rw [segmentsBelowRoot, if_neg (fun h => Bool.false_ne_true (habsolute.mp h)), joinSegments,
            if_neg Bool.false_ne_true, stepsOf_intercalate hplain hne]
          exact hplain

/-! ## Where a path leads -/

/-- A step of a walk adds at most its own segment, if that is plain. -/
theorem plain_walkSegment {walked : List (List Char)} {segment : List Char}
    (hwalked : ∀ chars ∈ walked, PlainSegment (String.ofList chars)) (hslash : '/' ∉ segment) :
    ∀ chars ∈ walkSegment walked segment, PlainSegment (String.ofList chars) := by
  unfold walkSegment
  split
  · exact hwalked
  next hstay =>
    rw [not_or] at hstay
    split
    · exact fun chars hchars => hwalked chars (List.mem_of_mem_tail hchars)
    next hup =>
      have hplain : PlainSegment (String.ofList segment) :=
        ⟨fun heq => hstay.1 (by simpa using heq), fun heq => hstay.2 (String.ofList_injective heq),
          fun heq => hup (String.ofList_injective heq), by simpa using hslash⟩
      exact List.forall_mem_cons.mpr ⟨hplain, hwalked⟩

theorem plain_foldl_walkSegment {steps : List (List Char)} (h : ∀ step ∈ steps, '/' ∉ step)
    {walked : List (List Char)} (hwalked : ∀ chars ∈ walked, PlainSegment (String.ofList chars)) :
    ∀ chars ∈ steps.foldl walkSegment walked, PlainSegment (String.ofList chars) := by
  induction steps generalizing walked with
  | nil => exact hwalked
  | cons step rest ih =>
      obtain ⟨hstep, hrest⟩ := List.forall_mem_cons.mp h
      exact ih hrest (plain_walkSegment hwalked hstep)

theorem plain_normalSegments (path : String) :
    ∀ segment ∈ normalSegments path, PlainSegment segment := by
  intro segment hsegment
  obtain ⟨chars, hchars, rfl⟩ := List.mem_map.mp hsegment
  have hsteps : ∀ step ∈ path.toList.splitOn '/', '/' ∉ step :=
    fun _ hstep => Text.notMem_of_mem_splitOn hstep
  exact plain_foldl_walkSegment hsteps (by simp) chars (List.mem_reverse.mp hchars)

theorem normalSegments_normalizeModulePath (path : String) :
    normalSegments (normalizeModulePath path) = normalSegments path := by
  rw [normalizeModulePath_eq, normalSegments_joinSegments (plain_normalSegments path)]

theorem isAbsolutePath_normalizeModulePath {path : String} :
    IsAbsolutePath (normalizeModulePath path) ↔ IsAbsolutePath path := by
  rw [normalizeModulePath_eq, isAbsolutePath_joinSegments (plain_normalSegments path), decide_eq_true_iff]

theorem isNormalPath_normalizeModulePath (path : String) : IsNormalPath (normalizeModulePath path) :=
  isNormalPath_iff.mpr ⟨_, _, plain_normalSegments path, normalizeModulePath_eq path⟩

theorem IsNormalPath.normalizeModulePath_eq_self {path : String} (h : IsNormalPath path) :
    normalizeModulePath path = path := by
  obtain ⟨fromRoot, segments, hplain, rfl⟩ := isNormalPath_iff.mp h
  exact normalizeModulePath_joinSegments hplain fromRoot

theorem IsAbsolutePath.append {path : String} (h : IsAbsolutePath path) (rest : String) :
    IsAbsolutePath (path ++ rest) := by
  rw [IsAbsolutePath, String.toList_append, List.head?_append, h, Option.some_or]

/-- What is put behind a path is walked from where the path leads. -/
theorem walkedSegments_append_slash (path step : String) :
    walkedSegments (path ++ "/" ++ step).toList =
      ((step.toList.splitOn '/').foldl walkSegment (walkedSegments path.toList).reverse).reverse := by
  rw [toList_append_slash, walkedSegments, List.splitOn_append_cons_self, List.foldl_append,
    walkedSegments, List.reverse_reverse]

/-- An absolute path may be normalized before a step is put behind it. -/
theorem normalizeModulePath_append_slash {path : String} (h : IsAbsolutePath path) (step : String) :
    normalizeModulePath (normalizeModulePath path ++ "/" ++ step) =
      normalizeModulePath (path ++ "/" ++ step) := by
  have hwalked : walkedSegments (normalizeModulePath path).toList = walkedSegments path.toList :=
    List.map_injective_iff.mpr (fun _ _ heq => String.ofList_injective heq)
      (normalSegments_normalizeModulePath path)
  have hsegments : normalSegments (normalizeModulePath path ++ "/" ++ step) =
      normalSegments (path ++ "/" ++ step) := by
    rw [normalSegments, normalSegments, walkedSegments_append_slash, walkedSegments_append_slash, hwalked]
  have habsolute : IsAbsolutePath (path ++ "/" ++ step) := (h.append _).append _
  have habsolute' : IsAbsolutePath (normalizeModulePath path ++ "/" ++ step) :=
    ((isAbsolutePath_normalizeModulePath.mpr h).append _).append _
  rw [normalizeModulePath_eq, normalizeModulePath_eq (path ++ "/" ++ step), hsegments,
    decide_eq_true habsolute, decide_eq_true habsolute']

/-- The place to which a step leads from a place. -/
def stepFrom (here step : String) : String := normalizeModulePath (here ++ "/" ++ step)

theorem foldl_stepFrom {path : String} (h : IsAbsolutePath path) (steps : List String) :
    steps.foldl stepFrom (normalizeModulePath path) =
      normalizeModulePath ("/".intercalate (path :: steps)) := by
  induction steps generalizing path with
  | nil => rw [List.foldl_nil, String.intercalate_singleton]
  | cons step rest ih =>
      have hlonger : "/".intercalate ((path ++ "/" ++ step) :: rest) =
          "/".intercalate (path :: step :: rest) := by
        rw [String.intercalate_cons_append, String.intercalate_cons_of_ne_nil (List.cons_ne_nil _ _)]
      rw [List.foldl_cons, stepFrom, normalizeModulePath_append_slash h, ih ((h.append _).append _),
        hlonger]

/-- Normalization is a canonical form. It keeps a path absolute or relative, its results are the normal
paths, and these it leaves as they are. Behind an absolute path a relative step leads to the same place
whether the path is normalized before or not, and so does a chain of steps, taken one by one or all at
once. -/
theorem normalizeModulePath_canonical :
    (∀ path, (IsAbsolutePath (normalizeModulePath path) ↔ IsAbsolutePath path) ∧
      IsNormalPath (normalizeModulePath path) ∧
      normalizeModulePath (normalizeModulePath path) = normalizeModulePath path ∧
      (normalizeModulePath path = path ↔ IsNormalPath path)) ∧
    ∀ path, IsAbsolutePath path →
      (∀ step, normalizeModulePath (path ++ "/" ++ step) =
        normalizeModulePath (normalizeModulePath path ++ "/" ++ step)) ∧
      ∀ steps, normalizeModulePath ("/".intercalate (path :: steps)) =
        steps.foldl stepFrom (normalizeModulePath path) := by
  refine ⟨fun path => ?_, fun path habsolute => ⟨fun step => ?_, fun steps => ?_⟩⟩
  · have hnormal := isNormalPath_normalizeModulePath path
    refine ⟨isAbsolutePath_normalizeModulePath, hnormal, hnormal.normalizeModulePath_eq_self, ?_⟩
    exact ⟨fun heq => heq ▸ hnormal, IsNormalPath.normalizeModulePath_eq_self⟩
  · exact (normalizeModulePath_append_slash habsolute step).symm
  · exact (foldl_stepFrom habsolute steps).symm

/-- Steps above the root are forgotten where they are taken, and not made up for later. -/
theorem normalizeModulePath_aboveRoot : IsAbsolutePath "/a//./b" ∧
    normalizeModulePath "/a//./b" = "/a/b" ∧
    normalizeModulePath "/a//./b/../../../c/./d" = "/c/d" ∧
    normalizeModulePath ("/".intercalate ("/a//./b" :: ["../..", "../c", "./d"])) =
      ["../..", "../c", "./d"].foldl stepFrom (normalizeModulePath "/a//./b") := by
  refine ⟨by decide, by decide +kernel, by decide +kernel, ?_⟩
  exact (normalizeModulePath_canonical.2 "/a//./b" (by decide)).2 ["../..", "../c", "./d"]

end ExportIndex

import ExportIndex.ModuleSpecifier
import Mathlib.Data.List.Basic

/-!
# Keys as segments

A key is segments joined by slashes, and the segments can be read back from it. A source extension
belongs to the last segment, and the directory of a key is what stands before it.
-/

namespace ExportIndex

/-- No segment holds a slash. -/
def SlashFree (segments : List String) : Prop := ∀ segment ∈ segments, '/' ∉ segment.toList

theorem slashFree_append {first second : List String} :
    SlashFree (first ++ second) ↔ SlashFree first ∧ SlashFree second := by
  simp [SlashFree, or_imp, forall_and]

theorem slashFree_singleton {segment : String} : SlashFree [segment] ↔ '/' ∉ segment.toList := by
  simp [SlashFree]

theorem toList_append_slash (before after : String) :
    (before ++ "/" ++ after).toList = before.toList ++ '/' :: after.toList := by
  simp

theorem intercalate_concat {directories : List String} (h : directories ≠ []) (name : String) :
    "/".intercalate (directories ++ [name]) = "/".intercalate directories ++ "/" ++ name := by
  rw [String.intercalate_append_of_ne_nil h (List.cons_ne_nil _ _), String.intercalate_singleton]

theorem intercalate_empty_cons {segments : List String} (hne : segments ≠ []) :
    "/".intercalate ("" :: segments) = "/" ++ "/".intercalate segments := by
  rw [String.intercalate_cons_of_ne_nil hne, String.empty_append]

theorem toList_intercalate_slash (segments : List String) :
    ("/".intercalate segments).toList = ['/'].intercalate (segments.map String.toList) := by
  simp

theorem splitOn_intercalate {segments : List String} (h : SlashFree segments) (hne : segments ≠ []) :
    ("/".intercalate segments).toList.splitOn '/' = segments.map String.toList := by
  rw [toList_intercalate_slash]
  refine List.splitOn_intercalate '/' ?_ (by simpa using hne)
  intro chars hchars
  obtain ⟨segment, hmem, rfl⟩ := List.mem_map.mp hchars
  exact h segment hmem

/-- The segments can be read back from a key. -/
theorem intercalate_inj {first second : List String} (hfirst : SlashFree first)
    (hsecond : SlashFree second) (hne : first ≠ []) (hne' : second ≠ [])
    (h : "/".intercalate first = "/".intercalate second) : first = second := by
  have hsplit := congrArg (fun key : String => key.toList.splitOn '/') h
  simp only [splitOn_intercalate hfirst hne, splitOn_intercalate hsecond hne'] at hsplit
  exact List.map_injective_iff.mpr (fun _ _ heq => String.toList_inj.mp heq) hsplit

theorem intercalate_eq_iff {segments : List String} {text : String} (h : SlashFree segments)
    (hne : segments ≠ []) (htext : '/' ∉ text.toList) :
    "/".intercalate segments = text ↔ segments = [text] := by
  constructor
  · intro heq
    refine intercalate_inj h (slashFree_singleton.mpr htext) hne (List.cons_ne_nil _ _) ?_
    rw [heq, String.intercalate_singleton]
  · rintro rfl
    exact String.intercalate_singleton

/-! ## The last segment -/

/-- What stands before and after a slash can be told if no slash follows. -/
theorem append_slash_inj {before other after last : List Char} (hafter : '/' ∉ after)
    (hlast : '/' ∉ last) (h : before ++ '/' :: after = other ++ '/' :: last) :
    before = other ∧ after = last := by
  have hcut := congrArg (Text.beforeLast? '/') h
  rw [Text.beforeLast?_append hafter, Text.beforeLast?_append hlast] at hcut
  obtain rfl := Option.some.inj hcut
  exact ⟨rfl, List.cons.inj (List.append_cancel_left h) |>.2⟩

/-- A text ends in `/index` if the last segment is `index`. -/
theorem beforeEnding?_index {name : String} (h : '/' ∉ name.toList) (before : String) :
    Text.beforeEnding? "/index".toList (before ++ "/" ++ name).toList =
      if name = "index" then some before.toList else none := by
  rw [toList_append_slash]
  split
  next hindex => exact hindex ▸ Text.beforeEnding?_append before.toList "/index".toList
  next hindex =>
    rw [Text.beforeEnding?_eq_none_iff]
    rintro ⟨other, hother⟩
    have hname := (append_slash_inj (by decide : '/' ∉ "index".toList) h hother).2
    exact hindex (String.toList_inj.mp hname.symm)

theorem moduleDirectory_append_slash {directory name : String} (hdirectory : directory ≠ "")
    (hname : '/' ∉ name.toList) : moduleDirectory (directory ++ "/" ++ name) = directory := by
  rw [moduleDirectory, toList_append_slash, Text.beforeLast?_append hname]
  cases hchars : directory.toList with
  | nil => exact absurd (String.toList_eq_nil_iff.mp hchars) hdirectory
  | cons c rest => simp [← hchars]

theorem moduleDirectory_of_notMem {key : String} (h : '/' ∉ key.toList) :
    moduleDirectory key = key := by
  rw [moduleDirectory, Text.beforeLast?_of_notMem h]

/-- The `index` module below a key of segments has one segment more. -/
theorem indexKey_intercalate {directories : List String} {name : String} (hne : name ≠ "")
    (hname : '/' ∉ name.toList) :
    indexKey ("/".intercalate (directories ++ [name])) =
      "/".intercalate (directories ++ [name] ++ ["index"]) := by
  obtain ⟨before, hbefore⟩ : ∃ before, "/".intercalate (directories ++ [name]) = before ++ name := by
    by_cases hdirectories : directories = []
    · exact ⟨"", by simp [hdirectories]⟩
    · exact ⟨_, intercalate_concat hdirectories name⟩
  have hlast : ("/".intercalate (directories ++ [name])).toList.getLast? ≠ some '/' := by
    rw [hbefore, String.toList_append, List.getLast?_append_of_ne_nil _ (by simpa using hne)]
    exact fun hslash => hname (List.mem_of_getLast? hslash)
  have hconcat : directories ++ [name] ≠ [] :=
    List.append_ne_nil_of_right_ne_nil _ (List.cons_ne_nil _ _)
  rw [indexKey, if_neg hlast, intercalate_concat hconcat "index", String.append_assoc]
  rfl

theorem exists_indexKey_eq (key : ModuleKey) : ∃ before, indexKey key = before ++ "/" ++ "index" := by
  unfold indexKey
  split
  next hslash =>
    obtain ⟨before, hbefore⟩ := List.getLast?_eq_some_iff.mp hslash
    refine ⟨String.ofList before, ?_⟩
    congr 1
    exact String.toList_inj.mp (by simp [hbefore])
  next => exact ⟨key, by rw [String.append_assoc]; rfl⟩

theorem indexKey_ne_self (key : ModuleKey) : indexKey key ≠ key := by
  intro h
  have hlength := congrArg String.length h
  unfold indexKey at hlength
  split at hlength <;> simp at hlength

/-! ## Source extensions -/

theorem slash_notMem_sourceExtensions : ∀ ext ∈ sourceExtensions, '/' ∉ ext.toList := by decide

/-- An extension never ends in one that is tried later. -/
theorem pairwise_sourceExtensions :
    sourceExtensions.Pairwise fun earlier later => ¬ earlier.toList <:+ later.toList := by decide

theorem stripSourceExtension_of_findSome? {text : String} {before : List Char}
    (h : (sourceExtensions.findSome? fun ext => Text.beforeEnding? ext.toList text.toList) =
      some before) : stripSourceExtension text = String.ofList before := by
  rw [stripSourceExtension, h]

/-- A text is what remains of it without its source extension, followed by the extension. -/
theorem exists_eq_stripSourceExtension_append (text : String) :
    ∃ ending : String, '/' ∉ ending.toList ∧ text = stripSourceExtension text ++ ending := by
  cases hfind : sourceExtensions.findSome? fun ext => Text.beforeEnding? ext.toList text.toList with
  | none => exact ⟨"", by simp, by simp [stripSourceExtension, hfind]⟩
  | some before =>
      obtain ⟨ext, hext, hbefore⟩ := List.exists_of_findSome?_eq_some hfind
      refine ⟨ext, slash_notMem_sourceExtensions ext hext, String.toList_inj.mp ?_⟩
      rw [stripSourceExtension_of_findSome? hfind, Text.beforeEnding?_eq_some_iff.mp hbefore]
      simp

theorem stripSourceExtension_eq_self_iff {text : String} :
    stripSourceExtension text = text ↔ ∀ ext ∈ sourceExtensions, ¬ ext.toList <:+ text.toList := by
  constructor
  · intro h
    by_contra hends
    push Not at hends
    obtain ⟨ext, hext, hends⟩ := hends
    obtain ⟨before, hbefore⟩ : ∃ before, (sourceExtensions.findSome? fun ext =>
        Text.beforeEnding? ext.toList text.toList) = some before := by
      rw [← Option.isSome_iff_exists, List.findSome?_isSome_iff]
      refine ⟨ext, hext, Option.isSome_iff_ne_none.mpr fun hnone => ?_⟩
      exact Text.beforeEnding?_eq_none_iff.mp hnone hends
    -- what is taken away is never empty
    obtain ⟨found, hfound, hcut⟩ := List.exists_of_findSome?_eq_some hbefore
    have hne : found.toList ≠ [] := by
      have hall : ∀ ext ∈ sourceExtensions, ext.toList ≠ [] := by decide
      exact hall found hfound
    rw [stripSourceExtension_of_findSome? hbefore] at h
    rw [Text.beforeEnding?_eq_some_iff, ← h, String.toList_ofList] at hcut
    exact hne (List.self_eq_append_right.mp hcut)
  · intro h
    have hnone : (sourceExtensions.findSome? fun ext =>
        Text.beforeEnding? ext.toList text.toList) = none :=
      List.findSome?_eq_none_iff.mpr fun ext hext =>
        Text.beforeEnding?_eq_none_iff.mpr (h ext hext)
    rw [stripSourceExtension, hnone]

theorem slash_notMem_stripSourceExtension {name : String} (h : '/' ∉ name.toList) :
    '/' ∉ (stripSourceExtension name).toList := by
  obtain ⟨ending, -, hname⟩ := exists_eq_stripSourceExtension_append name
  rw [hname, String.toList_append, List.mem_append, not_or] at h
  exact h.1

theorem length_stripSourceExtension_le (text : String) :
    (stripSourceExtension text).length ≤ text.length := by
  obtain ⟨ending, -, htext⟩ := exists_eq_stripSourceExtension_append text
  have hlength := congrArg String.length htext
  rw [String.length_append] at hlength
  omega

theorem head?_stripSourceExtension {text : String} (h : text.toList.head? = some '/') :
    (stripSourceExtension text).toList.head? = some '/' := by
  obtain ⟨ending, hending, htext⟩ := exists_eq_stripSourceExtension_append text
  rw [htext, String.toList_append] at h
  cases hchars : (stripSourceExtension text).toList with
  | nil =>
      rw [hchars, List.nil_append] at h
      exact absurd (List.mem_of_head? h) hending
  | cons c rest => simpa [hchars] using h

/-- The longest source extension that a text ends in is the one that is taken away. -/
theorem stripSourceExtension_append {stem extension : String} (hmem : extension ∈ sourceExtensions)
    (hlongest : ∀ other ∈ sourceExtensions, other.toList <:+ (stem ++ extension).toList →
      other.length ≤ extension.length) : stripSourceExtension (stem ++ extension) = stem := by
  obtain ⟨before, after, hsplit⟩ := List.append_of_mem hmem
  have hbefore : (before.findSome? fun ext =>
      Text.beforeEnding? ext.toList (stem ++ extension).toList) = none := by
    rw [List.findSome?_eq_none_iff]
    intro other hother
    rw [Text.beforeEnding?_eq_none_iff]
    intro hends
    -- of two endings of one text the shorter is an ending of the longer
    have hlength := hlongest other (hsplit ▸ List.mem_append_left _ hother) hends
    have hshorter : other.toList <:+ extension.toList :=
      List.suffix_of_suffix_length_le hends (by simp)
        (by rwa [String.length_toList, String.length_toList])
    have hpairwise := pairwise_sourceExtensions
    rw [hsplit, List.pairwise_append] at hpairwise
    exact hpairwise.2.2 other hother extension List.mem_cons_self hshorter
  have hfind : (sourceExtensions.findSome? fun ext =>
      Text.beforeEnding? ext.toList (stem ++ extension).toList) = some stem.toList := by
    rw [hsplit, List.findSome?_append, hbefore, Option.none_or, List.findSome?_cons,
      String.toList_append, Text.beforeEnding?_append]
  rw [stripSourceExtension_of_findSome? hfind, String.ofList_toList]

theorem findSome?_beforeEnding?_append_cons {extensions : List String}
    (h : ∀ ext ∈ extensions, '/' ∉ ext.toList) (before text : List Char) :
    (extensions.findSome? fun ext => Text.beforeEnding? ext.toList (before ++ '/' :: text)) =
      (extensions.findSome? fun ext => Text.beforeEnding? ext.toList text).map
        (before ++ '/' :: ·) := by
  induction extensions with
  | nil => rfl
  | cons ext rest ih =>
      rw [List.findSome?_cons, List.findSome?_cons,
        Text.beforeEnding?_append_cons (h ext List.mem_cons_self),
        ih fun other hother => h other (List.mem_cons_of_mem _ hother)]
      cases Text.beforeEnding? ext.toList text <;> rfl

theorem stripSourceExtension_append_slash (before name : String) :
    stripSourceExtension (before ++ "/" ++ name) = before ++ "/" ++ stripSourceExtension name := by
  have hfind := findSome?_beforeEnding?_append_cons slash_notMem_sourceExtensions before.toList
    name.toList
  rw [← toList_append_slash] at hfind
  cases hname : sourceExtensions.findSome? fun ext => Text.beforeEnding? ext.toList name.toList with
  | none => simp only [stripSourceExtension, hfind, hname, Option.map_none]
  | some stem =>
      rw [hname, Option.map_some] at hfind
      rw [stripSourceExtension_of_findSome? hname, stripSourceExtension_of_findSome? hfind]
      exact String.toList_inj.mp (by simp)

/-- The source extension of a path is that of its last segment. -/
theorem stripSourceExtension_intercalate (directories : List String) (name : String) :
    stripSourceExtension ("/".intercalate (directories ++ [name])) =
      "/".intercalate (directories ++ [stripSourceExtension name]) := by
  cases directories with
  | nil => simp
  | cons head rest =>
      rw [intercalate_concat (List.cons_ne_nil _ _), intercalate_concat (List.cons_ne_nil _ _),
        stripSourceExtension_append_slash]

end ExportIndex

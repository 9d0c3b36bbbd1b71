/-!
# Ends of texts

Cutting a text at a separator or at a known ending.
-/

namespace ExportIndex.Text

/-- The text before a known ending, if the text has that ending. -/
def beforeEnding? (ending text : List Char) : Option (List Char) :=
  if ending.isSuffixOf text then some (text.take (text.length - ending.length)) else none

theorem beforeEnding?_append (text ending : List Char) :
    beforeEnding? ending (text ++ ending) = some text := by
  simp [beforeEnding?]

theorem beforeEnding?_eq_some_iff {ending text before : List Char} :
    beforeEnding? ending text = some before ↔ text = before ++ ending := by
  constructor
  · intro h
    obtain ⟨hends, hbefore⟩ := Option.ite_none_right_eq_some.mp h
    obtain ⟨before, rfl⟩ := List.isSuffixOf_iff_suffix.mp hends
    simpa using hbefore
  · rintro rfl
    exact beforeEnding?_append before ending

theorem beforeEnding?_eq_none_iff {ending text : List Char} :
    beforeEnding? ending text = none ↔ ¬ ending <:+ text := by
  simp [beforeEnding?]

/-- An ending without a separator is an ending of what follows the separator. -/
theorem beforeEnding?_append_cons {ending : List Char} {separator : Char} (h : separator ∉ ending)
    (before text : List Char) :
    beforeEnding? ending (before ++ separator :: text) =
      (beforeEnding? ending text).map (before ++ separator :: ·) := by
  cases hending : beforeEnding? ending text with
  | some stem =>
    rw [beforeEnding?_eq_some_iff] at hending
    rw [Option.map_some, beforeEnding?_eq_some_iff, hending]
    simp
  | none =>
    rw [beforeEnding?_eq_none_iff] at hending
    rw [Option.map_none, beforeEnding?_eq_none_iff]
    intro hends
    have htext : separator :: text <:+ before ++ separator :: text := List.suffix_append _ _
    rcases List.suffix_or_suffix_of_suffix hends htext with hlonger | hlonger
    · rcases List.suffix_cons_iff.mp hlonger with rfl | hlonger
      · exact h List.mem_cons_self
      · exact hending hlonger
    · exact h (hlonger.subset List.mem_cons_self)

/-- The text before the last separator, if there is one. -/
def beforeLast? (separator : Char) : List Char → Option (List Char)
  | [] => none
  | c :: rest =>
    match beforeLast? separator rest with
    | some before => some (c :: before)
    | none => if c = separator then some [] else none

theorem beforeLast?_of_notMem {separator : Char} {text : List Char} (h : separator ∉ text) :
    beforeLast? separator text = none := by
  induction text with
  | nil => rfl
  | cons c rest ih =>
    rw [List.mem_cons, not_or] at h
    simp [beforeLast?, ih h.2, Ne.symm h.1]

theorem beforeLast?_append {separator : Char} {after : List Char} (h : separator ∉ after)
    (before : List Char) : beforeLast? separator (before ++ separator :: after) = some before := by
  induction before with
  | nil => simp [beforeLast?, beforeLast?_of_notMem h]
  | cons c rest ih => simp [beforeLast?, ih]

/-- No piece of a split text holds the separator. -/
theorem notMem_of_mem_splitOn {separator : Char} {text piece : List Char}
    (h : piece ∈ text.splitOn separator) : separator ∉ piece := by
  induction text generalizing piece with
  | nil =>
    obtain rfl : piece = [] := by simpa using h
    exact List.not_mem_nil
  | cons c rest ih =>
    obtain ⟨first, others, hsplit⟩ :=
      List.exists_cons_of_ne_nil (List.splitOn_ne_nil separator rest)
    rw [hsplit] at ih
    rw [List.splitOn_cons_eq_if_modifyHead, hsplit] at h
    split at h
    next =>
      rcases List.mem_cons.mp h with rfl | hmem
      · exact List.not_mem_nil
      · exact ih hmem
    next hne =>
      rcases List.mem_cons.mp h with rfl | hmem
      · rw [List.mem_cons, not_or]
        exact ⟨fun heq => hne (beq_iff_eq.mpr heq.symm), ih List.mem_cons_self⟩
      · exact ih (List.mem_cons_of_mem _ hmem)

/-- The text after the last separator; all of it if there is none. -/
def afterLast (separator : Char) (text : List Char) : List Char :=
  (text.splitOn separator).getLastD text

/-- The texts before and after the first occurrence of a mark. -/
def cutAt? (mark : List Char) : List Char → Option (List Char × List Char)
  | [] => if mark.isEmpty then some ([], []) else none
  | c :: rest =>
    if mark.isPrefixOf (c :: rest) then some ([], (c :: rest).drop mark.length)
    else (cutAt? mark rest).map fun parts => (c :: parts.1, parts.2)

theorem cutAt?_eq_none {mark text : List Char} (hmark : mark ≠ []) (h : ¬ mark <:+: text) :
    cutAt? mark text = none := by
  induction text with
  | nil => simp [cutAt?, hmark]
  | cons c rest ih =>
    have hhead : ¬ mark <+: c :: rest := fun hstarts => h hstarts.isInfix
    have hrest : ¬ mark <:+: rest := fun hinside => h (List.infix_cons hinside)
    simp [cutAt?, hhead, ih hrest]

/-- A doubled character is found where it first stands. -/
theorem cutAt?_append {c : Char} {before : List Char} (h : ¬ [c, c] <:+: before ++ [c])
    (after : List Char) : cutAt? [c, c] (before ++ c :: c :: after) = some (before, after) := by
  induction before with
  | nil => simp [cutAt?]
  | cons first rest ih =>
    have hrest : ¬ [c, c] <:+: rest ++ [c] := fun hinside => h (List.infix_cons hinside)
    have hhead : ¬ [c, c] <+: first :: (rest ++ c :: c :: after) := by
      intro hstarts
      refine h (List.IsPrefix.isInfix ?_)
      cases rest with
      | nil => simpa using hstarts
      | cons second rest => simpa using hstarts
    simp [cutAt?, hhead, ih hrest]

end ExportIndex.Text

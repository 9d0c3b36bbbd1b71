import ExportIndex.Proofs.Resolution.Bounds

/-!
# Where a cycle ends

The loop of a cycle compares counts and not surfaces. As long as no export clause of a member gives
the default slot, surfaces only grow from round to round, so that an equal count means equal surfaces,
and computing a member once more changes nothing. A default binding that comes through a clause is
another matter: a round may replace it, and the loop may stop before all members have seen that.
-/

namespace ExportIndex.ModuleTable

/-- Computing any of some modules once more, from the surfaces of all modules, gives what it has. -/
def Settled (table : ModuleTable) (source : ModuleKey → Surface) (keys : List ModuleKey) : Prop :=
  ∀ key ∈ keys, ∀ entry, table.get? key = some entry → (entry.surface source).Agrees (source key)

/-- Every name that an export clause of some modules gives is allowed. -/
def ClausesWithin (table : ModuleTable) (keys : List ModuleKey) (allowed : String → Prop) : Prop :=
  ∀ key ∈ keys, ∀ entry, table.get? key = some entry → entry.ClausesWithin allowed

variable {table : ModuleTable} {before after : List (List ModuleKey)} {keys : List ModuleKey}

/-! ## Growth -/

theorem revise_within {source source' : ModuleKey → Surface} {key : ModuleKey}
    (hsource : ∀ key, (source key).WellFormed) (hsource' : ∀ key, (source' key).WellFormed)
    (hclauses : table.ClausesWithin [key] (· ≠ defaultName))
    (hwithin : ∀ key, (source key).Within (source' key)) (other : ModuleKey) :
    (table.revise source key other).Within (table.revise source' key other) := by
  by_cases heq : other = key
  · subst heq
    cases hget : table.get? other with
    | none =>
        rw [revise_of_get?_none table hget, revise_of_get?_none table hget]
        exact hwithin other
    | some entry =>
        rw [revise_of_get? table hget, revise_of_get? table hget, Function.update_self,
          Function.update_self]
        exact ModuleEntry.surface_within (filled_of_get? hget) hsource hsource'
          (hclauses other List.mem_cons_self entry hget) hwithin
  · rw [revise_of_ne table source heq, revise_of_ne table source' heq]
    exact hwithin other

/-- A round grows with the surfaces that it starts from. -/
theorem foldl_revise_within {source source' : ModuleKey → Surface}
    (hsource : ∀ key, (source key).WellFormed) (hsource' : ∀ key, (source' key).WellFormed)
    (hclauses : table.ClausesWithin keys (· ≠ defaultName))
    (hwithin : ∀ key, (source key).Within (source' key)) (other : ModuleKey) :
    (keys.foldl table.revise source other).Within (keys.foldl table.revise source' other) := by
  induction keys generalizing source source' with
  | nil => exact hwithin other
  | cons key rest ih =>
      have hkey : table.ClausesWithin [key] (· ≠ defaultName) := fun k hk =>
        hclauses k (List.mem_singleton.mp hk ▸ List.mem_cons_self)
      have hrest : table.ClausesWithin rest (· ≠ defaultName) := fun k hk =>
        hclauses k (List.mem_cons_of_mem _ hk)
      exact ih (table.keeps_wellFormed.revise hsource key)
        (table.keeps_wellFormed.revise hsource' key) hrest
        (revise_within hsource hsource' hkey hwithin)

section Cycle

variable (hsplit : table.graph.components = before ++ keys :: after)
  (hclauses : table.ClausesWithin keys (· ≠ defaultName))

include hsplit

theorem wellFormed_cycleSource (rounds : Nat) (key : ModuleKey) :
    (table.cycleSource (table.resolved before) keys rounds key).WellFormed :=
  table.keeps_wellFormed.cycleSource_resolved hsplit rounds key

include hclauses

/-- Where no export clause gives the default slot, bindings only accumulate. -/
theorem cycleSource_within_succ (rounds : Nat) (key : ModuleKey) :
    (table.cycleSource (table.resolved before) keys rounds key).Within
      (table.cycleSource (table.resolved before) keys (rounds + 1) key) := by
  have hnodup := nodup_of_split hsplit
  -- members start from nothing, and a round of more gives more
  induction rounds generalizing key with
  | zero =>
      by_cases hkey : key ∈ keys
      · rw [cycleSource_zero table _ hnodup, if_pos hkey]
        exact Surface.within_empty _
      · rw [cycleSource_of_notMem table _ hnodup hkey, cycleSource_of_notMem table _ hnodup hkey]
        exact Surface.Within.refl _
  | succ rounds ih =>
      rw [cycleSource_succ, cycleSource_succ]
      exact foldl_revise_within (wellFormed_cycleSource hsplit rounds)
        (wellFormed_cycleSource hsplit (rounds + 1)) hclauses ih key

/-- The last round lists nothing that was not there before. -/
theorem cycleSource_last_within {last : Nat}
    (hends : table.EndsAfter (table.resolved before) keys last) (key : ModuleKey) :
    (table.cycleSource (table.resolved before) keys (last + 1) key).Within
      (table.cycleSource (table.resolved before) keys last key) := by
  have hnodup := nodup_of_split hsplit
  by_cases hkey : key ∈ keys
  · have hgrows : ∀ key ∈ keys,
        (table.cycleSource (table.resolved before) keys last key).bindingCount ≤
          (table.cycleSource (table.resolved before) keys (last + 1) key).bindingCount :=
      fun key _ => (cycleSource_within_succ hsplit hclauses last key).bindingCount_le
        (wellFormed_cycleSource hsplit last key) (wellFormed_cycleSource hsplit (last + 1) key)
    have hsum := hends.stops
    rw [cycleCount_eq_sum table _ hnodup, cycleCount_eq_sum table _ hnodup] at hsum
    refine (cycleSource_within_succ hsplit hclauses last key).of_bindingCount_le
      (wellFormed_cycleSource hsplit last key) (wellFormed_cycleSource hsplit (last + 1) key) ?_
    -- one larger count among the members would make the total larger
    exact Nat.le_of_not_lt fun hlt =>
      Nat.not_lt_of_le hsum (List.sum_lt_sum _ _ hgrows ⟨key, hkey, hlt⟩)
  · rw [cycleSource_of_notMem table _ hnodup hkey, cycleSource_of_notMem table _ hnodup hkey]
    exact Surface.Within.refl _

/-- Where no export clause of a cycle gives the default slot, its surfaces are a fixed point. -/
theorem settled_resolveCycle :
    table.Settled (table.resolveCycle (table.resolved before) keys).source keys := by
  obtain ⟨last, -, hends⟩ := exists_endsAfter hsplit
  rw [hends.source_eq]
  intro key hkey entry hentry
  have hgrows := cycleSource_within_succ hsplit hclauses last
  have hlast := cycleSource_last_within hsplit hclauses hends
  obtain ⟨seen, hsurface, hseen⟩ := exists_source_of_mem table (nodup_of_split hsplit) hkey hentry
    (table.cycleSource (table.resolved before) keys last)
  rw [← cycleSource_succ] at hsurface hseen
  -- whatever the member was computed from in the last round lists what all surfaces list after it
  have hwithin : ∀ other, (seen other).Within
        (table.cycleSource (table.resolved before) keys (last + 1) other) ∧
      (table.cycleSource (table.resolved before) keys (last + 1) other).Within (seen other) := by
    intro other
    rcases hseen other with heq | heq
    · rw [heq]
      exact ⟨hgrows other, hlast other⟩
    · rw [heq]
      exact ⟨Surface.Within.refl _, Surface.Within.refl _⟩
  have hwell : ∀ other, (seen other).WellFormed := by
    intro other
    rcases hseen other with heq | heq <;> rw [heq]
    · exact wellFormed_cycleSource hsplit last other
    · exact wellFormed_cycleSource hsplit (last + 1) other
  rw [hsurface]
  exact ModuleEntry.surface_agrees (filled_of_get? hentry) (wellFormed_cycleSource hsplit (last + 1))
    hwell (hclauses key hkey entry hentry) (fun other => (hwithin other).2)
    fun other => (hwithin other).1

end Cycle

/-! ## A default binding that is replaced -/

/-- Five files of one cycle. The default binding of `z` first comes from `c` and in the last round
from `w`, and the default binding of `c` comes from `z`. -/
def replacedDefault (last : Export) : ModuleTable :=
  .build false
    [workspaceFile "w" [exportedConstant "a"] [.bare "./v" default] [],
      workspaceFile "v" [] [.bare "./t" default] [.all "./w" none default],
      workspaceFile "t" [] [.bare "./z" default] [.all "./v" none default, last],
      workspaceFile "z" [] [.bare "./c" default]
        [.named (some "./t") [⟨"a", some defaultName⟩] false default],
      workspaceFile "c" [exportedConstant "a"] []
        [.named (some "./z") [⟨defaultName, none⟩] false default]]

/-- `export * from "./c"`. -/
def starOfC : Export := .all "./c" none default

/-- `export {a} from "./c"`. -/
def clauseOfC : Export := .named (some "./c") [⟨"a", none⟩] false default

/-- The files of the cycle, in the order in which they are computed. -/
def replacedDefaultKeys : List ModuleKey := ["/c", "/z", "/t", "/v", "/w"]

/-- What the cycle is resolved to. -/
def replacedDefaultResult (last : Export) : Surfaces :=
  (replacedDefault last).resolveCycle ((replacedDefault last).resolved []) replacedDefaultKeys

theorem components_replacedDefault {last : Export} (hlast : last ∈ [starOfC, clauseOfC]) :
    (replacedDefault last).graph.components = [] ++ replacedDefaultKeys :: [] := by
  have hall : ∀ last ∈ [starOfC, clauseOfC],
      (replacedDefault last).graph.components = [] ++ replacedDefaultKeys :: [] := by
    decide +kernel
  exact hall last hlast

theorem isCyclic_replacedDefaultKeys (g : Graph ModuleKey) :
    g.isCyclic replacedDefaultKeys = true := rfl

/-- When the loop ends, `c` would get another default binding if it were computed again. -/
theorem not_settled_replacedDefault {last : Export} (hlast : last ∈ [starOfC, clauseOfC]) :
    ¬ (replacedDefault last).Settled (replacedDefaultResult last).source replacedDefaultKeys := by
  have hdefault : ∀ last ∈ [starOfC, clauseOfC],
      ((replacedDefaultResult last).source "/c").default? = some ⟨"/c", .declared 0⟩ ∧
        ((replacedDefault last).get? "/c").map (fun entry =>
            (entry.surface (replacedDefaultResult last).source).default?) =
          some (some ⟨"/w", .declared 0⟩) := by
    decide +kernel
  obtain ⟨hkept, hcomputed⟩ := hdefault last hlast
  obtain ⟨entry, hentry, hagain⟩ := Option.map_eq_some_iff.mp hcomputed
  intro hsettled
  have hagrees := (hsettled "/c" (by simp [replacedDefaultKeys]) entry hentry).default?
  rw [hkept, hagain] at hagrees
  exact absurd hagrees (by decide)

theorem clausesWithin_replacedDefault {allowed : String → Prop} (hallowed : allowed defaultName) :
    (replacedDefault starOfC).ClausesWithin replacedDefaultKeys allowed := by
  have hnames : ∀ entry ∈ (replacedDefault starOfC).entries, ∀ e ∈ entry.resource.exports,
      ∀ s ∈ e.specifiers, s.localName = defaultName := by
    decide +kernel
  intro key _ entry hentry e he s hs
  rw [hnames entry (mem_entries_of_get? hentry) e he s hs]
  exact hallowed

/-- The loop ends with a fixed point in all cycles whose export clauses give certain names only, if
and only if the default slot is none of these names. -/
theorem resolveCycle_settled_iff (allowed : String → Prop) :
    (∀ (table : ModuleTable) (before after : List (List ModuleKey)) (keys : List ModuleKey),
      table.graph.components = before ++ keys :: after → table.graph.isCyclic keys = true →
      table.ClausesWithin keys allowed →
      table.Settled (table.resolveCycle (table.resolved before) keys).source keys) ↔
      ¬ allowed defaultName := by
  constructor
  · intro hsettled hallowed
    have hlast : starOfC ∈ [starOfC, clauseOfC] := List.mem_cons_self
    exact not_settled_replacedDefault hlast (hsettled _ _ _ _ (components_replacedDefault hlast)
      (isCyclic_replacedDefaultKeys _) (clausesWithin_replacedDefault hallowed))
  · intro hnot table before after keys hsplit _ hclauses
    refine settled_resolveCycle hsplit fun key hkey entry hentry e he s hs hname => hnot ?_
    have hallowed := hclauses key hkey entry hentry e he s hs
    rwa [hname] at hallowed

/-- A cycle that the loop does not settle, of files whose exports do not clash. -/
theorem not_settled_clauseOfC :
    (replacedDefault clauseOfC).graph.components = [] ++ replacedDefaultKeys :: [] ∧
      (replacedDefault clauseOfC).graph.isCyclic replacedDefaultKeys = true ∧
      ¬ (replacedDefault clauseOfC).Settled
        ((replacedDefault clauseOfC).resolveCycle ((replacedDefault clauseOfC).resolved [])
          replacedDefaultKeys).source replacedDefaultKeys := by
  have hlast : clauseOfC ∈ [starOfC, clauseOfC] := List.mem_cons_of_mem _ List.mem_cons_self
  exact ⟨components_replacedDefault hlast, isCyclic_replacedDefaultKeys _,
    not_settled_replacedDefault hlast⟩

end ExportIndex.ModuleTable

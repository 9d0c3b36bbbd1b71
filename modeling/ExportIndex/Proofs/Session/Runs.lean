import ExportIndex.Proofs.Session.Builds
import Mathlib.Data.List.Induction

/-!
# Runs of a session

What an index has come to after any commands. It offers what the last successful build has made of the
files as they were then, and nothing of other builds. Builds that fail or are broken off leave no trace.
-/

namespace ExportIndex.Session

variable {s start : Session} {commands before : List Session.Command} {paths : List Path}

/-! ## One command -/

/-- A build publishes the snapshot of the files as they are, or it leaves everything as it was. -/
theorem run_build (s : Session) (paths : List Path) :
    (∃ snapshot, s.index.config.snapshot s.reader paths = .ok snapshot ∧
      s.run (.build paths) = (.built, { s with index := { s.index with snapshot, ready := true } })) ∨
    ∃ error, s.index.config.snapshot s.reader paths = .error error ∧
      s.run (.build paths) = (.ofError error, s) := by
  cases h : s.index.config.snapshot s.reader paths with
  | ok snapshot => exact .inl ⟨snapshot, rfl, by simp [run, Index.build, h, Except.map]⟩
  | error error => exact .inr ⟨error, rfl, by simp [run, Index.build, h, Except.map]⟩

theorem Reply.ofError_ne_built (error : BuildError) : Reply.ofError error ≠ .built := by
  cases error <;> exact Reply.noConfusion

theorem run_of_not_built (h : (s.run (.build paths)).1 ≠ .built) : (s.run (.build paths)).2 = s := by
  rcases run_build s paths with ⟨snapshot, -, hrun⟩ | ⟨error, -, hrun⟩
  · exact absurd (congrArg Prod.fst hrun) h
  · rw [hrun]

theorem index_run_of_not_built {command : Command}
    (h : ∀ paths, command = .build paths → (s.run command).1 ≠ .built) :
    (s.run command).2.index = s.index := by
  cases command with
  | build paths => rw [run_of_not_built (h paths rfl)]
  | _ => rfl

/-- No command changes the configuration, or where files are read from. -/
theorem config_run (s : Session) (command : Command) :
    (s.run command).2.index.config = s.index.config ∧ (s.run command).2.volume? = s.volume? := by
  cases command with
  | build paths => rcases run_build s paths with ⟨snapshot, -, hrun⟩ | ⟨error, -, hrun⟩ <;> simp [hrun]
  | _ => exact ⟨rfl, rfl⟩

/-- What a command leaves at a path: a document, nothing, or what was there. -/
def Command.leaves? (path : Path) : Command → Option (Option Document)
  | .write written document => if written.same path then some (some document) else none
  | .remove removed => if removed.same path then some none else none
  | .build _ | .hold => none

theorem get?_workspace_run (s : Session) (command : Command) (path : Path) :
    (s.run command).2.workspace.get? path.components =
      (command.leaves? path).getD (s.workspace.get? path.components) := by
  cases command with
  | write written document =>
      by_cases h : written.components = path.components <;>
        simp [run, Workspace.write, Command.leaves?, Path.same, h]
  | remove removed =>
      by_cases h : removed.components = path.components <;>
        simp [run, Workspace.remove, Command.leaves?, Path.same, h]
  | build paths =>
      rcases run_build s paths with ⟨snapshot, -, hrun⟩ | ⟨error, -, hrun⟩ <;>
        simp [hrun, Command.leaves?]
  | hold => rfl

/-- The snapshots taken so far stay, and a new one is the current one. -/
theorem held_run (s : Session) (command : Command) :
    (s.run command).2.held =
      s.held ++ (match command with | .hold => [s.index.snapshot] | _ => []) := by
  cases command with
  | build paths => rcases run_build s paths with ⟨snapshot, -, hrun⟩ | ⟨error, -, hrun⟩ <;> simp [hrun]
  | _ => simp [run]

/-! ## Many commands -/

@[simp] theorem after_nil (s : Session) : s.after [] = s := rfl

theorem after_append (s : Session) (first second : List Command) :
    s.after (first ++ second) = (s.after first).after second := by
  simp [after]

theorem after_concat (s : Session) (commands : List Command) (command : Command) :
    s.after (commands ++ [command]) = ((s.after commands).run command).2 := by
  simp [after]

theorem config_after (s : Session) (commands : List Command) :
    (s.after commands).index.config = s.index.config ∧ (s.after commands).volume? = s.volume? := by
  induction commands using List.reverseRecOn with
  | nil => exact ⟨rfl, rfl⟩
  | append_singleton commands command ih =>
      rw [after_concat]
      exact ⟨(config_run _ _).1.trans ih.1, (config_run _ _).2.trans ih.2⟩

/-- A path holds what the last command that wrote or removed it has left there. -/
theorem get?_workspace_after (s : Session) (commands : List Command) (path : Path) :
    (s.after commands).workspace.get? path.components =
      (commands.reverse.findSome? (Command.leaves? path)).getD
        (s.workspace.get? path.components) := by
  induction commands using List.reverseRecOn with
  | nil => rfl
  | append_singleton commands command ih =>
      rw [after_concat, get?_workspace_run, ih, List.reverse_concat, List.findSome?_cons]
      cases command.leaves? path <;> rfl

theorem held_prefix_after (s : Session) (commands : List Command) :
    s.held <+: (s.after commands).held := by
  induction commands using List.reverseRecOn with
  | nil => exact List.prefix_rfl
  | append_singleton commands command ih =>
      rw [after_concat, held_run]
      exact ih.trans (List.prefix_append _ _)

/-! ## Successful builds -/

/-- The command after the first ones is a build of some paths, and it succeeds. -/
def BuiltAfter (start : Session) (commands before : List Command) (paths : List Path) : Prop :=
  before ++ [.build paths] <+: commands ∧ ((start.after before).run (.build paths)).1 = .built

/-- That build succeeds, and none after it does. -/
def LastBuiltAfter (start : Session) (commands before : List Command) (paths : List Path) : Prop :=
  start.BuiltAfter commands before paths ∧
    ∀ other paths', start.BuiltAfter commands other paths' → other.length ≤ before.length

theorem not_builtAfter_nil : ¬ start.BuiltAfter [] before paths := by
  rintro ⟨hstarts, -⟩
  simp at hstarts

theorem builtAfter_concat_iff {command : Command} :
    start.BuiltAfter (commands ++ [command]) before paths ↔
      start.BuiltAfter commands before paths ∨
        before = commands ∧ command = .build paths ∧
          ((start.after commands).run command).1 = .built := by
  rw [BuiltAfter, List.prefix_concat_iff, BuiltAfter, or_and_right, or_comm]
  refine or_congr_right ⟨?_, ?_⟩
  · rintro ⟨heq, hbuilt⟩
    obtain ⟨rfl, hcommand⟩ := List.append_inj' heq rfl
    obtain rfl := List.singleton_inj.mp hcommand
    exact ⟨rfl, rfl, hbuilt⟩
  · rintro ⟨rfl, rfl, hbuilt⟩
    exact ⟨rfl, hbuilt⟩

theorem BuiltAfter.length_lt (h : start.BuiltAfter commands before paths) :
    before.length < commands.length := by
  have hlength := h.1.length_le
  simp only [List.length_append, List.length_singleton] at hlength
  omega

/-- There is at most one last successful build. -/
theorem LastBuiltAfter.unique {other : List Command} {paths' : List Path}
    (h : start.LastBuiltAfter commands before paths)
    (h' : start.LastBuiltAfter commands other paths') : before = other ∧ paths = paths' := by
  have hlength : before.length = other.length :=
    Nat.le_antisymm (h'.2 _ _ h.1) (h.2 _ _ h'.1)
  have heq : before ++ [Command.build paths] = other ++ [Command.build paths'] :=
    (List.prefix_of_prefix_length_le h.1.1 h'.1.1 (by simp [hlength])).eq_of_length
      (by simp [hlength])
  obtain ⟨rfl, hcommand⟩ := List.append_inj' heq rfl
  simpa using hcommand

/-- A session offers nothing before the first successful build, and after it what the last one has
made of the files of its moment. -/
inductive Status (start : Session) (commands : List Command) : Prop where
  | unready (hready : (start.after commands).index.ready = false)
      (hsnapshot : (start.after commands).index.snapshot = .empty)
      (hnone : ∀ before paths, ¬ start.BuiltAfter commands before paths) : Status start commands
  | ready {before : List Command} {paths : List Path}
      (hready : (start.after commands).index.ready = true)
      (hlast : start.LastBuiltAfter commands before paths)
      (hsnapshot : start.index.config.snapshot (start.after before).reader paths =
        .ok (start.after commands).index.snapshot) : Status start commands

theorem Status.of_not_built {command : Command} (h : start.Status commands)
    (hnot : ∀ paths, command = .build paths → ((start.after commands).run command).1 ≠ .built) :
    start.Status (commands ++ [command]) := by
  have hindex : (start.after (commands ++ [command])).index = (start.after commands).index := by
    rw [after_concat, index_run_of_not_built hnot]
  have hbuilt : ∀ before paths, start.BuiltAfter (commands ++ [command]) before paths ↔
      start.BuiltAfter commands before paths := by
    intro before paths
    rw [builtAfter_concat_iff, or_iff_left]
    rintro ⟨-, hcommand, hbuilt⟩
    exact hnot paths hcommand hbuilt
  cases h with
  | unready hready hsnapshot hnone =>
      refine .unready (hindex ▸ hready) (hindex ▸ hsnapshot) fun before paths => ?_
      rw [hbuilt]
      exact hnone before paths
  | @ready before paths hready hlast hsnapshot =>
      have hlast' : start.LastBuiltAfter (commands ++ [command]) before paths := by
        simpa only [LastBuiltAfter, hbuilt] using hlast
      exact .ready (hindex ▸ hready) hlast' (hindex ▸ hsnapshot)

theorem Status.of_built (h : ((start.after commands).run (.build paths)).1 = .built) :
    start.Status (commands ++ [.build paths]) := by
  rcases run_build (start.after commands) paths with ⟨snapshot, hsnapshot, hrun⟩ | ⟨error, -, hrun⟩
  · have hlast : start.LastBuiltAfter (commands ++ [.build paths]) commands paths := by
      refine ⟨builtAfter_concat_iff.mpr (.inr ⟨rfl, rfl, h⟩), fun other paths' hother => ?_⟩
      have hlength := hother.length_lt
      simp only [List.length_append, List.length_singleton] at hlength
      omega
    refine .ready ?_ hlast ?_
    · rw [after_concat, hrun]
    · rw [after_concat, hrun, ← (config_after start commands).1, hsnapshot]
  · rw [hrun] at h
    exact absurd h (Reply.ofError_ne_built error)

theorem status_ofConfig (config : Config) (workspace : Workspace) (volume? : Option Volume)
    (commands : List Command) : (ofConfig config workspace volume?).Status commands := by
  induction commands using List.reverseRecOn with
  | nil => exact .unready rfl rfl fun _ _ => not_builtAfter_nil
  | append_singleton commands command ih =>
      by_cases hbuilt : ∃ paths, command = .build paths ∧
          (((ofConfig config workspace volume?).after commands).run command).1 = .built
      · obtain ⟨paths, rfl, hbuilt⟩ := hbuilt
        exact .of_built hbuilt
      · exact ih.of_not_built fun paths hcommand h => hbuilt ⟨paths, hcommand, h⟩

theorem Status.ready_iff (h : start.Status commands) :
    (start.after commands).index.ready = true ↔
      ∃ before paths, start.BuiltAfter commands before paths := by
  cases h with
  | unready hready _ hnone => simp [hready, hnone]
  | @ready before paths hready hlast _ => exact iff_of_true hready ⟨before, paths, hlast.1⟩

theorem Status.snapshot_of_none (h : start.Status commands)
    (hnone : ∀ before paths, ¬ start.BuiltAfter commands before paths) :
    (start.after commands).index.snapshot = .empty := by
  cases h with
  | unready _ hsnapshot _ => exact hsnapshot
  | ready _ hlast _ => exact absurd hlast.1 (hnone _ _)

theorem Status.exists_last (h : start.Status commands)
    (hbuilt : ∃ before paths, start.BuiltAfter commands before paths) :
    ∃ before paths, start.LastBuiltAfter commands before paths := by
  cases h with
  | unready _ _ hnone =>
      obtain ⟨before, paths, hbuilt⟩ := hbuilt
      exact absurd hbuilt (hnone before paths)
  | @ready before paths _ hlast _ => exact ⟨before, paths, hlast⟩

theorem Status.snapshot_of_last (h : start.Status commands)
    (hlast : start.LastBuiltAfter commands before paths) :
    ∃ fresh, (Index.ofConfig start.index.config).build (start.after before).reader paths = .ok fresh ∧
      (start.after commands).index.snapshot = fresh.snapshot := by
  cases h with
  | unready _ _ hnone => exact absurd hlast.1 (hnone _ _)
  | ready _ hlast' hsnapshot =>
      obtain ⟨rfl, rfl⟩ := hlast.unique hlast'
      exact ⟨_, congrArg (Except.map _) hsnapshot, rfl⟩

/-! ## Builds that publish nothing -/

/-- How a build ends that is asked for in a session. -/
inductive BuildReply (s : Session) (paths : List Path) : Reply × Session → Prop where
  | aborted (hlimit : readLimit < s.index.config.maxConcurrentReads) : BuildReply s paths (.aborted, s)
  | unreadable {path : Path} {cause : ReadFailure}
      (hlimit : s.index.config.maxConcurrentReads ≤ readLimit) (hpath : path ∈ paths)
      (hcause : s.reader path = .error cause) : BuildReply s paths (.failed (.read path cause), s)
  | rejected {path : Path} {document : Document} {diagnostic : Diagnostic}
      (hlimit : s.index.config.maxConcurrentReads ≤ readLimit)
      (hreadable : ∀ path ∈ paths, ¬ s.reader.Unreadable path) (hpath : path ∈ paths)
      (hdocument : s.reader path = .ok document)
      (hrejected : document.Rejected s.index.config.parser)
      (hdiagnostic : document.diagnostic? path.text = some diagnostic) :
      BuildReply s paths (.failed (.parse diagnostic), s)
  | built {next : Session} (hlimit : s.index.config.maxConcurrentReads ≤ readLimit)
      (hreadable : ∀ path ∈ paths, ¬ s.reader.Unreadable path)
      (haccepted : ∀ path ∈ paths, ∀ document, s.reader path = .ok document →
        ¬ document.Rejected s.index.config.parser) : BuildReply s paths (.built, next)

theorem buildReply_run (s : Session) (paths : List Path) :
    s.BuildReply paths (s.run (.build paths)) := by
  have hends := s.index.config.buildEnds_snapshot s.reader paths
  rcases run_build s paths with ⟨snapshot, hsnapshot, hrun⟩ | ⟨error, herror, hrun⟩
  · rw [hsnapshot] at hends
    rw [hrun]
    cases hends with
    | built hlimit hreadable haccepted =>
        refine .built hlimit hreadable fun path hpath document hdocument => ?_
        rw [← Reader.documentAt_of_ok hdocument]
        exact haccepted path hpath
  · rw [herror] at hends
    rw [hrun]
    cases hends with
    | aborted hlimit => exact .aborted hlimit
    | unreadable hlimit hpath hcause => exact .unreadable hlimit hpath hcause
    | rejected hlimit hreadable hpath hrejected hdiagnostic =>
        exact .rejected hlimit hreadable hpath (Reader.eq_ok_of_not_unreadable (hreadable _ hpath))
          hrejected hdiagnostic

namespace BuildReply

variable {outcome : Reply × Session} (h : s.BuildReply paths outcome)

include h

theorem aborted_iff : outcome.1 = .aborted ↔ readLimit < s.index.config.maxConcurrentReads := by
  cases h with
  | aborted hlimit => exact iff_of_true rfl hlimit
  | unreadable hlimit | rejected hlimit | built hlimit => exact iff_of_false (by simp) (by omega)

theorem failed_iff (hlimit : s.index.config.maxConcurrentReads ≤ readLimit) :
    (∃ failure, outcome.1 = .failed failure) ↔
      (∃ path ∈ paths, s.reader.Unreadable path) ∨
        (∀ path ∈ paths, ¬ s.reader.Unreadable path) ∧
          ∃ path ∈ paths, ∃ document, s.reader path = .ok document ∧
            document.Rejected s.index.config.parser := by
  cases h with
  | aborted habove => omega
  | unreadable _ hpath hcause => exact iff_of_true ⟨_, rfl⟩ (.inl ⟨_, hpath, _, hcause⟩)
  | rejected _ hreadable hpath hdocument hrejected _ =>
      exact iff_of_true ⟨_, rfl⟩ (.inr ⟨hreadable, _, hpath, _, hdocument, hrejected⟩)
  | built _ hreadable haccepted =>
      refine iff_of_false (by simp) ?_
      rintro (⟨path, hpath, hunreadable⟩ | ⟨-, path, hpath, document, hdocument, hrejected⟩)
      · exact hreadable path hpath hunreadable
      · exact haccepted path hpath document hdocument hrejected

theorem eq_built (haborts : outcome.1 ≠ .aborted) (hfails : ∀ failure, outcome.1 ≠ .failed failure) :
    outcome.1 = .built := by
  cases h with
  | aborted => exact absurd rfl haborts
  | unreadable | rejected => exact absurd rfl (hfails _)
  | built => rfl

theorem exists_unreadable (hlimit : s.index.config.maxConcurrentReads ≤ readLimit)
    (hpaths : ∃ path ∈ paths, s.reader.Unreadable path) :
    ∃ path ∈ paths, ∃ cause, s.reader path = .error cause ∧
      outcome.1 = .failed (.read path cause) := by
  obtain ⟨path, hpath, hunreadable⟩ := hpaths
  cases h with
  | aborted habove => omega
  | unreadable _ hpath hcause => exact ⟨_, hpath, _, hcause, rfl⟩
  | rejected _ hreadable | built _ hreadable => exact absurd hunreadable (hreadable path hpath)

theorem exists_rejected {failure : Failure} (hreadable : ∀ path ∈ paths, ¬ s.reader.Unreadable path)
    (hfails : outcome.1 = .failed failure) :
    ∃ path ∈ paths, ∃ document diagnostic, s.reader path = .ok document ∧
      document.diagnostic? path.text = some diagnostic ∧ failure = .parse diagnostic := by
  cases h with
  | unreadable _ hpath hcause => exact absurd ⟨_, hcause⟩ (hreadable _ hpath)
  | rejected _ _ hpath hdocument _ hdiagnostic =>
      obtain rfl := Reply.failed.inj hfails
      exact ⟨_, hpath, _, _, hdocument, hdiagnostic, rfl⟩
  | aborted | built => cases hfails

end BuildReply

/-! ## Whole runs -/

theorem getElem?_held_after (hstarts : before ++ [.hold] <+: commands) :
    (start.after commands).held[(start.after before).held.length]? =
      some (start.after before).index.snapshot := by
  obtain ⟨later, rfl⟩ := hstarts
  have htaken : (start.after (before ++ [.hold])).held =
      (start.after before).held ++ [(start.after before).index.snapshot] := by
    rw [after_concat, held_run]
  obtain ⟨rest, hrest⟩ := held_prefix_after (start.after (before ++ [.hold])) later
  rw [after_append, ← hrest, htaken]
  simp

theorem reader_after (start : Session) (commands : List Command) (path : Path) :
    (start.after commands).reader path =
      match start.volume? with
      | some volume => volume.reader path
      | none =>
        match (commands.reverse.findSome? (Command.leaves? path)).getD
            (start.workspace.get? path.components) with
        | some document => .ok document
        | none => .error .notInMemory := by
  rw [reader, (config_after start commands).2]
  cases start.volume? with
  | some volume => rfl
  | none =>
      rw [← get?_workspace_after]
      rfl

/-- What a session has come to after some commands, and how a build ends that is asked for then. -/
structure Accounted (start : Session) (commands : List Command) : Prop where
  ready_iff : (start.after commands).index.ready = true ↔
    ∃ before paths, start.BuiltAfter commands before paths
  snapshot_of_none : (∀ before paths, ¬ start.BuiltAfter commands before paths) →
    (start.after commands).index.snapshot = .empty
  exists_last : (∃ before paths, start.BuiltAfter commands before paths) →
    ∃ before paths, start.LastBuiltAfter commands before paths
  /-- The snapshot is the one that a new index publishes for the same paths and the files as they
  were before the last successful build. -/
  snapshot_of_last : ∀ before paths, start.LastBuiltAfter commands before paths →
    ∃ fresh, (Index.ofConfig start.index.config).build (start.after before).reader paths = .ok fresh ∧
      (start.after commands).index.snapshot = fresh.snapshot
  /-- Builds read the volume of the session or, if it has none, what the commands have left. -/
  reader_eq : ∀ path, (start.after commands).reader path =
    match start.volume? with
    | some volume => volume.reader path
    | none =>
      match (commands.reverse.findSome? (Command.leaves? path)).getD
          (start.workspace.get? path.components) with
      | some document => .ok document
      | none => .error .notInMemory
  /-- A build is broken off exactly if it may read more files at the same time than can be read. -/
  aborts_iff : ∀ paths, ((start.after commands).run (.build paths)).1 = .aborted ↔
    readLimit < start.index.config.maxConcurrentReads
  fails_iff : start.index.config.maxConcurrentReads ≤ readLimit → ∀ paths,
    ((∃ failure, ((start.after commands).run (.build paths)).1 = .failed failure) ↔
      (∃ path ∈ paths, (start.after commands).reader.Unreadable path) ∨
        (∀ path ∈ paths, ¬ (start.after commands).reader.Unreadable path) ∧
          ∃ path ∈ paths, ∃ document, (start.after commands).reader path = .ok document ∧
            document.Rejected start.index.config.parser)
  built_of_not_failed : ∀ paths, ((start.after commands).run (.build paths)).1 ≠ .aborted →
    (∀ failure, ((start.after commands).run (.build paths)).1 ≠ .failed failure) →
      ((start.after commands).run (.build paths)).1 = .built
  /-- A path that cannot be read is reported before any text that is rejected. -/
  failure_of_unreadable : start.index.config.maxConcurrentReads ≤ readLimit → ∀ paths,
    (∃ path ∈ paths, (start.after commands).reader.Unreadable path) →
      ∃ path ∈ paths, ∃ cause, (start.after commands).reader path = .error cause ∧
        ((start.after commands).run (.build paths)).1 = .failed (.read path cause)
  failure_of_readable : ∀ paths failure,
    (∀ path ∈ paths, ¬ (start.after commands).reader.Unreadable path) →
      ((start.after commands).run (.build paths)).1 = .failed failure →
        ∃ path ∈ paths, ∃ document diagnostic, (start.after commands).reader path = .ok document ∧
          document.diagnostic? path.text = some diagnostic ∧ failure = .parse diagnostic
  unchanged : ∀ paths, ((start.after commands).run (.build paths)).1 ≠ .built →
    start.after (commands ++ [.build paths]) = start.after commands
  /-- A snapshot that was taken stays what it was when it was taken. -/
  held : ∀ before, before ++ [.hold] <+: commands →
    (start.after commands).held[(start.after before).held.length]? =
      some (start.after before).index.snapshot

end ExportIndex.Session

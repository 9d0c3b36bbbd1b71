import ExportIndex.Session
import Mathlib.Tactic.Push

/-!
# Builds

How one build ends. All files are read before any is parsed, so that a file that cannot be read is
reported before a text that is rejected, wherever the two stand in the list of paths. A build that is
allowed too many readings at the same time ends before all this.
-/

namespace ExportIndex

section Stage

variable {ε α β : Type} {f : α → Except ε β} {items : List α}

theorem mapM_eq_ok_map {g : α → β} (h : ∀ item ∈ items, f item = .ok (g item)) :
    items.mapM f = .ok (items.map g) := by
  induction items with
  | nil => rfl
  | cons item rest ih =>
      have hrest := ih fun other hother => h other (List.mem_cons_of_mem _ hother)
      simp [h item List.mem_cons_self, hrest, bind, Except.bind, pure, Except.pure]

/-- A stage fails if it fails at any item, and then with the failure of one of them. -/
theorem exists_mem_of_mapM_error {item : α} (hmem : item ∈ items) {e : ε} (h : f item = .error e) :
    ∃ first ∈ items, ∃ e', f first = .error e' ∧ items.mapM f = .error e' := by
  induction items with
  | nil => simp at hmem
  | cons head rest ih =>
      cases hhead : f head with
      | error e' => exact ⟨head, List.mem_cons_self, e', hhead, by simp [hhead, bind, Except.bind]⟩
      | ok result =>
          have hrest : item ∈ rest := by
            refine (List.mem_cons.mp hmem).resolve_left ?_
            rintro rfl
            simp [hhead] at h
          obtain ⟨first, hfirst, e', hfails, hmapM⟩ := ih hrest
          refine ⟨first, List.mem_cons_of_mem _ hfirst, e', hfails, ?_⟩
          simp [hhead, hmapM, bind, Except.bind]

end Stage

namespace Reader

variable {reader : Reader} {path : Path} {maxConcurrentReads : Nat} {paths : List Path}

/-- The reader cannot read a path. -/
def Unreadable (reader : Reader) (path : Path) : Prop := ∃ cause, reader path = .error cause

/-- What a path holds, if it can be read. -/
def documentAt (reader : Reader) (path : Path) : Document := (reader path).toOption.getD default

theorem documentAt_of_ok {document : Document} (h : reader path = .ok document) :
    reader.documentAt path = document := by
  rw [documentAt, h]
  rfl

theorem eq_ok_of_not_unreadable (h : ¬ reader.Unreadable path) :
    reader path = .ok (reader.documentAt path) := by
  cases hread : reader path with
  | error cause => exact absurd ⟨cause, hread⟩ h
  | ok document => rw [documentAt_of_ok hread]

theorem readPath_eq_ok {document : Document} (h : reader path = .ok document) :
    reader.readPath path = .ok (path, document) := by
  rw [readPath, read, h]
  rfl

theorem readPath_eq_error {cause : ReadFailure} (h : reader path = .error cause) :
    reader.readPath path = .error (.read path cause) := by
  rw [readPath, read, h]
  rfl

theorem readAll_of_lt (h : readLimit < maxConcurrentReads) (reader : Reader) (paths : List Path) :
    reader.readAll maxConcurrentReads paths = .error .aborted := by
  rw [readAll, if_pos (by omega)]

theorem readAll_of_le (h : maxConcurrentReads ≤ readLimit) (reader : Reader) (paths : List Path) :
    reader.readAll maxConcurrentReads paths = (paths.mapM reader.readPath).mapError .failed := by
  have hone : 1 ≤ readLimit := by decide
  rw [readAll, if_neg (by omega)]

theorem mapM_readPath_of_unreadable (hpath : path ∈ paths) (h : reader.Unreadable path) :
    ∃ first ∈ paths, ∃ cause, reader first = .error cause ∧
      paths.mapM reader.readPath = .error (.read first cause) := by
  obtain ⟨cause, hcause⟩ := h
  obtain ⟨first, hfirst, failure, hfailure, hall⟩ :=
    exists_mem_of_mapM_error hpath (readPath_eq_error hcause)
  cases hread : reader first with
  | error cause =>
      rw [readPath_eq_error hread] at hfailure
      cases hfailure
      exact ⟨first, hfirst, cause, hread, hall⟩
  | ok document =>
      rw [readPath_eq_ok hread] at hfailure
      cases hfailure

theorem mapM_readPath_of_readable (h : ∀ path ∈ paths, ¬ reader.Unreadable path) :
    paths.mapM reader.readPath = .ok (paths.map fun path => (path, reader.documentAt path)) :=
  mapM_eq_ok_map fun path hpath => readPath_eq_ok (eq_ok_of_not_unreadable (h path hpath))

end Reader

namespace Document

variable {document : Document} {config : ParserConfig}

/-- The document has unreadable or absent parts, and these are refused. -/
def Rejected (document : Document) (config : ParserConfig) : Prop :=
  config.rejectsFaults = true ∧
    ∃ site ∈ (Site.ofRoot document.root).preorder, site.node.isFaulty = true

theorem isSome_diagnostic?_iff (file : String) :
    (document.diagnostic? file).isSome ↔
      ∃ site ∈ (Site.ofRoot document.root).preorder, site.node.isFaulty = true := by
  simp [diagnostic?, Node.firstFault?, List.find?_isSome]

theorem parse_of_rejected (h : document.Rejected config) (file root : Path) :
    ∃ diagnostic, document.diagnostic? file.text = some diagnostic ∧
      document.parse config file root = .error (.parse diagnostic) := by
  obtain ⟨hrejects, hfaulty⟩ := h
  obtain ⟨diagnostic, hsome⟩ :=
    Option.isSome_iff_exists.mp ((isSome_diagnostic?_iff file.text).mpr hfaulty)
  exact ⟨diagnostic, hsome, by simp [parse, hrejects, hsome]⟩

theorem parse_of_not_rejected (h : ¬ document.Rejected config) (file root : Path) :
    document.parse config file root = .ok (document.toResource file root) := by
  have hnone : (if config.rejectsFaults then document.diagnostic? file.text else none) = none := by
    split
    next hrejects =>
      rw [← Option.not_isSome_iff_eq_none, isSome_diagnostic?_iff]
      exact fun hfaulty => h ⟨hrejects, hfaulty⟩
    next => rfl
  rw [parse, hnone]

end Document

namespace Config

/-- The ways in which a build from some files can end. -/
inductive BuildEnds (config : Config) (reader : Reader) (paths : List Path) :
    Except BuildError Snapshot → Prop where
  /-- More files may be read at the same time than can be. -/
  | aborted (hlimit : readLimit < config.maxConcurrentReads) :
      BuildEnds config reader paths (.error .aborted)
  /-- A file cannot be read. -/
  | unreadable {path : Path} {cause : ReadFailure} (hlimit : config.maxConcurrentReads ≤ readLimit)
      (hpath : path ∈ paths) (hcause : reader path = .error cause) :
      BuildEnds config reader paths (.error (.failed (.read path cause)))
  /-- All files can be read, and one of the texts is rejected. -/
  | rejected {path : Path} {diagnostic : Diagnostic}
      (hlimit : config.maxConcurrentReads ≤ readLimit)
      (hreadable : ∀ path ∈ paths, ¬ reader.Unreadable path) (hpath : path ∈ paths)
      (hrejected : (reader.documentAt path).Rejected config.parser)
      (hdiagnostic : (reader.documentAt path).diagnostic? path.text = some diagnostic) :
      BuildEnds config reader paths (.error (.failed (.parse diagnostic)))
  /-- All files can be read and none is rejected. -/
  | built (hlimit : config.maxConcurrentReads ≤ readLimit)
      (hreadable : ∀ path ∈ paths, ¬ reader.Unreadable path)
      (haccepted : ∀ path ∈ paths, ¬ (reader.documentAt path).Rejected config.parser) :
      BuildEnds config reader paths (.ok (.ofResources config.hoistsAmbientModules
        (paths.map fun path => (reader.documentAt path).toResource path config.root)))

variable {config : Config} {reader : Reader} {paths : List Path}

theorem snapshot_of_lt (h : readLimit < config.maxConcurrentReads) (reader : Reader)
    (paths : List Path) : config.snapshot reader paths = .error .aborted := by
  rw [snapshot, Reader.readAll_of_lt h]
  rfl

theorem snapshot_of_read_error (hlimit : config.maxConcurrentReads ≤ readLimit) {failure : Failure}
    (h : paths.mapM reader.readPath = .error failure) :
    config.snapshot reader paths = .error (.failed failure) := by
  rw [snapshot, Reader.readAll_of_le hlimit, h]
  rfl

theorem snapshot_of_readable (hlimit : config.maxConcurrentReads ≤ readLimit)
    (h : ∀ path ∈ paths, ¬ reader.Unreadable path) :
    config.snapshot reader paths =
      ((paths.mapM fun path => (reader.documentAt path).parse config.parser path config.root).mapError
        .failed).map (Snapshot.ofResources config.hoistsAmbientModules) := by
  rw [snapshot, Reader.readAll_of_le hlimit, Reader.mapM_readPath_of_readable h]
  simp only [Except.mapError, bind, Except.bind, List.mapM_map]
  rfl

theorem buildEnds_snapshot (config : Config) (reader : Reader) (paths : List Path) :
    config.BuildEnds reader paths (config.snapshot reader paths) := by
  rcases Nat.lt_or_ge readLimit config.maxConcurrentReads with hlimit | hlimit
  · rw [snapshot_of_lt hlimit]
    exact .aborted hlimit
  by_cases hreadable : ∀ path ∈ paths, ¬ reader.Unreadable path
  · rw [snapshot_of_readable hlimit hreadable]
    by_cases haccepted : ∀ path ∈ paths, ¬ (reader.documentAt path).Rejected config.parser
    · rw [mapM_eq_ok_map fun path hpath =>
        Document.parse_of_not_rejected (haccepted path hpath) path config.root]
      exact .built hlimit hreadable haccepted
    · push Not at haccepted
      obtain ⟨path, hpath, hrejected⟩ := haccepted
      obtain ⟨_, -, hparse⟩ := Document.parse_of_rejected hrejected path config.root
      obtain ⟨first, hfirst, failure, hfailure, hall⟩ := exists_mem_of_mapM_error
        (f := fun path => (reader.documentAt path).parse config.parser path config.root) hpath hparse
      rw [hall]
      by_cases hfirstRejected : (reader.documentAt first).Rejected config.parser
      · obtain ⟨diagnostic, hdiagnostic, hparse⟩ :=
          Document.parse_of_rejected hfirstRejected first config.root
        obtain rfl := Except.error.inj (hfailure.symm.trans hparse)
        exact .rejected hlimit hreadable hfirst hfirstRejected hdiagnostic
      · simp [Document.parse_of_not_rejected hfirstRejected] at hfailure
  · push Not at hreadable
    obtain ⟨path, hpath, hunreadable⟩ := hreadable
    obtain ⟨first, hfirst, cause, hcause, hread⟩ :=
      Reader.mapM_readPath_of_unreadable hpath hunreadable
    rw [snapshot_of_read_error hlimit hread]
    exact .unreadable hlimit hfirst hcause

/-- The resource of a file, if it can be read. -/
def resourceOf (config : Config) (reader : Reader) (path : Path) : Resource :=
  (reader.documentAt path).toResource path config.root

theorem snapshot_eq_ok_iff {s : Snapshot} :
    config.snapshot reader paths = .ok s ↔
      config.maxConcurrentReads ≤ readLimit ∧ (∀ path ∈ paths, ¬ reader.Unreadable path ∧
        ¬ (reader.documentAt path).Rejected config.parser) ∧
      s = .ofResources config.hoistsAmbientModules (paths.map (config.resourceOf reader)) := by
  constructor
  · intro h
    have hends := config.buildEnds_snapshot reader paths
    rw [h] at hends
    cases hends with
    | built hlimit hreadable haccepted =>
        exact ⟨hlimit, fun path hpath => ⟨hreadable path hpath, haccepted path hpath⟩, rfl⟩
  · rintro ⟨hlimit, hpaths, rfl⟩
    rw [snapshot_of_readable hlimit fun path hpath => (hpaths path hpath).1,
      mapM_eq_ok_map fun path hpath =>
        Document.parse_of_not_rejected (hpaths path hpath).2 path config.root]
    rfl

end Config

end ExportIndex

import DeclCheck.Proofs.Run.Checking
import DeclCheck.Proofs.Source.Relative
import DeclCheck.Render.Short
import Mathlib

/-!
# The paths that a run shows

All results of a run are shown from one directory. A path is shown relative to it exactly if it lies there or
below, and what is shown leads back to the file, so no two files of a run are shown alike.
-/
namespace DeclCheck

namespace Run

/-! ## The files of results -/

/-- The result is about the file at its path, in a set of files that are shown from `base`. -/
def Shows (cwd base : Text) (r : FileResult) : Prop :=
  ∃ bytes, r.files = (({ base, cwd } : FileSet).addRead r.path bytes).1 ∧ r.file = 0

section Showing

variable {cwd base : Text} {o : Options} {r : FileResult} {d : Disk}

theorem gives_ok_shows (h : Shows cwd base r) :
    Gives (pure (Except.ok r : Except Failure FileResult)) d fun res _ => ∀ r, res = .ok r → Shows cwd base r := by
  apply Gives.pure
  intro r' heq
  cases heq
  exact h

theorem gives_finish_shows (h : Shows cwd base r) (display : Text) (started : Int) :
    Gives (finish o display started r) d fun r _ => Shows cwd base r := by
  intro log
  show Shows cwd base (if o.timings then _ else r)
  split
  · exact h
  · exact h

theorem gives_answerFromCache_shows (h : Shows cwd base r) (display : Text) (started : Int) (loading : OpenStage)
    (record : CacheRecord) :
    Gives (answerFromCache o display started loading r record) d fun r _ => Shows cwd base r := by
  refine .bind (gives_endStage fun _ => .bind (gives_event ?_))
  apply gives_finish_shows
  exact h

theorem gives_checkAfresh_shows (h : Shows cwd base r) (reached : Option Nat) (display : Text) (started : Int)
    (loading : OpenStage) (bag : Bag) :
    Gives (checkAfresh o reached display started loading r bag) d fun res _ =>
      ∀ r, res = .ok r → Shows cwd base r := by
  obtain ⟨verdict, hjudge⟩ := judge_ok r.source reached
  unfold checkAfresh
  rw [hjudge]
  cases verdict with
  | undecodable reason =>
    refine .bind (gives_endStage fun _ => .bind (Gives.mono ?_ fun _ _ => gives_ok_shows))
    apply gives_finish_shows
    exact h
  | checked k =>
    refine .bind (gives_endStage fun _ => .bind (gives_beginStage fun _ => .bind (gives_tellAll ?_)))
    refine .bind (gives_endStage fun _ => .bind (gives_store fun _ => .bind (Gives.mono ?_ fun _ _ => gives_ok_shows)))
    apply gives_finish_shows
    exact h

theorem gives_checkSource_shows (h : Shows cwd base r) (reached : Option Nat) (display : Text) (started : Int)
    (loading : OpenStage) :
    Gives (checkSource o reached display started loading r) d fun res _ => ∀ r, res = .ok r → Shows cwd base r := by
  refine .bind (gives_lookup ?_)
  cases answerFor o.cache d r.source with
  | hit record =>
    refine .bind (Gives.mono ?_ fun _ _ => gives_ok_shows)
    exact gives_answerFromCache_shows h display started loading record
  | miss => exact gives_checkAfresh_shows h reached display started loading _
  | unreadable reason => exact gives_checkAfresh_shows h reached display started loading _

end Showing

section Runs

variable {cwd : Text} {o : Options}

theorem gives_checkFile_shows (reached : Option Nat) (path : Text) (d : Disk) :
    Gives (checkFile cwd o reached path) d fun res _ => ∀ r, res = .ok r → Shows cwd o.base r := by
  cases hread : d.read path with
  | error error =>
    refine (gives_checkFile_error hread).mono ?_
    rintro res e ⟨_, rfl⟩ r heq
    cases heq
  | ok bytes =>
    refine .bind (gives_beginSpan fun span => .bind (gives_enterSpan fun around => ?_))
    refine .bind (gives_tell (.bind (gives_now fun started => ?_)))
    refine .bind (gives_beginStage fun stage => .bind (gives_files ?_))
    rw [(Files.read_run path d).1, hread]
    refine .bind (Gives.mono (gives_checkSource_shows ⟨bytes, rfl, rfl⟩ _ _ _ _) ?_)
    intro res e hres
    exact .bind (gives_tell (.bind (gives_enterSpan fun _ => .pure hres)))

theorem gives_checkInOrder_shows (failed : Option Failure) (paths : List Text) (d : Disk) :
    Gives (checkInOrder cwd o failed paths) d fun res _ =>
      ∀ rs, res = .ok rs → ∀ r ∈ rs, Shows cwd o.base r := by
  induction paths generalizing failed d with
  | nil =>
    cases failed with
    | none =>
      apply Gives.pure
      intro rs heq
      cases heq
      simp
    | some f =>
      apply Gives.pure
      intro rs heq
      cases heq
  | cons path paths ih =>
    rw [checkInOrder_cons]
    refine .bind ((gives_checkFile_shows _ path d).mono ?_)
    intro res e hres
    cases res with
    | error f => exact ih _ e
    | ok r =>
      refine .bind ((ih failed e).mono ?_)
      intro rest e hrest
      apply Gives.pure
      intro rs heq
      cases rest with
      | error f => cases heq
      | ok rest =>
        cases heq
        exact List.forall_mem_cons.mpr ⟨hres r rfl, hrest rest rfl⟩

/-- All results of a run on a directory are shown from one directory. -/
theorem gives_checkDir_shows (dir : Text) (d : Disk) :
    Gives (checkDir cwd o dir) d fun res _ =>
      ∃ base, ∀ rs, res = .ok rs → ∀ r ∈ rs, Shows cwd base r := by
  refine .bind (gives_files ?_)
  cases ((manifests dir : StateM Disk _).run d).1 with
  | error f =>
    apply Gives.pure
    exact ⟨[], fun rs heq => by cases heq⟩
  | ok paths =>
    refine .bind (gives_beginSpan fun span => .bind (gives_enterSpan fun around => ?_))
    refine .bind (gives_events (.bind ?_))
    refine (gives_checkInOrder_shows none paths _).mono ?_
    intro res e hres
    exact .bind (gives_tell (.bind (gives_enterSpan fun _ => .pure ⟨_, hres⟩)))

theorem checkDir_run {cwd dir : Text} {o : Options} {d e : Disk} {paths : List Text}
    (h : (manifests (m := StateM Disk) dir).run d = (.ok paths, e)) (log : Log) :
    ((checkDir (m := StateM Disk) cwd o dir).run log).run d =
      ((checkFiles (m := StateM Disk) cwd o paths).run log).run e := by
  simp only [checkDir, files, StateT.run_bind, StateT.run_monadLift, monadLift_self, liftM, h]
  rfl

end Runs

/-! ## What is shown of them -/

theorem dropDots_relativeTo {cwd : Text} (hcwd : Path.isAbsolute cwd = true) (base p : Text) :
    Short.dropDots (Path.relativeTo cwd base p) = Path.relativeTo cwd base p := by
  have hne := Path.relativeTo_ne_here hcwd base p
  generalize Path.relativeTo cwd base p = shown at hne
  unfold Short.dropDots
  split
  · exact absurd rfl (hne _)
  · rfl

/-- The path of a result is shown as seen from the base directory of its set of files. -/
theorem Shows.shownPath_eq {cwd base : Text} {r : FileResult} (h : Shows cwd base r)
    (hcwd : Path.isAbsolute cwd = true) :
    Short.shownPath r.files r.source =
      Path.relativeTo cwd (FileSet.baseDir { base, cwd }) r.path := by
  obtain ⟨bytes, hfiles, hfile⟩ := h
  have hpath : r.source.path = Path.clean r.path := by
    rw [FileResult.source, hfile, hfiles]
    rfl
  have hdir : (if (FileSet.baseDir { base, cwd }).isEmpty then cwd else FileSet.baseDir { base, cwd }) =
      FileSet.baseDir { base, cwd } := by
    cases base <;> simp [FileSet.baseDir]
  have hshow : r.files.showPath r.source .relative r.files.baseDir =
      Path.relativeTo cwd (FileSet.baseDir { base, cwd }) r.source.path := by
    rw [← hdir, hfiles]
    rfl
  rw [Short.shownPath, hshow, dropDots_relativeTo hcwd, hpath, Path.relativeTo_clean hcwd]

/-- A path that is shown as seen from a directory still names its file. -/
theorem shown_path_names_file {cwd : Text} (hcwd : Path.isAbsolute cwd = true) :
    (∀ base p, (Path.relative? (Path.absolute cwd base) (Path.absolute cwd p)).isSome = true ∧
      (Path.isAbsolute (Path.relativeTo cwd base p) = false ↔
        Path.Within (Path.absolute cwd base) (Path.absolute cwd p)) ∧
      (Path.isAbsolute (Path.relativeTo cwd base p) = false →
        Path.join [Path.absolute cwd base, Path.relativeTo cwd base p] = Path.absolute cwd p) ∧
      (Path.isAbsolute (Path.relativeTo cwd base p) = true →
        Path.relativeTo cwd base p = Path.absolute cwd p)) ∧
    ∀ o dir d, Gives (checkDir cwd o dir) d fun res _ =>
      ∀ results, res = .ok results → ∀ r ∈ results, ∀ s ∈ results,
        Path.absolute cwd r.path ≠ Path.absolute cwd s.path →
        Short.shownPath r.files r.source ≠ Short.shownPath s.files s.source := by
  constructor
  · intro base p
    obtain ⟨bs, ts, _, _, hbase, htarget, hway, _⟩ := Path.relativeTo_cases hcwd base p
    exact ⟨by rw [hbase, htarget, hway], Path.relativeTo_spec hcwd base p⟩
  · intro o dir d
    refine (gives_checkDir_shows dir d).mono ?_
    rintro res e ⟨base, hshows⟩ results hok r hr s hs hne heq
    rw [(hshows results hok r hr).shownPath_eq hcwd, (hshows results hok s hs).shownPath_eq hcwd] at heq
    exact hne (Path.absolute_eq_of_relativeTo_eq hcwd heq)

/-- Two files in a directory, which only the dots before their names tell apart. -/
def dottedDisk : Disk where
  nodes :=
    [(["w"], .directory), (["w", "p"], .directory), (["w", "p", "..a.yaml"], .file "[]"),
      (["w", "p", "a.yaml"], .file "[]")]
  cwd := ["w"]

/-- What a run gives for them. -/
def dottedResults : Except Failure (List FileResult) :=
  (((checkDir (m := StateM Disk) "/w" { base := "p" } "p").run {}).run dottedDisk).1.1

theorem dotted_results :
    dottedResults.toOption.map (·.map (·.path)) = some [("p/..a.yaml" : Text), "p/a.yaml"] := by
  -- The two sorts are evaluated first; the kernel does not see through them.
  have hlisted : (manifests (m := StateM Disk) "p").run dottedDisk =
      (.ok ["p/..a.yaml", "p/a.yaml"], dottedDisk) := by cbv
  have hnamed : Progress.displayFiles "/w" "p" ["p/..a.yaml", "p/a.yaml"] =
      [("/w/p/..a.yaml" : Text), "a.yaml"] := by cbv
  have hbase : Options.withBase { base := "p" } ["p/..a.yaml", "p/a.yaml"] = { base := "p" } := rfl
  rw [dottedResults, checkDir_run hlisted]
  simp only [checkFiles, hbase, hnamed]
  decide +kernel

theorem dotted_shown_apart :
    Path.relativeTo "/w" "./p" "q/../p//..a.yaml" = "..a.yaml" ∧
    Path.join [Path.absolute "/w" "./p", "..a.yaml"] = Path.absolute "/w" "q/../p//..a.yaml" ∧
    ∃ r s, dottedResults = .ok [r, s] ∧
      Short.shownPath r.files r.source ≠ Short.shownPath s.files s.source := by
  have hcwd : Path.isAbsolute "/w" = true := rfl
  obtain ⟨hpaths, hruns⟩ := shown_path_names_file hcwd
  have hshown : Path.relativeTo "/w" "./p" "q/../p//..a.yaml" = "..a.yaml" := by decide +kernel
  have hjoin := (hpaths "./p" "q/../p//..a.yaml").2.2.1 (by rw [hshown]; rfl)
  refine ⟨hshown, by rw [← hjoin, hshown], ?_⟩
  have happart : ∀ results, dottedResults = .ok results → _ := hruns { base := "p" } "p" dottedDisk {}
  have hresults := dotted_results
  generalize dottedResults = res at happart hresults
  cases res with
  | error f => cases hresults
  | ok results =>
    obtain ⟨r, rest, rfl, hr, hrest⟩ := List.map_eq_cons_iff.mp (Option.some.inj hresults)
    obtain ⟨s, rest, rfl, hs, hnil⟩ := List.map_eq_cons_iff.mp hrest
    obtain rfl := List.map_eq_nil_iff.mp hnil
    refine ⟨r, s, rfl, happart _ rfl r (by simp) s (by simp) ?_⟩
    rw [hr, hs]
    decide +kernel

end Run

end DeclCheck

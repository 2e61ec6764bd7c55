import DeclCheck.Disk
import DeclCheck.Proofs.Check.Loaded
import DeclCheck.Proofs.Run.Settling
import DeclCheck.Run.Files

/-!
# The check of one file

On a disk, what a check gives for a file that can be read depends on the content, on what the cache
knows about it and on the options. It changes nothing but the cache.
-/
namespace DeclCheck

/-- What reading a file gives. -/
def Disk.read (d : Disk) (path : Text) : Except FileError Text :=
  ((Files.read path : StateM Disk _).run d).1

/-- What a cache knows about a key. -/
def Cache.answer (c : Cache) (d : Disk) (key : Text) : CacheAnswer :=
  ((c.get key : StateM Disk _).run d).1

theorem Files.read_run (path : Text) (d : Disk) :
    (Files.read path : StateM Disk _).run d = (d.read path, d) ∧
      (d.read path).toOption = (d.readBytes path).toOption := by
  have hbytes : (MonadFiles.readBytes path : StateM Disk _).run d = (d.readBytes path, d) := rfl
  unfold Disk.read Files.read
  simp only [StateT.run_bind, hbytes]
  cases d.readBytes path with
  | ok bytes => exact ⟨rfl, rfl⟩
  | error fault => cases fault <;> exact ⟨rfl, rfl⟩

theorem Cache.get_run (c : Cache) (key : Text) (d : Disk) :
    (c.get key : StateM Disk _).run d = (c.answer d key, d) ∧
      c.answer d key = match d.read (c.entryPath key) with
        | .ok bytes => answerOf bytes
        | .error e => if e.fault = .notFound then .miss else .unreadable e.message := by
  have hrun : (c.get key : StateM Disk _).run d =
      (match ((Files.read (c.entryPath key) : StateM Disk _).run d).1 with
        | .ok bytes => (pure (answerOf bytes) : StateM Disk CacheAnswer)
        | .error e => pure (if e.fault = FileFault.notFound then .miss else .unreadable e.message)).run
          ((Files.read (c.entryPath key) : StateM Disk _).run d).2 := rfl
  rw [answer, hrun, (Files.read_run (c.entryPath key) d).1]
  cases d.read (c.entryPath key) with
  | ok bytes => exact ⟨rfl, rfl⟩
  | error e => exact ⟨rfl, rfl⟩

namespace Run

/-- Whatever was told before, the computation ends on the disk `d` with a value and a disk of which
`post` holds. -/
def Gives {α : Type} (x : RunM (StateM Disk) α) (d : Disk) (post : α → Disk → Prop) : Prop :=
  ∀ log : Log, post ((x.run log).run d).1.1 ((x.run log).run d).2

section Gives

variable {α β : Type} {x : RunM (StateM Disk) α} {d : Disk} {post : α → Disk → Prop}

theorem Gives.pure {a : α} (h : post a d) : Gives (pure a) d post := fun _ => h

theorem Gives.mono {post' : α → Disk → Prop} (h : Gives x d post)
    (himp : ∀ a e, post a e → post' a e) : Gives x d post' := fun log => himp _ _ (h log)

theorem Gives.bind {f : α → RunM (StateM Disk) β} {post : β → Disk → Prop}
    (h : Gives x d fun a e => Gives (f a) e post) : Gives (x >>= f) d post := fun log => h log _

theorem gives_now {post : Int → Disk → Prop} (h : ∀ t, post t d) : Gives now d post :=
  fun _ => h _

theorem gives_tell {moment : Trace.Moment} {post : Unit → Disk → Prop} (h : post () d) :
    Gives (tell moment) d post := fun _ => h

theorem gives_beginSpan {scope : Trace.EventScope} {name : Text} {post : Nat → Disk → Prop} (h : ∀ span, post span d) :
    Gives (beginSpan scope name) d post := fun _ => h _

theorem gives_enterSpan {span : Nat} {post : Nat → Disk → Prop} (h : ∀ around, post around d) :
    Gives (enterSpan span) d post := fun _ => h _

theorem gives_event {e : Progress.Event} {post : Unit → Disk → Prop} (h : post () d) :
    Gives (event e) d post := fun _ => h

theorem gives_beginStage {display : Text} {timer : Timer} {stage : Progress.Stage}
    {post : Timer × OpenStage → Disk → Prop} (h : ∀ t, post t d) :
    Gives (beginStage display timer stage) d post := fun _ => h _

theorem gives_endStage {display : Text} {timer : Timer} {s : OpenStage} {note : Text}
    {error : Option Text} {post : Timer → Disk → Prop} (h : ∀ t, post t d) :
    Gives (endStage display timer s note error) d post := fun _ => h _

theorem gives_files {act : StateM Disk α} (h : post (act.run d).1 (act.run d).2) :
    Gives (files act) d post := fun _ => h

theorem gives_tellEach {moments : Array Trace.Moment} {post : PUnit → Disk → Prop}
    (h : post ⟨⟩ d) :
    Gives (forIn moments PUnit.unit fun moment _ => do
      tell moment
      Pure.pure (ForInStep.yield PUnit.unit)) d post := by
  rw [← Array.forIn_toList]
  induction moments.toList with
  | nil => exact Gives.pure h
  | cons moment rest ih =>
    rw [List.forIn_cons]
    exact .bind (.bind (gives_tell (.pure ih)))

theorem gives_tellAll {moments : Array Trace.Moment} {spans : Nat} {post : Unit → Disk → Prop} (h : post () d) :
    Gives (tellAll moments spans) d post := by
  have hget {post : Log → Disk → Prop} (h : ∀ log, post log d) : Gives get d post := fun log => h log
  exact .bind (hget fun log => .bind (gives_tellEach fun _ => h))

theorem gives_events {events : List Progress.Event} {post : PUnit → Disk → Prop} (h : post ⟨⟩ d) :
    Gives (events.forM event) d post := by
  induction events with
  | nil => exact Gives.pure h
  | cons e rest ih => exact .bind (gives_event ih)

end Gives

/-! ## What a content reports -/

/-- A content is no manifest, or it is loaded and its check comes to an end. -/
theorem judge_cases (file : SourceFile) :
    (∃ reason, ∀ reached, judge file reached = .ok (.undecodable reason)) ∨
    ∃ l, l.Sound file ∧ ∀ reached, judge file reached = .ok (.checked
      { loaded := l, result := check l.tree l.unit (some l.globals) reached }) := by
  cases hdecode : Manifest.decode file.content with
  | error e =>
    refine .inl ⟨Manifest.LoadError.message (.decode file.path e), fun reached => ?_⟩
    simp only [judge, Manifest.load, hdecode]
  | ok entries =>
    obtain ⟨l, hload, hl⟩ := Manifest.loadAll_sound file entries
    refine .inr ⟨l, hl, fun reached => ?_⟩
    obtain ⟨hfault, _⟩ := Manifest.check_judged hl reached
    simp only [judge, Manifest.load, hdecode, hload, hfault]

theorem judge_ok (file : SourceFile) (reached : Option Nat) :
    ∃ verdict, judge file reached = .ok verdict := by
  rcases judge_cases file with ⟨reason, h⟩ | ⟨l, _, h⟩
  · exact ⟨_, h reached⟩
  · exact ⟨_, h reached⟩

/-! ## One file -/

/-- The file with given bytes at a path. -/
def sourceAt (path bytes : Text) : SourceFile :=
  ((({} : FileSet).addRead path bytes).1.get? 0).getD {}

/-- What the cache of a run knows about a file. -/
def answerFor (cache : Option Cache) (d : Disk) (file : SourceFile) : CacheAnswer :=
  match cache with
  | none => .miss
  | some c => c.answer d (Cache.key (Digest.sha256 file.content))

/-- What a run hears about a file: what the cache knows, or else what loading and checking report. -/
def heard (answer : CacheAnswer) (verdict : Verdict) : List Diagnostic :=
  match answer with
  | .hit record => record.diagnosticsFor 0
  | _ => verdict.reports 0

/-- The disk after the reports about a file were stored. What is no manifest is not stored. -/
def storedOn (cache : Option Cache) (d : Disk) (file : SourceFile) : Verdict → Disk
  | .undecodable _ => d
  | .checked k =>
    match cache with
    | none => d
    | some c =>
      ((c.put (Cache.key (Digest.sha256 file.content)) (k.record file) : StateM Disk _).run d).2

/-- The disk after a check: the reports about a file that the cache did not know are stored. -/
def diskAfter (cache : Option Cache) (d : Disk) (file : SourceFile) (verdict : Verdict) : Disk :=
  match answerFor cache d file with
  | .hit _ => d
  | _ => storedOn cache d file verdict

/-- The result of a run that has heard `reports`. -/
def Settled (o : Options) (answer : CacheAnswer) (reports : List Diagnostic)
    (res : Except Failure FileResult) : Prop :=
  ∃ r remarks, res = .ok r ∧
    r.bag.items = (settle o.dedup (startBag o.limit 0 answer) reports).1.items ++ remarks ∧
    ∀ d ∈ remarks, d.isError = false ∧ isRemark d = true

theorem Settled.exists_ok {o : Options} {answer : CacheAnswer} {reports : List Diagnostic}
    {res : Except Failure FileResult} (h : Settled o answer reports res) : ∃ r, res = .ok r := by
  obtain ⟨r, _, hr, _⟩ := h
  exact ⟨r, hr⟩

theorem add_items (b : Bag) (d : Diagnostic) :
    ∃ remarks, (b.add d).items = b.items ++ remarks ∧ ∀ e ∈ remarks, e = d := by
  unfold Bag.add
  split
  · exact ⟨[], by simp, by simp⟩
  · exact ⟨[d], rfl, by simp⟩

theorem addAlways_items (b : Bag) (d : Diagnostic) : (addAlways b d).items = b.items ++ [d] := by
  by_cases hfull : b.isFull = true <;> simp [addAlways, Bag.add, Bag.merge, hfull]

theorem gives_finish {o : Options} {display : Text} {started : Int} {r : FileResult} {d : Disk}
    {answer : CacheAnswer} {reports : List Diagnostic} (h : Settled o answer reports (.ok r)) :
    Gives (finish o display started r) d fun r e => e = d ∧ Settled o answer reports (.ok r) := by
  intro log
  refine ⟨rfl, ?_⟩
  obtain ⟨_, remarks, heq, hitems, hremarks⟩ := h
  cases heq
  show Settled o answer reports (.ok (if o.timings then _ else r))
  by_cases ht : o.timings = true
  · rw [if_pos ht]
    refine ⟨_, _, rfl, (addAlways_items _ _).trans (by rw [hitems, List.append_assoc]), ?_⟩
    intro d hd
    rcases List.mem_append.mp hd with hd | hd
    · exact hremarks d hd
    · rw [List.mem_singleton.mp hd]
      exact ⟨rfl, rfl⟩
  · rw [if_neg ht]
    exact ⟨r, remarks, rfl, hitems, hremarks⟩

theorem gives_lookup {cache : Option Cache} {file : SourceFile} {d : Disk}
    {post : CacheAnswer → Disk → Prop} (h : post (answerFor cache d file) d) :
    Gives (lookup cache file) d post := by
  cases cache with
  | none => exact .pure h
  | some c =>
    refine .bind (gives_beginSpan fun span => .bind (gives_files ?_))
    rw [(Cache.get_run c _ d).1]
    dsimp only [answerFor] at h
    generalize c.answer d (Cache.key (Digest.sha256 file.content)) = answer at h ⊢
    cases answer with
    | hit record => exact .bind (gives_tell (.bind (gives_tell (.pure h))))
    | miss => exact .bind (gives_tell (.pure h))
    | unreadable reason => exact .bind (gives_tell (.pure h))

/-- What was not stored is told by a remark. -/
theorem noteStored_items (b : Bag) (stored : Except FileError Unit) :
    ∃ remarks, (noteStored 0 b stored).items = b.items ++ remarks ∧
      ∀ d ∈ remarks, d.isError = false ∧ isRemark d = true := by
  cases stored with
  | ok _ => exact ⟨[], by simp [noteStored], by simp⟩
  | error e =>
    obtain ⟨remarks, hitems, hsame⟩ := add_items b
      (Diagnostic.warning .cacheError { file := 0 } ("cannot store diagnostics: " ++ e.message))
    refine ⟨remarks, hitems, fun d hd => ?_⟩
    rw [hsame d hd]
    exact ⟨rfl, rfl⟩

theorem gives_answerFromCache {o : Options} {display : Text} {started : Int} {loading : OpenStage}
    {r : FileResult} {record : CacheRecord} {d : Disk} (hfile : r.file = 0) :
    Gives (answerFromCache o display started loading r record) d fun r e =>
      e = d ∧ Settled o (.hit record) (record.diagnosticsFor 0) (.ok r) := by
  refine .bind (gives_endStage fun timer => .bind (gives_event (gives_finish ?_)))
  refine ⟨_, [], rfl, ?_, by simp⟩
  rw [hfile, List.append_nil]
  rfl

theorem gives_store {cache : Option Cache} {file : SourceFile} {k : Checked} {d : Disk}
    {post : Except FileError Unit → Disk → Prop}
    (h : ∀ stored, post stored (storedOn cache d file (.checked k))) :
    Gives (store cache file k) d post := by
  cases cache with
  | none => exact .pure (h _)
  | some c => exact gives_files (h _)

theorem gives_checkAfresh {o : Options} {reached : Option Nat} {display : Text} {started : Int}
    {loading : OpenStage} {r : FileResult} {d : Disk} {verdict : Verdict} (hfile : r.file = 0)
    (hjudge : judge r.source reached = .ok verdict) {answer : CacheAnswer} :
    Gives (checkAfresh o reached display started loading r (startBag o.limit r.file answer)) d
      fun res e => e = storedOn o.cache d r.source verdict ∧
        Settled o answer (verdict.reports 0) res := by
  unfold checkAfresh
  rw [hjudge, hfile]
  cases verdict with
  | undecodable reason =>
    refine .bind (gives_endStage fun timer => .bind ?_)
    exact (gives_finish ⟨_, [], rfl, (List.append_nil _).symm, by simp⟩).mono
      fun r e ⟨he, hsettled⟩ => .pure ⟨he, hsettled⟩
  | checked k =>
    refine .bind (gives_endStage fun timer => .bind (gives_beginStage fun stage => ?_))
    refine .bind (gives_tellAll (.bind (gives_endStage fun timer => ?_)))
    refine .bind (gives_store fun stored => ?_)
    obtain ⟨remarks, hitems, hremarks⟩ := noteStored_items
      (settle o.dedup (startBag o.limit 0 answer) (Verdict.reports 0 (.checked k))).1 stored
    exact .bind ((gives_finish ⟨_, remarks, rfl, hitems, hremarks⟩).mono
      fun r e ⟨he, hsettled⟩ => .pure ⟨he, hsettled⟩)

theorem gives_checkSource {o : Options} {reached : Option Nat} {display : Text} {started : Int}
    {loading : OpenStage} {r : FileResult} {d : Disk} {verdict : Verdict} (hfile : r.file = 0)
    (hjudge : judge r.source reached = .ok verdict) :
    Gives (checkSource o reached display started loading r) d fun res e =>
      e = diskAfter o.cache d r.source verdict ∧
        Settled o (answerFor o.cache d r.source)
          (heard (answerFor o.cache d r.source) verdict) res := by
  refine .bind (gives_lookup ?_)
  unfold diskAfter
  cases answerFor o.cache d r.source with
  | hit record => exact .bind ((gives_answerFromCache hfile).mono fun r e h => .pure h)
  | miss => exact gives_checkAfresh hfile hjudge
  | unreadable reason => exact gives_checkAfresh hfile hjudge

/-- The check of a file that can be read. -/
theorem gives_checkFile {cwd : Text} {o : Options} {reached : Option Nat} {path bytes : Text}
    {d : Disk} (hread : d.read path = .ok bytes) {verdict : Verdict}
    (hjudge : judge (sourceAt path bytes) reached = .ok verdict) :
    Gives (checkFile cwd o reached path) d fun res e =>
      e = diskAfter o.cache d (sourceAt path bytes) verdict ∧
        Settled o (answerFor o.cache d (sourceAt path bytes))
          (heard (answerFor o.cache d (sourceAt path bytes)) verdict) res := by
  refine .bind (gives_beginSpan fun span => .bind (gives_enterSpan fun around => ?_))
  refine .bind (gives_tell (.bind (gives_now fun started => ?_)))
  refine .bind (gives_beginStage fun stage => .bind (gives_files ?_))
  rw [(Files.read_run path d).1, hread]
  have hsource : FileResult.source
      { path, files := (({ base := o.base, cwd } : FileSet).addRead path bytes).1, timer := stage.1 } =
      sourceAt path bytes := rfl
  rw [← hsource] at hjudge ⊢
  exact .bind ((gives_checkSource rfl hjudge).mono fun res e h =>
    .bind (gives_tell (.bind (gives_enterSpan fun _ => .pure h))))

/-- The check of a file that cannot be read. -/
theorem gives_checkFile_error {cwd : Text} {o : Options} {reached : Option Nat} {path : Text}
    {d : Disk} {error : FileError} (hread : d.read path = .error error) :
    Gives (checkFile cwd o reached path) d fun res e => e = d ∧ res = .error (.load path error) := by
  refine .bind (gives_beginSpan fun span => .bind (gives_enterSpan fun around => ?_))
  refine .bind (gives_tell (.bind (gives_now fun started => ?_)))
  refine .bind (gives_beginStage fun stage => .bind (gives_files ?_))
  rw [(Files.read_run path d).1, hread]
  exact .bind (gives_endStage fun _ => .bind (.pure (.bind (gives_tell (.bind (gives_enterSpan fun _ =>
    .pure ⟨rfl, rfl⟩))))))

/-- Files are checked one after the other, without declarations after a failure. -/
theorem checkInOrder_cons (cwd : Text) (o : Options) (failed : Option Failure) (path : Text)
    (paths : List Text) :
    checkInOrder (m := StateM Disk) cwd o failed (path :: paths) = (do
      match ← checkFile cwd o (if failed.isSome then some 0 else none) path with
      | .error f => checkInOrder cwd o (some (failed.getD f)) paths
      | .ok r => return (← checkInOrder cwd o failed paths).map (r :: ·)) := by
  cases failed <;> rfl

end Run

end DeclCheck

import DeclCheck.Proofs.Run.Threads

/-!
# What the check of a file tells progress

While a thread checks a file, others may change the disk at any time, so its requests may be answered in any
way. It tells progress something, and only about this file. If the file itself can be read, the check gives a
result, and the last that it tells is how the file ended.
-/
namespace DeclCheck

/-! ## Answers to the requests of a thread -/

/-- What each request would be answered, in each place. -/
def Answers : Type := Nat → (r : Request) → r.Answer

/-- A file can be read whenever it is asked for. -/
def Answers.Reads (answers : Answers) (path : Text) : Prop :=
  ∀ n, ∃ bytes, answers n (.readBytes path) = .ok bytes

namespace Thread

variable {α β : Type}

/-- The whole thread, its requests answered one after the other, and the answers that are left. -/
def answered : Thread α → Answers → α × Answers
  | done a, answers => (a, answers)
  | ask r next, answers => (next (answers 0 r)).answered fun n => answers (n + 1)

theorem answered_bind (t : Thread α) (f : α → Thread β) (answers : Answers) :
    (t >>= f).answered answers = (f (t.answered answers).1).answered (t.answered answers).2 := by
  induction t generalizing answers with
  | done a => rfl
  | ask r next ih => exact ih _ _

theorem reads_answered (t : Thread α) {answers : Answers} {path : Text} (h : answers.Reads path) :
    (t.answered answers).2.Reads path := by
  induction t generalizing answers with
  | done a => exact h
  | ask r next ih => exact ih _ fun n => h (n + 1)

theorem answered_read {answers : Answers} {path : Text} (h : answers.Reads path) :
    ∃ bytes, ((Files.read path : Thread _).answered answers).1 = .ok bytes := by
  obtain ⟨bytes, hbytes⟩ := h 0
  refine ⟨bytes, ?_⟩
  have hasked : ((MonadFiles.readBytes path : Thread _).answered answers).1 = .ok bytes := hbytes
  unfold Files.read
  rw [answered_bind, hasked]
  rfl

end Thread

namespace Run

open Progress (Event Stage)

variable {α β : Type}

/-! ## Telling progress -/

/-- However the requests are answered, if the files at `readable` can be read, the computation ends with a value
and has told progress some more, of which `post` holds. -/
def Emits (readable : List Text) (x : RunM Thread α) (post : α → List Event → Prop) : Prop :=
  ∀ (log : Log) (answers : Answers), (∀ path ∈ readable, answers.Reads path) →
    ∃ told, ((x.run log).answered answers).1.2.events.toList = log.events.toList ++ told ∧
      post ((x.run log).answered answers).1.1 told

section Emits

variable {readable : List Text} {display : Text} {x : RunM Thread α}

theorem Emits.pure {a : α} {post : α → List Event → Prop} (h : post a []) : Emits readable (pure a) post :=
  fun _ _ _ => ⟨[], (List.append_nil _).symm, h⟩

theorem Emits.mono {post post' : α → List Event → Prop} (h : Emits readable x post)
    (himp : ∀ a told, post a told → post' a told) : Emits readable x post' := by
  intro log answers hreads
  obtain ⟨told, hlog, hpost⟩ := h log answers hreads
  exact ⟨told, hlog, himp _ _ hpost⟩

theorem Emits.bind {f : α → RunM Thread β} {post : β → List Event → Prop}
    (h : Emits readable x fun a told => Emits readable (f a) fun b more => post b (told ++ more)) :
    Emits readable (x >>= f) post := by
  intro log answers hreads
  obtain ⟨told, hlog, hrest⟩ := h log answers hreads
  obtain ⟨more, hmore, hpost⟩ := hrest _ _ fun path hpath => Thread.reads_answered _ (hreads path hpath)
  have hrun : ((x >>= f).run log).answered answers =
      ((f ((x.run log).answered answers).1.1).run ((x.run log).answered answers).1.2).answered
        ((x.run log).answered answers).2 := Thread.answered_bind _ _ _
  rw [hrun]
  exact ⟨told ++ more, by rw [hmore, hlog, List.append_assoc], hpost⟩

theorem emits_files {act : Thread α} {post : α → List Event → Prop} (h : ∀ a, post a []) :
    Emits readable (files act) post := by
  intro log answers _
  have hrun : (((files act : RunM Thread α).run log).answered answers).1 =
      ((act.answered answers).1, log) := congrArg Prod.fst (Thread.answered_bind _ _ _)
  rw [hrun]
  exact ⟨[], (List.append_nil _).symm, h _⟩

theorem emits_read {path : Text} {post : Except FileError Text → List Event → Prop}
    (hok : ∀ bytes, post (.ok bytes) []) (herror : path ∉ readable → ∀ e, post (.error e) []) :
    Emits readable (files (Files.read path)) post := by
  intro log answers hreads
  have hrun : (((files (Files.read path) : RunM Thread _).run log).answered answers).1 =
      (((Files.read path : Thread _).answered answers).1, log) :=
    congrArg Prod.fst (Thread.answered_bind _ _ _)
  rw [hrun]
  refine ⟨[], (List.append_nil _).symm, ?_⟩
  by_cases hpath : path ∈ readable
  · obtain ⟨bytes, hbytes⟩ := Thread.answered_read (hreads path hpath)
    rw [hbytes]
    exact hok bytes
  · cases ((Files.read path : Thread _).answered answers).1 with
    | ok bytes => exact hok bytes
    | error e => exact herror hpath e

theorem emits_event {e : Event} {post : Unit → List Event → Prop} (h : post () [e]) :
    Emits readable (event e) post :=
  fun _ _ _ => ⟨[e], Array.toList_push, h⟩

theorem emits_phase {e : PhaseEvent} {post : Unit → List Event → Prop} (h : post () []) :
    Emits readable (phase e) post :=
  fun _ _ _ => ⟨[], (List.append_nil _).symm, h⟩

theorem emits_now {post : Int → List Event → Prop} (h : ∀ t, post t []) : Emits readable now post :=
  emits_files h

theorem emits_tell {moment : Trace.Moment} {post : Unit → List Event → Prop} (h : post () []) :
    Emits readable (tell moment) post :=
  .bind (emits_now fun _ => fun _ _ _ => ⟨[], (List.append_nil _).symm, h⟩)

theorem emits_beginSpan {scope : Trace.EventScope} {name : Text} {post : Nat → List Event → Prop}
    (h : ∀ span, post span []) : Emits readable (beginSpan scope name) post :=
  .bind (emits_now fun _ => fun _ _ _ => ⟨[], (List.append_nil _).symm, h _⟩)

theorem emits_enterSpan {span : Nat} {post : Nat → List Event → Prop} (h : ∀ around, post around []) :
    Emits readable (enterSpan span) post :=
  fun _ _ _ => ⟨[], (List.append_nil _).symm, h _⟩

theorem emits_tellEach {moments : Array Trace.Moment} {post : PUnit → List Event → Prop}
    (h : post ⟨⟩ []) :
    Emits readable (forIn moments PUnit.unit fun moment _ => do
      tell moment
      Pure.pure (ForInStep.yield PUnit.unit)) post := by
  rw [← Array.forIn_toList]
  induction moments.toList with
  | nil => exact .pure h
  | cons moment rest ih =>
    rw [List.forIn_cons]
    exact .bind (.bind (emits_tell (.pure ih)))

theorem emits_tellAll {moments : Array Trace.Moment} {spans : Nat} {post : Unit → List Event → Prop}
    (h : post () []) : Emits readable (tellAll moments spans) post := by
  have hget {post : Log → List Event → Prop} (h : ∀ log, post log []) : Emits readable get post :=
    fun log _ _ => ⟨[], (List.append_nil _).symm, h log⟩
  refine .bind (hget fun log => .bind (emits_tellEach ?_))
  exact fun _ _ _ => ⟨[], (List.append_nil _).symm, h⟩

theorem emits_beginStage {timer : Timer} {stage : Stage} {post : Timer × OpenStage → List Event → Prop}
    (h : ∀ s, post s [{ file := display, stage, status := .working }]) :
    Emits readable (beginStage display timer stage) post :=
  .bind (emits_beginSpan fun _ => .bind (emits_now fun _ =>
    .bind (emits_event (.bind (emits_phase (.pure (h _)))))))

theorem emits_endStage {timer : Timer} {s : OpenStage} {note : Text} {error : Option Text}
    {post : Timer → List Event → Prop} (h : ∀ t e, e.file = display → post t [e]) :
    Emits readable (endStage display timer s note error) post :=
  .bind (emits_now fun _ => .bind (emits_tell (.bind (emits_event (.bind (emits_phase
    (.pure (h _ _ rfl))))))))

theorem emits_lookup {cache : Option Cache} {file : SourceFile} {post : CacheAnswer → List Event → Prop}
    (h : ∀ answer, post answer []) : Emits readable (lookup cache file) post := by
  cases cache with
  | none => exact .pure (h _)
  | some c =>
    refine .bind (emits_beginSpan fun span => .bind (emits_files fun answer => ?_))
    cases answer with
    | hit record => exact .bind (emits_tell (.bind (emits_tell (.pure (h _)))))
    | miss => exact .bind (emits_tell (.pure (h _)))
    | unreadable reason => exact .bind (emits_tell (.pure (h _)))

theorem emits_store {cache : Option Cache} {file : SourceFile} {c : Checked}
    {post : Except FileError Unit → List Event → Prop} (h : ∀ stored, post stored []) :
    Emits readable (store cache file c) post := by
  cases cache with
  | none => exact .pure (h _)
  | some cache => exact emits_files h

end Emits

/-! ## How a file ends -/

/-- Events about one file, the last of which tells how it ended. -/
structure Closes (display : Text) (r : FileResult) (told : List Event) : Prop where
  about : ∀ e ∈ told, e.file = display
  last : ∃ front e, told = front ++ [e] ∧ e.stage = .whole ∧ e.status = finalStatus r

theorem Closes.cons {display : Text} {r : FileResult} {told : List Event} (h : Closes display r told)
    {e : Event} (he : e.file = display) : Closes display r (e :: told) := by
  obtain ⟨front, last, rfl, hlast⟩ := h.last
  exact ⟨List.forall_mem_cons.mpr ⟨he, h.about⟩, e :: front, last, rfl, hlast⟩

/-- The times of a file do not change how it ends. -/
theorem finalStatus_timed (r : FileResult) (display : Text) :
    finalStatus { r with bag := addAlways r.bag (timingDiagnostic r.file display r.timer) } =
      finalStatus r := by
  have herrors : (addAlways r.bag (timingDiagnostic r.file display r.timer)).hasErrors =
      r.bag.hasErrors := by
    rw [Bag.hasErrors, addAlways_items, List.any_append]
    exact Bool.or_false _
  unfold finalStatus FileResult.hasErrors
  dsimp only
  rw [herrors]

theorem emits_finish {readable : List Text} {display : Text} {o : Options} {started : Int} {r : FileResult} :
    Emits readable (finish o display started r) (Closes display) := by
  refine .bind (emits_now fun t => .bind (emits_event (.pure ?_)))
  refine ⟨by simp, [], _, rfl, rfl, ?_⟩
  -- The event is told before the times are added.
  split
  · exact (finalStatus_timed r display).symm
  · rfl

def Completes (display : Text) (res : Except Failure FileResult) (told : List Event) : Prop :=
  ∃ r, res = .ok r ∧ Closes display r told

theorem Completes.cons {display : Text} {res : Except Failure FileResult} {told : List Event}
    (h : Completes display res told) {e : Event} (he : e.file = display) :
    Completes display res (e :: told) := by
  obtain ⟨r, hr, hcloses⟩ := h
  exact ⟨r, hr, hcloses.cons he⟩

section Checks

variable {readable : List Text} {display : Text} {o : Options} {reached : Option Nat} {started : Int}
  {loading : OpenStage} {r : FileResult}

theorem emits_completion {x : RunM Thread FileResult} (h : Emits readable x (Closes display)) :
    Emits readable (do return .ok (← x)) (Completes display) :=
  .bind (h.mono fun r told hcloses => .pure ⟨r, rfl, by rwa [List.append_nil]⟩)

theorem emits_answerFromCache {record : CacheRecord} :
    Emits readable (answerFromCache o display started loading r record) (Closes display) := by
  refine .bind (emits_endStage fun timer e he => .bind (emits_event ?_))
  exact emits_finish.mono fun r told hcloses => (hcloses.cons rfl).cons he

theorem emits_checkAfresh {bag : Bag} :
    Emits readable (checkAfresh o reached display started loading r bag) (Completes display) := by
  unfold checkAfresh
  -- No content makes the check itself fail.
  obtain ⟨verdict, hjudge⟩ := judge_ok r.source reached
  rw [hjudge]
  cases verdict with
  | undecodable reason =>
    refine .bind (emits_endStage fun timer e he => ?_)
    exact (emits_completion emits_finish).mono fun res told h => h.cons he
  | checked k =>
    refine .bind (emits_endStage fun timer e he => .bind (emits_beginStage fun stage => ?_))
    refine .bind (emits_tellAll (.bind (emits_endStage fun timer e' he' => ?_)))
    refine .bind (emits_store fun stored => ?_)
    exact (emits_completion emits_finish).mono fun res told h => ((h.cons he').cons rfl).cons he

theorem emits_checkSource :
    Emits readable (checkSource o reached display started loading r) (Completes display) := by
  refine .bind (emits_lookup fun answer => ?_)
  cases answer with
  | hit record => exact emits_completion emits_answerFromCache
  | miss => exact emits_checkAfresh
  | unreadable reason => exact emits_checkAfresh

end Checks

/-- The name of a file in progress. -/
def shownAs (cwd : Text) (o : Options) (path : Text) : Text :=
  Progress.displayPath cwd (displayBase cwd o.base) path

/-- Some events, all of them about one file. -/
def About (display : Text) (told : List Event) : Prop := told ≠ [] ∧ ∀ e ∈ told, e.file = display

theorem Completes.isAbout {display : Text} {res : Except Failure FileResult} {told : List Event}
    (h : Completes display res told) : About display told := by
  obtain ⟨r, _, hcloses⟩ := h
  obtain ⟨front, last, rfl, _⟩ := hcloses.last
  exact ⟨by simp, hcloses.about⟩

/-- The check of a file tells progress about this file, and if the file can be read, how it ended. -/
theorem emits_checkFile (readable : List Text) (cwd : Text) (o : Options) (reached : Option Nat) (path : Text) :
    Emits readable (checkFile cwd o reached path) fun res told => About (shownAs cwd o path) told ∧
      (path ∈ readable → Completes (shownAs cwd o path) res told) := by
  refine .bind (emits_beginSpan fun span => .bind (emits_enterSpan fun around => ?_))
  refine .bind (emits_tell (.bind (emits_now fun started => ?_)))
  refine .bind (emits_beginStage fun stage => .bind (emits_read (fun bytes => ?_) fun hpath e => ?_))
  · refine .bind (emits_checkSource.mono fun res told h => .bind (emits_tell (.bind (emits_enterSpan fun _ => .pure ?_))))
    have hcons := h.cons (e := { file := shownAs cwd o path, stage := .load, status := .working }) rfl
    rw [← List.append_nil (_ :: told)] at hcons
    exact ⟨hcons.isAbout, fun _ => hcons⟩
  · refine .bind (emits_endStage fun timer e he => .bind (.pure (.bind (emits_tell (.bind (emits_enterSpan fun _ =>
      .pure ?_))))))
    exact ⟨⟨by simp, by simp [he, shownAs]⟩, fun h => absurd h hpath⟩

end Run

end DeclCheck

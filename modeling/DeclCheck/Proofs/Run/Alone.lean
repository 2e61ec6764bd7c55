import DeclCheck.Proofs.Run.Threads

/-!
# A thread on its own

What is written for any file system can be run as a thread. A thread that checks a file and is not
interrupted does what the check does on a disk, and an entry is stored in one turn.
-/
namespace DeclCheck

namespace Thread

variable {α β : Type}

/-- The thread does what the computation does, and never gives way. -/
def Performs (t : Thread α) (x : StateM Disk α) : Prop :=
  ∀ (keep rely : Disk → Prop) (d : Disk) (post : α → Disk → Prop),
    post (x.run d).1 (x.run d).2 → t.Meets keep rely d post

/-- The thread does what the computation does if it is not interrupted. -/
def Carries (t : Thread α) (x : StateM Disk α) : Prop := ∀ d, t.exec d = x.run d

theorem Performs.pure (a : α) : Performs (pure a) (pure a) := fun _ _ _ _ h => h

theorem Performs.bind {t : Thread α} {x : StateM Disk α} {f : α → Thread β} {g : α → StateM Disk β}
    (hx : Performs t x) (hf : ∀ a, Performs (f a) (g a)) : Performs (t >>= f) (x >>= g) :=
  fun keep rely d post h => .bind (hx keep rely d _ (hf _ keep rely _ post h))

theorem Performs.carries {t : Thread α} {x : StateM Disk α} (h : Performs t x) : Carries t x := by
  intro d
  have hmeets := h (fun _ => False) (fun _ => True) d (fun a e => (a, e) = x.run d) rfl
  exact hmeets.exec_of_never

theorem Carries.pure (a : α) : Carries (pure a) (pure a) := fun _ => rfl

theorem Carries.bind {t : Thread α} {x : StateM Disk α} {f : α → Thread β} {g : α → StateM Disk β}
    (hx : Carries t x) (hf : ∀ a, Carries (f a) (g a)) : Carries (t >>= f) (x >>= g) := by
  intro d
  rw [exec_bind, hx d]
  exact hf _ _

/-! ## Files and entries -/

theorem performs_kindOf (path : Text) :
    Performs (MonadFiles.kindOf path) (MonadFiles.kindOf path) := fun _ _ _ _ h => h

theorem performs_isDirectory (path : Text) :
    Performs (Files.isDirectory path) (Files.isDirectory path) := by
  refine (performs_kindOf path).bind fun kind => ?_
  cases kind with
  | error fault => exact .pure false
  | ok kind => cases kind <;> exact .pure _

theorem performs_makeOne (path : Text) : Performs (Files.makeOne path) (Files.makeOne path) := by
  have hmake : Performs (MonadFiles.makeDir path) (MonadFiles.makeDir path) := fun _ _ _ _ h => h
  refine hmake.bind fun made => ?_
  cases made with
  | ok _ => exact .pure _
  | error fault =>
    refine (performs_isDirectory path).bind fun there => ?_
    cases there <;> exact .pure _

theorem performs_makeDirsWithin (depth : Nat) (path : Text) :
    Performs (Files.makeDirsWithin depth path) (Files.makeDirsWithin depth path) := by
  induction depth generalizing path with
  | zero => exact performs_makeOne path
  | succ depth ih =>
    unfold Files.makeDirsWithin
    refine (performs_kindOf path).bind fun kind => ?_
    cases kind with
    | ok kind => cases kind <;> exact .pure _
    | error fault =>
      dsimp only
      cases Files.above? path with
      | none => exact performs_makeOne path
      | some parent =>
        refine (ih parent).bind fun made => ?_
        cases made with
        | error e => exact .pure _
        | ok _ => exact performs_makeOne path

theorem performs_write (path bytes : Text) :
    Performs (Files.write path bytes) (Files.write path bytes) := fun _ _ _ _ h => h

theorem performs_move (old new : Text) : Performs (Files.move old new) (Files.move old new) := by
  have hmove : Performs (MonadFiles.move old new) (MonadFiles.move old new) := fun _ _ _ _ h => h
  refine (performs_isDirectory new).bind fun there => ?_
  cases there with
  | true => exact .pure _
  | false => exact hmove.bind fun _ => .pure _

/-- An entry is stored in one turn. -/
theorem performs_put (c : Cache) (key : Text) (record : CacheRecord) :
    Performs (c.put key record) (c.put key record) := by
  refine (performs_makeDirsWithin _ _).bind fun made => ?_
  cases made with
  | error e => exact .pure _
  | ok _ =>
    refine (performs_write _ _).bind fun written => ?_
    cases written with
    | error e => exact .pure _
    | ok _ =>
      refine (performs_move _ _).bind fun moved => ?_
      cases moved with
      | ok _ => exact .pure _
      | error e =>
        have hremove : ∀ path, Performs (MonadFiles.removeAll path) (MonadFiles.removeAll path) :=
          fun _ _ _ _ _ h => h
        exact (hremove _).bind fun _ => .pure _

theorem carries_read (path : Text) : Carries (Files.read path) (Files.read path) := by
  have hbytes : Carries (MonadFiles.readBytes path) (MonadFiles.readBytes path) := fun _ => rfl
  refine hbytes.bind fun bytes => ?_
  cases bytes with
  | ok bytes => exact .pure _
  | error fault => cases fault <;> exact .pure _

theorem carries_get (c : Cache) (key : Text) : Carries (c.get key) (c.get key) := by
  refine (carries_read _).bind fun bytes => ?_
  cases bytes <;> exact .pure _

/-- A file is read as it is after the thread has given way. -/
theorem meets_read {keep rely : Disk → Prop} {d : Disk} (hd : keep d) {path : Text}
    {post : Except FileError Text → Disk → Prop}
    (h : ∀ e, keep e → rely e → post (e.read path) e) :
    (Files.read path : Thread _).Meets keep rely d post := by
  refine .bind (meets_pause rfl hd fun e hkeep hrely => ?_)
  have hbytes : (MonadFiles.readBytes path : StateM Disk _).run e = (e.readBytes path, e) := rfl
  have hread := h e hkeep hrely
  unfold Disk.read Files.read at hread
  simp only [StateT.run_bind, hbytes] at hread
  have hperform : (Request.readBytes path).perform.run e = (e.readBytes path, e) := rfl
  rw [hperform]
  cases hresult : e.readBytes path with
  | ok bytes =>
    rw [hresult] at hread
    exact hread
  | error fault =>
    rw [hresult] at hread
    cases fault <;> exact hread

/-- An entry is looked up as it is after the thread has given way. -/
theorem meets_get {keep rely : Disk → Prop} {d : Disk} (hd : keep d) {c : Cache} {key : Text}
    {post : CacheAnswer → Disk → Prop}
    (h : ∀ e, keep e → rely e → post (c.answer e key) e) :
    (c.get key : Thread _).Meets keep rely d post := by
  refine .bind (meets_read hd fun e hkeep hrely => ?_)
  have hget := h e hkeep hrely
  rw [(c.get_run key e).2] at hget
  cases hread : e.read (c.entryPath key) with
  | ok bytes =>
    rw [hread] at hget
    exact hget
  | error error =>
    rw [hread] at hget
    exact hget

end Thread

namespace Run

variable {α β : Type}

/-! ## The check of a file -/

/-- Whatever was told before, the thread does what the computation does if it is not interrupted. -/
def Mirrors (x : RunM Thread α) (y : RunM (StateM Disk) α) : Prop :=
  ∀ log, Thread.Carries (x.run log) (y.run log)

theorem Mirrors.pure (a : α) : Mirrors (pure a) (pure a) := fun _ _ => rfl

theorem Mirrors.bind {x : RunM Thread α} {y : RunM (StateM Disk) α} {f : α → RunM Thread β}
    {g : α → RunM (StateM Disk) β} (hx : Mirrors x y) (hf : ∀ a, Mirrors (f a) (g a)) :
    Mirrors (x >>= f) (y >>= g) :=
  fun log => (hx log).bind fun r => hf r.1 r.2

theorem mirrors_files {t : Thread α} {x : StateM Disk α} (h : Thread.Carries t x) :
    Mirrors (files t) (files x) := fun _ => h.bind fun _ => .pure _

theorem mirrors_now : Mirrors now now := fun _ _ => rfl

theorem mirrors_tell {moment : Trace.Moment} : Mirrors (tell moment) (tell moment) := fun _ _ => rfl

theorem mirrors_beginSpan {scope : Trace.EventScope} {name : Text} :
    Mirrors (beginSpan scope name) (beginSpan scope name) := fun _ _ => rfl

theorem mirrors_enterSpan {span : Nat} : Mirrors (enterSpan span) (enterSpan span) := fun _ _ => rfl

theorem mirrors_event {e : Progress.Event} : Mirrors (event e) (event e) := fun _ _ => rfl

theorem mirrors_beginStage {display : Text} {timer : Timer} {stage : Progress.Stage} :
    Mirrors (beginStage display timer stage) (beginStage display timer stage) := fun _ _ => rfl

theorem mirrors_endStage {display : Text} {timer : Timer} {s : OpenStage} {note : Text}
    {error : Option Text} :
    Mirrors (endStage display timer s note error) (endStage display timer s note error) :=
  fun _ _ => rfl

theorem mirrors_finish {o : Options} {display : Text} {started : Int} {r : FileResult} :
    Mirrors (finish o display started r) (finish o display started r) := fun _ _ => rfl

theorem mirrors_tellEach {moments : Array Trace.Moment} :
    Mirrors
      (forIn moments PUnit.unit fun moment _ => do
        tell moment
        Pure.pure (ForInStep.yield PUnit.unit))
      (forIn moments PUnit.unit fun moment _ => do
        tell moment
        Pure.pure (ForInStep.yield PUnit.unit)) := by
  rw [← Array.forIn_toList, ← Array.forIn_toList]
  induction moments.toList with
  | nil => exact .pure _
  | cons moment rest ih =>
    rw [List.forIn_cons, List.forIn_cons]
    refine (mirrors_tell.bind fun _ => .pure _).bind fun step => ?_
    cases step with
    | done _ => exact .pure _
    | yield _ => exact ih

theorem mirrors_tellAll {moments : Array Trace.Moment} {spans : Nat} :
    Mirrors (tellAll moments spans) (tellAll moments spans) := by
  have hget : Mirrors get get := fun _ _ => rfl
  exact hget.bind fun _ => mirrors_tellEach.bind fun _ => fun _ _ => rfl

theorem mirrors_lookup {cache : Option Cache} {file : SourceFile} :
    Mirrors (lookup cache file) (lookup cache file) := by
  cases cache with
  | none => exact .pure _
  | some c =>
    refine mirrors_beginSpan.bind fun _ => (mirrors_files (Thread.carries_get c _)).bind fun answer => ?_
    cases answer with
    | hit record => exact mirrors_tell.bind fun _ => mirrors_tell.bind fun _ => .pure _
    | miss => exact mirrors_tell.bind fun _ => .pure _
    | unreadable reason => exact mirrors_tell.bind fun _ => .pure _

theorem mirrors_store {cache : Option Cache} {file : SourceFile} {c : Checked} :
    Mirrors (store cache file c) (store cache file c) := by
  cases cache with
  | none => exact .pure _
  | some cache => exact mirrors_files (Thread.performs_put cache _ _).carries

theorem mirrors_checkAfresh {o : Options} {reached : Option Nat} {display : Text} {started : Int}
    {loading : OpenStage} {r : FileResult} {bag : Bag} :
    Mirrors (checkAfresh o reached display started loading r bag)
      (checkAfresh o reached display started loading r bag) := by
  unfold checkAfresh
  cases judge r.source reached with
  | error f => exact .pure _
  | ok verdict =>
    cases verdict with
    | undecodable reason =>
      exact mirrors_endStage.bind fun _ => mirrors_finish.bind fun _ => .pure _
    | checked k =>
      refine mirrors_endStage.bind fun _ => mirrors_beginStage.bind fun _ => ?_
      refine mirrors_tellAll.bind fun _ => mirrors_endStage.bind fun _ => ?_
      exact mirrors_store.bind fun _ => mirrors_finish.bind fun _ => .pure _

theorem mirrors_checkSource {o : Options} {reached : Option Nat} {display : Text} {started : Int}
    {loading : OpenStage} {r : FileResult} :
    Mirrors (checkSource o reached display started loading r)
      (checkSource o reached display started loading r) := by
  refine mirrors_lookup.bind fun answer => ?_
  cases answer with
  | hit record =>
    refine Mirrors.bind ?_ fun _ => .pure _
    exact mirrors_endStage.bind fun _ => mirrors_event.bind fun _ => mirrors_finish
  | miss => exact mirrors_checkAfresh
  | unreadable reason => exact mirrors_checkAfresh

/-- A thread that checks a file and is not interrupted checks it as on a disk. -/
theorem mirrors_checkFile (cwd : Text) (o : Options) (reached : Option Nat) (path : Text) :
    Mirrors (checkFile cwd o reached path) (checkFile cwd o reached path) := by
  refine mirrors_beginSpan.bind fun _ => mirrors_enterSpan.bind fun _ => mirrors_tell.bind fun _ => ?_
  refine mirrors_now.bind fun _ => mirrors_beginStage.bind fun _ => ?_
  refine (mirrors_files (Thread.carries_read path)).bind fun bytes => ?_
  cases bytes with
  | error e =>
    refine mirrors_endStage.bind fun _ => Mirrors.bind (.pure _) fun _ => ?_
    exact mirrors_tell.bind fun _ => mirrors_enterSpan.bind fun _ => .pure _
  | ok bytes =>
    exact mirrors_checkSource.bind fun _ => mirrors_tell.bind fun _ => mirrors_enterSpan.bind fun _ => .pure _

end Run

end DeclCheck

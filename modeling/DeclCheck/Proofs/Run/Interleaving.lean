import DeclCheck.Proofs.Cache.History
import DeclCheck.Proofs.Run.Alone

/-!
# Files that are checked at the same time

Files are checked by threads on one disk, which may share a cache. However their turns are interleaved,
each file gets the bag that it gets from a check of its own without a cache: what a thread finds in the
cache was stored after a whole check of the same content, and what it stores is of that kind too.
-/
namespace DeclCheck.Run

open Cache (Kept keyOf)

/-! ## What threads that check files keep and rely on -/

/-- Whatever was told before, the thread meets `post`. -/
def Holds {α : Type} (keep rely : Disk → Prop) (x : RunM Thread α) (d : Disk)
    (post : α → Disk → Prop) : Prop :=
  ∀ log, (x.run log).Meets keep rely d fun r e => post r.1 e

section Holds

variable {α β : Type} {keep rely : Disk → Prop} {x : RunM Thread α} {d : Disk}

theorem Holds.pure {a : α} {post : α → Disk → Prop} (h : post a d) :
    Holds keep rely (pure a) d post := fun _ => h

theorem Holds.bind {f : α → RunM Thread β} {post : β → Disk → Prop}
    (h : Holds keep rely x d fun a e => Holds keep rely (f a) e post) :
    Holds keep rely (x >>= f) d post :=
  fun log => .bind ((h log).mono fun r _ hr => hr r.2)

theorem Holds.mono {post post' : α → Disk → Prop} (h : Holds keep rely x d post)
    (himp : ∀ a e, post a e → post' a e) : Holds keep rely x d post' :=
  fun log => (h log).mono fun r e => himp r.1 e

theorem holds_files {act : Thread α} {post : α → Disk → Prop} (h : act.Meets keep rely d post) :
    Holds keep rely (files act) d post := fun _ => .bind (h.mono fun _ _ ha => ha)

variable (hd : keep d)
include hd

theorem holds_now {post : Int → Disk → Prop} (h : ∀ t e, keep e → rely e → post t e) :
    Holds keep rely now d post := fun _ => Thread.meets_pause rfl hd fun e => h _ e

theorem holds_tell {moment : Trace.Moment} {post : Unit → Disk → Prop}
    (h : ∀ e, keep e → rely e → post () e) : Holds keep rely (tell moment) d post :=
  .bind (holds_now hd fun _ e hkeep hrely => fun _ => h e hkeep hrely)

theorem holds_beginSpan {scope : Trace.EventScope} {name : Text} {post : Nat → Disk → Prop}
    (h : ∀ span e, keep e → rely e → post span e) : Holds keep rely (beginSpan scope name) d post :=
  .bind (holds_now hd fun _ e hkeep hrely => fun _ => h _ e hkeep hrely)

omit hd in
theorem holds_enterSpan {span : Nat} {post : Nat → Disk → Prop} (h : ∀ around, post around d) :
    Holds keep rely (enterSpan span) d post := fun _ => h _

omit hd in
theorem holds_event {e : Progress.Event} {post : Unit → Disk → Prop} (h : post () d) :
    Holds keep rely (event e) d post := fun _ => h

theorem holds_beginStage {display : Text} {timer : Timer} {stage : Progress.Stage}
    {post : Timer × OpenStage → Disk → Prop} (h : ∀ s e, keep e → rely e → post s e) :
    Holds keep rely (beginStage display timer stage) d post :=
  .bind (holds_beginSpan hd fun _ _ hkeep _ => .bind (holds_now hkeep fun _ e hkeep hrely =>
    fun _ => h _ e hkeep hrely))

theorem holds_endStage {display : Text} {timer : Timer} {s : OpenStage} {note : Text}
    {error : Option Text} {post : Timer → Disk → Prop} (h : ∀ t e, keep e → rely e → post t e) :
    Holds keep rely (endStage display timer s note error) d post :=
  .bind (holds_now hd fun _ _ hkeep _ => .bind (holds_tell hkeep fun e hkeep hrely =>
    fun _ => h _ e hkeep hrely))

theorem holds_tellEach (hrely : rely d) {moments : Array Trace.Moment} {post : PUnit → Disk → Prop}
    (h : ∀ e, keep e → rely e → post ⟨⟩ e) :
    Holds keep rely (forIn moments PUnit.unit fun moment _ => do
      tell moment
      Pure.pure (ForInStep.yield PUnit.unit)) d post := by
  rw [← Array.forIn_toList]
  induction moments.toList generalizing d with
  | nil => exact .pure (h d hd hrely)
  | cons moment rest ih =>
    rw [List.forIn_cons]
    exact .bind (.bind (holds_tell hd fun e hkeep hrely => .pure (ih hkeep hrely)))

theorem holds_tellAll (hrely : rely d) {moments : Array Trace.Moment} {spans : Nat} {post : Unit → Disk → Prop}
    (h : ∀ e, keep e → rely e → post () e) : Holds keep rely (tellAll moments spans) d post := by
  have hget {post : Log → Disk → Prop} (h : ∀ log, post log d) : Holds keep rely get d post := fun log => h log
  exact .bind (hget fun log => .bind (holds_tellEach hd hrely fun e hkeep hrely => fun _ => h e hkeep hrely))

/-- The end of a check, if no times are asked for. -/
theorem holds_finish {o : Options} (htimings : o.timings = false) {display : Text} {started : Int}
    {r : FileResult} {post : FileResult → Disk → Prop} (h : ∀ e, keep e → post r e) :
    Holds keep rely (finish o display started r) d post := by
  refine .bind (holds_now hd fun t e hkeep _ => .bind (holds_event (.pure ?_)))
  rw [htimings]
  exact h e hkeep

/-- The answer of the cache is that of the moment when it is asked. -/
theorem holds_lookup (hrely : rely d) {cache : Option Cache} {file : SourceFile}
    {post : CacheAnswer → Disk → Prop}
    (h : ∀ e x, keep e → rely e → keep x → post (answerFor cache e file) x) :
    Holds keep rely (lookup cache file) d post := by
  cases cache with
  | none => exact .pure (h d d hd hrely hd)
  | some c =>
    refine .bind (holds_beginSpan hd fun span _ hkeep _ => .bind (holds_files ?_))
    refine Thread.meets_get hkeep fun e hkeep hrely => ?_
    have hend := fun x (hx : keep x) => h e x hkeep hrely hx
    dsimp only [answerFor] at hend
    generalize c.answer e (Cache.key (Digest.sha256 file.content)) = answer at hend ⊢
    cases answer with
    | hit record =>
      exact .bind (holds_tell hkeep fun _ hkeep _ => .bind (holds_tell hkeep fun x hx _ => .pure (hend x hx)))
    | miss => exact .bind (holds_tell hkeep fun x hx _ => .pure (hend x hx))
    | unreadable reason => exact .bind (holds_tell hkeep fun x hx _ => .pure (hend x hx))

omit hd in
theorem holds_store {cache : Option Cache} {file : SourceFile} {k : Checked}
    {post : Except FileError Unit → Disk → Prop} (hnone : cache = none → post (.ok ()) d)
    (hsome : ∀ c, cache = some c → post
      ((c.put (keyOf file.content) (k.record file) : StateM Disk _).run d).1
      ((c.put (keyOf file.content) (k.record file) : StateM Disk _).run d).2) :
    Holds keep rely (store cache file k) d post := by
  cases cache with
  | none => exact .pure (hnone rfl)
  | some c => exact holds_files (Thread.performs_put c _ _ _ _ _ _ (hsome c rfl))

end Holds

/-! ## The check of one of the files -/

/-- A file with the bytes that are read from it. -/
structure Input where
  path : Text
  bytes : Text

namespace Input

def source (f : Input) : SourceFile := sourceAt f.path f.bytes

def content (f : Input) : Text := f.source.content

end Input

/-- The result has the bag that a check of the file without a cache fills. -/
def Concludes (o : Options) (f : Input) (res : Except Failure FileResult) : Prop :=
  ∃ r verdict, res = .ok r ∧ judge f.source none = .ok verdict ∧ r.path = f.path ∧ r.file = 0 ∧
    r.source = f.source ∧ r.bag = (settle o.dedup (Bag.empty o.limit) (verdict.reports 0)).1

/-- A thread that checks the file reads its bytes, hears of the cache at most what a check reports, and
can store what it reports. -/
structure Undisturbed (keep rely : Disk → Prop) (o : Options) (f : Input) (verdict : Verdict) :
    Prop where
  reads : ∀ e, keep e → rely e → e.read f.path = .ok f.bytes
  hears : ∀ e, keep e → rely e → answerFor o.cache e f.source = .miss ∨
    ∃ record, answerFor o.cache e f.source = .hit record ∧
      record.diagnosticsFor 0 = verdict.reports 0
  stores : ∀ e, keep e → rely e → ∀ c k, o.cache = some c → verdict = .checked k →
    ∃ x, (c.put (keyOf f.content) (k.record f.source) : StateM Disk _).run e = (.ok (), x) ∧ keep x

section Check

variable {keep rely : Disk → Prop} {o : Options} {f : Input} {verdict : Verdict} {d : Disk}
  {display : Text} {started : Int} {loading : OpenStage} {r : FileResult}
  (h : Undisturbed keep rely o f verdict) (htimings : o.timings = false)
  (hjudge : judge f.source none = .ok verdict)

section Result

variable (hpath : r.path = f.path) (hfile : r.file = 0) (hsource : r.source = f.source)
include h htimings hjudge hpath hfile hsource

theorem holds_checkAfresh (hd : keep d) :
    Holds keep rely (checkAfresh o none display started loading r (Bag.empty o.limit)) d
      fun res e => keep e ∧ Concludes o f res := by
  unfold checkAfresh
  rw [hsource, hjudge]
  dsimp only
  rcases hsettle : settle o.dedup (Bag.empty o.limit) (verdict.reports r.file) with ⟨bag, repeats⟩
  have hbag : bag = (settle o.dedup (Bag.empty o.limit) (verdict.reports 0)).1 := by
    rw [← hfile, hsettle]
  cases hverdict : verdict with
  | undecodable reason =>
    refine .bind (holds_endStage hd fun timer e hkeep _ => .bind ?_)
    refine holds_finish hkeep htimings fun x hx => .pure ⟨hx, ?_⟩
    exact ⟨_, verdict, rfl, hjudge, hpath, hfile, hsource, hbag⟩
  | checked k =>
    refine .bind (holds_endStage hd fun timer e hkeep _ => ?_)
    refine .bind (holds_beginStage hkeep fun stage e hkeep hrely => ?_)
    refine .bind (holds_tellAll hkeep hrely fun e hkeep _ => ?_)
    refine .bind (holds_endStage hkeep fun timer e hkeep hrely => .bind ?_)
    have hend : ∀ x, keep x → Holds keep rely (do
        let r ← finish o display started { r with bag, timer, checked := some k }
        Pure.pure (Except.ok r)) x fun res e => keep e ∧ Concludes o f res := by
      intro x hx
      refine .bind (holds_finish hx htimings fun y hy => .pure ⟨hy, ?_⟩)
      exact ⟨_, verdict, rfl, hjudge, hpath, hfile, hsource, hbag⟩
    refine holds_store (fun _ => hend e hkeep) fun c hc => ?_
    obtain ⟨x, hput, hx⟩ := h.stores e hkeep hrely c k hc hverdict
    change (c.put (keyOf f.source.content) (k.record f.source) : StateM Disk _).run e = _ at hput
    rw [hput]
    exact hend x hx

omit h in
theorem holds_answerFromCache (hd : keep d) {record : CacheRecord}
    (hreports : record.diagnosticsFor 0 = verdict.reports 0) :
    Holds keep rely (answerFromCache o display started loading r record) d
      fun r e => keep e ∧ Concludes o f (.ok r) := by
  unfold answerFromCache
  rcases hsettle : settle o.dedup (Bag.empty o.limit) (record.diagnosticsFor r.file) with ⟨bag, _⟩
  have hbag : bag = (settle o.dedup (Bag.empty o.limit) (verdict.reports 0)).1 := by
    rw [← hreports, ← hfile, hsettle]
  refine .bind (holds_endStage hd fun timer e hkeep _ => .bind (holds_event ?_))
  refine holds_finish hkeep htimings fun y hy => ⟨hy, ?_⟩
  exact ⟨_, verdict, rfl, hjudge, hpath, hfile, hsource, hbag⟩

theorem holds_checkSource (hd : keep d) (hrely : rely d) :
    Holds keep rely (checkSource o none display started loading r) d
      fun res e => keep e ∧ Concludes o f res := by
  refine .bind (holds_lookup hd hrely fun e x hkeep hrely hx => ?_)
  rw [hsource]
  rcases h.hears e hkeep hrely with hmiss | ⟨record, hhit, hreports⟩
  · rw [hmiss]
    exact holds_checkAfresh h htimings hjudge hpath hfile hsource hx
  · rw [hhit]
    refine .bind ((holds_answerFromCache htimings hjudge hpath hfile hsource hx hreports).mono ?_)
    exact fun _ _ hr => .pure hr

end Result

include h htimings hjudge

/-- A thread that checks a file gives its result, whatever the others do meanwhile. -/
theorem holds_checkFile (hd : keep d) (cwd : Text) :
    Holds keep rely (checkFile cwd o none f.path) d fun res e => keep e ∧ Concludes o f res := by
  refine .bind (holds_beginSpan hd fun span e hkeep _ => .bind (holds_enterSpan fun around => ?_))
  refine .bind (holds_tell hkeep fun e hkeep _ => .bind (holds_now hkeep fun started e hkeep _ => ?_))
  refine .bind (holds_beginStage hkeep fun stage e hkeep _ => .bind (holds_files ?_))
  refine Thread.meets_read hkeep fun e hkeep hrely => ?_
  rw [h.reads e hkeep hrely]
  refine .bind ((holds_checkSource h htimings hjudge rfl rfl rfl hkeep hrely).mono ?_)
  rintro res x ⟨hx, hres⟩
  exact .bind (holds_tell hx fun y hy _ => .bind (holds_enterSpan fun _ => .pure ⟨hy, hres⟩))

end Check

/-- The check of a file on its own, without a cache. -/
theorem gives_checkFile_fresh {o : Options} {f : Input} {d : Disk} (cwd : Text)
    (htimings : o.timings = false) (hread : d.read f.path = .ok f.bytes) :
    Gives (checkFile cwd { o with cache := none } none f.path) d fun res _ => Concludes o f res := by
  obtain ⟨verdict, hjudge⟩ := judge_ok f.source none
  have hundisturbed : Undisturbed (· = d) (fun _ => True) { o with cache := none } f verdict := by
    refine ⟨fun e he _ => he ▸ hread, fun e _ _ => .inl rfl, fun e _ _ c k hc => ?_⟩
    cases hc
  intro log
  have hmeets := holds_checkFile hundisturbed htimings hjudge rfl cwd log
  rw [← mirrors_checkFile cwd _ none f.path log d]
  exact Thread.Meets.exec_of_same trivial hmeets

/-! ## All files -/

/-- The threads that check files. -/
def start (cwd : Text) (o : Options) (paths : List Text) (d : Disk) :
    Pool (Except Failure FileResult × Log) :=
  ⟨paths.map fun path => (checkFile cwd (o.withBase paths) none path).run {}, d⟩

/-- All goes well for the files on a disk: they have their bytes, what the cache knows about them can be
read, and what is reported about them can be stored. -/
structure Serves (cache : Option Cache) (inputs : List Input) (d : Disk) : Prop where
  reads : ∀ f ∈ inputs, d.read f.path = .ok f.bytes
  gets : ∀ f ∈ inputs, ∀ reason, answerFor cache d f.source ≠ .unreadable reason
  puts : ∀ f ∈ inputs, ∀ c k, cache = some c → judge f.source none = .ok (.checked k) →
    ((c.put (keyOf f.content) (k.record f.source) : StateM Disk _).run d).1 = .ok ()

/-- A cache in which all that is known about the files was reported by whole checks. Different contents
have different keys, and what is stored about them can be read again. -/
structure Ready (c : Cache) (inputs : List Input) (d : Disk) : Prop where
  tidy : d.Tidy
  whole : ∀ f ∈ inputs, ∀ record, c.record? d (keyOf f.content) = some record →
    ∃ k : Kept, k.content = f.content ∧ k.reached = none ∧ k.record = record
  keys : ∀ f ∈ inputs, ∀ g ∈ inputs, keyOf f.content = keyOf g.content → f.content = g.content
  back : ∀ f ∈ inputs, ∀ k, judge f.source none = .ok (.checked k) →
    CacheRecord.decode (k.record f.source).encode = .ok (k.record f.source)

section Files

variable {inputs : List Input} {c : Cache} {f : Input} {d : Disk}

/-- Who finds a content in the cache hears what a check reports. -/
theorem Ready.heard (h : Ready c inputs d) (hf : f ∈ inputs) {verdict : Verdict}
    (hjudge : judge f.source none = .ok verdict) {record : CacheRecord}
    (hrecord : c.record? d (keyOf f.content) = some record) :
    record.diagnosticsFor 0 = verdict.reports 0 := by
  obtain ⟨k, hcontent, hreached, rfl⟩ := h.whole f hf record hrecord
  obtain ⟨checked, hchecked⟩ := k.exists_judge hcontent
  cases hjudge.symm.trans hchecked
  rw [k.diagnosticsFor_record, hreached, hcontent]
  exact (reports_eq_reportsOf hchecked).symm

/-- What is stored after a whole check leaves the cache as it should be. -/
theorem Ready.put (h : Ready c inputs d) (hf : f ∈ inputs) {k : Checked} {e : Disk}
    (hjudge : judge f.source none = .ok (.checked k))
    (hput : (c.put (keyOf f.content) (k.record f.source) : StateM Disk _).run d = (.ok (), e)) :
    Ready c inputs e := by
  have hstored := Cache.Stored.of_put h.tidy hput
  refine ⟨hstored.tidy, fun g hg record hrecord => ?_, h.keys, h.back⟩
  by_cases hkey : keyOf g.content = keyOf f.content
  · have hversion : (k.record f.source).version = CacheRecord.currentVersion := rfl
    rw [hkey, hstored.written, Cache.record?_of_decode hversion (h.back f hf k hjudge)] at hrecord
    exact ⟨⟨f.path, f.bytes, none, k, hjudge⟩, (h.keys g hg f hf hkey).symm, rfl,
      Option.some.inj hrecord⟩
  · rw [hstored.others _ hkey] at hrecord
    exact h.whole g hg record hrecord

/-- A thread is not disturbed where all goes well and the cache is as it should be. -/
theorem Serves.undisturbed {keep rely : Disk → Prop} {o : Options} (hf : f ∈ inputs)
    {verdict : Verdict} (hjudge : judge f.source none = .ok verdict)
    (hserves : ∀ e, keep e → rely e → Serves o.cache inputs e)
    (hready : ∀ e, keep e → ∀ c, o.cache = some c → Ready c inputs e)
    (hput : ∀ e x, keep e → rely e → ∀ c k, o.cache = some c → verdict = .checked k →
      (c.put (keyOf f.content) (k.record f.source) : StateM Disk _).run e = (.ok (), x) → keep x) :
    Undisturbed keep rely o f verdict := by
  refine ⟨fun e hkeep hrely => (hserves e hkeep hrely).reads f hf, fun e hkeep hrely => ?_,
    fun e hkeep hrely c k hc hk => ?_⟩
  · cases hanswer : answerFor o.cache e f.source with
    | miss => exact .inl rfl
    | unreadable reason => exact ((hserves e hkeep hrely).gets f hf reason hanswer).elim
    | hit record =>
      cases hc : o.cache with
      | none =>
        rw [hc] at hanswer
        cases hanswer
      | some c =>
        rw [hc] at hanswer
        have hrecord : c.record? e (keyOf f.content) = some record :=
          congrArg CacheAnswer.record? hanswer
        exact .inr ⟨record, rfl, (hready e hkeep c hc).heard hf hjudge hrecord⟩
  · have hdone := (hserves e hkeep hrely).puts f hf c k hc (hk ▸ hjudge)
    refine ⟨_, Prod.ext hdone rfl, ?_⟩
    exact hput e _ hkeep hrely c k hc hk (Prod.ext hdone rfl)

theorem Concludes.of_withBase {o : Options} {paths : List Text} {res : Except Failure FileResult}
    (h : Concludes (o.withBase paths) f res) : Concludes o f res := by
  unfold Options.withBase at h
  split at h <;> exact h

theorem withBase_cache (o : Options) (paths : List Text) : (o.withBase paths).cache = o.cache := by
  unfold Options.withBase
  split <;> rfl

theorem withBase_timings (o : Options) (paths : List Text) :
    (o.withBase paths).timings = o.timings := by
  unfold Options.withBase
  split <;> rfl

/-- The threads begin on their way to the results, if all goes well on disks that are `good` and on which
they can `rely`. -/
theorem start_awaits (good rely : Disk → Prop) {o : Options} (cwd : Text)
    (htimings : o.timings = false) (hready : ∀ c, o.cache = some c → Ready c inputs d) (hd : good d)
    (hserves : ∀ e, good e → rely e → Serves o.cache inputs e)
    (hput : ∀ e, good e → ∀ f ∈ inputs, ∀ c k, o.cache = some c →
      judge f.source none = .ok (.checked k) →
        good ((c.put (keyOf f.content) (k.record f.source) : StateM Disk _).run e).2) :
    (start cwd o (inputs.map (·.path)) d).Awaits
      (fun e => good e ∧ ∀ c, o.cache = some c → Ready c inputs e) rely
      (fun f a => Concludes o f a.1) inputs := by
  refine ⟨⟨hd, hready⟩, by simp [start], fun i f t hf ht => ?_⟩
  have hmem : f ∈ inputs := List.mem_of_getElem? hf
  simp only [start, List.getElem?_map, hf, Option.map_some, Option.some.injEq] at ht
  obtain ⟨verdict, hjudge⟩ := judge_ok f.source none
  have hundisturbed : Undisturbed (fun e => good e ∧ ∀ c, o.cache = some c → Ready c inputs e) rely
      (o.withBase (inputs.map (·.path))) f verdict := by
    refine Serves.undisturbed hmem hjudge ?_ ?_ ?_ <;> rw [withBase_cache]
    · exact fun e hkeep hrely => hserves e hkeep.1 hrely
    · exact fun e hkeep => hkeep.2
    · intro e x hkeep _ c k hc hk hrun
      have hgood := hput e hkeep.1 f hmem c k hc (hk ▸ hjudge)
      rw [hrun] at hgood
      refine ⟨hgood, fun c' hc' => ?_⟩
      cases hc.symm.trans hc'
      exact (hkeep.2 c hc).put hmem (hk ▸ hjudge) hrun
  have hholds := holds_checkFile hundisturbed ((withBase_timings o _).trans htimings) hjudge
    ⟨hd, hready⟩ cwd {}
  rw [ht] at hholds
  -- The first request of a check is for the time, so the thread has not begun its turn.
  have hadvance : t.advance d = (t, d) := by
    rw [← ht]
    rfl
  have hawaits := (hholds.mono fun _ _ hr => ⟨hr.1, hr.2.of_withBase⟩).advance.2
  rw [hadvance] at hawaits
  exact hawaits

/-- If storing keeps to disks on which all goes well, then all goes well in every run. -/
theorem serves_of_closed {o : Options} (cwd : Text) (htimings : o.timings = false)
    (hready : ∀ c, o.cache = some c → Ready c inputs d) (good : Disk → Prop) (hd : good d)
    (hserves : ∀ e, good e → Serves o.cache inputs e)
    (hput : ∀ e, good e → ∀ f ∈ inputs, ∀ c k, o.cache = some c →
      judge f.source none = .ok (.checked k) →
        good ((c.put (keyOf f.content) (k.record f.source) : StateM Disk _).run e).2)
    (jobs : Nat) (schedule : List Nat) :
    Serves o.cache inputs ((start cwd o (inputs.map (·.path)) d).run jobs schedule).disk := by
  have hstart := start_awaits good (fun _ => True) cwd htimings hready hd
    (fun e hgood _ => hserves e hgood) hput
  exact hserves _ (hstart.run jobs schedule fun _ => trivial).disk.1

end Files

/-- A class with an unknown base, which is an error. -/
def trayContent : Text := "decls:\n  - class: Tray\n    extends: Crate\n"

def trayInputs : List Input := [⟨"a.yaml", trayContent⟩, ⟨"b.yaml", trayContent⟩]

def trayDisk : Disk :=
  (({} : Disk).put [Text.ofString "a.yaml"] (.file trayContent)).put [Text.ofString "b.yaml"]
    (.file trayContent)

def trayOptions : Options := { cache := some { dir := "cache" } }

/-- What is stored about one of the files. -/
def trayRecord (path : Text) : CacheRecord :=
  { version := CacheRecord.currentVersion, path, digest := Digest.sha256 trayContent, decls := 1
    diagnostics := [.error .notDeclared ⟨0, 36, 41⟩ "no declaration found for class 'Crate'"] }

/-- What storing it comes to. -/
def trayStored (path : Text) (d : Disk) : Except FileError Unit × Disk :=
  (Cache.put { dir := "cache" } (keyOf trayContent) (trayRecord path) : StateM Disk _).run d

/-- The disks that there can be: the files alone, or with what was stored last. -/
def trayDisks : List Disk :=
  [trayDisk, (trayStored "a.yaml" trayDisk).2, (trayStored "b.yaml" trayDisk).2]

deriving instance DecidableEq for Disk

theorem trayDisks_serve : ∀ e ∈ trayDisks, ∀ f ∈ trayInputs, e.read f.path = .ok trayContent ∧
    (answerFor trayOptions.cache e f.source).warnings = 0 ∧ (trayStored f.path e).1 = .ok () ∧
      (trayStored f.path e).2 ∈ trayDisks := by
  decide +kernel

theorem trayInputs_content : ∀ f ∈ trayInputs, f.bytes = trayContent ∧ f.content = trayContent := by
  decide +kernel

theorem record_of_trayInputs {f : Input} (hf : f ∈ trayInputs) {k : Checked}
    (hjudge : judge f.source none = .ok (.checked k)) : k.record f.source = trayRecord f.path := by
  have hall : ∀ f ∈ trayInputs, (judge f.source none).toOption.bind (Cache.recordOf f.source) =
      some (trayRecord f.path) := by decide +kernel
  have hrecord := hall f hf
  rw [hjudge] at hrecord
  exact Option.some.inj hrecord

theorem trayDisk_tidy : trayDisk.Tidy := by
  have hput : ∀ (d : Disk) (name : Text), d.Tidy → d.node? [name] = none →
      (d.put [name] (.file trayContent)).Tidy := by
    intro d name hd hnone
    refine (Disk.put_sets d (by simp) _).tidy hd (fun _ => ⟨[], _, rfl, rfl⟩) fun hdir => ?_
    cases hnone.symm.trans hdir
  have hempty : Disk.Tidy {} := by
    refine ⟨fun place part hpart => ?_, rfl⟩
    simp [Disk.node?] at hpart
  exact hput _ _ (hput _ _ hempty (by decide +kernel)) (by decide +kernel)

theorem tray_ready : Ready { dir := "cache" } trayInputs trayDisk := by
  have hunknown : Cache.record? { dir := "cache" } trayDisk (keyOf trayContent) = none := by
    decide +kernel
  have hback : ∀ f ∈ trayInputs, CacheRecord.decode (trayRecord f.path).encode =
      .ok (trayRecord f.path) := by decide +kernel
  refine ⟨trayDisk_tidy, fun f hf record hrecord => ?_, fun f hf g hg _ => ?_, fun f hf k hk => ?_⟩
  · rw [(trayInputs_content f hf).2, hunknown] at hrecord
    cases hrecord
  · rw [(trayInputs_content f hf).2, (trayInputs_content g hg).2]
  · rw [record_of_trayInputs hf hk]
    exact hback f hf

theorem tray_serves (jobs : Nat) (schedule : List Nat) : Serves trayOptions.cache trayInputs
    ((start [] trayOptions (trayInputs.map (·.path)) trayDisk).run jobs schedule).disk := by
  have hput : ∀ {f c k}, f ∈ trayInputs → trayOptions.cache = some c →
      judge f.source none = .ok (.checked k) → ∀ e : Disk,
        (c.put (keyOf f.content) (k.record f.source) : StateM Disk _).run e = trayStored f.path e := by
    intro f c k hf hc hk e
    cases hc
    rw [(trayInputs_content f hf).2, record_of_trayInputs hf hk]
    rfl
  refine serves_of_closed [] rfl (fun c hc => ?_) (· ∈ trayDisks)
    (List.mem_cons_self ..) (fun e he => ⟨fun f hf => ?_, fun f hf reason hreason => ?_, ?_⟩) ?_
    jobs schedule
  · cases hc
    exact tray_ready
  · rw [(trayInputs_content f hf).1]
    exact (trayDisks_serve e he f hf).1
  · have hwarnings := (trayDisks_serve e he f hf).2.1
    rw [hreason] at hwarnings
    cases hwarnings
  · intro f hf c k hc hk
    rw [hput hf hc hk]
    exact (trayDisks_serve e he f hf).2.2.1
  · intro e he f hf c k hc hk
    rw [hput hf hc hk]
    exact (trayDisks_serve e he f hf).2.2.2

end DeclCheck.Run

import DeclCheck.Proofs.Cache.Entries
import DeclCheck.Proofs.Run.Reports
import DeclCheck.Run.Files

/-!
# What a cache has gone through

A cache is used by checks of files, some of which may have been cut short. What it knows about a content
is what the last check of the content that was stored has reported. So an answer from the cache is that
of a new check exactly if the stored check had not missed a report.
-/
namespace DeclCheck

namespace Cache

open Run (Checked judge sourceAt reportsOf distinct isRemark)

/-- A check of a manifest that was stored: of its first `reached` declarations, or of all. -/
structure Kept where
  path : Text
  bytes : Text
  reached : Option Nat
  checked : Checked
  judged : judge (sourceAt path bytes) reached = .ok (.checked checked)

namespace Kept

def content (k : Kept) : Text := (sourceAt k.path k.bytes).content

/-- What is stored. -/
def record (k : Kept) : CacheRecord := k.checked.record (sourceAt k.path k.bytes)

/-- Who finds the record hears what the check has reported. -/
theorem diagnosticsFor_record (k : Kept) :
    k.record.diagnosticsFor 0 = reportsOf k.content k.reached := by
  have hreports : k.record.diagnostics = Run.Verdict.reports 0 (.checked k.checked) := rfl
  have hfile : ∀ d ∈ k.record.diagnostics, d.InFile 0 := by
    intro d hd
    rw [hreports] at hd
    exact (Run.mem_reports k.judged hd).1
  rw [Run.diagnosticsFor_eq hfile, hreports]
  exact Run.reports_eq_reportsOf k.judged

end Kept

/-- The key of a content. -/
def keyOf (content : Text) : Text := key (Digest.sha256 content)

/-- A history of a cache up to the disk `d`, with the checks that were stored, the last one first. Checks
may be stored in any order and may have been cut anywhere. Others change the disk only in ways that leave
what can be read from the cache. -/
inductive History (c : Cache) : Disk → List Kept → Prop
  | start {d : Disk} (tidy : d.Tidy) (unused : ∀ key, c.record? d key = none) : History c d []
  | others {d e : Disk} {ks : List Kept} (h : History c d ks) (tidy : e.Tidy)
    (same : ∀ key, c.record? e key = c.record? d key) : History c e ks
  | stored {d e : Disk} {ks : List Kept} (h : History c d ks) (k : Kept)
    (put : (c.put (keyOf k.content) k.record : StateM Disk _).run d = (.ok (), e)) :
    History c e (k :: ks)
  | failed {d e : Disk} {ks : List Kept} (h : History c d ks) {key : Text} {record : CacheRecord}
    {error : FileError} (put : (c.put key record : StateM Disk _).run d = (.error error, e)) :
    History c e ks

variable {c : Cache} {d e : Disk} {ks : List Kept}

theorem History.tidy (h : History c d ks) : d.Tidy := by
  induction h with
  | start tidy _ => exact tidy
  | others _ tidy _ _ => exact tidy
  | stored _ _ put ih => exact (Stored.of_put ih put).tidy
  | failed _ put ih => exact (Stored.of_put ih put).tidy

/-- The last check of a content that was stored. -/
def last? (ks : List Kept) (content : Text) : Option Kept :=
  ks.find? (·.content == content)

theorem record?_of_decode {record : CacheRecord} (hversion : record.version = CacheRecord.currentVersion)
    (hback : CacheRecord.decode record.encode = .ok record) :
    (answerOf (CacheRecord.encode { record with version := CacheRecord.currentVersion })).record? =
      some record := by
  have hsame : { record with version := CacheRecord.currentVersion } = record := by rw [← hversion]
  rw [hsame, answerOf, hback]
  simp only [hversion, if_true]
  rfl

/-- What can be read about a content is what was stored last. -/
theorem History.record?_eq (h : History c d ks) {content : Text}
    (hkeys : ∀ k ∈ ks, keyOf k.content = keyOf content → k.content = content)
    (hback : ∀ k ∈ ks, CacheRecord.decode k.record.encode = .ok k.record) :
    c.record? d (keyOf content) = (last? ks content).map Kept.record := by
  induction h with
  | start _ unused => rw [unused]; rfl
  | others _ _ same ih => rw [same, ih hkeys hback]
  | failed h put ih => rw [(Stored.of_put h.tidy put).unchanged, ih hkeys hback]
  | stored h k put ih =>
    have hput := Stored.of_put h.tidy put
    obtain ⟨hown, hkeys⟩ := List.forall_mem_cons.mp hkeys
    obtain ⟨hthis, hback⟩ := List.forall_mem_cons.mp hback
    unfold last?
    by_cases hsame : k.content = content
    · have hversion : k.record.version = CacheRecord.currentVersion := rfl
      rw [List.find?_cons_of_pos (by simpa using hsame), ← hsame, hput.written,
        record?_of_decode hversion hthis]
      rfl
    · have hkey : keyOf content ≠ keyOf k.content := fun hkey => hsame (hown hkey.symm)
      rw [List.find?_cons_of_neg (by simpa using hsame), hput.others _ hkey]
      exact ih hkeys hback

/-! ## Runs are histories -/

/-- What the cache does not know is stored. -/
theorem diskAfter_of_unknown {file : SourceFile} {verdict : Run.Verdict}
    (h : c.record? d (keyOf file.content) = none) :
    Run.diskAfter (some c) d file verdict = Run.storedOn (some c) d file verdict := by
  change (Run.answerFor (some c) d file).record? = none at h
  unfold Run.diskAfter
  cases hanswer : Run.answerFor (some c) d file with
  | hit record =>
    rw [hanswer] at h
    cases h
  | miss => rfl
  | unreadable reason => rfl

section Runs

variable {o : Run.Options} (hcache : o.cache = some c)
include hcache

/-- A check with the cache stores what it has checked, if anything. -/
theorem History.checkFile (h : History c d ks) (cwd : Text) (reached : Option Nat) (path : Text) :
    Run.Gives (Run.checkFile cwd o reached path) d fun _ e =>
      ∃ new, History c e (new ++ ks) ∧ ∀ k ∈ new, k.reached = reached := by
  cases hread : d.read path with
  | error error =>
    refine (Run.gives_checkFile_error hread).mono fun _ e he => ⟨[], ?_, by simp⟩
    rwa [he.1]
  | ok bytes =>
    obtain ⟨verdict, hjudge⟩ := Run.judge_ok (sourceAt path bytes) reached
    refine (Run.gives_checkFile hread hjudge).mono fun _ e he => ?_
    rw [he.1, hcache]
    unfold Run.diskAfter
    split
    · exact ⟨[], h, by simp⟩
    · cases verdict with
      | undecodable reason => exact ⟨[], h, by simp⟩
      | checked k =>
        let kept : Kept := ⟨path, bytes, reached, k, hjudge⟩
        cases hput : (c.put (keyOf kept.content) kept.record : StateM Disk _).run d with
        | mk res x =>
          have hdisk : Run.storedOn (some c) d (sourceAt path bytes) (.checked k) = x :=
            congrArg Prod.snd hput
          rw [hdisk]
          cases res with
          | ok _ => exact ⟨[kept], h.stored kept hput, by simp [kept]⟩
          | error error => exact ⟨[], h.failed hput, by simp⟩

/-- After a failure no declaration is checked any more, so what is stored then is cut. -/
theorem History.checkInOrder (h : History c d ks) (cwd : Text) (failed : Option Run.Failure)
    (paths : List Text) :
    Run.Gives (Run.checkInOrder cwd o failed paths) d fun res e =>
      (failed.isSome = true → res.isOk = false) ∧ ∃ new, History c e (new ++ ks) ∧
        ∀ k ∈ new, k.reached = none ∨ res.isOk = false ∧ k.reached = some 0 := by
  induction paths generalizing d ks failed with
  | nil =>
    cases failed with
    | none => exact .pure ⟨by simp, [], h, by simp⟩
    | some f => exact .pure ⟨fun _ => rfl, [], h, by simp⟩
  | cons path paths ih =>
    rw [Run.checkInOrder_cons]
    refine .bind ((h.checkFile hcache cwd _ path).mono fun res e ⟨first, hfirst, hreached⟩ => ?_)
    have hwhole : ∀ k ∈ first, k.reached = none ∨ failed.isSome = true ∧ k.reached = some 0 := by
      intro k hk
      rw [hreached k hk]
      cases failed <;> simp
    cases res with
    | error f =>
      refine (ih hfirst (some (failed.getD f))).mono fun res e ⟨hfail, rest, hrest, hcut⟩ => ?_
      refine ⟨fun _ => hfail rfl, rest ++ first, by rwa [List.append_assoc], fun k hk => ?_⟩
      rcases List.mem_append.mp hk with hk | hk
      · exact hcut k hk
      · exact (hwhole k hk).imp_right fun hk => ⟨hfail rfl, hk.2⟩
    | ok r =>
      refine .bind ((ih hfirst failed).mono fun res e ⟨hfail, rest, hrest, hcut⟩ => .pure ?_)
      have hok : (res.map (r :: ·)).isOk = res.isOk := by cases res <;> rfl
      rw [hok]
      refine ⟨hfail, rest ++ first, by rwa [List.append_assoc], fun k hk => ?_⟩
      rcases List.mem_append.mp hk with hk | hk
      · exact hcut k hk
      · exact (hwhole k hk).imp_right fun hk => ⟨hfail hk.1, hk.2⟩

/-- A run stores whole checks, and cut ones only if it fails. -/
theorem History.checkFiles (h : History c d ks) (cwd : Text) (paths : List Text) :
    Run.Gives (Run.checkFiles cwd o paths) d fun res e => ∃ new, History c e (new ++ ks) ∧
      ∀ k ∈ new, k.reached = none ∨ res.isOk = false ∧ k.reached = some 0 := by
  have hbase : (o.withBase paths).cache = some c := by
    unfold Run.Options.withBase
    split <;> exact hcache
  refine .bind (Run.gives_beginSpan fun span => .bind (Run.gives_enterSpan fun around => ?_))
  refine .bind (Run.gives_events (.bind ?_))
  exact (h.checkInOrder hbase cwd none paths).mono
    fun res e ⟨_, hnew⟩ => .bind (Run.gives_tell (.bind (Run.gives_enterSpan fun _ => .pure hnew)))

end Runs

/-! ## Answers from the cache -/

section Answers

variable {path bytes : Text}

/-- A content of which a check was stored is a manifest wherever it lies. -/
theorem Kept.exists_judge (k : Kept) (h : k.content = (sourceAt path bytes).content) :
    ∃ checked, judge (sourceAt path bytes) none = .ok (.checked checked) := by
  rcases Run.judge_cases (sourceAt path bytes) with ⟨reason, hreason⟩ | ⟨l, _, hchecked⟩
  · have hjudged : judge (sourceAt path bytes) k.reached = .ok (.checked k.checked) := by
      rw [← Run.judge_contentFile, ← h]
      exact Run.judge_contentFile.mpr k.judged
    rw [hreason] at hjudged
    cases hjudged
  · exact ⟨_, hchecked none⟩

theorem last?_content {content : Text} {k : Kept} (h : last? ks content = some k) :
    k.content = content := by
  simpa using List.find?_some h

theorem heard_eq_getD (answer : CacheAnswer) (verdict : Run.Verdict) :
    Run.heard answer verdict =
      (answer.record?.map (·.diagnosticsFor 0)).getD (verdict.reports 0) := by
  cases answer <;> rfl

variable (h : History c d ks)
  (hkeys : ∀ k ∈ ks, keyOf k.content = keyOf (sourceAt path bytes).content →
    k.content = (sourceAt path bytes).content)
  (hback : ∀ k ∈ ks, CacheRecord.decode k.record.encode = .ok k.record)
include h hkeys hback

/-- What a run hears about a file: what was reported by the check that was stored last. -/
theorem History.heard_eq (verdict : Run.Verdict) :
    Run.heard (Run.answerFor (some c) d (sourceAt path bytes)) verdict =
      ((last? ks (sourceAt path bytes).content).map fun k =>
        reportsOf (sourceAt path bytes).content k.reached).getD (verdict.reports 0) := by
  have hrecord : (Run.answerFor (some c) d (sourceAt path bytes)).record? =
      (last? ks (sourceAt path bytes).content).map Kept.record := h.record?_eq hkeys hback
  rw [heard_eq_getD, hrecord]
  cases hlast : last? ks (sourceAt path bytes).content with
  | none => rfl
  | some k =>
    rw [← last?_content hlast]
    exact k.diagnosticsFor_record

/-- An answer from the cache can leave out what the stored check has not come to, and nothing else. -/
theorem History.heard_front {verdict : Run.Verdict}
    (hjudge : judge (sourceAt path bytes) none = .ok verdict) (dedup : Bool) :
    Run.heard (Run.answerFor (some c) d (sourceAt path bytes)) verdict <+: verdict.reports 0 ∧
      (distinct dedup (Run.heard (Run.answerFor (some c) d (sourceAt path bytes)) verdict) =
        distinct dedup (verdict.reports 0) ↔
          ∀ k, last? ks (sourceAt path bytes).content = some k →
            distinct dedup (reportsOf (sourceAt path bytes).content k.reached) =
              distinct dedup (reportsOf (sourceAt path bytes).content none)) := by
  rw [h.heard_eq hkeys hback]
  cases hlast : last? ks (sourceAt path bytes).content with
  | none => exact ⟨List.prefix_refl _, by simp⟩
  | some k =>
    have hall : verdict.reports 0 = reportsOf (sourceAt path bytes).content none := by
      obtain ⟨checked, hchecked⟩ := k.exists_judge (last?_content hlast)
      cases hjudge.symm.trans hchecked
      exact Run.reports_eq_reportsOf hchecked
    rw [hall, Option.map_some, Option.getD_some]
    refine ⟨Run.reportsOf_front _ _, ?_⟩
    constructor
    · rintro hsame _ hk
      cases hk
      exact hsame
    · exact fun hsame => hsame k rfl

end Answers

/-- A run extends a history by whole checks, and by cut ones only if it fails. Whatever the history is,
an answer from the cache shows what a check without the cache shows exactly if the check of the content
that was stored last has missed no report. -/
theorem History.cached_shown_iff (h : History c d ks) :
    (∀ (cwd : Text) (o : Run.Options) (paths : List Text), o.cache = some c →
      Run.Gives (Run.checkFiles cwd o paths) d fun res e => ∃ new, History c e (new ++ ks) ∧
        ∀ k ∈ new, k.reached = none ∨ res.isOk = false ∧ k.reached = some 0) ∧
    ∀ path bytes : Text, d.read path = .ok bytes →
      (∀ k ∈ ks, keyOf k.content = keyOf (sourceAt path bytes).content →
        k.content = (sourceAt path bytes).content) →
      (∀ k ∈ ks, CacheRecord.decode k.record.encode = .ok k.record) →
      ∀ (cwd : Text) (o : Run.Options), o.cache = some c → o.limit ≤ 0 →
        Run.Gives (Run.checkFile cwd o none path) d fun cached _ =>
          Run.Gives (Run.checkFile cwd { o with cache := none } none path) d fun fresh _ =>
            ∃ r s, cached = .ok r ∧ fresh = .ok s ∧ (r.shown = s.shown ↔
              ∀ k, last? ks (sourceAt path bytes).content = some k →
                distinct o.dedup (reportsOf (sourceAt path bytes).content k.reached) =
                  distinct o.dedup (reportsOf (sourceAt path bytes).content none)) := by
  refine ⟨fun cwd o paths hcache => h.checkFiles hcache cwd paths, ?_⟩
  intro path bytes hread hkeys hback cwd o hcache hlimit
  obtain ⟨verdict, hjudge⟩ := Run.judge_ok (sourceAt path bytes) none
  obtain ⟨hfront, hiff⟩ := h.heard_front hkeys hback hjudge o.dedup
  have hquiet : ∀ d ∈ verdict.reports 0, isRemark d = false :=
    fun d hd => (Run.mem_reports hjudge hd).2
  refine (Run.gives_checkFile hread hjudge).mono fun cached _ ⟨_, hcached⟩ => ?_
  refine (Run.gives_checkFile hread hjudge).mono fun fresh _ ⟨_, hfresh⟩ => ?_
  rw [hcache] at hcached
  obtain ⟨r, rfl⟩ := hcached.exists_ok
  obtain ⟨s, rfl⟩ := hfresh.exists_ok
  refine ⟨r, s, rfl, rfl, ?_⟩
  rw [hcached.shown_eq hlimit fun d hd => hquiet d (hfront.subset hd), hfresh.shown_eq hlimit hquiet]
  exact (Bag.sortItems_eq_iff (Run.distinct_front o.dedup hfront)).trans hiff

/-! ## A cut check that is stored -/

/-- A class with an unknown base, which is an error. -/
def orphan : Text := "decls:\n  - class: A\n    extends: Nope\n"

def orphanDisk : Disk := ({} : Disk).put [Text.ofString "bad.yaml"] (.file orphan)

def orphanOptions : Run.Options := { cache := some { dir := "cache" } }

/-- What is stored about the class if none of the declarations is checked. -/
def orphanRecord : CacheRecord :=
  { version := CacheRecord.currentVersion, path := "bad.yaml", digest := Digest.sha256 orphan
    decls := 1 }

/-- What is to be stored about a file. -/
def recordOf (file : SourceFile) : Run.Verdict → Option CacheRecord
  | .undecodable _ => none
  | .checked checked => some (checked.record file)

theorem exists_orphan_kept : ∃ k : Kept, k.path = "bad.yaml" ∧ k.bytes = orphan ∧
    k.reached = some 0 ∧ k.content = orphan ∧ k.record = orphanRecord := by
  have hcontent : (sourceAt "bad.yaml" orphan).content = orphan := by decide +kernel
  have hrecord : (judge (sourceAt "bad.yaml" orphan) (some 0)).toOption.bind
      (recordOf (sourceAt "bad.yaml" orphan)) = some orphanRecord := by decide +kernel
  cases hjudge : judge (sourceAt "bad.yaml" orphan) (some 0) with
  | error failure =>
    rw [hjudge] at hrecord
    cases hrecord
  | ok verdict =>
    rw [hjudge] at hrecord
    cases verdict with
    | undecodable reason => cases hrecord
    | checked checked =>
      exact ⟨⟨"bad.yaml", orphan, some 0, checked, hjudge⟩, rfl, rfl, rfl, hcontent,
        Option.some.inj hrecord⟩

theorem orphanDisk_unused :
    orphanDisk.Tidy ∧ ∀ key, Cache.record? { dir := "cache" } orphanDisk key = none := by
  have hempty : Disk.Tidy {} := by
    refine ⟨fun place part hpart => ?_, rfl⟩
    simp [Disk.node?] at hpart
  have hsets : Disk.Sets {} orphanDisk [Text.ofString "bad.yaml"] (some (.file orphan)) :=
    Disk.put_sets {} (by simp) _
  refine ⟨hsets.tidy hempty (fun _ => ⟨[], _, rfl, rfl⟩) ?_, fun key => ?_⟩
  · intro hdir
    simp [Disk.node?] at hdir
  · refine record?_eq_none _ fun q => ?_
    have hname : q ++ [entryName key] ≠ [Text.ofString "bad.yaml"] := by
      intro h
      have hlast : entryName key = Text.ofString "bad.yaml" := by
        simpa using congrArg List.getLast? h
      have hend := congrArg List.getLast? hlast
      have hentry : (Text.ofString ".mp").getLast? = some 112 := rfl
      rw [entryName, List.getLast?_append, hentry, Option.some_or] at hend
      exact absurd hend (by decide)
    rw [hsets.fileAt?, if_neg hname]
    simp [Disk.fileAt?, Disk.node?]

/-- A run that cannot read a file goes on to the class, of which no declaration is checked any more,
and stores that there is nothing to report. -/
theorem orphan_stored :
    Run.Gives (Run.checkFiles [] orphanOptions ["gone.yaml", "bad.yaml"]) orphanDisk fun res e =>
      res.isOk = false ∧ e.read "bad.yaml" = .ok orphan ∧ ∃ k, History { dir := "cache" } e [k] ∧
        k.content = orphan ∧ k.reached = some 0 ∧ k.record = orphanRecord := by
  obtain ⟨tidy, unused⟩ := orphanDisk_unused
  obtain ⟨k, hpath, hbytes, hreached, hcontent, hrecord⟩ := exists_orphan_kept
  have hjudge := k.judged
  rw [hpath, hbytes, hreached] at hjudge
  have hgone : orphanDisk.read "gone.yaml" =
      .error { operation := "open", path := "gone.yaml", fault := .notFound } := by decide +kernel
  have hbad : orphanDisk.read "bad.yaml" = .ok orphan := by decide +kernel
  have hput : ((Cache.put { dir := "cache" } (keyOf orphan) orphanRecord : StateM Disk _).run
      orphanDisk).1 = .ok () := by decide +kernel
  have hkept : ((Cache.put { dir := "cache" } (keyOf orphan) orphanRecord : StateM Disk _).run
      orphanDisk).2.read "bad.yaml" = .ok orphan := by decide +kernel
  refine .bind (Run.gives_beginSpan fun span => .bind (Run.gives_enterSpan fun around => ?_))
  refine .bind (Run.gives_events (.bind ?_))
  rw [Run.checkInOrder_cons]
  refine .bind ((Run.gives_checkFile_error hgone).mono ?_)
  rintro _ _ ⟨rfl, rfl⟩
  dsimp only
  rw [Run.checkInOrder_cons]
  refine .bind ((Run.gives_checkFile hbad hjudge).mono ?_)
  rintro _ e ⟨he, hsettled⟩
  obtain ⟨r, rfl⟩ := hsettled.exists_ok
  have hdisk : e = ((Cache.put { dir := "cache" } (keyOf orphan) orphanRecord :
      StateM Disk _).run orphanDisk).2 := by
    rw [he, ← hrecord, ← hcontent, Kept.record, Kept.content, hpath, hbytes]
    exact diskAfter_of_unknown (unused _)
  have hread : e.read "bad.yaml" = .ok orphan := by rw [hdisk, hkept]
  have hhistory : History { dir := "cache" } e [k] := by
    refine (History.start tidy unused).stored k ?_
    rw [hcontent, hrecord]
    exact Prod.ext hput hdisk.symm
  exact .bind (.pure (.pure (.bind (Run.gives_tell (.bind (Run.gives_enterSpan fun _ =>
    .pure ⟨rfl, hread, k, hhistory, hcontent, hreached, hrecord⟩))))))

/-- After that run, whoever asks the cache about the class misses its error. -/
theorem orphan_error_missed :
    Run.Gives (Run.checkFiles [] orphanOptions ["gone.yaml", "bad.yaml"]) orphanDisk fun res e =>
      res.isOk = false ∧
        Run.Gives (Run.checkFile [] orphanOptions none "bad.yaml") e fun cached _ =>
          Run.Gives (Run.checkFile [] { orphanOptions with cache := none } none "bad.yaml") e
            fun fresh _ => ∃ r s, cached = .ok r ∧ fresh = .ok s ∧ r.shown ≠ s.shown := by
  refine orphan_stored.mono ?_
  rintro res e ⟨hfails, hread, k, hhistory, hcontent, hreached, hrecord⟩
  have hsource : (sourceAt "bad.yaml" orphan).content = orphan := by decide +kernel
  have hkeys : ∀ kept ∈ [k], keyOf kept.content = keyOf (sourceAt "bad.yaml" orphan).content →
      kept.content = (sourceAt "bad.yaml" orphan).content := by
    intro kept hkept _
    rw [List.mem_singleton.mp hkept, hcontent, hsource]
  have hback : ∀ kept ∈ [k], CacheRecord.decode kept.record.encode = .ok kept.record := by
    intro kept hkept
    rw [List.mem_singleton.mp hkept, hrecord]
    decide +kernel
  have hlast : last? [k] (sourceAt "bad.yaml" orphan).content = some k := by
    simp [last?, hcontent, hsource]
  have hmissed : (distinct false (reportsOf orphan (some 0))).length ≠
      (distinct false (reportsOf orphan none)).length := by decide +kernel
  refine ⟨hfails, ?_⟩
  refine (hhistory.cached_shown_iff.2 _ _ hread hkeys hback [] orphanOptions rfl le_rfl).mono ?_
  intro cached _ hcached
  refine hcached.mono ?_
  rintro fresh _ ⟨r, s, hr, hs, hiff⟩
  refine ⟨r, s, hr, hs, fun hsame => hmissed ?_⟩
  have hreports := hiff.mp hsame k hlast
  rw [hsource, hreached] at hreports
  exact congrArg List.length hreports

end Cache

end DeclCheck

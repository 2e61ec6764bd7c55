import DeclCheck.Proofs.Run.Checking

/-!
# What is reported about a content

Where a file lies makes no difference to what is loaded from it. A check that was cut short has
reported a front part of what the whole check reports.
-/
namespace DeclCheck

namespace Manifest

variable (file : SourceFile) (path : Text) (flags : FileFlags)

theorem loadFormals_relabel (fn : Ident) (number : Nat) (formals : List FormalEntry) :
    loadFormals { file with path, flags } fn number formals = loadFormals file fn number formals := by
  induction formals generalizing number with
  | nil => rfl
  | cons f rest ih =>
    simp only [loadFormals, ih]
    rfl

theorem checkKeys_relabel (kind : EntryKind) (keys : List Yaml.Node) :
    checkKeys { file with path, flags } kind keys = checkKeys file kind keys := by
  induction keys with
  | nil => rfl
  | cons k ks ih =>
    simp only [checkKeys, ih]
    rfl

theorem checkEntryKeys_relabel (e : Entry) :
    checkEntryKeys { file with path, flags } e = checkEntryKeys file e := by
  unfold checkEntryKeys
  split
  · exact checkKeys_relabel ..
  · rfl

theorem loadFunction_relabel (e : Entry) (name : Ident) (whole : Span) (place : Place) :
    loadFunction { file with path, flags } e name whole place =
      loadFunction file e name whole place := by
  simp only [loadFunction, loadFormals_relabel]
  rfl

mutual

theorem loadEntry_relabel (place : Place) : (e : Entry) →
    loadEntry { file with path, flags } place e = loadEntry file place e
  | ⟨node, keys, var, fn, cls, iface, type, returns, body, base, implements, formals, members⟩ => by
    have hmembers := fun inner => loadEntries_relabel inner members
    simp only [loadEntry, checkEntryKeys_relabel, loadFunction_relabel, hmembers]
    rfl

theorem loadEntries_relabel (place : Place) : (es : List Entry) →
    loadEntries { file with path, flags } place es = loadEntries file place es
  | [] => rfl
  | e :: rest => by
    have hentry := loadEntry_relabel place e
    have hrest := loadEntries_relabel place rest
    simp only [loadEntries, hentry, hrest]

end

theorem loadAll_relabel (entries : List Entry) :
    loadAll { file with path, flags } entries = loadAll file entries := by
  simp only [loadAll, loadTop, loadEntries_relabel]
  rfl

end Manifest

namespace Run

theorem judge_relabel (file : SourceFile) (path : Text) (flags : FileFlags) (reached : Option Nat)
    {k : Checked} (h : judge { file with path, flags } reached = .ok (.checked k)) :
    judge file reached = .ok (.checked k) := by
  simp only [judge, Manifest.load, Manifest.loadAll_relabel] at h ⊢
  cases hdecode : Manifest.decode file.content with
  | error e =>
    rw [hdecode] at h
    cases h
  | ok entries =>
    rw [hdecode] at h
    exact h

/-- A content as a file. -/
def contentFile (content : Text) : SourceFile := { content, breaks := Lines.breaks content }

/-- Everything that is reported about a content, or about its first declarations. -/
def reportsOf (content : Text) (reached : Option Nat) : List Diagnostic :=
  match judge (contentFile content) reached with
  | .ok verdict => verdict.reports 0
  | .error _ => []

theorem judge_contentFile {path bytes : Text} {reached : Option Nat} {k : Checked} :
    judge (contentFile (sourceAt path bytes).content) reached = .ok (.checked k) ↔
      judge (sourceAt path bytes) reached = .ok (.checked k) := by
  have hfile : contentFile (sourceAt path bytes).content =
      { sourceAt path bytes with path := [], flags := 0 } := rfl
  constructor
  · rw [hfile]
    exact judge_relabel (sourceAt path bytes) [] 0 reached
  · exact fun h => judge_relabel _ _ _ reached h

/-- What is reported about a manifest depends on its content only. -/
theorem reports_eq_reportsOf {path bytes : Text} {reached : Option Nat} {k : Checked}
    (h : judge (sourceAt path bytes) reached = .ok (.checked k)) :
    Verdict.reports 0 (.checked k) = reportsOf (sourceAt path bytes).content reached := by
  rw [reportsOf, judge_contentFile.mpr h]

theorem reportsOf_front (content : Text) (reached : Option Nat) :
    reportsOf content reached <+: reportsOf content none := by
  cases reached with
  | none => exact List.prefix_refl _
  | some n =>
    unfold reportsOf
    rcases judge_cases (contentFile content) with ⟨reason, h⟩ | ⟨l, hl, h⟩
    · simp only [h, List.prefix_rfl]
    · obtain ⟨rest, hrest⟩ := Manifest.check_front hl n
      rw [h, h]
      refine ⟨rest, ?_⟩
      simp only [Verdict.reports, Array.toList_append, List.append_assoc, hrest]

theorem isRemark_of_family {d : Diagnostic} (h : d.code.family? = some (Text.ofString "SYN") ∨
    d.code.family? = some (Text.ofString "SEM")) : isRemark d = false := by
  have hcache : d.code ≠ .cacheError := by
    intro hc
    rw [hc] at h
    revert h
    decide
  have htimings : d.code ≠ .timings := by
    intro hc
    rw [hc] at h
    revert h
    decide
  simp [isRemark, hcache, htimings]

/-- The reports are about the file and not about the run. -/
theorem mem_reports {path bytes : Text} {reached : Option Nat} {verdict : Verdict}
    (h : judge (sourceAt path bytes) reached = .ok verdict) {d : Diagnostic}
    (hd : d ∈ verdict.reports 0) : d.InFile 0 ∧ isRemark d = false := by
  rcases judge_cases (sourceAt path bytes) with ⟨reason, hreason⟩ | ⟨l, hl, hchecked⟩
  · rw [hreason reached] at h
    cases h
    rw [List.mem_singleton.mp hd]
    exact ⟨Diagnostic.inFile_error rfl, rfl⟩
  · rw [hchecked reached] at h
    cases h
    obtain ⟨syntactic, conflicts, hdiags, hsyn, _, hconflicts, _⟩ := hl.reports
    obtain ⟨_, _, _, _, hjudged⟩ := Manifest.check_judged hl reached
    obtain ⟨ds, hds, _, hsem⟩ := hjudged.reports
    rw [Verdict.reports, Array.toList_append, hdiags, hds, List.mem_append, List.mem_append] at hd
    rcases hd with (hd | hd) | hd
    · obtain ⟨hfamily, hfile⟩ := hsyn d hd
      exact ⟨hfile, isRemark_of_family (.inl hfamily)⟩
    · exact ⟨(hconflicts d hd).inFile, isRemark_of_family (.inr (hconflicts d hd).family)⟩
    · have hd : d ∈ ds := by simpa using hd
      exact ⟨(hsem d hd).inFile, isRemark_of_family (.inr (hsem d hd).family)⟩

theorem diagnosticsFor_eq {record : CacheRecord} (h : ∀ d ∈ record.diagnostics, d.InFile 0) :
    record.diagnosticsFor 0 = record.diagnostics := by
  unfold CacheRecord.diagnosticsFor
  conv_rhs => rw [← List.map_id record.diagnostics]
  refine List.map_congr_left fun d hd => ?_
  obtain ⟨hprimary, hnotes⟩ := h d hd
  have hsame : (d.notes.map fun n => { n with span := { n.span with file := 0 } }) = d.notes := by
    conv_rhs => rw [← List.map_id d.notes]
    refine List.map_congr_left fun n hn => ?_
    rw [← hnotes n hn]
    rfl
  rw [hsame, ← hprimary]
  rfl

/-- What a result shows about its file: the remarks of the run about itself are left out. -/
def FileResult.shown (r : FileResult) : List Diagnostic := r.bag.items.filter (!isRemark ·)

theorem Settled.shown_eq {o : Options} {answer : CacheAnswer} {reports : List Diagnostic}
    {r : FileResult} (h : Settled o answer reports (.ok r)) (hlimit : o.limit ≤ 0)
    (hreports : ∀ d ∈ reports, isRemark d = false) :
    r.shown = Bag.sortItems (distinct o.dedup reports) := by
  obtain ⟨_, remarks, heq, hitems, hremarks⟩ := h
  cases heq
  obtain ⟨hlength, hwarnings⟩ := startBag_items o.limit answer
  have hall : (startBag o.limit 0 answer).fitting (distinct o.dedup reports) =
      distinct o.dedup reports := by
    have hzero : (startBag o.limit 0 answer).limit = 0 := by
      rw [startBag_limit]
      omega
    simp [Bag.fitting, hzero]
  have hquiet : remarks.filter (!isRemark ·) = [] := by
    rw [List.filter_eq_nil_iff]
    intro d hd
    simp [(hremarks d hd).2]
  have hkept : (Bag.sortItems (distinct o.dedup reports)).filter (!isRemark ·) =
      Bag.sortItems (distinct o.dedup reports) := by
    rw [List.filter_eq_self]
    intro d hd
    simp [hreports d (mem_of_mem_distinct ((Bag.sortItems_perm _).mem_iff.mp hd))]
  rw [FileResult.shown, hitems, List.filter_append, hquiet, List.append_nil, settle_items, hall]
  -- A warning about the cache is the only thing that can be in the bag before.
  cases hstart : (startBag o.limit 0 answer).items with
  | nil => exact hkept
  | cons w rest =>
    have hrest : rest = [] := by
      have hone : answer.warnings ≤ 1 := by cases answer <;> simp [CacheAnswer.warnings]
      rw [hstart, List.length_cons] at hlength
      exact List.length_eq_zero_iff.mp (by omega)
    have hw : (!isRemark w) = false := by
      simp [(hwarnings w (by rw [hstart]; exact List.mem_cons_self ..)).2]
    rw [hrest, List.singleton_append, Bag.sortItems_cons_filter hw]
    exact hkept

end Run

end DeclCheck

import DeclCheck.Proofs.Run.Checking

/-!
# What a limit hides

A result fails exactly if an error finds room in the bag. The places are taken in the order of the
reports, and a warning about the cache takes the first one, so warnings can keep the errors out.
-/
namespace DeclCheck

namespace Run

theorem Settled.hasErrors_iff {o : Options} {answer : CacheAnswer} {reports : List Diagnostic}
    {r : FileResult} (h : Settled o answer reports (.ok r)) :
    r.hasErrors = true ↔ ∃ (n : Nat) (e : Diagnostic),
      (distinct o.dedup reports)[n]? = some e ∧ e.isError = true ∧
        (o.limit ≤ 0 ∨ ((answer.warnings + n : Nat) : Int) < o.limit) := by
  obtain ⟨_, remarks, heq, hitems, hremarks⟩ := h
  cases heq
  obtain ⟨hlength, hwarnings⟩ := startBag_items o.limit answer
  have hlimit := startBag_limit o.limit answer
  have hroom : ∀ n : Nat, ((startBag o.limit 0 answer).limit = 0 ∨
      (startBag o.limit 0 answer).items.length + n < (startBag o.limit 0 answer).limit) ↔
        (o.limit ≤ 0 ∨ ((answer.warnings + n : Nat) : Int) < o.limit) := by
    intro n
    rw [hlimit, hlength]
    omega
  have hany : r.hasErrors =
      ((startBag o.limit 0 answer).fitting (distinct o.dedup reports)).any (·.isError) := by
    have hsettled := settle_hasErrors o.dedup (startBag o.limit 0 answer) reports
    unfold Bag.hasErrors at hsettled
    rw [FileResult.hasErrors, Bag.hasErrors, hitems, List.any_append, hsettled, List.any_append]
    have hquiet : remarks.any (·.severity.isError) = false :=
      List.any_eq_false.mpr fun d hd => by simpa [Diagnostic.isError] using (hremarks d hd).1
    have hstart : (startBag o.limit 0 answer).items.any (·.isError) = false :=
      List.any_eq_false.mpr fun d hd => by simpa using (hwarnings d hd).1
    rw [hquiet, hstart, Bool.false_or, Bool.or_false]
  rw [hany, List.any_eq_true]
  simp only [Bag.mem_fitting, hroom]
  constructor
  · rintro ⟨e, ⟨n, hn, hfits⟩, he⟩
    exact ⟨n, e, hn, he, hfits⟩
  · rintro ⟨n, e, hn, he, hfits⟩
    exact ⟨e, ⟨n, hn, hfits⟩, he⟩

/-- The check of a file that can be read fails exactly if an error stands early enough among what is
reported about it, or what the cache knows. Without a limit it fails exactly if there is an error. -/
theorem hasErrors_iff_error_fits (cwd : Text) (o : Options) (path bytes : Text) (log : Log)
    (d : Disk) (hread : d.read path = .ok bytes) :
    ∃ r verdict log' d', ((checkFile cwd o none path : RunM (StateM Disk) _).run log).run d =
        ((.ok r, log'), d') ∧
      judge (sourceAt path bytes) none = .ok verdict ∧
      (r.hasErrors = true ↔ ∃ (n : Nat) (e : Diagnostic),
        (distinct o.dedup (heard (answerFor o.cache d (sourceAt path bytes)) verdict))[n]? = some e ∧
          e.isError = true ∧ (o.limit ≤ 0 ∨
            (((answerFor o.cache d (sourceAt path bytes)).warnings + n : Nat) : Int) < o.limit)) ∧
      (o.limit ≤ 0 → (r.hasErrors = true ↔
        ∃ e ∈ heard (answerFor o.cache d (sourceAt path bytes)) verdict, e.isError = true)) := by
  obtain ⟨verdict, hjudge⟩ := judge_ok (sourceAt path bytes) none
  have hgives : Gives (checkFile cwd o none path) d _ := gives_checkFile hread hjudge
  obtain ⟨_, hsettled⟩ := hgives log
  obtain ⟨r, hr⟩ := hsettled.exists_ok
  rw [hr] at hsettled
  have hiff := hsettled.hasErrors_iff
  refine ⟨r, verdict, _, _, Prod.ext (Prod.ext hr rfl) rfl, hjudge, hiff, fun hlimit => ?_⟩
  rw [hiff, ← exists_error_distinct o.dedup]
  constructor
  · rintro ⟨n, e, hn, he, _⟩
    exact ⟨e, List.mem_of_getElem? hn, he⟩
  · rintro ⟨e, hmem, he⟩
    obtain ⟨n, hn⟩ := List.mem_iff_getElem?.mp hmem
    exact ⟨n, e, hn, he, .inl hlimit⟩

/-- A manifest with a warning before its error. -/
def crowdedManifest : Text :=
  "decls:\n  - var: x\n    type: int\n    body: true\n  - var: y\n    type: Nope\n"

theorem crowdedManifest_error_hidden : ∃ r verdict log d,
    ((checkFile [] { limit := 1 } none "a.yaml" : RunM (StateM Disk) _).run {}).run
      { nodes := [([Text.ofString "a.yaml"], .file crowdedManifest)] } = ((.ok r, log), d) ∧
    judge (sourceAt "a.yaml" crowdedManifest) none = .ok verdict ∧
    (∃ e ∈ verdict.reports 0, e.isError = true) ∧ r.hasErrors = false := by
  have hread : Disk.read { nodes := [([Text.ofString "a.yaml"], .file crowdedManifest)] } "a.yaml" =
      .ok crowdedManifest := by decide +kernel
  obtain ⟨r, verdict, log, d, hrun, hjudge, hiff, _⟩ :=
    hasErrors_iff_error_fits [] { limit := 1 } "a.yaml" crowdedManifest {} _ hread
  have hreports : (judge (sourceAt "a.yaml" crowdedManifest) none).toOption.map
      (fun v => (v.reports 0).map (·.isError)) = some [false, true] := by decide +kernel
  rw [hjudge] at hreports
  have hflags : (verdict.reports 0).map (·.isError) = [false, true] := Option.some.inj hreports
  refine ⟨r, verdict, log, d, hrun, hjudge, ?_, ?_⟩
  · have hmem : true ∈ (verdict.reports 0).map (·.isError) := by rw [hflags]; decide
    simpa using hmem
  · rw [Bool.eq_false_iff]
    intro hfails
    obtain ⟨n, e, hn, he, hfits⟩ := hiff.mp hfails
    -- Only the first report finds room, and it is a warning.
    have hzero : n = 0 := by
      rcases hfits with h | h
      · cases h
      · have hn : ((n : Nat) : Int) < 1 := by simpa [answerFor, CacheAnswer.warnings] using h
        omega
    subst hzero
    have hfirst : ((verdict.reports 0).map (·.isError))[0]? = some e.isError := by
      rw [List.getElem?_map]
      exact congrArg _ hn
    rw [hflags, he] at hfirst
    cases hfirst

end Run

end DeclCheck

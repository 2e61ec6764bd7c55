import DeclCheck.Proofs.Check.Declarations
import DeclCheck.Proofs.Manifest.Loading

/-!
# Checking what was loaded

A file that was loaded is checked against the names of its own top level. The check comes to its end, and
what is reported is known: problems of syntax while loading, names of the top level that are taken, and
then what breaks the rules of the declarations that the check reaches.
-/
namespace DeclCheck

namespace Globals

/-- The names stand for the first of some declarations. -/
theorem lookup?_declare {t : Tree} {g : Globals} {ids : List DeclId} (hg : g.lookup? = t.first? ids)
    (id : DeclId) :
    ({ entries := g.entries ++ [{ name := t.nameIdOf id, decl := id }] } : Globals).lookup? =
      t.first? (ids ++ [id]) := by
  funext n
  unfold lookup?
  rw [List.find?_append, Option.map_or, Tree.first?_append]
  refine congrArg₂ Option.or (congrFun hg n) ?_
  by_cases hn : t.nameIdOf id = n
  · simp [Tree.first?, hn]
  · rw [Tree.first?, List.find?_cons_of_neg (by simpa using hn),
      List.find?_cons_of_neg (by simpa using hn)]
    rfl

theorem declare_of_none {g : Globals} {name : NameId} (h : g.lookup? name = none) (id : DeclId) :
    g.declare name id = ({ entries := g.entries ++ [{ name, decl := id }] }, .ok ()) := by
  rw [declare, h]

theorem declare_of_some {g : Globals} {name : NameId} {prev : DeclId}
    (h : g.lookup? name = some prev) (id : DeclId) : g.declare name id = (g, .error prev) := by
  rw [declare, h]

/-- The first declaration of a name gets it; each further one is reported. -/
theorem collectFrom_spec {t : Tree} {f : FileId} (ht : t.InFile f) {ids pre : List DeclId}
    {g : Globals} (ds : Array Diagnostic) (hg : g.lookup? = t.first? pre)
    (hpre : ∀ id ∈ pre, (t.decl? id).isSome) (hids : ∀ id ∈ ids, (t.decl? id).isSome) :
    (collectFrom t ids g ds).1.lookup? = t.first? (pre ++ ids) ∧
    ∃ es : List Diagnostic, (collectFrom t ids g ds).2.1.toList = ds.toList ++ es ∧
      (es = [] ↔ (∀ id ∈ ids, t.first? pre (t.nameIdOf id) = none) ∧ t.Distinct ids) ∧
      ∀ e ∈ es, e.IsSemantic f := by
  induction ids generalizing pre g ds with
  | nil =>
    rw [List.append_nil]
    exact ⟨hg, [], by simp [collectFrom], by simp [Tree.Distinct], by simp⟩
  | cons id ids ih =>
    obtain ⟨d, hd⟩ := Option.isSome_iff_exists.mp (hids id (List.mem_cons_self ..))
    have hrest : ∀ i ∈ ids, (t.decl? i).isSome := fun i hi => hids i (List.mem_cons_of_mem _ hi)
    have hname := Tree.nameIdOf_eq hd
    have hlookup : g.lookup? d.name.name = t.first? pre (t.nameIdOf id) := by rw [hg, hname]
    rw [collectFrom, hd]
    dsimp only
    cases hfirst : t.first? pre (t.nameIdOf id) with
    | none =>
      rw [declare_of_none (hlookup.trans hfirst), ← hname]
      have hpre' : ∀ i ∈ pre ++ [id], (t.decl? i).isSome := by
        intro i hi
        rcases List.mem_append.mp hi with hi | hi
        · exact hpre i hi
        · rw [List.mem_singleton.mp hi, hd]
          rfl
      obtain ⟨hlook, es, hes, hiff, hsem⟩ := ih ds (lookup?_declare hg id) hpre' hrest
      refine ⟨by simpa using hlook, es, hes, hiff.trans ?_, hsem⟩
      simp only [Tree.first?_append, Option.or_eq_none_iff, Tree.distinct_cons,
        List.forall_mem_cons, hfirst, true_and, forall_and]
      tauto
    | some prev =>
      rw [declare_of_some (hlookup.trans hfirst)]
      obtain ⟨hprev, _⟩ := Tree.first?_eq_some hfirst
      obtain ⟨old, hold⟩ := Option.isSome_iff_exists.mp (hpre prev hprev)
      have hsame : t.first? (pre ++ id :: ids) = t.first? (pre ++ ids) := by
        funext n
        rw [Tree.first?_append, Tree.first?_append]
        by_cases hn : t.nameIdOf id = n
        · rw [← hn, hfirst]
          rfl
        · rw [Tree.first?, Tree.first?, Tree.first?, List.find?_cons_of_neg (by simpa using hn)]
      dsimp only
      rw [hold, hsame]
      dsimp only
      generalize hproblem : Diagnostic.withNote _ _ _ = problem
      have hproblem : problem.IsSemantic f := by
        subst hproblem
        exact AnalysisM.isSemantic_withNote
          (AnalysisM.isSemantic_error rfl (ht.decls id d hd).1) (ht.decls prev old hold).1 _
      obtain ⟨hlook, es, hes, _, hsem⟩ := ih (ds.push problem) hg hpre hrest
      refine ⟨hlook, problem :: es, by simp [hes], ?_, ?_⟩
      · simp [hfirst]
      · simpa using ⟨hproblem, hsem⟩

end Globals

namespace Manifest

/-- What is known of a loaded file. -/
structure Loaded.Sound (file : SourceFile) (l : Loaded) : Prop where
  program : Program.Sound file.id ⟨l.tree, l.globals⟩
  top : ∃ span, l.tree.unit? l.unit = some ⟨span, l.tree.loose⟩
  globals : l.globals.lookup? = l.tree.first? l.tree.loose
  reports : ∃ syntactic conflicts : List Diagnostic,
    l.diagnostics.toList = syntactic ++ conflicts ∧
    (∀ d ∈ syntactic, d.code.family? = some (Text.ofString "SYN") ∧ d.InFile file.id) ∧
    (conflicts = [] ↔ l.tree.Distinct l.tree.loose) ∧ (∀ d ∈ conflicts, d.IsSemantic file.id) ∧
    ∀ (id : Nat) (prim : Primitive) (span : Span), l.tree.type? id = some (.primitive prim span) →
      prim ∉ Primitive.keywords → ∃ d ∈ syntactic, d.isError = true

theorem loadAll_sound (file : SourceFile) (entries : List Entry) :
    ∃ l, loadAll file entries = .ok l ∧ l.Sound file := by
  obtain ⟨s, hs, hunit, hload⟩ := loadAll_ok file entries
  have hloose : ∀ id ∈ s.tree.loose, (s.tree.decl? id).isSome := by
    intro id hid
    obtain ⟨d, hd, _⟩ := Tree.parent?_eq_some.mp (Tree.mem_loose.mp hid)
    exact Option.isSome_iff_exists.mpr ⟨d, hd⟩
  have hempty : ({} : Globals).lookup? = s.tree.first? [] := rfl
  obtain ⟨hlook, conflicts, hds, hiff, hsem⟩ := Globals.collectFrom_spec hs.inFile #[] hempty
    (by simp) hloose
  rw [List.nil_append] at hlook
  refine ⟨_, hload, ⟨hs.built, hs.inFile, ?_⟩, ⟨_, hunit⟩, hlook, s.diagnostics.toList, conflicts,
    ?_, ?_, ?_, hsem, ?_⟩
  · intro n id h
    rw [congrFun hlook] at h
    exact Tree.first?_eq_some h
  · simpa using hds
  · intro d hd
    exact hs.syntactic d (by simpa using hd)
  · rw [hiff]
    simp [Tree.first?]
  · intro id prim span h hprim
    obtain ⟨d, hd, herr⟩ := hs.errorType id prim span h hprim
    exact ⟨d, by simpa using hd, herr⟩

/-- The check of a loaded file comes to its end. -/
theorem check_judged {file : SourceFile} {l : Loaded} (hl : l.Sound file) (reached : Option Nat) :
    (check l.tree l.unit (some l.globals) reached).fault = none ∧
    ∃ top, l.tree.unit? l.unit = some top ∧ top.decls = l.tree.loose ∧
    Judged ⟨l.tree, l.globals⟩ file.id { table := .ofTree l.tree }
      (∀ id ∈ AnalysisM.reachedDecls top reached, ∀ d, l.tree.decl? id = some d →
        Program.Rule ⟨l.tree, l.globals⟩ id d.subject)
      (Program.filledBy ⟨l.tree, l.globals⟩ ((AnalysisM.reachedDecls top reached).flatMap
        (Program.touched ⟨l.tree, l.globals⟩)) (Program.blank ⟨l.tree, l.globals⟩))
      (check l.tree l.unit (some l.globals) reached).analysis := by
  obtain ⟨span, hunit⟩ := hl.top
  obtain ⟨_, b, hrun, hb⟩ := (AnalysisM.analyzeAll_judged hl.program
    ⟨span, l.tree.loose⟩ rfl reached).run_eq
  have hcheck : check l.tree l.unit (some l.globals) reached =
      { globals := l.globals, analysis := b } := by
    simp only [check, checkWith, hunit, hrun]
  rw [hcheck]
  exact ⟨rfl, _, hunit, rfl, hb⟩

/-- A check that is cut short reports a front part of what the whole check reports. -/
theorem check_front {file : SourceFile} {l : Loaded} (hl : l.Sound file) (n : Nat) :
    (check l.tree l.unit (some l.globals) (some n)).analysis.diagnostics.toList <+:
      (check l.tree l.unit (some l.globals) none).analysis.diagnostics.toList := by
  obtain ⟨span, hunit⟩ := hl.top
  obtain ⟨_, b, hcut, hrest⟩ := (AnalysisM.analyzeAll_front hl.program
    ⟨span, l.tree.loose⟩ rfl n).run_eq
  obtain ⟨_, c, hwhole, hfront⟩ := hrest.run_eq
  simp only [check, checkWith, hunit, hcut, hwhole]
  exact hfront

end Manifest

end DeclCheck

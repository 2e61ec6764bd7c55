import DeclCheck.Proofs.Check.InStep
import DeclCheck.Proofs.Check.Subtyping

/-!
# The order of declarations does not matter

Declarations with different names may stand in any order. What is reported about a declaration depends on
the declaration and on what names stand for, and each declaration fills scopes of its own, so in another order
the same reports come in another order, and all scopes are the same.
-/
namespace DeclCheck

namespace Tree

/-- The tree with the declarations of a unit in another order. -/
def reorder (t : Tree) (unit : UnitId) (decls : List DeclId) : Tree :=
  { t with units := t.units.modify (unit - 1) fun u => { u with decls } }

variable {t : Tree}

theorem unit?_reorder {unit : UnitId} {top : TopLevel} (h : t.unit? unit = some top)
    (decls : List DeclId) : (t.reorder unit decls).unit? unit = some { top with decls } := by
  have hpos := (numbered?_eq_some h).1
  have hmodify := numbered?_modify t.units (fun u => { u with decls }) hpos unit
  rw [if_pos rfl, show numbered? t.units unit = some top from h] at hmodify
  exact hmodify

theorem nameIdOf_congr {u : Tree} (h : u.decls = t.decls) : u.nameIdOf = t.nameIdOf := by
  funext id
  simp only [nameIdOf, decl?, h]

theorem InFile.congr {u : Tree} {f : FileId} (h : t.InFile f) (hd : u.decls = t.decls)
    (ht : u.types = t.types) : u.InFile f := by
  obtain ⟨_, _, _, _, _⟩ := t
  obtain ⟨_, _, _, _, _⟩ := u
  subst hd ht
  exact ⟨h.decls, h.types⟩

theorem Distinct.perm {xs ys : List DeclId} (hd : t.Distinct xs) (h : ys.Perm xs) : t.Distinct ys :=
  (h.map t.nameIdOf).nodup_iff.mpr hd

/-- Which declaration of a name is the first does not depend on the order, if there is but one. -/
theorem Distinct.first?_perm {xs ys : List DeclId} (hd : t.Distinct xs) (h : ys.Perm xs) :
    t.first? ys = t.first? xs := by
  funext n
  cases hfirst : t.first? xs n with
  | none =>
    rw [first?_eq_none] at hfirst ⊢
    exact fun id hid => hfirst id (h.mem_iff.mp hid)
  | some e =>
    obtain ⟨he, rfl⟩ := first?_eq_some hfirst
    exact first?_of_distinct (hd.perm h) (h.mem_iff.mpr he)

end Tree

/-- Names of declarations that are there are collected to the end. -/
theorem Globals.collectFrom_ok {t : Tree} {ids : List DeclId} {g : Globals} (ds : Array Diagnostic)
    (hg : ∀ n prev, g.lookup? n = some prev → (t.decl? prev).isSome)
    (hids : ∀ id ∈ ids, (t.decl? id).isSome) : (collectFrom t ids g ds).2.2 = .ok () := by
  induction ids generalizing g ds with
  | nil => rfl
  | cons id ids ih =>
    obtain ⟨d, hd⟩ := Option.isSome_iff_exists.mp (hids id (List.mem_cons_self ..))
    have hrest : ∀ i ∈ ids, (t.decl? i).isSome := fun i hi => hids i (List.mem_cons_of_mem _ hi)
    rw [collectFrom, hd]
    dsimp only
    cases hlookup : g.lookup? d.name.name with
    | none =>
      rw [declare_of_none hlookup]
      refine ih ds (fun n prev hprev => ?_) hrest
      unfold lookup? at hprev
      rw [List.find?_append, Option.map_or, Option.or_eq_some_iff] at hprev
      rcases hprev with hprev | ⟨_, hprev⟩
      · exact hg n prev hprev
      · obtain ⟨b, hb, rfl⟩ := Option.map_eq_some_iff.mp hprev
        rw [List.mem_singleton.mp (List.mem_of_find?_eq_some hb), hd]
        rfl
    | some prev =>
      rw [declare_of_some hlookup]
      obtain ⟨old, hold⟩ := Option.isSome_iff_exists.mp (hg _ prev hlookup)
      dsimp only
      rw [hold]
      exact ih _ hg hrest

/-- Names that are collected from the start stand for the first declarations that have them. -/
theorem Globals.exists_collected {t : Tree} {f : FileId} (ht : t.InFile f) {ids : List DeclId}
    (hids : ∀ id ∈ ids, (t.decl? id).isSome) : ∃ g ds, collectFrom t ids {} #[] = (g, ds, .ok ()) ∧
      g.lookup? = t.first? ids ∧ (ds = #[] ↔ t.Distinct ids) := by
  have hempty : ({} : Globals).lookup? = t.first? [] := rfl
  obtain ⟨hlook, es, hes, hnone, _⟩ := collectFrom_spec ht #[] hempty (by simp) hids
  have hok := collectFrom_ok (g := {}) #[] (fun _ _ h => by cases h) hids
  rcases hfrom : collectFrom t ids {} #[] with ⟨g, ds, r⟩
  rw [hfrom] at hlook hes hok
  obtain rfl : r = .ok () := hok
  refine ⟨g, ds, rfl, hlook, ?_⟩
  rw [← Array.toList_inj, hes]
  exact hnone.trans (and_iff_right fun _ _ => rfl)

namespace Program

variable {p : Program}

/-- What the analysis of a declaration reports, if it is the first one. -/
def reportsAbout (p : Program) (id : DeclId) : List Diagnostic :=
  ((AnalysisM.analyze p id).run.run { table := .ofTree p.tree }).2.diagnostics.toList

theorem filledBy_congr {xs ys : List DeclId} (h : ∀ j, j ∈ xs ↔ j ∈ ys) (v : Scoping) :
    p.filledBy xs v = p.filledBy ys v := by
  funext j
  simp only [filledBy, h]

/-- Programs that an analysis cannot tell apart have the same reports. -/
theorem Twin.reportsAbout {q : Program} (h : p.Twin q) (hb : p.tree.Built 0) {id : DeclId} {d : Decl}
    (hd : p.tree.decl? id = some d) : q.reportsAbout id = p.reportsAbout id := by
  have halike : AnalysisM.Alike p q (fun _ => True) { table := .ofTree p.tree }
      { table := .ofTree q.tree } :=
    ⟨.initial _, .initial _, fun j _ => (congrFun h.blank j).symm⟩
  obtain ⟨ds, hp, hq⟩ := (AnalysisM.inStep_analyze h hb hd (fun _ _ => trivial) _ _ halike).reports
  exact hq.trans hp.symm

end Program

namespace AnalysisM

variable {p : Program} {f : FileId} (hp : p.Sound f)
include hp

/-- What is reported about a declaration does not depend on what was analyzed before. -/
theorem analyze_reports {id : DeclId} {d : Decl} (hd : p.tree.decl? id = some d) {a : Analysis}
    (ha : a.Sound p.tree) (hv : ∀ j ∈ p.touched id, a.view j = p.blank j) :
    Ends (analyze p id) a fun _ b =>
      b.diagnostics.toList = a.diagnostics.toList ++ p.reportsAbout id := by
  obtain ⟨_, b, hrun, _⟩ := (analyze_judged hp hd ha hv).run_eq
  rw [ends_of_run hrun]
  have halike : Alike p p (· ∈ p.touched id) a { table := .ofTree p.tree } := ⟨ha, .initial _, hv⟩
  obtain ⟨ds, hds, hfirst⟩ :=
    (inStep_analyze (.refl p) hp.built hd (fun _ hj => hj) _ _ halike).reports
  rw [hrun] at hds
  have hreports : p.reportsAbout id = ds := hfirst
  rw [hreports]
  exact hds

theorem forIn_reports {ids : List DeclId} (hids : ∀ id ∈ ids, id ∈ p.tree.loose)
    (hn : (ids.flatMap p.touched).Nodup) {a : Analysis} (ha : a.Sound p.tree)
    (hv : ∀ j ∈ ids.flatMap p.touched, a.view j = p.blank j) :
    Ends (forIn ids PUnit.unit fun id _ => do
      analyze p id
      pure (ForInStep.yield PUnit.unit)) a fun _ b =>
      b.diagnostics.toList = a.diagnostics.toList ++ ids.flatMap p.reportsAbout := by
  induction ids generalizing a with
  | nil => exact (List.append_nil _).symm
  | cons id ids ih =>
    rw [List.flatMap_cons] at hn hv
    obtain ⟨_, hnrest, hdisjoint⟩ := List.nodup_append.mp hn
    obtain ⟨d, hd, _⟩ := Tree.parent?_eq_some.mp (Tree.mem_loose.mp (hids id (List.mem_cons_self ..)))
    have hown : ∀ j ∈ p.touched id, a.view j = p.blank j := fun j hj =>
      hv j (List.mem_append_left _ hj)
    obtain ⟨_, b, hrun, hb⟩ := (analyze_judged hp hd ha hown).run_eq
    have hreports := (ends_of_run hrun).mp (analyze_reports hp hd ha hown)
    have hrest : ∀ j ∈ ids.flatMap p.touched, b.view j = p.blank j := by
      intro j hj
      have hnot : j ∉ p.touched id := fun h => hdisjoint j h j hj rfl
      rw [hb.table, Program.filledBy, if_neg hnot]
      exact hv j (List.mem_append_right _ hj)
    rw [ends_forIn_cons, ends_bind, ends_of_run hrun]
    refine (ih (fun i hi => hids i (List.mem_cons_of_mem _ hi)) hnrest hb.sound hrest).mono
      fun _ c hc => ?_
    rw [hc, hreports, List.flatMap_cons, List.append_assoc]

/-- The whole analysis of the top level, in any order. -/
theorem analyzeAll_reports {top : TopLevel} (htop : top.decls.Perm p.tree.loose) :
    Ends (analyzeAll p top none) { table := .ofTree p.tree } fun _ b =>
      b.view = p.filledBy (p.tree.loose.flatMap p.touched) p.blank ∧
      b.diagnostics.toList = top.decls.flatMap p.reportsAbout := by
  have hn : (top.decls.flatMap p.touched).Nodup :=
    (htop.flatMap_right p.touched).nodup_iff.mpr (loose_touched_nodup hp)
  have hids : ∀ id ∈ top.decls, id ∈ p.tree.loose := fun id hid => htop.mem_iff.mp hid
  rw [analyzeAll_eq]
  simp only [reachedDecls, ends_inSpan, ends_bind]
  have hb : (({ table := .ofTree p.tree } : Analysis).inside .pass "sema").Sound p.tree :=
    (Analysis.Sound.initial p.tree).inside _ _
  have hview : (({ table := .ofTree p.tree } : Analysis).inside .pass "sema").view = p.blank := rfl
  have hempty : (({ table := .ofTree p.tree } : Analysis).inside .pass "sema").diagnostics.toList = [] := rfl
  generalize ({ table := .ofTree p.tree } : Analysis).inside .pass "sema" = b at hb hview hempty ⊢
  have hblank : ∀ j ∈ top.decls.flatMap p.touched, b.view j = p.blank j := fun j _ => congrFun hview j
  have hfilled : Ends (forIn top.decls PUnit.unit fun id _ => do
      analyze p id
      pure (ForInStep.yield PUnit.unit)) b fun _ c =>
      Judged p f b (∀ id ∈ top.decls, ∀ d, p.tree.decl? id = some d → p.Rule id d.subject)
        (p.filledBy (top.decls.flatMap p.touched) b.view) c :=
    forIn_filled _ p.touched (fun id hid a ha hv => analyze_root hp (hids id hid) ha hv) hn
      hb hblank
  obtain ⟨_, c, hrun, hc⟩ := hfilled.run_eq
  have hreports := (ends_of_run hrun).mp (forIn_reports hp hids hn hb hblank)
  rw [ends_of_run hrun]
  refine ⟨?_, ?_⟩
  · refine hc.table.trans ?_
    rw [hview]
    exact Program.filledBy_congr (fun j => (htop.flatMap_right p.touched).mem_iff) _
  · exact hreports.trans (by rw [hempty, List.nil_append])

end AnalysisM

namespace Manifest

/-- A check that collects its names first, for the top level in any order. -/
theorem check_of_perm {file : SourceFile} {l : Loaded} (hl : l.Sound file)
    (hd : l.tree.Distinct l.tree.loose) {u : Tree} (hdecls : u.decls = l.tree.decls)
    (htypes : u.types = l.tree.types) (hnames : u.names = l.tree.names) {span : Span}
    {decls : List DeclId} (hunit : u.unit? l.unit = some ⟨span, decls⟩)
    (hperm : decls.Perm l.tree.loose) :
    (check u l.unit none none).fault = none ∧
    (check u l.unit none none).analysis.view =
      Program.filledBy ⟨l.tree, l.globals⟩
        (l.tree.loose.flatMap (Program.touched ⟨l.tree, l.globals⟩))
        (Program.blank ⟨l.tree, l.globals⟩) ∧
    (check u l.unit none none).analysis.diagnostics.toList =
      decls.flatMap (Program.reportsAbout ⟨l.tree, l.globals⟩) := by
  have hnameIds : u.nameIdOf = l.tree.nameIdOf := Tree.nameIdOf_congr hdecls
  have hlooseEq : u.loose = l.tree.loose := Tree.loose_congr hdecls
  have hinFile : u.InFile file.id := hl.program.inFile.congr hdecls htypes
  have hids : ∀ id ∈ decls, ∃ d, l.tree.decl? id = some d := by
    intro id hid
    obtain ⟨d, hd, _⟩ := Tree.parent?_eq_some.mp (Tree.mem_loose.mp (hperm.mem_iff.mp hid))
    exact ⟨d, hd⟩
  have hsome : ∀ id ∈ decls, (u.decl? id).isSome := by
    intro id hid
    obtain ⟨d, hd⟩ := hids id hid
    simp only [Tree.decl?, hdecls] at hd ⊢
    rw [hd]
    rfl
  -- All names are free, and they stand for the same declarations as before.
  have hfirst : u.first? decls = l.tree.first? l.tree.loose := by
    rw [← hd.first?_perm hperm]
    funext n
    simp only [Tree.first?, hnameIds]
  have hdistinct : u.Distinct decls := by
    rw [Tree.Distinct, hnameIds]
    exact hd.perm hperm
  obtain ⟨g, ds, hfrom, hlook, hnone⟩ := Globals.exists_collected hinFile hsome
  obtain rfl : ds = #[] := hnone.mpr hdistinct
  have hcollect : Globals.collect u l.unit = (g, #[], .ok ()) := by
    simp only [Globals.collect, hunit, hfrom]
  have htwin : Program.Twin ⟨l.tree, l.globals⟩ ⟨u, g⟩ :=
    ⟨hdecls, htypes, hnames, hlook.trans (hfirst.trans hl.globals.symm)⟩
  have hsound : Program.Sound file.id ⟨u, g⟩ := by
    refine ⟨hl.program.built.congr hdecls htypes, hinFile, fun n id h => ?_⟩
    rw [htwin.lookup] at h
    rw [htwin.nameIdOf, hlooseEq]
    exact hl.program.globals n id h
  have htop : (TopLevel.mk span decls).decls.Perm u.loose := hlooseEq ▸ hperm
  obtain ⟨_, b, hrun, hview, hreports⟩ := (AnalysisM.analyzeAll_reports hsound htop).run_eq
  have hcheck : check u l.unit none none = { globals := g, analysis := b } := by
    simp only [check, hcollect, checkWith, hunit, hrun]
  rw [hcheck]
  refine ⟨rfl, hview.trans ?_, hreports.trans ?_⟩
  · rw [htwin.filledBy, htwin.blank, hlooseEq, funext htwin.touched]
  · refine List.flatMap_congr fun id hid => ?_
    obtain ⟨d, hd⟩ := hids id hid
    exact htwin.reportsAbout hl.program.built hd

/-- If the names of the top level differ, its order does not matter: in any order the scopes are the same,
and the same problems are reported. -/
theorem check_order_irrelevant (file : SourceFile) (entries : List Entry) :
    ∃ l top, loadAll file entries = .ok l ∧ l.tree.unit? l.unit = some top ∧
      (l.tree.Distinct top.decls → ∀ decls : List DeclId, decls.Perm top.decls →
        ∃ r s, check l.tree l.unit none none = r ∧
          check (l.tree.reorder l.unit decls) l.unit none none = s ∧
          r.fault = none ∧ s.fault = none ∧
          (∀ id, s.analysis.table.scopeOf? id = r.analysis.table.scopeOf? id) ∧
          s.analysis.diagnostics.toList.Perm r.analysis.diagnostics.toList) := by
  obtain ⟨l, hload, hl⟩ := loadAll_sound file entries
  obtain ⟨span, hunit⟩ := hl.top
  refine ⟨l, _, hload, hunit, fun hd decls hperm => ⟨_, _, rfl, rfl, ?_⟩⟩
  obtain ⟨hend, hview, hreports⟩ := check_of_perm hl hd rfl rfl rfl hunit (.refl _)
  obtain ⟨hend', hview', hreports'⟩ :=
    check_of_perm hl hd (u := l.tree.reorder l.unit decls) rfl rfl rfl
      (Tree.unit?_reorder hunit decls) hperm
  refine ⟨hend, hend', fun id => congrFun (hview'.trans hview.symm) id, ?_⟩
  rw [hreports, hreports']
  exact hperm.flatMap_right _

/-- A class overrides a method of a class declared after it with another result, and the type of a
variable is not declared. -/
def clashEntries : List Entry :=
  let word (s : String) : Yaml.Node := .scalar (.on 1 1) [] .plain (Text.ofString s)
  let total (result : String) : Entry :=
    { node := word "total", fn := some (word "total"), returns := some (word result),
      body := some (word "true") }
  [{ node := word "Order", cls := some (word "Order"), base := some (word "Record"),
      members := [total "int"] },
    { node := word "Record", cls := some (word "Record"), members := [total "string"] },
    { node := word "last", var := some (word "last"), type := some (word "Receipt") }]

theorem clash_order_irrelevant : ∃ l top r s, loadAll {} clashEntries = .ok l ∧
    l.tree.unit? l.unit = some top ∧ l.tree.Distinct top.decls ∧ top.decls.reverse ≠ top.decls ∧
    check l.tree l.unit none none = r ∧
    check (l.tree.reorder l.unit top.decls.reverse) l.unit none none = s ∧
    r.analysis.diagnostics.size = 2 ∧ s.analysis.diagnostics.toList ≠ r.analysis.diagnostics.toList ∧
    s.analysis.diagnostics.toList.Perm r.analysis.diagnostics.toList := by
  obtain ⟨l, top, hload, hunit, h⟩ := check_order_irrelevant {} clashEntries
  have hfacts : (loadAll {} clashEntries).toOption.all (fun x =>
      (x.tree.unit? x.unit).all fun u => decide
        ((u.decls.map x.tree.nameIdOf).Nodup ∧ u.decls.reverse ≠ u.decls ∧
        (check x.tree x.unit none none).analysis.diagnostics.size = 2 ∧
        (check (x.tree.reorder x.unit u.decls.reverse) x.unit none none).analysis.diagnostics.toList.map
          (·.code) ≠ (check x.tree x.unit none none).analysis.diagnostics.toList.map (·.code))) = true := by
    decide +kernel
  rw [hload] at hfacts
  change (l.tree.unit? l.unit).all _ = true at hfacts
  rw [hunit] at hfacts
  obtain ⟨hdistinct, hmoved, hsize, hcodes⟩ := of_decide_eq_true hfacts
  obtain ⟨r, s, rfl, rfl, _, _, _, hperm⟩ := h hdistinct _ top.decls.reverse_perm
  exact ⟨l, top, _, _, hload, hunit, hdistinct, hmoved, rfl, rfl, hsize,
    fun h => hcodes (congrArg _ h), hperm⟩

end Manifest

end DeclCheck

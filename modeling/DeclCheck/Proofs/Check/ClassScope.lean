import DeclCheck.Proofs.Check.Population
import DeclCheck.Proofs.Check.Subtyping
import DeclCheck.Proofs.Scope.Tables

/-!
# What the scope of a class binds

The scope of a class that was analyzed lists the class itself, its members, and the members of the classes that
it extends, from the nearest on; of several declarations with one name it keeps the first. It does so in every
loaded file, whatever is wrong with it.
-/
namespace DeclCheck

def Tree.bindingOf (t : Tree) (id : DeclId) : Binding := { name := t.nameIdOf id, decl := id }

namespace Scope

variable {t : Tree}

/-- A scope keeps its bindings, and of what is entered the first of each name that it does not have. -/
theorem Indexed.entries_enterAll {s : Scope} (h : s.Indexed) (ids : List DeclId) :
    (s.enterAll t ids).entries = Binding.firsts (s.entries ++ ids.map t.bindingOf) := by
  induction ids generalizing s with
  | nil => rw [List.map_nil, List.append_nil, Binding.firsts_eq_self h.names]; rfl
  | cons id ids ih =>
    have hstep : s.enterAll t (id :: ids) = (s.enter (t.nameIdOf id) id).enterAll t ids := rfl
    rw [hstep, ih (h.enter (t.nameIdOf id) id), h.entries_enter, Binding.firsts_firsts_append, List.append_assoc]
    rfl

end Scope

namespace Program

variable {p : Program}

/-- A scope binds the first of each name among a class, its members and those of the classes it extends. -/
structure BindsNearest (p : Program) (cls : DeclId) (chain : List DeclId) (s : Scope) : Prop where
  extended : p.ExtendsChain cls chain
  entries : s.entries = Binding.firsts ((cls :: chain.flatMap p.tree.children).map p.tree.bindingOf)
  nearest : ∀ name, s.lookup? name = p.tree.first? (cls :: chain.flatMap p.tree.children) name

theorem bindsNearest_fill {cls : DeclId} {c : ClassDecl} {s : Scope} (hc : p.tree.class? cls = some c)
    (hs : s.Blank) : p.BindsNearest cls (cls :: (p.bases cls c).1) (p.fill cls s) := by
  refine ⟨(bases_chain hc).1, ?_, fun name => ?_⟩
  · rw [fill, hs.filled.indexed.entries_enterAll, visible_eq hc, hs.filled.entries]
    rfl
  · have hholds := (Scope.Holds.nil hs.filled).enterAll (t := p.tree) (p.visible cls)
    rw [visible_eq hc] at hholds
    rw [fill, visible_eq hc]
    exact congrFun hholds name

/-- Classes stand on the top level, so their scopes are filled when it comes to them. -/
theorem mem_touched_class_iff (hb : p.tree.Built 0) (ids : List DeclId) {cls : DeclId} {c : ClassDecl}
    (hc : p.tree.class? cls = some c) : cls ∈ ids.flatMap p.touched ↔ cls ∈ ids := by
  simp only [List.mem_flatMap, mem_touched_iff]
  constructor
  · rintro ⟨x, hx, rfl | ⟨k, hk, hmem⟩⟩
    · exact hx
    · -- A class that is a member would have a parent.
      obtain ⟨d, hd, hsub⟩ := Tree.subject_of_class? hc
      have hloose := hb.mem_loose_of_namesType hd (by rw [Decl.kind, hsub]; rfl)
      have hparent := (hb.child x cls (Tree.children_of_class? hk ▸ hmem)).2
      obtain rfl : 0 = x := Option.some.inj ((Tree.mem_loose.mp hloose).symm.trans hparent)
      cases hk
  · exact fun h => ⟨cls, h, .inl rfl⟩

end Program

theorem checkWith_classes {tree : Tree} {unit : UnitId} {g : Globals} {f : FileId} {top : TopLevel}
    (hp : Program.Sound f ⟨tree, g⟩) (hunit : tree.unit? unit = some top) (htop : top.decls = tree.loose)
    (ds : Array Diagnostic) (reached : Option Nat) :
    ∃ b, checkWith tree unit g ds reached = { globals := g, analysis := b } ∧
      ∀ cls c, tree.class? cls = some c → ∃ s, b.table.scopeOf? cls = some s ∧
        (s.filled = true ↔ cls ∈ AnalysisM.reachedDecls top reached) ∧
        (s.filled = true → ∃ chain, Program.BindsNearest ⟨tree, g⟩ cls chain s) := by
  obtain ⟨_, b, hrun, hb⟩ := (AnalysisM.analyzeAll_judged_from hp top htop reached
    (a := { table := .ofTree tree, diagnostics := ds }) (.initial tree) rfl).run_eq
  refine ⟨b, by simp only [checkWith, hunit, hrun], fun cls c hc => ?_⟩
  obtain ⟨d, hd, hsub⟩ := Tree.subject_of_class? hc
  have hkind : d.kind ≠ .variable := by rw [Decl.kind, hsub]; exact DeclKind.noConfusion
  have hblank := ScopeTable.scopeOf?_ofTree hd
  rw [if_neg hkind] at hblank
  obtain ⟨s, hs, hentries, hfree⟩ := hblank
  have hmem := Program.mem_touched_class_iff hp.built (AnalysisM.reachedDecls top reached) hc
  have hview := congrFun hb.table cls
  unfold Program.filledBy Program.blank at hview
  dsimp only at hview
  by_cases hin : cls ∈ AnalysisM.reachedDecls top reached
  · rw [if_pos (hmem.mpr hin), hs] at hview
    exact ⟨_, hview, iff_of_true (Scope.enterAll_filled _ _ _) hin,
      fun _ => ⟨_, Program.bindsNearest_fill (p := ⟨tree, g⟩) hc hentries⟩⟩
  · rw [if_neg (mt hmem.mp hin), hs] at hview
    exact ⟨s, hview, by simp [hfree, hin], by simp [hfree]⟩

namespace Manifest

/-- A loaded file is checked with names that stand for declarations of its top level, also if they are
collected anew. -/
theorem Loaded.Sound.check_eq {file : SourceFile} {l : Loaded} (hl : l.Sound file)
    {registry : Option Globals} (hr : registry ∈ [none, some l.globals]) :
    ∃ g ds, Program.Sound file.id ⟨l.tree, g⟩ ∧
      ∀ reached, check l.tree l.unit registry reached = checkWith l.tree l.unit g ds reached := by
  obtain ⟨span, hunit⟩ := hl.top
  rcases List.mem_pair.mp hr with rfl | rfl
  · have hloose : ∀ id ∈ l.tree.loose, (l.tree.decl? id).isSome := by
      intro id hid
      obtain ⟨d, hd, _⟩ := Tree.parent?_eq_some.mp (Tree.mem_loose.mp hid)
      exact Option.isSome_iff_exists.mpr ⟨d, hd⟩
    obtain ⟨g, ds, hfrom, hlook, _⟩ := Globals.exists_collected hl.program.inFile hloose
    refine ⟨g, ds, ⟨hl.program.built, hl.program.inFile, fun n id h => ?_⟩, fun reached => ?_⟩
    · rw [congrFun hlook] at h
      exact Tree.first?_eq_some h
    · simp only [check, Globals.collect, hunit, hfrom]
  · exact ⟨l.globals, #[], hl.program, fun reached => rfl⟩

/-- Whatever is loaded and however far it is checked, with the names of its top level or with names that are
collected anew, the classes that the check reached have scopes that bind, in order, the first declaration of
each name among the class, its members and the members of the classes that it extends. -/
theorem class_scope_binds_nearest (file : SourceFile) (entries : List Entry) :
    ∃ l top, loadAll file entries = .ok l ∧ l.tree.unit? l.unit = some top ∧
      ∀ registry ∈ [none, some l.globals], ∀ reached, ∃ r, check l.tree l.unit registry reached = r ∧
        r.fault = none ∧ ∀ cls c, l.tree.class? cls = some c →
          cls ∈ top.decls ∧ ∃ s, r.analysis.table.scopeOf? cls = some s ∧
            (s.filled = true ↔ cls ∈ AnalysisM.reachedDecls top reached) ∧
            (s.filled = true → ∃ chain, Program.BindsNearest ⟨l.tree, r.globals⟩ cls chain s) := by
  obtain ⟨l, hload, hl⟩ := loadAll_sound file entries
  obtain ⟨span, hunit⟩ := hl.top
  refine ⟨l, ⟨span, l.tree.loose⟩, hload, hunit, fun registry hr reached => ?_⟩
  obtain ⟨g, ds, hsound, hcheck⟩ := hl.check_eq hr
  obtain ⟨b, hrun, hclasses⟩ := checkWith_classes hsound hunit rfl ds reached
  refine ⟨_, (hcheck reached).trans hrun, rfl, fun cls c hc => ⟨?_, hclasses cls c hc⟩⟩
  obtain ⟨d, hd, hsub⟩ := Tree.subject_of_class? hc
  exact hl.program.built.mem_loose_of_namesType hd (by rw [Decl.kind, hsub]; rfl)

/-- Two classes extend each other. The members of the second repeat a name, and have the names of the first
class and of its member. -/
def ladderEntries : List Entry :=
  let word (s : String) : Yaml.Node := .scalar (.on 1 1) [] .plain (Text.ofString s)
  let rung (name : String) : Entry :=
    { node := word name, var := some (word name), type := some (word "int") }
  let ladder (name base : String) (members : List Entry) : Entry :=
    { node := word name, cls := some (word name), base := some (word base), members }
  [ladder "Short" "Long" [rung "foot"],
    ladder "Long" "Short" [rung "top", rung "foot", rung "Short", rung "top"]]

/-- Of the members of the second class, the first one binds only the first. -/
theorem ladder_scope : ∃ l s chain, loadAll {} ladderEntries = .ok l ∧
    (check l.tree l.unit none none).analysis.diagnostics.size ≠ 0 ∧
    (check l.tree l.unit none none).analysis.table.scopeOf? 2 = some s ∧
    Program.BindsNearest ⟨l.tree, (check l.tree l.unit none none).globals⟩ 2 chain s ∧
    s.entries.map (·.decl) = [2, 1, 3] := by
  obtain ⟨l, top, hload, _, h⟩ := class_scope_binds_nearest {} ladderEntries
  obtain ⟨_, rfl, _, h⟩ := h none (List.mem_cons_self ..) none
  have hfacts : (loadAll {} ladderEntries).toOption.all (fun x => decide
      ((check x.tree x.unit none none).analysis.diagnostics.size ≠ 0 ∧ (x.tree.class? 2).isSome ∧
      ((check x.tree x.unit none none).analysis.table.scopeOf? 2).map (·.entries.map (·.decl)) =
        some [2, 1, 3])) = true := by
    decide +kernel
  rw [hload] at hfacts
  obtain ⟨hreports, hc, hentries⟩ := of_decide_eq_true hfacts
  obtain ⟨c, hc⟩ := Option.isSome_iff_exists.mp hc
  obtain ⟨hreached, s, hs, hfilled, hbinds⟩ := h 2 c hc
  obtain ⟨chain, hbinds⟩ := hbinds (hfilled.mpr hreached)
  rw [hs] at hentries
  exact ⟨l, s, chain, hload, hreports, hs, hbinds, Option.some.inj hentries⟩

end Manifest

end DeclCheck

import DeclCheck.Proofs.Check.WellDeclared

/-!
# Subtypes keep their promises

In a well-declared program a class that may be used as another class has all that the other has, and a
class that may be used as an interface has its methods: under each name it finds the same variable, or a
function with the same signature. This holds on chains of bases that run into a cycle or are cut.
-/
namespace DeclCheck

theorem Tree.first?_of_distinct {t : Tree} {ids : List DeclId} {id : DeclId} (h : t.Distinct ids)
    (hid : id ∈ ids) : t.first? ids (t.nameIdOf id) = some id := by
  induction ids with
  | nil => cases hid
  | cons x xs ih =>
    obtain ⟨hx, hxs⟩ := List.nodup_cons.mp h
    unfold first?
    rcases List.mem_cons.mp hid with rfl | hid
    · rw [List.find?_cons_of_pos (by simp)]
    · have hne : t.nameIdOf x ≠ t.nameIdOf id :=
        fun he => hx (he ▸ List.mem_map_of_mem hid)
      rw [List.find?_cons_of_neg (by simpa using hne)]
      exact ih hxs hid

namespace Program

variable {p : Program} {f : FileId} {roots : List DeclId} {table : ScopeTable}

/-- A class names the goal of a search: the goal is its superclass, or an interface it lists. -/
theorem resolve_of_namesType {id : DeclId} {name : NameId} {type : TypeExprId}
    (hg : p.globals.lookup? name = some id) (h : p.namesType type name = true) :
    ∃ ident, p.tree.namedType? type = some ident ∧ p.globals.lookup? ident.name = some id := by
  unfold namesType at h
  split at h
  · next ident hi =>
    rw [beq_iff_eq] at h
    exact ⟨ident, hi, h ▸ hg⟩
  · cases h

theorem visible_eq {id : DeclId} {c : ClassDecl} (hc : p.tree.class? id = some c) :
    p.visible id = id :: (id :: (p.bases id c).1).flatMap p.tree.children := by
  rw [visible, hc, List.flatMap_cons, Tree.children_of_class? hc]

/-- Under the name of a member of a class on its chain, a class finds that member or a function that
overrides it. -/
theorem member_found (hw : p.WellDeclared roots table) {id : DeclId} {c : ClassDecl}
    (hc : p.tree.class? id = some c) {base : DeclId} (hb : base ∈ id :: (p.bases id c).1)
    {e : DeclId} (he : e ∈ p.tree.children base) :
    ∃ d, p.tree.first? (p.visible id) (p.tree.nameIdOf e) = some d ∧
      (d = e ∨ p.tree.sameSignature d e = true) := by
  obtain ⟨hchain, _⟩ := bases_chain hc
  rcases List.mem_cons.mp hb with rfl | hb
  · rw [Tree.children_of_class? hc] at he
    have hvisible : p.visible base =
        (base :: c.members) ++ (p.bases base c).1.flatMap p.tree.children := by
      simp [visible, hc]
    have hfirst := Tree.first?_of_distinct (hw.classNames base c hc) (List.mem_cons_of_mem base he)
    refine ⟨e, ?_, .inl rfl⟩
    rw [hvisible, Tree.first?_append, hfirst]
    rfl
  · obtain ⟨pre, post, hsplit⟩ := List.append_of_mem hb
    have hvisible : p.visible id = id :: (id :: pre).flatMap p.tree.children ++
        (p.tree.children base ++ post.flatMap p.tree.children) := by
      rw [visible_eq hc, hsplit]
      simp
    rw [hvisible, Tree.first?_append]
    cases hbefore : p.tree.first? (id :: (id :: pre).flatMap p.tree.children)
        (p.tree.nameIdOf e) with
    | some d =>
      rw [hsplit] at hchain
      exact ⟨d, rfl, .inr (hw.overrides id c hc pre base post hchain e he d hbefore).2.2⟩
    | none =>
      -- No class before has the name, and the class itself has it once.
      obtain ⟨k, hk⟩ := class?_of_linked hchain.linked base hb
      have hdistinct := (List.nodup_cons.mp (hw.classNames base k hk)).2
      rw [← Tree.children_of_class? hk] at hdistinct
      refine ⟨e, ?_, .inl rfl⟩
      rw [Option.none_or, Tree.first?_append, Tree.first?_of_distinct hdistinct he]
      rfl

/-- A member is a variable or a function, which has a signature. -/
theorem member_kind (hb : p.tree.Built 0) {id : DeclId} {c : ClassDecl}
    (hc : p.tree.class? id = some c) {m : DeclId} (hm : m ∈ p.tree.children id) :
    p.tree.isVariable m = true ∨ p.tree.sameSignature m m = true := by
  obtain ⟨d, hd, hsub⟩ := Tree.subject_of_class? hc
  rw [Tree.children_of_class? hc] at hm
  refine ((hb.fits hd hsub).2.2 m hm).imp_right fun hfun => ?_
  obtain ⟨g, hg⟩ := Option.isSome_iff_exists.mp hfun
  obtain ⟨e, he, hfn⟩ := Option.bind_eq_some_iff.mp hg
  exact Tree.sameSignature_self (Tree.functionShape?_eq_some he hfn)

/-- What a class on the chain finds, other than itself, the class finds too, or a function that
overrides it. -/
theorem found_of_base (hb : p.tree.Built 0) (hw : p.WellDeclared roots table) {id : DeclId}
    {c : ClassDecl} (hc : p.tree.class? id = some c) {t : DeclId} {k : ClassDecl} (hk : p.tree.class? t = some k)
    (ht : t ∈ id :: (p.bases id c).1) {n : NameId} {e : DeclId}
    (he : p.tree.first? (p.visible t) n = some e) (hne : e ≠ t) :
    ∃ d, p.tree.first? (p.visible id) n = some d ∧
      (d = e ∧ p.tree.isVariable e = true ∨ p.tree.sameSignature d e = true) := by
  obtain ⟨hmem, rfl⟩ := Tree.first?_eq_some he
  rw [visible_eq hk] at hmem
  obtain ⟨base, hbase, hchild⟩ := List.mem_flatMap.mp ((List.mem_cons.mp hmem).resolve_left hne)
  obtain ⟨hlinked, _⟩ := bases_chain hk
  obtain ⟨x, hx⟩ : ∃ x, p.tree.class? base = some x := by
    rcases List.mem_cons.mp hbase with rfl | hbase
    · exact ⟨k, hk⟩
    · exact class?_of_linked hlinked.linked base hbase
  have hmem := (bases_chain hc).1.mem_of_linked hlinked.linked ht base hbase
  obtain ⟨d, hd, rfl | hsame⟩ := member_found hw hc hmem hchild
  · exact ⟨d, hd, (member_kind hb hx hchild).imp_left fun hvar => ⟨rfl, hvar⟩⟩
  · exact ⟨d, hd, .inr hsame⟩

/-- The goal of a search that succeeds is on the chain of the class. -/
theorem mem_chain_of_reaches {id t : DeclId} {c : ClassDecl} {goal : Decl}
    (hc : p.tree.class? id = some c) (hg : p.globals.lookup? goal.name.name = some t)
    {k : ClassDecl} (hk : p.tree.class? t = some k) (hkind : goal.kind = .class)
    (h : p.reaches goal (p.tree.decls.size + 1) [] id = true) : t ∈ id :: (p.bases id c).1 := by
  obtain ⟨hchain, _⟩ := bases_chain hc
  obtain ⟨a, ha, x, hx, hnames⟩ := reaches_names hchain.closed _ (List.mem_cons_self ..) h
  rcases hnames with ⟨hi, _⟩ | ⟨_, hbase⟩
  · rw [hkind] at hi
    cases hi
  · obtain ⟨ident, hident, hlookup⟩ := resolve_of_namesType hg hbase
    exact hchain.closed a ha t (superclass?_eq_some.mpr ⟨x, ident, k, hx, hident, hlookup, hk⟩)

/-- Some class on the chain lists the interface that a search finds. -/
theorem listed_of_reaches {id t : DeclId} {c : ClassDecl} {goal : Decl}
    (hc : p.tree.class? id = some c) (hg : p.globals.lookup? goal.name.name = some t)
    (hkind : goal.kind = .interface)
    (h : p.reaches goal (p.tree.decls.size + 1) [] id = true) :
    ∃ a ∈ id :: (p.bases id c).1, ∃ x, p.tree.class? a = some x ∧
      ∃ i ∈ x.implements, p.resolveType? i = some t := by
  obtain ⟨hchain, _⟩ := bases_chain hc
  obtain ⟨a, ha, x, hx, hnames⟩ := reaches_names hchain.closed _ (List.mem_cons_self ..) h
  rcases hnames with ⟨_, i, hi, hname⟩ | ⟨hk, _⟩
  · obtain ⟨ident, hident, hlookup⟩ := resolve_of_namesType hg hname
    exact ⟨a, ha, x, hx, i, hi, by simp [resolveType?, hident, hlookup]⟩
  · rw [hkind] at hk
    cases hk

/-- A function that a class on the chain finds has a stand-in with its signature. -/
theorem function_of_base (hb : p.tree.Built 0) (hr : p.tree.Readable)
    (hw : p.WellDeclared roots table) {id : DeclId} {c : ClassDecl}
    (hc : p.tree.class? id = some c) {t : DeclId} {k : ClassDecl} (hk : p.tree.class? t = some k)
    (ht : t ∈ id :: (p.bases id c).1) {n : NameId} {e m : DeclId}
    (he : p.tree.first? (p.visible t) n = some e) (hsame : p.tree.sameSignature e m = true) :
    ∃ d, p.tree.first? (p.visible id) n = some d ∧ p.tree.sameSignature d m = true := by
  have hne : e ≠ t := by
    rintro rfl
    obtain ⟨x, hx, hfun⟩ := Tree.subject_of_function?
      (Option.isSome_iff_exists.mp (Tree.isSome_of_sameSignature hsame).1).choose_spec
    obtain ⟨y, hy, hcls⟩ := Tree.subject_of_class? hk
    cases hx.symm.trans hy
    cases hfun.symm.trans hcls
  obtain ⟨d, hd, ⟨rfl, _⟩ | hde⟩ := found_of_base hb hw hc hk ht he hne
  · exact ⟨d, hd, hsame⟩
  · exact ⟨d, hd, Tree.sameSignature_trans hb hr hde hsame⟩

end Program

namespace Manifest

variable {file : SourceFile} {l : Loaded}

/-- A file without errors is well-declared, and all its types could be read. -/
theorem wellDeclared_of_clean (hl : l.Sound file)
    (hclean : ∀ d ∈ l.diagnostics.toList ++
      (check l.tree l.unit (some l.globals) none).analysis.diagnostics.toList, d.isError = false) :
    Program.WellDeclared ⟨l.tree, l.globals⟩ l.tree.loose
      (check l.tree l.unit (some l.globals) none).analysis.table ∧ l.tree.Readable := by
  obtain ⟨syntactic, semantic, hsplit, _, hsem, hwell, herror⟩ := reports_split hl
  rw [hsplit] at hclean
  constructor
  · refine hwell.mp (List.eq_nil_iff_forall_not_mem.mpr fun d hd => ?_)
    have hno := hclean d (List.mem_append_right _ hd)
    rw [(hsem d hd).error] at hno
    cases hno
  · intro id prim span htype
    by_contra hprim
    obtain ⟨d, hd, herr⟩ := herror id prim span htype hprim
    rw [hclean d (List.mem_append_left _ hd)] at herr
    cases herr

/-- The name of a class or an interface stands for it. -/
theorem lookup?_of_namesType (hl : l.Sound file) (hnames : l.tree.Distinct l.tree.loose)
    {target : DeclId} {goal : Decl} (hd : l.tree.decl? target = some goal)
    (hk : goal.kind.namesType = true) : l.globals.lookup? goal.name.name = some target := by
  have hid := hl.program.built.mem_loose_of_namesType hd hk
  rw [hl.globals, ← Tree.nameIdOf_eq hd]
  exact Tree.first?_of_distinct hnames hid

variable {cls target : DeclId} {c : ClassDecl}

theorem keeps_members (hl : l.Sound file)
    (hw : Program.WellDeclared ⟨l.tree, l.globals⟩ l.tree.loose
      (check l.tree l.unit (some l.globals) none).analysis.table)
    (hc : l.tree.class? cls = some c) {k : ClassDecl} (hk : l.tree.class? target = some k)
    (h : Program.isCompatible ⟨l.tree, l.globals⟩ cls target = true) :
    ∃ s u, (check l.tree l.unit (some l.globals) none).analysis.table.scopeOf? cls = some s ∧
      (check l.tree l.unit (some l.globals) none).analysis.table.scopeOf? target = some u ∧
      ∀ b ∈ u.entries, b.decl ≠ target → ∃ d, s.lookup? b.name = some d ∧
        (d = b.decl ∧ l.tree.isVariable b.decl = true ∨
          l.tree.sameSignature d b.decl = true) := by
  obtain ⟨s, hs, hsees, _⟩ := scope_of_class hl hc
  obtain ⟨u, hu, husees, hindexed⟩ := scope_of_class hl hk
  refine ⟨s, u, hs, hu, fun b hbin hne => ?_⟩
  obtain ⟨goal, hgoal, hsub⟩ := Tree.subject_of_class? hk
  have hkind : goal.kind = .class := by rw [Decl.kind, hsub]; rfl
  have hname : goal.kind.namesType = true := by rw [hkind]; rfl
  simp only [Program.isCompatible, hgoal, hname, if_true] at h
  have hmem := Program.mem_chain_of_reaches hc (lookup?_of_namesType hl hw.topNames hgoal hname)
    hk hkind h
  have hfirst : l.tree.first? (Program.visible ⟨l.tree, l.globals⟩ target) b.name = some b.decl :=
    (congrFun husees b.name).symm.trans ((hindexed.lookup b.name b.decl).mpr hbin)
  obtain ⟨d, hd, hkept⟩ := Program.found_of_base hl.program.built hw hc hk hmem hfirst hne
  exact ⟨d, (congrFun hsees b.name).trans hd, hkept⟩

theorem keeps_methods (hl : l.Sound file)
    (hw : Program.WellDeclared ⟨l.tree, l.globals⟩ l.tree.loose
      (check l.tree l.unit (some l.globals) none).analysis.table) (hr : l.tree.Readable)
    (hc : l.tree.class? cls = some c) {ms : List DeclId} (hms : l.tree.interface? target = some ms)
    (h : Program.isCompatible ⟨l.tree, l.globals⟩ cls target = true) :
    ∃ s, (check l.tree l.unit (some l.globals) none).analysis.table.scopeOf? cls = some s ∧
      ∀ m ∈ ms, ∃ d, s.lookup? (l.tree.nameIdOf m) = some d ∧
        l.tree.sameSignature d m = true := by
  obtain ⟨s, hs, hsees, _⟩ := scope_of_class hl hc
  refine ⟨s, hs, fun m hm => ?_⟩
  obtain ⟨goal, hgoal, hsub⟩ := Tree.subject_of_interface? hms
  have hkind : goal.kind = .interface := by rw [Decl.kind, hsub]; rfl
  have hname : goal.kind.namesType = true := by rw [hkind]; rfl
  simp only [Program.isCompatible, hgoal, hname, if_true] at h
  obtain ⟨a, ha, x, hx, i, hi, hresolve⟩ := Program.listed_of_reaches hc
    (lookup?_of_namesType hl hw.topNames hgoal hname) hkind h
  -- The class that lists the interface has its methods; they come down to the class itself.
  obtain ⟨t, ms', hresolve', hms', himpl⟩ := hw.implements a x hx i hi
  cases hresolve.symm.trans hresolve'
  cases hms.symm.trans hms'
  obtain ⟨u, e, hu, he, _, hsame⟩ := himpl m hm
  obtain ⟨u', hu', husees, _⟩ := scope_of_class hl hx
  cases hu.symm.trans hu'
  obtain ⟨d, hd, hkept⟩ := Program.function_of_base hl.program.built hr hw hc hx ha
    ((congrFun husees _).symm.trans he) hsame
  exact ⟨d, (congrFun hsees _).trans hd, hkept⟩

/-- In a file without errors, a class that may be used as another class finds, under each name by which
the other finds something but itself, the same variable or a function with the same signature. A class
that may be used as an interface finds a function with the same signature for each of its methods. -/
theorem compatible_keeps_promises (file : SourceFile) (entries : List Entry) :
    ∃ l r, loadAll file entries = .ok l ∧ r = check l.tree l.unit (some l.globals) none ∧
      r.fault = none ∧
      ((∀ d ∈ l.diagnostics.toList ++ r.analysis.diagnostics.toList, d.isError = false) →
        ∀ cls c target, l.tree.class? cls = some c →
          Program.isCompatible ⟨l.tree, l.globals⟩ cls target = true →
          (∀ k, l.tree.class? target = some k →
            ∃ s u, r.analysis.table.scopeOf? cls = some s ∧
              r.analysis.table.scopeOf? target = some u ∧
              ∀ b ∈ u.entries, b.decl ≠ target → ∃ d, s.lookup? b.name = some d ∧
                (l.tree.isVariable b.decl = true ∧ d = b.decl ∨
                  (l.tree.function? b.decl).isSome ∧ (l.tree.function? d).isSome ∧
                    (r.analysis.lowering.sameSignature l.tree d b.decl).2 = true)) ∧
          ∀ ms, l.tree.interface? target = some ms →
            ∃ s, r.analysis.table.scopeOf? cls = some s ∧
              ∀ m ∈ ms, ∃ d, s.lookup? (l.tree.nameIdOf m) = some d ∧
                (l.tree.function? d).isSome ∧
                  (r.analysis.lowering.sameSignature l.tree d m).2 = true) := by
  obtain ⟨l, hload, hl⟩ := loadAll_sound file entries
  obtain ⟨hfault, _, _, _, hjudged⟩ := check_judged hl none
  refine ⟨l, _, hload, rfl, hfault, fun hclean cls c target hc hcompat => ?_⟩
  obtain ⟨hw, hr⟩ := wellDeclared_of_clean hl hclean
  -- What lowering has remembered makes no difference to the comparison of signatures.
  have hsame : ∀ d e, l.tree.sameSignature d e = true →
      (l.tree.function? d).isSome ∧ (l.tree.function? e).isSome ∧
        ((check l.tree l.unit (some l.globals) none).analysis.lowering.sameSignature
          l.tree d e).2 = true := by
    intro d e h
    obtain ⟨hd, he⟩ := Tree.isSome_of_sameSignature h
    obtain ⟨_, hspec⟩ := Lowering.sameSignature_spec hl.program.built.typesOrdered hjudged.sound.lowering d e
    exact ⟨hd, he, hspec.trans h⟩
  constructor
  · intro k hk
    obtain ⟨s, u, hs, hu, hkeeps⟩ := keeps_members hl hw hc hk hcompat
    refine ⟨s, u, hs, hu, fun b hb hne => ?_⟩
    obtain ⟨d, hd, ⟨hdb, hvar⟩ | h⟩ := hkeeps b hb hne
    · exact ⟨d, hd, .inl ⟨hvar, hdb⟩⟩
    · obtain ⟨hfd, hfb, hsig⟩ := hsame d b.decl h
      exact ⟨d, hd, .inr ⟨hfb, hfd, hsig⟩⟩
  · intro ms hms
    obtain ⟨s, hs, hkeeps⟩ := keeps_methods hl hw hr hc hms hcompat
    refine ⟨s, hs, fun m hm => ?_⟩
    obtain ⟨d, hd, h⟩ := hkeeps m hm
    obtain ⟨hfd, _, hsig⟩ := hsame d m h
    exact ⟨d, hd, hfd, hsig⟩

/-- An interface and two classes that are each other's base; only one lists the interface. -/
def ringEntries : List Entry :=
  let word (s : String) : Yaml.Node := .scalar (.on 1 1) [] .plain (Text.ofString s)
  let area : Entry :=
    { node := word "area", fn := some (word "area"), returns := some (word "int") }
  let side : Entry := { node := word "side", var := some (word "side"), type := some (word "int") }
  [{ node := word "Shape", iface := some (word "Shape"), members := [area] },
    { node := word "Square", cls := some (word "Square"), base := some (word "Tile"),
      implements := some (word "Shape"),
      members := [{ area with body := some (word "true") }, side] },
    { node := word "Tile", cls := some (word "Tile"), base := some (word "Square") }]

theorem ring_keeps_promises : ∃ l r, loadAll {} ringEntries = .ok l ∧
    r = check l.tree l.unit (some l.globals) none ∧
    (∀ d ∈ l.diagnostics.toList ++ r.analysis.diagnostics.toList, d.isError = false) ∧
    Program.isCompatible ⟨l.tree, l.globals⟩ 6 2 = true ∧
    ∃ s, r.analysis.table.scopeOf? 6 = some s ∧ ∃ d, s.lookup? (l.tree.nameIdOf 1) = some d ∧
      (l.tree.function? d).isSome ∧
        (r.analysis.lowering.sameSignature l.tree d 1).2 = true := by
  obtain ⟨l, r, hload, rfl, _, h⟩ := compatible_keeps_promises {} ringEntries
  have hring : (loadAll {} ringEntries).toOption.all (fun x => decide
      ((∀ d ∈ x.diagnostics.toList ++
        (check x.tree x.unit (some x.globals) none).analysis.diagnostics.toList,
          d.isError = false) ∧
      Program.isCompatible ⟨x.tree, x.globals⟩ 6 2 = true ∧
      (x.tree.class? 6).isSome ∧ x.tree.interface? 2 = some [1])) = true := by
    decide +kernel
  rw [hload] at hring
  obtain ⟨hclean, hcompat, hc, hms⟩ := of_decide_eq_true hring
  obtain ⟨c, hc⟩ := Option.isSome_iff_exists.mp hc
  obtain ⟨s, hs, hkeeps⟩ := (h hclean 6 c 2 hc hcompat).2 [1] hms
  exact ⟨l, _, hload, rfl, hclean, hcompat, s, hs, hkeeps 1 (List.mem_singleton_self 1)⟩

end Manifest

end DeclCheck

import DeclCheck.Proofs.Check.Subtyping

/-!
# Inheritance and subtypes agree

The search for a subtype and the merging of inherited members walk the same chain of bases, one with a
list of visited classes of its own and by name, the other by declaration. They find the same classes, also
where names are declared twice, a chain runs into a cycle, or members clash.
-/
namespace DeclCheck

namespace Program

variable {p : Program}

theorem base_ne_zero_of_namesType {c : ClassDecl} {name : NameId}
    (h : p.namesType c.base name = true) : c.base ≠ 0 := by
  intro hzero
  rw [hzero] at h
  cases h

/-- The search goes on to the superclass, unless it ends before with success. -/
theorem reaches_step {goal : Decl} {fuel : Nat} {visited : List DeclId} {a b : DeclId}
    (hab : p.superclass? a = some b) (hv : a ∉ visited)
    (h : p.reaches goal fuel (a :: visited) b = true) :
    p.reaches goal (fuel + 1) visited a = true := by
  obtain ⟨c, ident, d, hc, hident, hlookup, _⟩ := superclass?_eq_some.mp hab
  have hresolve : p.resolveType? c.base = some b := by simp [resolveType?, hident, hlookup]
  have hzero : c.base ≠ 0 := by
    intro hzero
    rw [hzero] at hident
    cases hident
  simp [reaches, hc, hv, hzero, hresolve, h]

/-- The search ends with success at a class that names the goal. -/
theorem reaches_of_names {goal : Decl} {fuel : Nat} {visited : List DeclId} {a : DeclId} {c : ClassDecl}
    (hc : p.tree.class? a = some c) (hv : a ∉ visited) (h : p.Names goal c) :
    p.reaches goal (fuel + 1) visited a = true := by
  rcases h with ⟨hkind, i, hi, hname⟩ | ⟨hkind, hname⟩
  · have hany : c.implements.any (p.namesType · goal.name.name) = true :=
      List.any_eq_true.mpr ⟨i, hi, hname⟩
    simp [reaches, hc, hv, hkind, hany]
  · have hzero := base_ne_zero_of_namesType hname
    simp [reaches, hc, hv, hkind, hzero, hname]

/-- A search along classes that differ, none of them visited, comes to each of them. -/
theorem reaches_of_linked {goal : Decl} {id : DeclId} {ids : List DeclId}
    (hlinked : (id :: ids).IsChain fun a b => p.superclass? a = some b) (hnodup : (id :: ids).Nodup)
    {fuel : Nat} (hfuel : ids.length < fuel) {visited : List DeclId}
    (hv : ∀ a ∈ id :: ids, a ∉ visited) {a : DeclId} (ha : a ∈ id :: ids) {c : ClassDecl}
    (hc : p.tree.class? a = some c) (hnames : p.Names goal c) :
    p.reaches goal fuel visited id = true := by
  induction ids generalizing id fuel visited with
  | nil =>
    obtain ⟨fuel, rfl⟩ := Nat.exists_eq_add_one_of_ne_zero (Nat.ne_of_gt hfuel)
    obtain rfl := List.mem_singleton.mp ha
    exact reaches_of_names hc (hv a ha) hnames
  | cons b ids ih =>
    obtain ⟨fuel, rfl⟩ := Nat.exists_eq_add_one_of_ne_zero (Nat.ne_zero_of_lt hfuel)
    have hid := hv id (List.mem_cons_self ..)
    rcases List.mem_cons.mp ha with rfl | ha
    · exact reaches_of_names hc hid hnames
    · obtain ⟨hab, hlinked⟩ := List.isChain_cons_cons.mp hlinked
      obtain ⟨hfresh, hnodup⟩ := List.nodup_cons.mp hnodup
      refine reaches_step hab hid (ih hlinked hnodup (Nat.lt_of_succ_lt_succ hfuel) ?_ ha)
      intro x hx hmem
      rcases List.mem_cons.mp hmem with rfl | hmem
      · exact hfresh hx
      · exact hv x (List.mem_cons_of_mem _ hx) hmem

/-- The search succeeds exactly if some class on the chain names the goal. -/
theorem reaches_iff_names {goal : Decl} {id : DeclId} {c : ClassDecl} (hc : p.tree.class? id = some c) :
    p.reaches goal (p.tree.decls.size + 1) [] id = true ↔
      ∃ a ∈ id :: (p.bases id c).1, ∃ k, p.tree.class? a = some k ∧ p.Names goal k := by
  obtain ⟨hchain, _⟩ := bases_chain hc
  constructor
  · exact reaches_names hchain.closed _ (List.mem_cons_self ..)
  · rintro ⟨a, ha, k, hk, hnames⟩
    -- A chain has no more classes than the tree, so the search does not run out.
    have hclasses : ∀ b ∈ id :: (p.bases id c).1, (p.tree.class? b).isSome := by
      intro b hb
      rcases List.mem_cons.mp hb with rfl | hb
      · simp [hc]
      · obtain ⟨k, hk⟩ := class?_of_linked hchain.linked b hb
        simp [hk]
    have hlength := length_le_of_classes hchain.nodup hclasses
    rw [List.length_cons] at hlength
    exact reaches_of_linked hchain.linked hchain.nodup (by omega) (by simp) ha hk hnames

/-- Each base of a class is named as the base by a class before it. -/
theorem superclass?_of_mem_bases {id b : DeclId} {c : ClassDecl} (hc : p.tree.class? id = some c)
    (hb : b ∈ (p.bases id c).1) : ∃ a ∈ id :: (p.bases id c).1, p.superclass? a = some b := by
  obtain ⟨hchain, _⟩ := bases_chain hc
  obtain ⟨pre, post, hsplit⟩ := List.append_of_mem hb
  have hlinked := hchain.linked
  rw [hsplit, ← List.cons_append, List.isChain_append] at hlinked
  have hlast := List.getLast?_eq_some_getLast (List.cons_ne_nil id pre)
  refine ⟨(id :: pre).getLast (List.cons_ne_nil id pre), ?_, hlinked.2.2 _ hlast b rfl⟩
  rw [hsplit, ← List.cons_append]
  exact List.mem_append_left _ (List.getLast_mem _)

theorem names_of_superclass? {f : FileId} (hp : p.Sound f) {a b : DeclId}
    (hab : p.superclass? a = some b) {goal : Decl} (hd : p.tree.decl? b = some goal)
    (hkind : goal.kind = .class) : ∃ k, p.tree.class? a = some k ∧ p.Names goal k := by
  obtain ⟨k, ident, _, hk, hident, hlookup, _⟩ := superclass?_eq_some.mp hab
  have hname : goal.name.name = ident.name := by
    rw [← Tree.nameIdOf_eq hd, (hp.globals ident.name b hlookup).2]
  exact ⟨k, hk, .inr ⟨hkind, by simp [namesType, hident, hname]⟩⟩

/-- A base is what a class may be used as. -/
theorem isCompatible_of_mem_bases {f : FileId} (hp : p.Sound f) {id t : DeclId} {c : ClassDecl}
    (hc : p.tree.class? id = some c) (ht : t ∈ (p.bases id c).1) : p.isCompatible id t = true := by
  obtain ⟨a, ha, hat⟩ := superclass?_of_mem_bases hc ht
  obtain ⟨_, _, k, _, _, _, hk⟩ := superclass?_eq_some.mp hat
  obtain ⟨goal, hd, hsub⟩ := Tree.subject_of_class? hk
  have hkind : goal.kind = .class := by rw [Decl.kind, hsub]; rfl
  obtain ⟨x, hx, hnames⟩ := names_of_superclass? hp hat hd hkind
  have hreach := (reaches_iff_names hc).mpr ⟨a, ha, x, hx, hnames⟩
  simp [isCompatible, hd, hkind, DeclKind.namesType, hreach]

/-- A class may be used as another one that its name stands for exactly if that one is a base. -/
theorem isCompatible_iff_mem_bases {f : FileId} (hp : p.Sound f) {id t : DeclId} {c k : ClassDecl}
    (hc : p.tree.class? id = some c) (hk : p.tree.class? t = some k) (hne : t ≠ id)
    (hown : p.globals.lookup? (p.tree.nameIdOf t) = some t) :
    p.isCompatible id t = true ↔ t ∈ (p.bases id c).1 := by
  refine ⟨fun h => ?_, isCompatible_of_mem_bases hp hc⟩
  obtain ⟨goal, hd, hsub⟩ := Tree.subject_of_class? hk
  have hkind : goal.kind = .class := by rw [Decl.kind, hsub]; rfl
  have hname : goal.kind.namesType = true := by rw [hkind]; rfl
  simp only [isCompatible, hd, hname, if_true] at h
  rw [Tree.nameIdOf_eq hd] at hown
  exact (List.mem_cons.mp (mem_chain_of_reaches hc hown hk hkind h)).resolve_left hne

end Program

namespace Manifest

variable {file : SourceFile} {l : Loaded} {cls : DeclId} {c : ClassDecl} {s : Scope}

/-- Whose members are found in the scope of a class: its own and those of its bases. -/
theorem owner_mem_bases (hl : l.Sound file) (hc : l.tree.class? cls = some c)
    (hholds : s.Holds l.tree (Program.visible ⟨l.tree, l.globals⟩ cls)) (hindexed : s.Indexed)
    {b : Binding} (hb : b ∈ s.entries) {owner : DeclId} (howner : l.tree.parent? b.decl = some owner)
    (hzero : owner ≠ 0) (hne : owner ≠ cls) :
    owner ∈ (Program.bases ⟨l.tree, l.globals⟩ cls c).1 := by
  have hfirst : l.tree.first? (Program.visible ⟨l.tree, l.globals⟩ cls) b.name = some b.decl :=
    (congrFun hholds b.name).symm.trans ((hindexed.lookup b.name b.decl).mpr hb)
  have hmem := (Tree.first?_eq_some hfirst).1
  rw [Program.visible_eq hc] at hmem
  rcases List.mem_cons.mp hmem with hself | hmem
  · -- The class itself stands on the top level.
    obtain ⟨d, hd, hsub⟩ := Tree.subject_of_class? hc
    have hkind : d.kind.namesType = true := by rw [Decl.kind, hsub]; rfl
    have hloose := Tree.mem_loose.mp (hl.program.built.mem_loose_of_namesType hd hkind)
    rw [hself, hloose] at howner
    exact (hzero (Option.some.inj howner).symm).elim
  · obtain ⟨x, hx, hchild⟩ := List.mem_flatMap.mp hmem
    have hparent := (hl.program.built.child x b.decl hchild).2
    obtain rfl : x = owner := Option.some.inj (hparent.symm.trans howner)
    exact (List.mem_cons.mp hx).resolve_left hne

/-- The members of a class and of its bases are bound in its scope. -/
theorem bound_of_mem_chain (hc : l.tree.class? cls = some c)
    (hholds : s.Holds l.tree (Program.visible ⟨l.tree, l.globals⟩ cls)) {base : DeclId}
    (hbase : base ∈ cls :: (Program.bases ⟨l.tree, l.globals⟩ cls c).1) {m : DeclId}
    (hm : m ∈ l.tree.children base) : ∃ d, s.lookup? (l.tree.nameIdOf m) = some d := by
  have hvisible : m ∈ Program.visible ⟨l.tree, l.globals⟩ cls := by
    rw [Program.visible_eq hc]
    exact List.mem_cons_of_mem _ (List.mem_flatMap.mpr ⟨base, hbase, hm⟩)
  rw [congrFun hholds (l.tree.nameIdOf m)]
  refine Option.ne_none_iff_exists'.mp fun hnone => ?_
  exact Tree.first?_eq_none.mp hnone m hvisible rfl

/-- After a whole check, the scope of a class finds the first of the class itself, its members and the
members of its bases. A class whose name stands for it is a base exactly if the class may be used as it; who
owns an entry of the scope is such a class; and the members of such a class are bound. -/
theorem compatible_iff_merged (file : SourceFile) (entries : List Entry) :
    ∃ l r, loadAll file entries = .ok l ∧ r = check l.tree l.unit (some l.globals) none ∧
      r.fault = none ∧
      ∀ cls c, l.tree.class? cls = some c →
        ∃ s merged, r.analysis.table.scopeOf? cls = some s ∧
          merged = (Program.bases ⟨l.tree, l.globals⟩ cls c).1 ∧
          s.lookup? = l.tree.first? (cls :: (cls :: merged).flatMap l.tree.children) ∧
          (∀ target k, l.tree.class? target = some k → target ≠ cls →
            l.globals.lookup? (l.tree.nameIdOf target) = some target →
            (Program.isCompatible ⟨l.tree, l.globals⟩ cls target = true ↔ target ∈ merged)) ∧
          (∀ b ∈ s.entries, ∀ owner, l.tree.parent? b.decl = some owner → owner ≠ 0 → owner ≠ cls →
            Program.isCompatible ⟨l.tree, l.globals⟩ cls owner = true) ∧
          ∀ target k, l.tree.class? target = some k →
            l.globals.lookup? (l.tree.nameIdOf target) = some target →
            Program.isCompatible ⟨l.tree, l.globals⟩ cls target = true →
            ∀ m ∈ k.members, ∃ d, s.lookup? (l.tree.nameIdOf m) = some d := by
  obtain ⟨l, hload, hl⟩ := loadAll_sound file entries
  obtain ⟨hfault, _⟩ := check_judged hl none
  refine ⟨l, _, hload, rfl, hfault, fun cls c hc => ?_⟩
  obtain ⟨s, hs, hholds, hindexed⟩ := scope_of_class hl hc
  refine ⟨s, _, hs, rfl, ?_, ?_, ?_, ?_⟩
  · rw [← Program.visible_eq (p := ⟨l.tree, l.globals⟩) hc]
    exact hholds
  · intro target k hk hne hown
    exact Program.isCompatible_iff_mem_bases hl.program hc hk hne hown
  · intro b hb owner howner hzero hne
    exact Program.isCompatible_of_mem_bases hl.program hc
      (owner_mem_bases hl hc hholds hindexed hb howner hzero hne)
  · intro target k hk hown hcompat m hm
    rw [← Tree.children_of_class? hk] at hm
    refine bound_of_mem_chain hc hholds ?_ hm
    by_cases hself : target = cls
    · exact hself ▸ List.mem_cons_self ..
    · exact List.mem_cons_of_mem _
        ((Program.isCompatible_iff_mem_bases hl.program hc hk hself hown).mp hcompat)

/-- Two classes share a name; each extends the third, which extends the first of them again. All three
declare a variable of one name. -/
def namesakeEntries : List Entry :=
  let word (s : String) : Yaml.Node := .scalar (.on 1 1) [] .plain (Text.ofString s)
  let size : Entry := { node := word "size", var := some (word "size"), type := some (word "int") }
  let pile (name base : String) : Entry :=
    { node := word name, cls := some (word name), base := some (word base), members := [size] }
  [pile "Heap" "Stack", pile "Stack" "Heap", pile "Heap" "Stack"]

/-- The second namesake may be used as the first one, whose members it has merged. -/
theorem namesake_merged : ∃ l r s c, loadAll {} namesakeEntries = .ok l ∧
    r = check l.tree l.unit (some l.globals) none ∧ r.analysis.diagnostics.size ≠ 0 ∧
    l.tree.class? 6 = some c ∧ r.analysis.table.scopeOf? 6 = some s ∧
    Program.isCompatible ⟨l.tree, l.globals⟩ 6 2 = true ∧
    2 ∈ (Program.bases ⟨l.tree, l.globals⟩ 6 c).1 ∧
    ∃ d, s.lookup? (l.tree.nameIdOf 1) = some d := by
  obtain ⟨l, r, hload, rfl, _, h⟩ := compatible_iff_merged {} namesakeEntries
  have hfacts : (loadAll {} namesakeEntries).toOption.all (fun x => decide
      ((check x.tree x.unit (some x.globals) none).analysis.diagnostics.size ≠ 0 ∧
      (x.tree.class? 6).isSome ∧ (x.tree.class? 2).map (·.members) = some [1] ∧
      x.globals.lookup? (x.tree.nameIdOf 2) = some 2 ∧
      Program.isCompatible ⟨x.tree, x.globals⟩ 6 2 = true)) = true := by
    decide +kernel
  rw [hload] at hfacts
  obtain ⟨hreports, hc, hk, hown, hcompat⟩ := of_decide_eq_true hfacts
  obtain ⟨c, hc⟩ := Option.isSome_iff_exists.mp hc
  obtain ⟨k, hk, hmembers⟩ := Option.map_eq_some_iff.mp hk
  obtain ⟨s, _, hs, rfl, _, hiff, _, hbound⟩ := h 6 c hc
  refine ⟨l, _, s, c, hload, rfl, hreports, hc, hs, hcompat, ?_, ?_⟩
  · exact (hiff 2 k hk (by decide) hown).mp hcompat
  · exact hbound 2 k hk hown hcompat 1 (by simp [hmembers])

end Manifest

end DeclCheck

import DeclCheck.Proofs.Check.Loaded

/-!
# Well-declared programs

The rules of declarations, said of a whole program. A loaded file is reported for what it means exactly if
it breaks one of them.
-/
namespace DeclCheck

namespace Program

variable (p : Program) (roots : List DeclId)

/-- A declaration of the top level, or a member of a class. -/
def Looked (id : DeclId) : Prop :=
  id ∈ roots ∨ ∃ cls c, p.tree.class? cls = some c ∧ id ∈ c.members

/-- The rules of a program whose top level is `roots` and whose classes have the scopes of `table`. -/
structure WellDeclared (table : ScopeTable) : Prop where
  topNames : p.tree.Distinct roots
  interfaceNames : ∀ id ms, p.tree.interface? id = some ms → p.tree.Distinct ms
  classNames : ∀ id c, p.tree.class? id = some c → p.tree.Distinct (id :: c.members)
  bases : ∀ id c, p.tree.class? id = some c → ∀ chain, p.ExtendsChain id chain →
    ∀ a ∈ chain, ¬ p.BaseMissing a
  /-- What is found is the first of the class itself and the members of the classes before `base`. -/
  overrides : ∀ id c, p.tree.class? id = some c → ∀ pre base post,
    p.ExtendsChain id (id :: (pre ++ base :: post)) → ∀ m ∈ p.tree.children base, ∀ e,
      p.tree.first? (id :: (id :: pre).flatMap p.tree.children) (p.tree.nameIdOf m) = some e →
        (p.tree.function? m).isSome ∧ (p.tree.function? e).isSome ∧
          p.tree.sameSignature e m = true
  implements : ∀ id c, p.tree.class? id = some c → ∀ i ∈ c.implements,
    ∃ target ms, p.resolveType? i = some target ∧ p.tree.interface? target = some ms ∧
      ∀ m ∈ ms, ∃ s e, table.scopeOf? id = some s ∧ s.lookup? (p.tree.nameIdOf m) = some e ∧
        (p.tree.function? e).isSome ∧ p.tree.sameSignature e m = true
  variableTypes : ∀ id, p.Looked roots id → ∀ type, p.tree.variableType? id = some type →
    p.TypeKnown type
  signatureTypes : ∀ id, p.Looked roots id → ∀ g, p.tree.function? id = some g →
    p.TypeKnown g.result ∧
      ∀ v ∈ g.formals, ∀ type, p.tree.variableType? v = some type → p.TypeKnown type
  formalNames : ∀ id, p.Looked roots id → ∀ g, p.tree.function? id = some g →
    p.tree.Distinct g.formals

variable {p}

theorem inherits_iff {id : DeclId} {c : ClassDecl} (hc : p.tree.class? id = some c) :
    p.Inherits (id :: c.members) (p.bases id c).1 ↔
    ∀ pre base post, p.ExtendsChain id (id :: (pre ++ base :: post)) →
      ∀ m ∈ p.tree.children base, ∀ e,
        p.tree.first? (id :: (id :: pre).flatMap p.tree.children) (p.tree.nameIdOf m) = some e →
          (p.tree.function? m).isSome ∧ (p.tree.function? e).isSome ∧
            p.tree.sameSignature e m = true := by
  obtain ⟨hchain, _⟩ := bases_chain hc
  have hchildren := Tree.children_of_class? hc
  have hvisible : ∀ pre : List DeclId, id :: (id :: pre).flatMap p.tree.children =
      id :: c.members ++ pre.flatMap p.tree.children := by
    intro pre
    rw [List.flatMap_cons, hchildren, List.cons_append]
  simp only [hvisible]
  constructor
  · intro h pre base post hx m hm e he
    obtain hsplit := (List.cons.inj (hchain.unique hx)).2
    have hsame := h pre base post hsplit m hm e he
    obtain ⟨hfe, hfm⟩ := Tree.isSome_of_sameSignature hsame
    exact ⟨hfm, hfe, hsame⟩
  · intro h pre base post hsplit m hm e he
    rw [hsplit] at hchain
    exact (h pre base post hchain m hm e he).2.2

theorem valueRule_iff {id : DeclId} {d : Decl} (hd : p.tree.decl? id = some d) :
    p.ValueRule d.subject ↔
      (∀ type, p.tree.variableType? id = some type → p.TypeKnown type) ∧
      ∀ g, p.tree.function? id = some g → p.tree.Distinct g.formals ∧
        (∀ v ∈ g.formals, ∀ type, p.tree.variableType? v = some type → p.TypeKnown type) ∧
        p.TypeKnown g.result := by
  have hvar : p.tree.variableType? id = d.variableType? := by simp [Tree.variableType?, hd]
  have hfun : p.tree.function? id = d.function? := by simp [Tree.function?, hd]
  rw [hvar, hfun]
  unfold Decl.variableType? Decl.function?
  cases d.subject with
  | «variable» type => simp [ValueRule]
  | «class» c => simp [ValueRule]
  | interface ms => simp [ValueRule]
  | function g => simp [ValueRule]

theorem rule_iff {id : DeclId} {d : Decl} (hd : p.tree.decl? id = some d) :
    p.Rule id d.subject ↔
      (∀ c, p.tree.class? id = some c → p.ClassRule id c) ∧
      (∀ ms, p.tree.interface? id = some ms → p.tree.Distinct ms) ∧ p.ValueRule d.subject := by
  have hclass : p.tree.class? id = d.class? := by simp [Tree.class?, hd]
  have hiface : p.tree.interface? id = d.interface? := by simp [Tree.interface?, hd]
  rw [hclass, hiface]
  unfold Decl.class? Decl.interface?
  cases d.subject with
  | «variable» type => simp [Rule]
  | «class» c => simp [Rule, ValueRule]
  | interface ms => simp [Rule, ValueRule]
  | function g => simp [Rule]

theorem bases_iff {id : DeclId} {c : ClassDecl} (hc : p.tree.class? id = some c) :
    (∀ a ∈ id :: (p.bases id c).1, ¬ p.BaseMissing a) ↔
      ∀ chain, p.ExtendsChain id chain → ∀ a ∈ chain, ¬ p.BaseMissing a := by
  obtain ⟨hchain, _⟩ := bases_chain hc
  constructor
  · intro h chain hx
    rwa [← hchain.unique hx]
  · intro h
    exact h _ hchain

/-- A class lists interfaces only, and its scope has their methods. -/
theorem conforms_iff {i : TypeExprId} {s : Scope} {ids : List DeclId} (hs : s.Holds p.tree ids)
    (hi : (p.tree.namedType? i).isSome) :
    p.Conforms (p.tree.first? ids) i ↔
      ∃ target ms, p.resolveType? i = some target ∧ p.tree.interface? target = some ms ∧
        ∀ m ∈ ms, ∃ e, s.lookup? (p.tree.nameIdOf m) = some e ∧
          (p.tree.function? e).isSome ∧ p.tree.sameSignature e m = true := by
  obtain ⟨ident, hident⟩ := Option.isSome_iff_exists.mp hi
  have hresolve : p.resolveType? i = p.globals.lookup? ident.name := by
    simp [resolveType?, hident]
  have hmethod : ∀ m, p.Implemented (p.tree.first? ids) m ↔
      ∃ e, s.lookup? (p.tree.nameIdOf m) = some e ∧
        (p.tree.function? e).isSome ∧ p.tree.sameSignature e m = true := by
    intro m
    rw [Implemented, ← show s.lookup? = p.tree.first? ids from hs]
    constructor
    · rintro ⟨e, he, hsame⟩
      exact ⟨e, he, (Tree.isSome_of_sameSignature hsame).1, hsame⟩
    · rintro ⟨e, he, _, hsame⟩
      exact ⟨e, he, hsame⟩
  rw [hresolve]
  simp [Conforms, hident, hmethod]

/-- The rules of a program are those of its declarations, and that names of the top level differ. -/
theorem wellDeclared_iff {f : FileId} (hp : p.Sound f) {roots : List DeclId}
    (hroots : roots = p.tree.loose) {table : ScopeTable}
    (htable : ∀ id c, p.tree.class? id = some c →
      ∃ s, table.scopeOf? id = some s ∧ s.Holds p.tree (p.visible id)) :
    p.WellDeclared roots table ↔ p.tree.Distinct roots ∧
      ∀ id ∈ roots, ∀ d, p.tree.decl? id = some d → p.Rule id d.subject := by
  have hnamed : ∀ id c, p.tree.class? id = some c → ∀ i ∈ c.implements,
      (p.tree.namedType? i).isSome := by
    intro id c hc
    obtain ⟨d, hd, hsub⟩ := Tree.subject_of_class? hc
    exact (hp.built.fits hd hsub).2.1
  have hconforms : ∀ id c, p.tree.class? id = some c → ∀ i ∈ c.implements,
      (p.Conforms (p.tree.first? (p.visible id)) i ↔
        ∃ target ms, p.resolveType? i = some target ∧ p.tree.interface? target = some ms ∧
          ∀ m ∈ ms, ∃ s e, table.scopeOf? id = some s ∧ s.lookup? (p.tree.nameIdOf m) = some e ∧
            (p.tree.function? e).isSome ∧ p.tree.sameSignature e m = true) := by
    intro id c hc i hi
    obtain ⟨s, hs, hh⟩ := htable id c hc
    rw [conforms_iff hh (hnamed id c hc i hi)]
    simp [hs]
  constructor
  · intro h
    have hvalue : ∀ id d, p.Looked roots id → p.tree.decl? id = some d →
        p.ValueRule d.subject := by
      intro id d hl hd
      refine (valueRule_iff hd).mpr ⟨h.variableTypes id hl, fun g hg => ?_⟩
      obtain ⟨hresult, hformals⟩ := h.signatureTypes id hl g hg
      exact ⟨h.formalNames id hl g hg, hformals, hresult⟩
    refine ⟨h.topNames, fun id hid d hd => (rule_iff hd).mpr
      ⟨fun c hc => ?_, h.interfaceNames id, hvalue id d (.inl hid) hd⟩⟩
    refine ⟨h.classNames id c hc, (inherits_iff hc).mpr (h.overrides id c hc),
      (bases_iff hc).mpr (h.bases id c hc), fun i hi => ?_, fun m hm e he => ?_⟩
    · exact (hconforms id c hc i hi).mpr (h.implements id c hc i hi)
    · exact hvalue m e (.inr ⟨id, c, hc, hm⟩) he
  · rintro ⟨htop, h⟩
    have hclass : ∀ id c, p.tree.class? id = some c → p.ClassRule id c := by
      intro id c hc
      obtain ⟨d, hd, hsub⟩ := Tree.subject_of_class? hc
      have hid := hp.built.mem_loose_of_namesType hd (by rw [Decl.kind, hsub]; rfl)
      exact ((rule_iff hd).mp (h id (hroots ▸ hid) d hd)).1 c hc
    have hvalue : ∀ id d, p.Looked roots id → p.tree.decl? id = some d →
        p.ValueRule d.subject := by
      rintro id d (hid | ⟨cls, c, hc, hm⟩) hd
      · exact ((rule_iff hd).mp (h id hid d hd)).2.2
      · exact (hclass cls c hc).members id hm d hd
    have hvariable : ∀ id, p.Looked roots id → ∀ type, p.tree.variableType? id = some type →
        p.TypeKnown type := by
      intro id hl type ht
      obtain ⟨d, hd, _⟩ := Option.bind_eq_some_iff.mp ht
      exact ((valueRule_iff hd).mp (hvalue id d hl hd)).1 type ht
    have hfunction : ∀ id, p.Looked roots id → ∀ g, p.tree.function? id = some g →
        p.tree.Distinct g.formals ∧
          (∀ v ∈ g.formals, ∀ type, p.tree.variableType? v = some type → p.TypeKnown type) ∧
          p.TypeKnown g.result := by
      intro id hl g hg
      obtain ⟨d, hd, _⟩ := Option.bind_eq_some_iff.mp hg
      exact ((valueRule_iff hd).mp (hvalue id d hl hd)).2 g hg
    refine ⟨htop, ?_, fun id c hc => (hclass id c hc).names, ?_, ?_, ?_, hvariable, ?_, ?_⟩
    · intro id ms hms
      obtain ⟨d, hd, hsub⟩ := Tree.subject_of_interface? hms
      have hid := hp.built.mem_loose_of_namesType hd (by rw [Decl.kind, hsub]; rfl)
      exact ((rule_iff hd).mp (h id (hroots ▸ hid) d hd)).2.1 ms hms
    · exact fun id c hc => (bases_iff hc).mp (hclass id c hc).bases
    · exact fun id c hc => (inherits_iff hc).mp (hclass id c hc).inherits
    · intro id c hc i hi
      exact (hconforms id c hc i hi).mp ((hclass id c hc).conforms i hi)
    · intro id hl g hg
      obtain ⟨_, hformals, hresult⟩ := hfunction id hl g hg
      exact ⟨hresult, hformals⟩
    · exact fun id hl g hg => (hfunction id hl g hg).1

end Program

namespace Manifest

/-- The scopes of the classes of a loaded file after a whole check. -/
theorem scope_of_class {file : SourceFile} {l : Loaded} (hl : l.Sound file) {id : DeclId}
    {c : ClassDecl} (hc : l.tree.class? id = some c) :
    ∃ s, (check l.tree l.unit (some l.globals) none).analysis.table.scopeOf? id = some s ∧
      s.Holds l.tree (Program.visible ⟨l.tree, l.globals⟩ id) ∧ s.Indexed := by
  obtain ⟨d, hd, hsub⟩ := Tree.subject_of_class? hc
  have hk : d.kind = .class := by rw [Decl.kind, hsub]; rfl
  have hid := hl.program.built.mem_loose_of_namesType hd (by rw [hk]; rfl)
  obtain ⟨_, top, _, htop, hjudged⟩ := check_judged hl none
  have hmem : id ∈ (AnalysisM.reachedDecls top none).flatMap
      (Program.touched ⟨l.tree, l.globals⟩) := by
    refine List.mem_flatMap.mpr ⟨id, ?_, ?_⟩
    · rw [AnalysisM.reachedDecls, htop]
      exact hid
    · unfold Program.touched
      split <;> simp
  obtain ⟨s, hs, hholds, hindexed⟩ :=
    Program.filledBy_holds (p := ⟨l.tree, l.globals⟩) hmem hd (by rw [hk]; simp)
  exact ⟨s, (congrFun hjudged.table id).trans hs, hholds, hindexed⟩

/-- What loading and checking report is about syntax or about meaning, and nothing is about meaning
exactly if the file is well-declared. A type that could not be read is reported. -/
theorem reports_split {file : SourceFile} {l : Loaded} (hl : l.Sound file) :
    ∃ syntactic semantic : List Diagnostic,
      l.diagnostics.toList ++
        (check l.tree l.unit (some l.globals) none).analysis.diagnostics.toList =
          syntactic ++ semantic ∧
      (∀ d ∈ syntactic, d.code.family? = some (Text.ofString "SYN")) ∧
      (∀ d ∈ semantic, d.IsSemantic file.id) ∧
      (semantic = [] ↔ Program.WellDeclared ⟨l.tree, l.globals⟩ l.tree.loose
        (check l.tree l.unit (some l.globals) none).analysis.table) ∧
      ∀ (id : Nat) (prim : Primitive) (span : Span),
        l.tree.type? id = some (.primitive prim span) → prim ∉ Primitive.keywords →
          ∃ d ∈ syntactic, d.isError = true := by
  obtain ⟨syntactic, conflicts, hdiags, hsyn, hdistinct, hconflicts, herror⟩ := hl.reports
  obtain ⟨_, top, _, htop, hjudged⟩ := check_judged hl none
  obtain ⟨ds, hds, hrules, hsem⟩ := hjudged.reports
  rw [AnalysisM.reachedDecls, htop] at hrules
  have htable : ∀ id c, l.tree.class? id = some c →
      ∃ s, (check l.tree l.unit (some l.globals) none).analysis.table.scopeOf? id = some s ∧
        s.Holds l.tree (Program.visible ⟨l.tree, l.globals⟩ id) := by
    intro id c hc
    obtain ⟨s, hs, hholds, _⟩ := scope_of_class hl hc
    exact ⟨s, hs, hholds⟩
  refine ⟨syntactic, conflicts ++ ds, ?_, fun d hd => (hsyn d hd).1, ?_, ?_, herror⟩
  · rw [hds, hdiags]
    simp
  · intro d hd
    exact (List.mem_append.mp hd).elim (hconflicts d) (hsem d)
  · rw [Program.wellDeclared_iff hl.program rfl htable, List.append_eq_nil_iff, hdistinct, hrules]

/-- Loading and checking a file report nothing about its meaning exactly if it is well-declared. -/
theorem unreported_iff_wellDeclared (file : SourceFile) (entries : List Entry) :
    ∃ l top, loadAll file entries = .ok l ∧ l.tree.unit? l.unit = some top ∧
      (check l.tree l.unit (some l.globals) none).fault = none ∧
      ((∀ d ∈ l.diagnostics.toList ++
          (check l.tree l.unit (some l.globals) none).analysis.diagnostics.toList,
          d.code.family? ≠ some (Text.ofString "SEM")) ↔
        Program.WellDeclared ⟨l.tree, l.globals⟩ top.decls
          (check l.tree l.unit (some l.globals) none).analysis.table) := by
  obtain ⟨l, hload, hl⟩ := loadAll_sound file entries
  obtain ⟨hfault, top, hunit, htop, _⟩ := check_judged hl none
  obtain ⟨syntactic, semantic, hsplit, hsyn, hsem, hwell, _⟩ := reports_split hl
  refine ⟨l, top, hload, hunit, hfault, ?_⟩
  rw [hsplit, htop, ← hwell]
  constructor
  · intro h
    refine List.eq_nil_iff_forall_not_mem.mpr fun d hd => ?_
    exact h d (List.mem_append_right _ hd) (hsem d hd).family
  · rintro rfl d hd
    rw [List.append_nil] at hd
    rw [hsyn d hd]
    decide

end Manifest

end DeclCheck

import DeclCheck.Proofs.Check.Loaded

/-!
# Analyses in step

Two programs that differ only in the order of their top level are analyzed in step: from points that agree
on the scopes of some declarations, steps over these scopes come to the same outcome and report the same. What
was remembered of types and what other scopes hold makes no difference.
-/
namespace DeclCheck

/-! ## Programs that an analysis cannot tell apart -/

namespace Program

/-- Programs with the same nodes, whose names stand for the same declarations. -/
structure Twin (p q : Program) : Prop where
  decls : q.tree.decls = p.tree.decls
  types : q.tree.types = p.tree.types
  names : q.tree.names = p.tree.names
  lookup : q.globals.lookup? = p.globals.lookup?

theorem Twin.refl (p : Program) : p.Twin p := ⟨rfl, rfl, rfl, rfl⟩

variable {p q : Program} (h : p.Twin q)
include h

namespace Twin

theorem decl? (id : DeclId) : q.tree.decl? id = p.tree.decl? id := by
  simp only [Tree.decl?, h.decls]

theorem type? (id : TypeExprId) : q.tree.type? id = p.tree.type? id := by
  simp only [Tree.type?, h.types]

theorem class? (id : DeclId) : q.tree.class? id = p.tree.class? id := by
  simp only [Tree.class?, h.decl?]

theorem interface? (id : DeclId) : q.tree.interface? id = p.tree.interface? id := by
  simp only [Tree.interface?, h.decl?]

theorem namedType? (id : TypeExprId) : q.tree.namedType? id = p.tree.namedType? id := by
  simp only [Tree.namedType?, h.type?]

theorem children (id : DeclId) : q.tree.children id = p.tree.children id := by
  simp only [Tree.children, h.decl?]

theorem nameOf (id : DeclId) : q.tree.nameOf id = p.tree.nameOf id := by
  simp only [Tree.nameOf, h.decl?, h.names]

theorem nameIdOf : q.tree.nameIdOf = p.tree.nameIdOf := by
  funext id
  simp only [Tree.nameIdOf, h.decl?]

theorem typesOrdered (ht : p.tree.TypesOrdered) : q.tree.TypesOrdered := by
  intro id elem span he
  rw [h.type?] at he
  exact ht id elem span he

theorem shape (id : TypeExprId) : q.tree.shape id = p.tree.shape id := by
  have hwithin : ∀ fuel id, q.tree.shapeWithin fuel id = p.tree.shapeWithin fuel id := by
    intro fuel
    induction fuel with
    | zero => exact fun _ => rfl
    | succ fuel ih =>
      intro id
      simp only [Tree.shapeWithin, h.type?, ih]
  rw [Tree.shape, Tree.shape, h.types, hwithin]

theorem functionShape? (id : DeclId) : q.tree.functionShape? id = p.tree.functionShape? id := by
  have hformal : q.tree.formalShape = p.tree.formalShape := by
    funext v
    simp only [Tree.formalShape, Tree.variableType?, h.decl?, h.shape]
  simp only [Tree.functionShape?, h.decl?, h.shape, hformal]

theorem bases (id : DeclId) (c : ClassDecl) : q.bases id c = p.bases id c := by
  have hclimb : ∀ fuel visited base, q.climb fuel visited base = p.climb fuel visited base := by
    intro fuel
    induction fuel with
    | zero => exact fun _ _ => rfl
    | succ fuel ih =>
      intro visited base
      simp only [climb, h.namedType?, h.lookup, h.class?, ih]
  rw [Program.bases, Program.bases, h.decls, hclimb]

theorem baseName? (fuel : Nat) (id : TypeExprId) :
    AnalysisM.baseName? q.tree fuel id = AnalysisM.baseName? p.tree fuel id := by
  induction fuel generalizing id with
  | zero => rfl
  | succ fuel ih => simp only [AnalysisM.baseName?, h.type?, ih]

theorem visible (id : DeclId) : q.visible id = p.visible id := by
  have hchildren : q.tree.children = p.tree.children := funext h.children
  simp only [Program.visible, h.class?, h.bases, hchildren]

theorem touched (id : DeclId) : q.touched id = p.touched id := by
  simp only [Program.touched, h.class?]

theorem blank : q.blank = p.blank := by
  simp only [Program.blank, ScopeTable.ofTree, ScopeTable.unlinked, ScopeTable.link, h.decls, h.decl?]

theorem filledBy (ids : List DeclId) (v : Scoping) : q.filledBy ids v = p.filledBy ids v := by
  have hfill : q.fill = p.fill := by
    funext id s
    simp only [Program.fill, Scope.enterAll, h.visible, h.nameIdOf]
  unfold Program.filledBy
  rw [hfill]

end Twin

end Program

namespace AnalysisM

/-! ## Steps in step -/

/-- Points of two analyses that agree on the scopes of some declarations. -/
structure Alike (p q : Program) (own : DeclId → Prop) (a b : Analysis) : Prop where
  left : a.Sound p.tree
  right : b.Sound q.tree
  scopes : ∀ j, own j → a.view j = b.view j

/-- Two outcomes are the same up to what was remembered, with the same reports since `a` and `b`. -/
structure SameOutcome (p q : Program) (own : DeclId → Prop) {α : Type} (a b : Analysis)
    (r s : Except CheckFault α × Analysis) : Prop where
  value : r.1 = s.1
  alike : Alike p q own r.2 s.2
  reports : ∃ ds : List Diagnostic, r.2.diagnostics.toList = a.diagnostics.toList ++ ds ∧
    s.2.diagnostics.toList = b.diagnostics.toList ++ ds

/-- From points that agree on some scopes, the steps come to the same outcome. -/
def InStep (p q : Program) (own : DeclId → Prop) {α : Type} (x y : AnalysisM α) : Prop :=
  ∀ a b, Alike p q own a b → SameOutcome p q own a b (x.run.run a) (y.run.run b)

section Steps

variable {p q : Program} {own : DeclId → Prop} {α β : Type}

/-- Steps that report nothing. -/
theorem SameOutcome.silent (a b : Analysis) {a' b' : Analysis} (h : Alike p q own a' b')
    (ha : a'.diagnostics = a.diagnostics) (hb : b'.diagnostics = b.diagnostics)
    (r : Except CheckFault α) : SameOutcome p q own a b (r, a') (r, b') :=
  ⟨rfl, h, [], by simp [ha], by simp [hb]⟩

theorem SameOutcome.since {a b a' b' : Analysis} {r s : Except CheckFault α × Analysis}
    (h : SameOutcome p q own a' b' r s) (ha : a'.diagnostics = a.diagnostics)
    (hb : b'.diagnostics = b.diagnostics) : SameOutcome p q own a b r s :=
  ⟨h.value, h.alike, ha ▸ hb ▸ h.reports⟩

theorem inStep_pure (r : α) : InStep p q own (pure r) (pure r) := fun a b h => .silent a b h rfl rfl _

theorem inStep_throw (e : CheckFault) : InStep p q own (throw e : AnalysisM α) (throw e) :=
  fun a b h => .silent a b h rfl rfl _

theorem InStep.bind {x y : AnalysisM α} {f g : α → AnalysisM β} (hx : InStep p q own x y)
    (hf : ∀ r, InStep p q own (f r) (g r)) : InStep p q own (x >>= f) (y >>= g) := by
  intro a b hab
  have hfirst := hx a b hab
  rw [run_bind, run_bind]
  generalize x.run.run a = ra at hfirst ⊢
  generalize y.run.run b = rb at hfirst ⊢
  obtain ⟨r, a'⟩ := ra
  obtain ⟨s, b'⟩ := rb
  obtain ⟨hvalue, halike, ds, hda, hdb⟩ := hfirst
  obtain rfl : r = s := hvalue
  cases r with
  | error e => exact ⟨rfl, halike, ds, hda, hdb⟩
  | ok r =>
    obtain ⟨hvalue, halike, es, hea, heb⟩ := hf r a' b' halike
    refine ⟨hvalue, halike, ds ++ es, ?_, ?_⟩
    · rw [hea, hda, List.append_assoc]
    · rw [heb, hdb, List.append_assoc]

theorem inStep_forIn {xs : List α} {f g : α → PUnit → AnalysisM (ForInStep PUnit)}
    (h : ∀ x ∈ xs, InStep p q own (f x ⟨⟩) (g x ⟨⟩)) :
    InStep p q own (forIn xs PUnit.unit f) (forIn xs PUnit.unit g) := by
  induction xs with
  | nil => exact inStep_pure _
  | cons x xs ih =>
    rw [List.forIn_cons, List.forIn_cons]
    refine (h x (List.mem_cons_self ..)).bind fun r => ?_
    cases r with
    | done _ => exact inStep_pure _
    | yield _ => exact ih fun y hy => h y (List.mem_cons_of_mem _ hy)

/-- A change that neither scopes nor types nor reports are affected by. -/
theorem inStep_modify {f : Analysis → Analysis}
    (hf : ∀ a, (f a).table = a.table ∧ (f a).lowering = a.lowering ∧ (f a).diagnostics = a.diagnostics) :
    InStep p q own (modify f) (modify f) := by
  intro a b hab
  obtain ⟨hat, hal, had⟩ := hf a
  obtain ⟨hbt, hbl, hbd⟩ := hf b
  refine .silent a b ⟨⟨?_, ?_⟩, ⟨?_, ?_⟩, fun j hj => ?_⟩ had hbd _
  · rw [hal]
    exact hab.left.lowering
  · rw [hat]
    exact hab.left.linked
  · rw [hbl]
    exact hab.right.lowering
  · rw [hbt]
    exact hab.right.linked
  · rw [Analysis.view, Analysis.view, hat, hbt]
    exact hab.scopes j hj

theorem inStep_report (d : Diagnostic) : InStep p q own (report d) (report d) := by
  intro a b hab
  refine ⟨rfl, ⟨⟨hab.left.lowering, hab.left.linked⟩, ⟨hab.right.lowering, hab.right.linked⟩, hab.scopes⟩, [d],
    ?_, ?_⟩
  · exact Array.toList_push
  · exact Array.toList_push

theorem inStep_point (name detail : Text) : InStep p q own (point name detail) (point name detail) :=
  inStep_modify fun _ => ⟨rfl, rfl, rfl⟩

/-- The numbers of spans may differ. -/
theorem inStep_inSpan {scope : Trace.EventScope} {name : Text} {f g : Nat → AnalysisM Unit}
    (h : ∀ s t, InStep p q own (f s) (g t)) : InStep p q own (inSpan scope name f) (inSpan scope name g) := by
  intro a b hab
  have hinside : Alike p q own (a.inside scope name) (b.inside scope name) :=
    ⟨hab.left.inside scope name, hab.right.inside scope name, hab.scopes⟩
  obtain ⟨hvalue, halike, hreports⟩ := h (a.spans + 1) (b.spans + 1) _ _ hinside
  rw [run_inSpan, run_inSpan]
  exact ⟨hvalue, ⟨⟨halike.left.lowering, halike.left.linked⟩, ⟨halike.right.lowering, halike.right.linked⟩,
    halike.scopes⟩, hreports⟩

/-! ## Scopes -/

variable {owner : DeclId}

theorem inStep_lookup? (hown : own owner) (name : NameId) :
    InStep p q own (lookup? owner name) (lookup? owner name) := by
  intro a b hab
  have hvalue : (a.view owner).bind (·.lookup? name) = (b.view owner).bind (·.lookup? name) := by
    rw [hab.scopes owner hown]
  exact ⟨congrArg Except.ok hvalue, hab, [], (List.append_nil _).symm, (List.append_nil _).symm⟩

/-- The scopes that are agreed on change in the same way. -/
theorem Alike.modifyScope {a b : Analysis} (hab : Alike p q own a b) (hown : own owner)
    {g : Scope → Scope} (hg : ∀ s, (g s).owner = s.owner) :
    Alike p q own { a with table := a.table.modifyScope owner g }
      { b with table := b.table.modifyScope owner g } := by
  refine ⟨⟨hab.left.lowering, hab.left.linked.modifyScope owner hg⟩,
    ⟨hab.right.lowering, hab.right.linked.modifyScope owner hg⟩, fun j hj => ?_⟩
  have hview : ∀ c : Analysis, c.table.Backlinked → (c.table.modifyScope owner g).scopeOf? j =
      Function.update c.view owner ((c.view owner).map g) j :=
    fun c hc => congrFun (hc.scopeOf?_modifyScope owner g) j
  dsimp only [Analysis.view]
  rw [hview a hab.left.linked, hview b hab.right.linked, hab.scopes owner hown]
  by_cases he : j = owner
  · subst he
    simp only [Function.update_self]
  · simp only [Function.update_of_ne he]
    exact hab.scopes j hj

theorem inStep_bind (hown : own owner) (name : NameId) (id : DeclId) :
    InStep p q own (AnalysisM.bind owner name id) (AnalysisM.bind owner name id) :=
  fun a b hab => .silent a b (hab.modifyScope hown fun s => s.enter_owner name id) rfl rfl _

theorem inStep_beginScope (hown : own owner) :
    InStep p q own (beginScope owner) (beginScope owner) := by
  have hget : ∀ c : Analysis, (get : AnalysisM Analysis).run.run c = (.ok c, c) := fun _ => rfl
  have herror : ∀ (c : Analysis) (e : ScopeError), c.table.begin owner = .error e →
      (beginScope owner).run.run c = (.error (.scope e), c) := by
    intro c e he
    simp only [beginScope, run_bind, hget, he]
    rfl
  have hok : ∀ (c : Analysis) (table : ScopeTable), c.table.begin owner = .ok table →
      (beginScope owner).run.run c = (.ok (), { c with table }) := by
    intro c table ht
    simp only [beginScope, run_bind, hget, ht]
    rfl
  intro a b hab
  have hscopes : a.table.scopeOf? owner = b.table.scopeOf? owner := hab.scopes owner hown
  cases hb : b.table.scopeOf? owner with
  | none =>
    rw [hb] at hscopes
    rw [herror a (.noScope owner) (by simp only [ScopeTable.begin, hscopes]),
      herror b (.noScope owner) (by simp only [ScopeTable.begin, hb])]
    exact .silent a b hab rfl rfl _
  | some s =>
    rw [hb] at hscopes
    cases hfilled : s.filled with
    | true =>
      rw [herror a (.filledTwice owner) (by simp only [ScopeTable.begin, hscopes, hfilled, if_true]),
        herror b (.filledTwice owner) (by simp only [ScopeTable.begin, hb, hfilled, if_true])]
      exact .silent a b hab rfl rfl _
    | false =>
      have hbegin : ∀ c : Analysis, c.table.scopeOf? owner = some s → c.table.begin owner =
          .ok (c.table.modifyScope owner fun s => { s with filled := true }) := by
        intro c hc
        simp [ScopeTable.begin, hc, hfilled]
      rw [hok a _ (hbegin a hscopes), hok b _ (hbegin b hb)]
      exact .silent a b (hab.modifyScope (g := fun s => { s with filled := true }) hown fun _ => rfl)
        rfl rfl _

end Steps

/-! ## Reports -/

section Reports

variable {p q : Program} {own : DeclId → Prop} (h : p.Twin q)
include h

theorem inStep_decl (id : DeclId) : InStep p q own (decl p id) (decl q id) := by
  unfold decl
  rw [h.decl?]
  cases p.tree.decl? id with
  | none => exact inStep_throw _
  | some d => exact inStep_pure d

theorem inStep_sameSignature (ht : p.tree.TypesOrdered) (x y : DeclId) :
    InStep p q own (sameSignature p x y) (sameSignature q x y) := by
  intro a b hab
  obtain ⟨hafter, hsame⟩ := Lowering.sameSignature_spec ht hab.left.lowering x y
  obtain ⟨hafter', hsame'⟩ := Lowering.sameSignature_spec (h.typesOrdered ht) hab.right.lowering x y
  have hvalue : q.tree.sameSignature x y = p.tree.sameSignature x y := by
    simp only [Tree.sameSignature, h.functionShape?]
  refine ⟨congrArg Except.ok ?_, ⟨⟨hafter.sound, hab.left.linked⟩, ⟨hafter'.sound, hab.right.linked⟩, hab.scopes⟩,
    [], (List.append_nil _).symm, (List.append_nil _).symm⟩
  exact hsame.trans (hvalue.symm.trans hsame'.symm)

theorem inStep_reportConflict (id prev : DeclId) :
    InStep p q own (reportConflict p id prev) (reportConflict q id prev) := by
  unfold reportConflict
  rw [h.nameOf]
  exact (inStep_decl h id).bind fun d => (inStep_decl h prev).bind fun old => inStep_report _

/-- The numbers of types may differ, but not the label of a signature. -/
theorem inStep_reportOverride (ht : p.tree.TypesOrdered) (id base : DeclId) :
    InStep p q own (reportOverride p id base) (reportOverride q id base) := by
  unfold reportOverride
  rw [h.nameOf, h.names]
  refine (inStep_decl h id).bind fun d => ?_
  dsimp only
  generalize Diagnostic.error .overrideMismatch d.name.span _ = problem
  generalize Text.ofString "overridden declaration here: " = lead
  -- Only the label of the signature is used of what was remembered.
  have hnote : ∀ (r : Program) (c : Analysis) (sig : Signature) (f : FunctionShape),
      c.lowering.store.signatureLabel p.tree.names sig = f.label p.tree.names →
      (do
        let b ← decl r base
        let c ← get
        report (problem.withNote b.name.span
          (lead ++ c.lowering.store.signatureLabel p.tree.names sig)) : AnalysisM Unit).run.run c =
      (do
        let b ← decl r base
        report (problem.withNote b.name.span
          (lead ++ f.label p.tree.names)) : AnalysisM Unit).run.run c := by
    intro r c sig f hlabel
    have hget : (get : AnalysisM Analysis).run.run c = (.ok c, c) := rfl
    have hdecl : ∃ o, (decl r base).run.run c = (o, c) := by
      unfold decl
      cases r.tree.decl? base with
      | none => exact ⟨_, rfl⟩
      | some e => exact ⟨_, rfl⟩
    obtain ⟨o, ho⟩ := hdecl
    rw [run_bind, run_bind, ho]
    cases o with
    | error e => rfl
    | ok e =>
      dsimp only
      rw [run_bind, hget]
      dsimp only
      rw [hlabel]
  intro a b hab
  obtain ⟨hafter, hsig⟩ := Lowering.signature_spec ht hab.left.lowering base
  obtain ⟨hafter', hsig'⟩ := Lowering.signature_spec (h.typesOrdered ht) hab.right.lowering base
  rw [h.functionShape?] at hsig'
  have hrun : ∀ (r : Program) (c : Analysis), (signature r base).run.run c =
      (.ok (c.lowering.signature r.tree base).2,
        { c with lowering := (c.lowering.signature r.tree base).1 }) := fun _ _ => rfl
  rw [run_bind, run_bind, hrun, hrun]
  dsimp only
  have halike : Alike p q own { a with lowering := (a.lowering.signature p.tree base).1 }
      { b with lowering := (b.lowering.signature q.tree base).1 } :=
    ⟨⟨hafter.sound, hab.left.linked⟩, ⟨hafter'.sound, hab.right.linked⟩, hab.scopes⟩
  generalize a.lowering.signature p.tree base = ra at hafter hsig halike ⊢
  generalize b.lowering.signature q.tree base = rb at hafter' hsig' halike ⊢
  obtain ⟨la, sa⟩ := ra
  obtain ⟨lb, sb⟩ := rb
  dsimp only at hafter hafter' hsig hsig' halike ⊢
  generalize p.tree.functionShape? base = shape at hsig hsig'
  cases hsig with
  | none =>
    cases hsig'
    exact (inStep_report problem _ _ halike).since rfl rfl
  | some hsig =>
    cases hsig' with
    | some hsig' =>
      have hlabel := TypeStore.signatureLabel_eq hafter.sound.store p.tree.names hsig
      have hlabel' := TypeStore.signatureLabel_eq hafter'.sound.store p.tree.names hsig'
      dsimp only
      rw [hnote p { a with lowering := la } _ _ hlabel, hnote q { b with lowering := lb } _ _ hlabel']
      exact ((inStep_decl h base).bind (fun b => inStep_report _) _ _ halike).since rfl rfl

theorem inStep_reportNotDeclared (ident : Ident) (kind : LookupKind) :
    InStep p q own (reportNotDeclared p ident kind) (reportNotDeclared q ident kind) := by
  unfold reportNotDeclared
  rw [h.names]
  exact inStep_report _

theorem inStep_reportNotImplemented (cls : DeclId) (iface : Ident) (method : DeclId) :
    InStep p q own (reportNotImplemented p cls iface method)
      (reportNotImplemented q cls iface method) := by
  unfold reportNotImplemented
  rw [h.nameOf, h.nameOf, h.names]
  exact (inStep_decl h method).bind fun m => inStep_report _

end Reports

/-! ## Rules -/

section Rules

variable {p q : Program} {own : DeclId → Prop} (h : p.Twin q) (ht : p.tree.TypesOrdered) {owner : DeclId}
include h

theorem inStep_enter? (hown : own owner) (id : DeclId) :
    InStep p q own (enter? p owner id) (enter? q owner id) := by
  unfold enter?
  refine (inStep_decl h id).bind fun d => (inStep_lookup? hown _).bind fun found => ?_
  cases found with
  | some prev => exact inStep_pure _
  | none => exact (inStep_bind hown _ id).bind fun _ => inStep_pure _

theorem inStep_enterMember (hown : own owner) (id : DeclId) :
    InStep p q own (enterMember p owner id) (enterMember q owner id) := by
  unfold enterMember
  refine (inStep_enter? h hown id).bind fun found => ?_
  cases found with
  | some prev => exact inStep_reportConflict h id prev
  | none => exact inStep_pure _

theorem inStep_validateType (id : TypeExprId) :
    InStep p q own (validateType p id) (validateType q id) := by
  unfold validateType
  rw [h.types, h.baseName?]
  split
  · exact inStep_pure _
  · rw [h.lookup]
    split
    · exact inStep_reportNotDeclared h _ _
    · refine (inStep_decl h _).bind fun d => ?_
      split
      · exact inStep_pure _
      · exact inStep_reportNotDeclared h _ _

theorem inStep_reportChainEnd (stop : ChainEnd) :
    InStep p q own (reportChainEnd p stop) (reportChainEnd q stop) := by
  unfold reportChainEnd
  cases stop with
  | root => exact inStep_pure _
  | unnamed => exact inStep_pure _
  | undeclared ident => exact inStep_reportNotDeclared h ident _
  | notClass id =>
    dsimp only
    rw [h.nameOf id]
    exact inStep_point _ _
  | cycle id =>
    dsimp only
    rw [h.nameOf id]
    exact inStep_point _ _

include ht

theorem inStep_checkInherited (entry inherited : DeclId) :
    InStep p q own (checkInherited p entry inherited) (checkInherited q entry inherited) := by
  unfold checkInherited
  refine (inStep_decl h entry).bind fun e => (inStep_decl h inherited).bind fun i => ?_
  split
  · exact inStep_reportConflict h entry inherited
  · refine (inStep_sameSignature h ht entry inherited).bind fun same => ?_
    split
    · exact inStep_pure _
    · exact inStep_reportOverride h ht entry inherited

theorem inStep_shadowed (hown : own owner) (ms : List DeclId) :
    InStep p q own (shadowed p owner ms) (shadowed q owner ms) := by
  induction ms with
  | nil => exact inStep_pure []
  | cons m ms ih =>
    unfold shadowed
    refine (inStep_decl h m).bind fun d => (inStep_lookup? hown _).bind fun found => ?_
    cases found with
    | none => exact ih.bind fun rest => inStep_pure _
    | some entry => exact (inStep_checkInherited h ht entry m).bind fun _ => ih

theorem inStep_inherit (hown : own owner) (c : ClassDecl) :
    InStep p q own (inherit p owner c) (inherit q owner c) := by
  have hfrom : ∀ base, InStep p q own (inheritFrom p owner base) (inheritFrom q owner base) := by
    intro base
    unfold inheritFrom
    rw [h.children]
    refine (inStep_shadowed h ht hown _).bind fun free => ?_
    exact (inStep_forIn fun m _ => (inStep_enter? h hown m).bind fun _ => inStep_pure _).bind
      fun _ => inStep_pure _
  unfold inherit
  rw [h.bases]
  dsimp only
  refine (inStep_forIn fun base _ => (hfrom base).bind fun _ => inStep_pure _).bind fun _ => ?_
  exact inStep_reportChainEnd h _

theorem inStep_checkMethod (hown : own owner) (iface : Ident) (method : DeclId) :
    InStep p q own (checkMethod p owner iface method) (checkMethod q owner iface method) := by
  unfold checkMethod
  refine (inStep_decl h method).bind fun m => (inStep_lookup? hown _).bind fun found => ?_
  cases found with
  | none => exact inStep_reportNotImplemented h owner iface method
  | some entry =>
    refine (inStep_decl h entry).bind fun e => ?_
    split
    · exact inStep_reportConflict h method entry
    · refine (inStep_sameSignature h ht entry method).bind fun same => ?_
      split
      · exact inStep_pure _
      · exact inStep_reportOverride h ht entry method

theorem inStep_conform (hown : own owner) (type : TypeExprId) :
    InStep p q own (conform p owner type) (conform q owner type) := by
  have hinterface : q.tree.interface? = p.tree.interface? := funext h.interface?
  unfold conform
  rw [h.namedType?]
  split
  · exact inStep_pure _
  · rw [h.lookup, hinterface]
    split
    · exact inStep_reportNotDeclared h _ _
    · exact (inStep_forIn fun m _ =>
        (inStep_checkMethod h ht hown _ m).bind fun _ => inStep_pure _).bind fun _ => inStep_pure _

theorem inStep_declareClass (hown : own owner) (name : NameId) (c : ClassDecl) :
    InStep p q own (declareClass p owner name c) (declareClass q owner name c) := by
  unfold declareClass
  refine (inStep_beginScope hown).bind fun _ => (inStep_bind hown name owner).bind fun _ => ?_
  refine (inStep_forIn fun m _ =>
    (inStep_enterMember h hown m).bind fun _ => inStep_pure _).bind fun _ => ?_
  refine (inStep_inherit h ht hown c).bind fun _ => ?_
  exact (inStep_forIn fun type _ => (inStep_conform h ht hown type).bind fun _ => inStep_pure _).bind
    fun _ => inStep_pure _

end Rules

/-! ## Declarations -/

section Declarations

variable {p q : Program} {own : DeclId → Prop} (h : p.Twin q) (hb : p.tree.Built 0) {id : DeclId} {d : Decl}
include h

theorem inStep_variable (hd : p.tree.decl? id = some d) {type : TypeExprId}
    (hsub : d.subject = .variable type) (depth : Nat) :
    InStep p q own (analyzeWithin p (depth + 1) id) (analyzeWithin q (depth + 1) id) := by
  rw [analyzeWithin, analyzeWithin]
  simp only [h.decl?, hd, hsub, h.nameOf]
  exact inStep_inSpan fun _ _ => inStep_validateType h type

include hb

theorem inStep_function (hd : p.tree.decl? id = some d) {g : FunctionDecl}
    (hsub : d.subject = .function g) (hown : own id) (depth : Nat) :
    InStep p q own (analyzeWithin p (depth + 2) id) (analyzeWithin q (depth + 2) id) := by
  obtain ⟨_, hformals, hstate, _⟩ := hb.fits hd hsub
  rw [analyzeWithin, analyzeWithin]
  simp only [h.decl?, hd, hsub, h.nameOf, hstate, ne_eq, not_true_eq_false, ↓reduceIte]
  refine inStep_inSpan fun _ _ => (inStep_beginScope hown).bind fun _ => ?_
  refine (inStep_forIn fun v hv => ?_).bind fun _ => (inStep_validateType h _).bind fun _ => ?_
  · obtain ⟨type, htype⟩ := Option.isSome_iff_exists.mp (hformals v hv)
    obtain ⟨e, he, hvar⟩ := Tree.subject_of_variableType? htype
    refine (inStep_enter? h hown v).bind fun found => ?_
    cases found with
    | some prev => exact (inStep_reportConflict h v prev).bind fun _ => inStep_pure _
    | none => exact (inStep_variable h he hvar depth).bind fun _ => inStep_pure _
  · split
    · exact inStep_modify fun _ => ⟨rfl, rfl, rfl⟩
    · exact inStep_pure _

/-- A variable or a function, as a member or on the top level. -/
theorem inStep_value (hd : p.tree.decl? id = some d)
    (hvalue : p.tree.isVariable id = true ∨ (p.tree.function? id).isSome) (hown : own id)
    (depth : Nat) :
    InStep p q own (analyzeWithin p (depth + 2) id) (analyzeWithin q (depth + 2) id) := by
  cases hsub : d.subject with
  | «variable» type => exact inStep_variable h hd hsub (depth + 1)
  | function g => exact inStep_function h hb hd hsub hown depth
  | «class» c =>
    simp [Tree.isVariable, Tree.variableType?, Tree.function?, hd, Decl.variableType?,
      Decl.function?, hsub] at hvalue
  | interface ms =>
    simp [Tree.isVariable, Tree.variableType?, Tree.function?, hd, Decl.variableType?,
      Decl.function?, hsub] at hvalue

theorem inStep_class (hd : p.tree.decl? id = some d) {c : ClassDecl} (hsub : d.subject = .class c)
    (hown : ∀ j ∈ id :: c.members, own j) (depth : Nat) :
    InStep p q own (analyzeWithin p (depth + 3) id) (analyzeWithin q (depth + 3) id) := by
  obtain ⟨_, _, hmembers⟩ := hb.fits hd hsub
  have hchildren : p.tree.children id = c.members := Tree.children_of_subject hd hsub
  rw [analyzeWithin, analyzeWithin]
  simp only [h.decl?, hd, hsub, h.nameOf]
  refine inStep_inSpan fun _ _ => ?_
  refine (inStep_declareClass h hb.typesOrdered (hown id (List.mem_cons_self ..)) _ c).bind
    fun _ => ?_
  refine (inStep_forIn fun m hm => ?_).bind fun _ => inStep_pure _
  obtain ⟨e, he⟩ := Option.isSome_iff_exists.mp (hb.isSome_of_mem_children m (hchildren ▸ hm))
  exact (inStep_value h hb he (hmembers m hm) (hown m (List.mem_cons_of_mem _ hm)) depth).bind
    fun _ => inStep_pure _

omit hb in
theorem inStep_interface (hd : p.tree.decl? id = some d) {ms : List DeclId}
    (hsub : d.subject = .interface ms) (hown : own id) (depth : Nat) :
    InStep p q own (analyzeWithin p (depth + 1) id) (analyzeWithin q (depth + 1) id) := by
  rw [analyzeWithin, analyzeWithin]
  simp only [h.decl?, hd, hsub, h.nameOf]
  refine inStep_inSpan fun _ _ => (inStep_beginScope hown).bind fun _ => ?_
  exact (inStep_forIn fun m _ => (inStep_enterMember h hown m).bind fun _ => inStep_pure _).bind
    fun _ => inStep_pure _

/-- The analysis of a declaration depends on no scopes but those that it fills. -/
theorem inStep_analyze (hd : p.tree.decl? id = some d) (hown : ∀ j ∈ p.touched id, own j) :
    InStep p q own (analyze p id) (analyze q id) := by
  obtain ⟨k, hk⟩ : ∃ k, p.tree.decls.size = k + 1 := by
    have hle := Tree.decl?_le hd
    exact Nat.exists_eq_add_one.mpr (Nat.lt_of_lt_of_le hle.1 hle.2)
  unfold analyze
  rw [h.decls, hk]
  cases hsub : d.subject with
  | «class» c =>
    have htouched : p.touched id = id :: c.members := by
      simp [Program.touched, Tree.class?, hd, Decl.class?, hsub]
    exact inStep_class h hb hd hsub (htouched ▸ hown) k
  | «variable» type => exact inStep_variable h hd hsub _
  | interface ms =>
    have htouched : p.touched id = [id] := by
      simp [Program.touched, Tree.class?, hd, Decl.class?, hsub]
    exact inStep_interface h hd hsub (hown id (by simp [htouched])) _
  | function g =>
    have htouched : p.touched id = [id] := by
      simp [Program.touched, Tree.class?, hd, Decl.class?, hsub]
    exact inStep_function h hb hd hsub (hown id (by simp [htouched])) _

end Declarations

end AnalysisM

end DeclCheck

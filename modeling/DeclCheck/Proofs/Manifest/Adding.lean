import DeclCheck.Proofs.Manifest.Outline

/-!
# What steps of loading add

Loading adds to a tree and takes nothing away, whatever tree it starts from. A step of it is described by the
outlines of what it loads: the declarations that were there stay as they are, each name of the outlines is
that of one new declaration, and all new declarations but those of the outlines themselves lie inside others.
-/
namespace DeclCheck

namespace Tree

/-- A tree with one more declaration, which has become the parent of its children. -/
structure Gains (t u : Tree) (d : Decl) : Prop where
  names : u.names = t.names
  units : u.units = t.units
  types : u.types = t.types
  size : u.decls.size = t.decls.size + 1
  decl?_eq : ∀ i : Nat, u.decl? i =
    if i = t.decls.size + 1 then some d
    else if i ∈ d.children then (t.decl? i).map fun e => { e with parent := t.decls.size + 1 }
    else t.decl? i

variable {t u : Tree} {d : Decl}

theorem addDecl_gains (name : Ident) (span : Span) (subject : Subject) (hn : subject.children.Nodup)
    (hc : ∀ c ∈ subject.children, t.parent? c = some 0) :
    ∃ u, t.addDecl name span subject = (u, .ok (t.decls.size + 1)) ∧ t.Gains u { name, span, subject } := by
  obtain ⟨ds, hadd, hsize, hget⟩ := addDecl_eq (t := t) name span subject hn fun c hmem =>
    parent?_eq_some.mp (hc c hmem)
  exact ⟨_, hadd, rfl, rfl, rfl, hsize, hget⟩

theorem Gains.addBlock (h : t.Gains u d) (span : Span) (cs : List BlockId) : t.Gains (u.addBlock span cs).1 d :=
  ⟨h.names, h.units, h.types, h.size, h.decl?_eq⟩

theorem Gains.decl?_new (h : t.Gains u d) : u.decl? (t.decls.size + 1) = some d := by
  rw [h.decl?_eq, if_pos rfl]

/-- The function that was gained gets its body. -/
theorem Gains.attachBody (h : t.Gains u d) {f : FunctionDecl} (hf : d.subject = .function f)
    (hs : f.state = .signatureOnly) {body : BlockId} (hb : body ≠ 0) :
    ∃ v, u.attachBody (t.decls.size + 1) body = (v, .ok ()) ∧
      t.Gains v { d with subject := .function { f with body, state := .complete } } := by
  refine ⟨u.modifyDecl (t.decls.size + 1) fun d =>
    { d with subject := .function { f with body, state := .complete } }, ?_, h.names, h.units, h.types, ?_, ?_⟩
  · unfold Tree.attachBody
    rw [function?_eq_some h.decl?_new hf]
    simp only [hs, ne_eq, not_true_eq_false, ↓reduceIte, hb]
  · simp [modifyDecl, h.size]
  · intro i
    refine (numbered?_modify u.decls _ (Nat.succ_pos _) i).trans ?_
    have hget := h.decl?_eq i
    unfold decl? at hget
    have hchildren : d.children = f.formals := by rw [Decl.children, hf, Subject.children]
    rw [hget, hchildren]
    by_cases hi : i = t.decls.size + 1
    · simp only [hi, ↓reduceIte, Option.map_some]
    · simp only [hi, ↓reduceIte]
      rfl

/-- All that was there is there, but the children have a parent. -/
theorem Gains.grows (h : t.Gains u d) : t.Grows u := by
  constructor
  · intro id e he
    rw [type?, h.types]
    exact he
  · intro i e he
    have hle := decl?_le he
    rw [h.decl?_eq, if_neg (by omega), he]
    by_cases hi : i ∈ d.children
    · exact ⟨t.decls.size + 1, if_pos hi⟩
    · exact ⟨e.parent, if_neg hi⟩

theorem Gains.parent?_eq (h : t.Gains u d) {i p : Nat} (hi : t.parent? i = some p) :
    u.parent? i = some (if i ∈ d.children then t.decls.size + 1 else p) := by
  obtain ⟨e, he, rfl⟩ := parent?_eq_some.mp hi
  have hle := decl?_le he
  rw [parent?, h.decl?_eq, if_neg (by omega), he]
  split <;> rfl

end Tree

namespace Manifest

open Outline

variable [Text.NormalForm]

/-! ## Steps -/

/-- Steps of loading what has the outlines `os`, with the declarations that they leave without a parent. -/
structure Adds (s t : LoadState) (os : List Outline) (new : List DeclId) : Prop where
  ext : Extends s.tree t.tree
  units : t.tree.units = s.tree.units
  size : t.tree.decls.size = s.tree.decls.size + (sources os).length
  old : ∀ i : Nat, i ≤ s.tree.decls.size → t.tree.decl? i = s.tree.decl? i
  loose : new = (List.range' (s.tree.decls.size + 1) (sources os).length).filter fun i => t.tree.parent? i == some 0
  inside : ∀ i : Nat, s.tree.decls.size < i → i ≤ t.tree.decls.size →
    ∃ p : Nat, t.tree.parent? i = some p ∧ (p ≠ 0 → i < p ∧ p ≤ t.tree.decls.size)
  shown : AllShown t.tree os new
  named : ∀ (k : Nat) (role : Role) (text : Text), (sources os)[k]? = some (role, text) →
    ∃ d, t.tree.decl? (s.tree.decls.size + k + 1) = some d ∧ d.kind = role.declKind ∧
      t.tree.names.get? d.name.name = some text.normal
  reported : ∃ l, t.diagnostics.toList = s.diagnostics.toList ++ l ∧ l.filter isSkip = errors os

section Adding

variable {s t u : LoadState} {os os' : List Outline} {new new' : List DeclId}

/-- Steps that leave the declarations as they are load nothing but what is skipped. -/
theorem Adds.of_decls_eq (hnone : sources os = []) (hshown : AllShown t.tree os []) (hext : Extends s.tree t.tree)
    (hunits : t.tree.units = s.tree.units) (hdecls : t.tree.decls = s.tree.decls)
    (hreported : ∃ l, t.diagnostics.toList = s.diagnostics.toList ++ l ∧ l.filter isSkip = errors os) :
    Adds s t os [] := by
  refine ⟨hext, hunits, ?_, ?_, ?_, ?_, hshown, ?_, hreported⟩
  · rw [hdecls, hnone]
    rfl
  · intro i _
    rw [Tree.decl?, hdecls]
    rfl
  · rw [hnone]
    rfl
  · intro i hlt hle
    rw [hdecls] at hle
    omega
  · intro k role text hk
    rw [hnone] at hk
    cases hk

theorem Adds.refl (s : LoadState) : Adds s s [] [] :=
  .of_decls_eq rfl .nil ⟨.refl _, fun _ _ h => h⟩ rfl rfl ⟨[], (List.append_nil _).symm, rfl⟩

theorem Adds.parent?_eq (h : Adds t u os new) {i : Nat} (hi : i ≤ t.tree.decls.size) :
    u.tree.parent? i = t.tree.parent? i := by
  rw [Tree.parent?, h.old i hi, Tree.parent?]

theorem Adds.trans (h : Adds s t os new) (k : Adds t u os' new') : Adds s u (os ++ os') (new ++ new') := by
  have hsize := h.size
  have hsize' := k.size
  refine ⟨h.ext.trans k.ext, k.units.trans h.units, ?_, ?_, ?_, ?_, ?_, ?_, ?_⟩
  · rw [sources_append, List.length_append]
    omega
  · intro i hi
    rw [k.old i (by omega), h.old i hi]
  · have hfirst : ∀ i ∈ List.range' (s.tree.decls.size + 1) (sources os).length,
        (u.tree.parent? i == some 0) = (t.tree.parent? i == some 0) := by
      intro i hi
      rw [List.mem_range'_1] at hi
      rw [k.parent?_eq (by omega)]
    rw [sources_append, List.length_append, ← List.range'_append_1, List.filter_append,
      List.filter_congr hfirst, ← h.loose, Nat.add_right_comm, ← hsize, ← k.loose]
  · intro i hlt hle
    by_cases hi : i ≤ t.tree.decls.size
    · obtain ⟨p, hp, hin⟩ := h.inside i hlt hi
      refine ⟨p, (k.parent?_eq hi).trans hp, fun hne => ?_⟩
      have := hin hne
      omega
    · exact k.inside i (by omega) hle
  · exact (h.shown.extend k.ext).append k.shown
  · intro n role text hn
    rw [sources_append] at hn
    by_cases hlt : n < (sources os).length
    · rw [List.getElem?_append_left hlt] at hn
      obtain ⟨d, hd, hkind, hname⟩ := h.named n role text hn
      refine ⟨d, ?_, hkind, k.ext.names _ _ hname⟩
      rw [k.old _ (by omega), hd]
    · rw [List.getElem?_append_right (by omega)] at hn
      obtain ⟨d, hd, hrest⟩ := k.named _ role text hn
      have hnumber : s.tree.decls.size + n + 1 = t.tree.decls.size + (n - (sources os).length) + 1 := by omega
      exact ⟨d, by rw [hnumber, hd], hrest⟩
  · obtain ⟨l, hl, hskips⟩ := h.reported
    obtain ⟨l', hl', hskips'⟩ := k.reported
    refine ⟨l ++ l', by rw [hl', hl, List.append_assoc], ?_⟩
    rw [List.filter_append, hskips, hskips', errors_append]

theorem Adds.followedBy (h : Adds s t os new) (k : Adds t u [] []) : Adds s u os new := by
  have htrans := h.trans k
  rwa [List.append_nil, List.append_nil] at htrans

theorem Adds.mem_new (h : Adds s t os new) {i : Nat} (hi : i ∈ new) :
    s.tree.decls.size < i ∧ i ≤ t.tree.decls.size ∧ t.tree.parent? i = some 0 := by
  rw [h.loose, List.mem_filter, List.mem_range'_1, beq_iff_eq] at hi
  have := h.size
  exact ⟨by omega, by omega, hi.2⟩

theorem Adds.sorted (h : Adds s t os new) : new.Pairwise (· < ·) := by
  rw [h.loose]
  exact List.Pairwise.filter _ (List.pairwise_lt_range' ..)

/-- A declaration takes what was loaded before it as its children. -/
theorem Adds.gain (h : Adds s t os new) {v : Tree} {d : Decl} (hv : t.tree.Gains v d) (hchildren : d.children = new)
    (hparent : d.parent = 0) {role : Role} {text : Text} (hkind : d.kind = role.declKind)
    (hname : t.tree.names.get? d.name.name = some text.normal) :
    Adds s { t with tree := v } [.kept role text os] [t.tree.decls.size + 1] := by
  have hsize := h.size
  have hext : Extends t.tree v := ⟨hv.grows, fun i text hi => by rw [hv.names]; exact hi⟩
  have hnew : v.parent? (t.tree.decls.size + 1) = some 0 := by
    rw [Tree.parent?, hv.decl?_new, ← hparent]
    rfl
  have hname' : v.names.get? d.name.name = some text.normal := hext.names _ _ hname
  -- What was without a parent before has one now.
  have hinside : ∀ i : Nat, s.tree.decls.size < i → i ≤ t.tree.decls.size →
      ∃ p : Nat, v.parent? i = some p ∧ i < p ∧ p ≤ t.tree.decls.size + 1 := by
    intro i hlt hle
    obtain ⟨p, hp, hin⟩ := h.inside i hlt hle
    refine ⟨_, hv.parent?_eq hp, ?_⟩
    split
    · omega
    · next hnot =>
      have hne : p ≠ 0 := by
        rintro rfl
        refine hnot ?_
        rw [hchildren, h.loose, List.mem_filter, List.mem_range'_1, beq_iff_eq]
        exact ⟨by omega, hp⟩
      have := hin hne
      omega
  refine ⟨h.ext.trans hext, hv.units.trans h.units, ?_, ?_, ?_, ?_, ?_, ?_, ?_⟩
  · rw [sources_kept, List.length_append, List.length_singleton, hv.size]
    omega
  · intro i hi
    have hnot : i ∉ d.children := by
      intro hmem
      have := h.mem_new (hchildren ▸ hmem)
      omega
    rw [hv.decl?_eq, if_neg (by omega), if_neg hnot, h.old i hi]
  · have hnone : (List.range' (s.tree.decls.size + 1) (sources os).length).filter
        (fun i => v.parent? i == some 0) = [] := by
      rw [List.filter_eq_nil_iff]
      intro i hi hzero
      rw [List.mem_range'_1] at hi
      rw [beq_iff_eq] at hzero
      obtain ⟨p, hp, hlt, -⟩ := hinside i (by omega) (by omega)
      cases hzero.symm.trans hp
      omega
    have hlast : s.tree.decls.size + 1 + (sources os).length = t.tree.decls.size + 1 := by omega
    rw [sources_kept, List.length_append, List.length_singleton, List.range'_1_concat, List.filter_append, hnone,
      List.nil_append, hlast, List.filter_singleton, hnew]
    rfl
  · intro i hlt hle
    rw [hv.size] at hle ⊢
    by_cases hi : i = t.tree.decls.size + 1
    · exact ⟨0, hi ▸ hnew, fun hne => (hne rfl).elim⟩
    · obtain ⟨p, hp, hin⟩ := hinside i hlt (by omega)
      exact ⟨p, hp, fun _ => hin⟩
  · exact .keep (.kept hv.decl?_new hkind hname' (hchildren ▸ h.shown.extend hext)) .nil
  · intro n role' text' hn
    rw [sources_kept] at hn
    by_cases hlt : n < (sources os).length
    · rw [List.getElem?_append_left hlt] at hn
      obtain ⟨e, he, hkind', hnamed⟩ := h.named n role' text' hn
      obtain ⟨p, hp⟩ := hv.grows.decls _ _ he
      exact ⟨_, hp, hkind', hext.names _ _ hnamed⟩
    · obtain rfl : n = (sources os).length := by
        have hbound := (List.getElem?_eq_some_iff.mp hn).1
        rw [List.length_append, List.length_singleton] at hbound
        omega
      rw [List.getElem?_append_right (Nat.le_refl _), Nat.sub_self] at hn
      cases hn
      exact ⟨d, by rw [← hsize]; exact hv.decl?_new, hkind, hname'⟩
  · obtain ⟨l, hl, hskips⟩ := h.reported
    exact ⟨l, hl, hskips.trans (errors_kept role text os).symm⟩

end Adding

/-! ## Types -/

section Types

variable {s : LoadState} {file : SourceFile}

omit [Text.NormalForm] in
theorem ends_report {d : Diagnostic} {post : Unit → LoadState → Prop} :
    Ends (report d) s post ↔ post () { s with diagnostics := s.diagnostics.push d } := Iff.rfl

theorem Adds.report (s : LoadState) {d : Diagnostic} (hd : isSkip d = false) :
    Adds s { s with diagnostics := s.diagnostics.push d } [] [] := by
  refine .of_decls_eq rfl .nil ⟨.refl _, fun _ _ h => h⟩ rfl rfl ⟨[d], Array.toList_push, ?_⟩
  rw [List.filter_singleton, hd]
  rfl

theorem Adds.skip (s : LoadState) {d : Diagnostic} (hd : isSkip d = true) :
    Adds s { s with diagnostics := s.diagnostics.push d } [.skipped d] [] := by
  refine .of_decls_eq rfl (.skip .nil) ⟨.refl _, fun _ _ h => h⟩ rfl rfl ⟨[d], Array.toList_push, ?_⟩
  rw [List.filter_singleton, hd]
  rfl

theorem Adds.addType (s : LoadState) (e : TypeExpr) :
    Adds s { s with tree := (s.tree.addType e).1 } [] [] :=
  .of_decls_eq rfl .nil ⟨s.tree.grows_addType e, fun _ _ h => h⟩ rfl rfl ⟨[], (List.append_nil _).symm, rfl⟩

theorem ident_adds (text : Text) (span : Span) :
    Ends (build (·.ident text span)) s fun i t =>
      Adds s t [] [] ∧ t.tree.names.get? i.name = some text.normal := by
  rw [ends_build]
  refine ⟨.of_decls_eq rfl .nil ⟨⟨fun _ _ h => h, fun _ d h => ⟨d.parent, h⟩⟩, ?_⟩ rfl rfl ?_, ?_⟩
  · exact fun i name h => s.tree.names.get?_intern_of_get? text.normal h
  · exact ⟨[], (List.append_nil _).symm, rfl⟩
  · exact s.tree.names.get?_intern text.normal

/-- A type that is added is there. -/
theorem addType_adds (e : TypeExpr) :
    Ends (build (·.addType e)) s fun r t => Adds s t [] [] ∧ (t.tree.type? r).isSome := by
  rw [ends_build]
  refine ⟨.addType s e, ?_⟩
  rw [Tree.type?_added]
  rfl

theorem wrapArrays_adds (span : Span) (n : Nat) {id : TypeExprId} (hid : (s.tree.type? id).isSome) :
    Ends (wrapArrays span n id) s fun r t => Adds s t [] [] ∧ (t.tree.type? r).isSome := by
  induction n generalizing s id with
  | zero => exact ⟨.refl s, hid⟩
  | succ n ih =>
    have hne : id ≠ 0 := by
      rintro rfl
      cases hid
    have hadd : s.tree.addArray id span = ((s.tree.addType (.array id span)).1,
        .ok (s.tree.addType (.array id span)).2) := by
      simp only [Tree.addArray, hne, ↓reduceIte]
    unfold wrapArrays
    rw [ends_bind, ends_tryBuild hadd]
    refine (ih ?_).mono fun r t ht => ⟨(Adds.addType s _).followedBy ht.1, ht.2⟩
    rw [Tree.type?_added]
    rfl

theorem errorType_adds {d : Diagnostic} (hd : isSkip d = false) (span : Span) :
    Ends (do report d; build (·.addPrimitive .error span)) s fun r t =>
      Adds s t [] [] ∧ (t.tree.type? r).isSome := by
  rw [ends_bind, ends_report]
  exact (addType_adds _).mono fun r t ⟨ht, hr⟩ => ⟨(Adds.report s hd).followedBy ht, hr⟩

theorem typeOf_adds (node : Option Yaml.Node) (what : Text) (owner : Span) :
    Ends (typeOf file node what owner) s fun r t => Adds s t [] [] ∧ (t.tree.type? r).isSome := by
  unfold typeOf
  split
  · split
    · exact errorType_adds rfl owner
    · dsimp only
      split
      · rw [ends_bind]
        refine (addType_adds _).mono fun id t ⟨ht, hid⟩ => ?_
        exact (wrapArrays_adds _ _ hid).mono fun r u ⟨hu, hr⟩ => ⟨ht.followedBy hu, hr⟩
      · split
        · rw [ends_bind]
          refine (ident_adds _ _).mono fun ident t ⟨ht, _⟩ => ?_
          rw [ends_bind]
          refine (addType_adds _).mono fun id u ⟨hu, hid⟩ => ?_
          exact (wrapArrays_adds _ _ hid).mono fun r v ⟨hv, hr⟩ => ⟨(ht.followedBy hu).followedBy hv, hr⟩
        · exact errorType_adds rfl _
  · exact errorType_adds rfl owner

theorem namedType_adds (clause : Text) (node : Yaml.Node) :
    Ends (namedType file clause node) s fun _ t => Adds s t [] [] := by
  unfold namedType
  dsimp only
  split
  · rw [ends_bind]
    refine (ident_adds _ _).mono fun ident t ⟨ht, _⟩ => ?_
    exact (addType_adds _).mono fun r u ⟨hu, _⟩ => ht.followedBy hu
  · exact .report s rfl

theorem baseType_adds (node : Option Yaml.Node) :
    Ends (baseType file node) s fun _ t => Adds s t [] [] := by
  cases node with
  | none => exact .refl s
  | some n => exact namedType_adds _ n

theorem nameList_adds (node : Yaml.Node) : Ends (nameList file node) s fun _ t => Adds s t [] [] := by
  unfold nameList
  split
  · exact .refl s
  · exact .refl s
  · exact .report s rfl

theorem namedTypes_adds (clause : Text) (nodes : List Yaml.Node) :
    Ends (nodes.mapM (namedType file clause)) s fun _ t => Adds s t [] [] := by
  induction nodes generalizing s with
  | nil => exact .refl s
  | cons node nodes ih =>
    rw [List.mapM_cons, ends_bind]
    refine (namedType_adds clause node).mono fun i t ht => ?_
    rw [ends_bind]
    exact ih.mono fun ids u hu => ht.followedBy hu

theorem implemented_adds (node : Option Yaml.Node) :
    Ends (implemented file node) s fun _ t => Adds s t [] [] := by
  unfold implemented
  split
  · exact .refl s
  · next node =>
    rw [ends_bind]
    refine (nameList_adds node).mono fun nodes t ht => ?_
    rw [ends_bind]
    exact (namedTypes_adds _ nodes).mono fun ids u hu => ht.followedBy hu

end Types

/-! ## Declarations -/

section Declarations

variable {s t : LoadState} {file : SourceFile} {os : List Outline} {new : List DeclId} {name : Ident} {text : Text}

/-- A declaration is added without fail if its children are what was loaded before it. -/
theorem Adds.addDecl (h : Adds s t os new) (subject : Subject) (hchildren : subject.children = new) (span : Span)
    (role : Role) (hkind : subject.kind = role.declKind) (hname : t.tree.names.get? name.name = some text.normal) :
    ∃ u, t.tree.addDecl name span subject = (u, .ok (t.tree.decls.size + 1)) ∧
      t.tree.Gains u { name, span, subject } ∧
      Adds s { t with tree := u } [.kept role text os] [t.tree.decls.size + 1] := by
  have hnodup : subject.children.Nodup := by
    rw [hchildren]
    exact h.sorted.imp fun hlt => Nat.ne_of_lt hlt
  obtain ⟨u, hadd, hgains⟩ := Tree.addDecl_gains name span subject hnodup fun c hc =>
    (h.mem_new (hchildren ▸ hc)).2.2
  exact ⟨u, hadd, hgains, h.gain hgains hchildren rfl hkind hname⟩

theorem addVariable_adds (h : Adds s t [] []) {type : TypeExprId} (htype : (t.tree.type? type).isSome) (span : Span)
    (role : Role) (hrole : role.declKind = .variable) (hname : t.tree.names.get? name.name = some text.normal) :
    Ends (tryBuild (·.addVariable name type span)) t fun id u =>
      Adds s u [.kept role text []] [id] ∧ u.tree.isVariable id = true := by
  obtain ⟨u, hadd, hgains, hu⟩ := h.addDecl (.variable type) rfl span role hrole.symm hname
  have hne : type ≠ 0 := by
    rintro rfl
    cases htype
  have hvariable : t.tree.addVariable name type span = (u, .ok (t.tree.decls.size + 1)) := by
    simp only [Tree.addVariable, hne, ↓reduceIte, hadd]
  rw [ends_tryBuild hvariable]
  exact ⟨hu, by simp [Tree.isVariable, Tree.variableType?, hgains.decl?_new, Decl.variableType?]⟩

theorem loadFormals_nameless {f : FormalEntry} (hf : f.text.isEmpty = true) (fn : Ident) (number : Nat)
    (rest : List FormalEntry) (s : LoadState) :
    (loadFormals file fn number (f :: rest)).run.run s = (loadFormals file fn (number + 1) rest).run.run
      { s with diagnostics := s.diagnostics.push (f.nameless file (s.tree.names.get fn.name) number) } := by
  rw [FormalEntry.text] at hf
  rw [loadFormals]
  cases hname : f.name with
  | none => rfl
  | some n =>
    rw [hname] at hf
    have hempty : (Text.trim n.value).isEmpty = true := hf
    simp only [hempty, ↓reduceIte]
    rfl

theorem loadFormals_adds (entries : List FormalEntry) (number : Nat) {fn : Ident} {fnName : Text}
    (hfn : s.tree.names.get? fn.name = some fnName) :
    Ends (loadFormals file fn number entries) s fun ids t =>
      Adds s t (FormalEntry.outlines file fnName number entries) ids ∧ ∀ i ∈ ids, t.tree.isVariable i = true := by
  induction entries generalizing s number with
  | nil => exact ⟨.refl s, by simp⟩
  | cons f rest ih =>
    by_cases hf : f.text.isEmpty = true
    · have hget : s.tree.names.get fn.name = fnName := by rw [NameTable.get, hfn, Option.getD_some]
      have hskip := Adds.skip s (d := f.nameless file fnName number) rfl
      have hends := ih (number + 1) (hskip.ext.names _ _ hfn)
      unfold Ends
      rw [loadFormals_nameless hf, hget, FormalEntry.outlines, FormalEntry.outline, if_pos hf]
      exact hends.mono fun ids u hu => ⟨hskip.trans hu.1, hu.2⟩
    · obtain ⟨n, hn⟩ : ∃ n, f.name = some n := by
        cases hname : f.name with
        | some n => exact ⟨n, rfl⟩
        | none => exact (hf (by rw [FormalEntry.text, hname]; rfl)).elim
      have htext : f.text = Text.trim n.value := by rw [FormalEntry.text, hn]; rfl
      rw [FormalEntry.outlines, FormalEntry.outline, if_neg hf]
      unfold loadFormals
      rw [htext] at hf ⊢
      simp only [hn, if_neg hf]
      rw [ends_bind]
      refine (ident_adds _ _).mono fun ident t ht => ?_
      obtain ⟨ht, hident⟩ := ht
      rw [ends_bind]
      refine (typeOf_adds _ _ _).mono fun type u hu => ?_
      obtain ⟨hu, htype⟩ := hu
      rw [ends_bind]
      refine (addVariable_adds (ht.followedBy hu) htype _ .formal rfl (hu.ext.names _ _ hident)).mono fun id v hv => ?_
      obtain ⟨hv, hid⟩ := hv
      rw [ends_bind]
      refine (ih (number + 1) (hv.ext.names _ _ hfn)).mono fun ids w hw => ?_
      obtain ⟨hw, hids⟩ := hw
      refine ⟨hv.trans hw, ?_⟩
      intro i hi
      rcases List.mem_cons.mp hi with rfl | hi
      · exact hw.ext.grows.isVariable hid
      · exact hids i hi

theorem addPrototype_adds (h : Adds s t os new) (hv : ∀ v ∈ new, t.tree.isVariable v = true) {result : TypeExprId}
    (hr : (t.tree.type? result).isSome) (span : Span) (hname : t.tree.names.get? name.name = some text.normal) :
    Ends (tryBuild (·.addPrototype name result new span)) t fun id u =>
      Adds s u [.kept (.entry .fn) text os] [id] ∧ u.tree.isPrototype id = true := by
  obtain ⟨u, hadd, hgains, hu⟩ := h.addDecl
    (.function { result, formals := new, state := .complete, isPrototype := true }) rfl span (.entry .fn) rfl hname
  have hproto := addFunctionIn_eq hv hr .complete true name span
  rw [ends_tryBuild (hproto.trans hadd)]
  exact ⟨hu, by simp [Tree.isPrototype, Tree.function?_eq_some hgains.decl?_new rfl]⟩

theorem addFunction_adds (h : Adds s t os new) (hv : ∀ v ∈ new, t.tree.isVariable v = true) {result : TypeExprId}
    (hr : (t.tree.type? result).isSome) (span : Span) (hname : t.tree.names.get? name.name = some text.normal)
    (body : Span) :
    Ends (do
      let id ← tryBuild (·.addFunction name result new span)
      let block ← build (·.addBlock body [])
      tryBuild (·.attachBody id block)
      return id) t fun id u =>
        Adds s u [.kept (.entry .fn) text os] [id] ∧ (u.tree.function? id).isSome := by
  obtain ⟨u, hadd, hgains, -⟩ := h.addDecl (.function { result, formals := new }) rfl span (.entry .fn) rfl hname
  have hfun := addFunctionIn_eq hv hr .signatureOnly false name span
  rw [ends_bind, ends_tryBuild (hfun.trans hadd), ends_bind, ends_build, ends_bind]
  obtain ⟨v, hattach, hfull⟩ := (hgains.addBlock body []).attachBody rfl rfl
    (Nat.succ_ne_zero _ : u.blocks.size + 1 ≠ 0)
  rw [ends_tryBuild hattach, ends_pure]
  refine ⟨h.gain hfull rfl rfl rfl hname, ?_⟩
  rw [Tree.function?_eq_some hfull.decl?_new rfl]
  rfl

theorem resultType_adds (name : Ident) (node : Option Yaml.Node) :
    Ends (resultType file name node) s fun r t => Adds s t [] [] ∧ (t.tree.type? r).isSome := by
  cases node with
  | none => exact addType_adds _
  | some n =>
    unfold resultType
    rw [ends_bind, ends_nameText]
    exact typeOf_adds _ _ _

theorem addSignature_adds (h : Adds s t os new) (hv : ∀ v ∈ new, t.tree.isVariable v = true) {result : TypeExprId}
    (hr : (t.tree.type? result).isSome) (span : Span) (hname : t.tree.names.get? name.name = some text.normal)
    (body : Option Yaml.Node) (place : Place) :
    Ends (addSignature file body name result new span place) t fun id u =>
      Adds s u [.kept (.entry .fn) text os] [id] ∧ place.Allows u.tree id := by
  have hproto := (addPrototype_adds h hv hr span hname).mono fun id u ⟨hu, hp⟩ =>
    (⟨hu, place.allows_prototype hp⟩ : Adds s u [.kept (.entry .fn) text os] [id] ∧ place.Allows u.tree id)
  unfold addSignature
  split
  · exact hproto
  · next body =>
    split
    · exact hproto
    · split
      · rw [ends_bind, ends_nameText, ends_bind, ends_report]
        exact (addPrototype_adds (h.followedBy (.report t rfl)) hv hr span hname).mono fun id u ⟨hu, hp⟩ =>
          ⟨hu, place.allows_prototype hp⟩
      · next hplace =>
        refine (addFunction_adds h hv hr span hname (spanOf file body)).mono fun id u ⟨hu, hf⟩ => ⟨hu, ?_⟩
        cases place with
        | top => trivial
        | inClass => exact .inr hf
        | inInterface => exact (hplace rfl).elim

theorem loadFunction_adds (h : Adds s t [] []) (hname : t.tree.names.get? name.name = some text.normal) (e : Entry)
    (whole : Span) (place : Place) :
    Ends (loadFunction file e name whole place) t fun id u =>
      Adds s u [.kept (.entry .fn) text (FormalEntry.outlines file text.normal 1 e.formals)] [id] ∧
        place.Allows u.tree id := by
  unfold loadFunction
  rw [ends_bind]
  refine (loadFormals_adds e.formals 1 hname).mono fun formals u ⟨hu, hformals⟩ => ?_
  rw [ends_bind]
  refine (resultType_adds name e.returns).mono fun result v ⟨hv, hr⟩ => ?_
  exact addSignature_adds ((h.trans hu).followedBy hv) (fun i hi => hv.ext.grows.isVariable (hformals i hi)) hr whole
    (hv.ext.names _ _ (hu.ext.names _ _ hname)) _ place

theorem addInterface_adds (h : Adds s t os new) (hm : ∀ m ∈ new, t.tree.isPrototype m = true) (span : Span)
    (hname : t.tree.names.get? name.name = some text.normal) :
    Ends (tryBuild (·.addInterface name new span)) t fun id u => Adds s u [.kept (.entry .iface) text os] [id] := by
  obtain ⟨u, hadd, -, hu⟩ := h.addDecl (.interface new) rfl span (.entry .iface) rfl hname
  have hinterface : t.tree.addInterface name new span = (u, .ok (t.tree.decls.size + 1)) := by
    have hfind : new.find? (!t.tree.isPrototype ·) = none := by
      rw [List.find?_eq_none]
      intro m hmem
      simp [hm m hmem]
    simp only [Tree.addInterface, hfind, hadd]
  rw [ends_tryBuild hinterface]
  exact hu

theorem addClass_adds (h : Adds s t os new) (base : TypeExprId) (implements : List TypeExprId) (span : Span)
    (hname : t.tree.names.get? name.name = some text.normal) :
    Ends (tryBuild (·.addClass name { base, implements, members := new } span)) t fun id u =>
      Adds s u [.kept (.entry .cls) text os] [id] := by
  obtain ⟨u, hadd, -, hu⟩ := h.addDecl (.class { base, implements, members := new }) rfl span (.entry .cls) rfl
    hname
  rw [ends_tryBuild hadd]
  exact hu

end Declarations

end Manifest

end DeclCheck

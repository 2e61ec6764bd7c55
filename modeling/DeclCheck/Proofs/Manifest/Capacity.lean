import DeclCheck.Proofs.Manifest.Skipping
import DeclCheck.Proofs.Manifest.Spans

/-!
# Loading with a limit

Where nodes have numbers up to a limit only, loading goes on as without one until a node gets no number, and there it
stops. Nodes are never taken away, so it stops exactly if the tree that is loaded without a limit has too many of them.
How many nodes entries need can be read off from the entries.
-/
namespace DeclCheck

namespace Tree

/-- How many nodes of all kinds a tree has. -/
def nodes (t : Tree) : Nat := t.units.size + t.decls.size + t.types.size + t.blocks.size

/-- No nodes are taken away, and at most `n` are added. -/
structure Enlarged (n : Nat) (t u : Tree) : Prop where
  units : t.units.size ≤ u.units.size
  decls : t.decls.size ≤ u.decls.size
  types : t.types.size ≤ u.types.size
  blocks : t.blocks.size ≤ u.blocks.size
  nodes : u.nodes ≤ t.nodes + n

variable {n m : Nat} {t u v : Tree}

theorem Enlarged.refl (t : Tree) : t.Enlarged 0 t :=
  ⟨Nat.le_refl _, Nat.le_refl _, Nat.le_refl _, Nat.le_refl _, Nat.le_refl _⟩

theorem Enlarged.le (h : t.Enlarged n u) (hle : n ≤ m) : t.Enlarged m u :=
  ⟨h.units, h.decls, h.types, h.blocks, h.nodes.trans (Nat.add_le_add_left hle _)⟩

theorem Enlarged.trans (h : t.Enlarged n u) (k : u.Enlarged m v) : t.Enlarged (n + m) v where
  units := h.units.trans k.units
  decls := h.decls.trans k.decls
  types := h.types.trans k.types
  blocks := h.blocks.trans k.blocks
  nodes := by
    have hn := h.nodes
    have hm := k.nodes
    omega

theorem Enlarged.of_sizes (hunits : u.units.size = t.units.size) (hdecls : u.decls.size = t.decls.size)
    (htypes : u.types.size = t.types.size) (hblocks : u.blocks.size = t.blocks.size) : t.Enlarged 0 u :=
  ⟨hunits.ge, hdecls.ge, htypes.ge, hblocks.ge, by rw [Tree.nodes, hunits, hdecls, htypes, hblocks]; exact Nat.le_refl _⟩

theorem fits_iff [Capacity] : t.fits = true ↔ ∀ k ∈ Capacity.limit,
    t.units.size ≤ k ∧ t.decls.size ≤ k ∧ t.types.size ≤ k ∧ t.blocks.size ≤ k := by
  unfold fits
  cases Capacity.limit <;> simp [and_assoc]

/-- There are numbers for the nodes of a tree if there are for those of a larger one. -/
theorem Enlarged.fits [Capacity] (h : t.Enlarged n u) (hu : u.fits = true) : t.fits = true := by
  rw [fits_iff] at hu ⊢
  intro k hk
  obtain ⟨hunits, hdecls, htypes, hblocks⟩ := hu k hk
  exact ⟨h.units.trans hunits, h.decls.trans hdecls, h.types.trans htypes, h.blocks.trans hblocks⟩

theorem fits_of_nodes_le [Capacity] (h : ∀ k ∈ Capacity.limit, t.nodes ≤ k) : t.fits = true := by
  rw [fits_iff]
  intro k hk
  have hle := h k hk
  rw [nodes] at hle
  omega

/-! ## Steps of building -/

theorem enlarged_addUnit (t : Tree) (span : Span) : t.Enlarged 1 (t.addUnit span).1 := by
  constructor <;> simp [addUnit, nodes]
  omega

theorem enlarged_addType (t : Tree) (e : TypeExpr) : t.Enlarged 1 (t.addType e).1 := by
  constructor <;> simp [addType, nodes]
  omega

theorem enlarged_addBlock (t : Tree) (span : Span) (children : List BlockId) :
    t.Enlarged 1 (t.addBlock span children).1 := by
  constructor <;> simp [addBlock, nodes]
  omega

theorem enlarged_modifyDecl (t : Tree) (id : DeclId) (f : Decl → Decl) : t.Enlarged 0 (t.modifyDecl id f) :=
  .of_sizes rfl (by simp [modifyDecl]) rfl rfl

theorem enlarged_adopt (t : Tree) (parent : DeclId) (cs : List DeclId) : t.Enlarged 0 (t.adopt parent cs).1 := by
  induction cs generalizing t with
  | nil => exact .refl t
  | cons c cs ih =>
    rw [adopt]
    split
    · exact .refl t
    · split
      · exact .refl t
      · exact (t.enlarged_modifyDecl c _).trans (ih _)

theorem enlarged_addDecl (t : Tree) (name : Ident) (span : Span) (subject : Subject) :
    t.Enlarged 1 (t.addDecl name span subject).1 := by
  have hpush : t.Enlarged 1 { t with decls := t.decls.push { name, span, subject } } := by
    constructor <;> simp [nodes]
    omega
  have hadopt := hpush.trans (enlarged_adopt _ (t.decls.size + 1) subject.children)
  rw [addDecl]
  split
  · next heq => rwa [heq] at hadopt
  · next heq => rwa [heq] at hadopt

theorem enlarged_addArray (t : Tree) (elem : TypeExprId) (span : Span) : t.Enlarged 1 (t.addArray elem span).1 := by
  unfold addArray
  split
  · exact (Enlarged.refl t).le (Nat.zero_le _)
  · exact t.enlarged_addType _

theorem enlarged_addVariable (t : Tree) (name : Ident) (type : TypeExprId) (span : Span) :
    t.Enlarged 1 (t.addVariable name type span).1 := by
  unfold addVariable
  split
  · exact (Enlarged.refl t).le (Nat.zero_le _)
  · exact t.enlarged_addDecl _ _ _

theorem enlarged_addFunctionIn (t : Tree) (state : FunctionState) (isPrototype : Bool) (name : Ident)
    (result : TypeExprId) (formals : List DeclId) (span : Span) :
    t.Enlarged 1 (t.addFunctionIn state isPrototype name result formals span).1 := by
  unfold addFunctionIn
  split
  · exact (Enlarged.refl t).le (Nat.zero_le _)
  · split
    · exact (Enlarged.refl t).le (Nat.zero_le _)
    · exact t.enlarged_addDecl _ _ _

theorem enlarged_addInterface (t : Tree) (name : Ident) (members : List DeclId) (span : Span) :
    t.Enlarged 1 (t.addInterface name members span).1 := by
  unfold addInterface
  split
  · exact (Enlarged.refl t).le (Nat.zero_le _)
  · exact t.enlarged_addDecl _ _ _

theorem enlarged_attachBody (t : Tree) (id : DeclId) (body : BlockId) : t.Enlarged 0 (t.attachBody id body).1 := by
  unfold attachBody
  split
  · exact .refl t
  · split
    · exact .refl t
    · split
      · exact .refl t
      · exact t.enlarged_modifyDecl id _

theorem enlarged_pushTop? (t : Tree) (unit : UnitId) (id : DeclId) : t.Enlarged 0 ((t.pushTop? unit id).getD t) := by
  unfold pushTop?
  split
  · exact .refl t
  · split
    · exact .of_sizes (by simp) rfl rfl rfl
    · exact .refl t

theorem enlarged_pushAll (t : Tree) (unit : UnitId) (ids : List DeclId) :
    t.Enlarged 0 (ids.foldl (fun t id => (t.pushTop? unit id).getD t) t) := by
  induction ids generalizing t with
  | nil => exact .refl t
  | cons id ids ih => exact (t.enlarged_pushTop? unit id).trans (ih _)

end Tree

namespace Manifest

open Yaml

variable {α β : Type} {n m : Nat}

/-- Steps that add at most `n` nodes. With a limit they come to the same, unless there are too many nodes in the end:
then they stop. -/
structure Metered (n : Nat) (x : Capacity → LoadM α) : Prop where
  enlarges : ∀ s : LoadState, s.tree.Enlarged n ((x .unlimited).run.run s).2.tree
  same : ∀ (c : Capacity) (s : LoadState), ((x .unlimited).run.run s).2.tree.fits = true →
    (x c).run.run s = (x .unlimited).run.run s
  stops : ∀ (c : Capacity) (s : LoadState), s.tree.fits = true → ((x .unlimited).run.run s).2.tree.fits = false →
    ((x c).run.run s).1 = .error .overflow

section Steps

/-- Steps that do not ask for the limit and leave the tree as it is. -/
theorem Metered.of_same_tree {x : LoadM α} (h : ∀ s, (x.run.run s).2.tree = s.tree) : Metered 0 fun _ => x where
  enlarges s := by
    rw [h]
    exact .refl _
  same _ _ _ := rfl
  stops _ s hs hnot := by
    rw [h, hs] at hnot
    cases hnot

theorem metered_pure (a : α) : Metered 0 fun _ => pure a := .of_same_tree fun _ => rfl

theorem metered_report (d : Diagnostic) : Metered 0 fun _ => report d := .of_same_tree fun _ => rfl

theorem metered_nameText (ident : Ident) : Metered 0 fun _ => nameText ident := .of_same_tree fun _ => rfl

theorem Metered.le {x : Capacity → LoadM α} (h : Metered n x) (hle : n ≤ m) : Metered m x :=
  ⟨fun s => (h.enlarges s).le hle, h.same, h.stops⟩

theorem run_bind_of_error {x : LoadM α} {s : LoadState} {e : BuildError} (h : (x.run.run s).1 = .error e)
    (f : α → LoadM β) : ((x >>= f).run.run s).1 = .error e := by
  rw [run_bind]
  rcases hrun : x.run.run s with ⟨_ | _, t⟩ <;> rw [hrun] at h <;> cases h
  rfl

theorem Metered.bind {x : Capacity → LoadM α} {f : α → Capacity → LoadM β} (hx : Metered n x)
    (hf : ∀ a, Metered m (f a)) : Metered (n + m) fun c => x c >>= fun a => f a c where
  enlarges s := by
    have hfirst := hx.enlarges s
    rw [run_bind]
    rcases hrun : (x .unlimited).run.run s with ⟨_ | a, t⟩
    · rw [hrun] at hfirst
      exact hfirst.le (Nat.le_add_right n m)
    · rw [hrun] at hfirst
      exact hfirst.trans ((hf a).enlarges t)
  same c s hfit := by
    have hfirst := hx.same c s
    rw [run_bind] at hfit
    rw [run_bind, run_bind]
    rcases hrun : (x .unlimited).run.run s with ⟨_ | a, t⟩
    · rw [hrun] at hfirst hfit
      rw [hfirst hfit]
    · rw [hrun] at hfirst hfit
      rw [hfirst (((hf a).enlarges t).fits hfit)]
      exact (hf a).same c t hfit
  stops c s hs hnot := by
    have hfirst := hx.same c s
    have hstop := hx.stops c s hs
    rw [run_bind] at hnot
    rcases hrun : (x .unlimited).run.run s with ⟨_ | a, t⟩
    · rw [hrun] at hstop hnot
      exact run_bind_of_error (hstop hnot) _
    · rw [hrun] at hfirst hstop hnot
      -- It stops in the first steps, or these come to the same and it stops in the others.
      cases hfit : t.tree.fits with
      | true =>
        rw [run_bind, hfirst hfit]
        exact (hf a).stops c t hfit hnot
      | false => exact run_bind_of_error (hstop hfit) _

theorem Metered.map {x : Capacity → LoadM α} (hx : Metered n x) (f : α → β) : Metered n fun c => f <$> x c := by
  simp only [map_eq_pure_bind]
  exact hx.bind fun a => metered_pure (f a)

/-- With a limit, a step that builds makes its nodes and then asks for their numbers. -/
theorem run_build [Capacity] (g : Tree → Tree × α) (s : LoadState) :
    (build g).run.run s = (if (g s.tree).1.fits then .ok (g s.tree).2 else .error .overflow,
      { s with tree := (g s.tree).1 }) := by
  unfold build
  rw [run_bind]
  change (ite ((g s.tree).1.fits = true) (pure (g s.tree).2) (throw BuildError.overflow) : LoadM α).run.run _ = _
  split <;> rfl

theorem metered_build {g : Tree → Tree × α} (h : ∀ t : Tree, t.Enlarged n (g t).1) : Metered n fun _ => build g where
  enlarges s := h s.tree
  same c s hfit := by
    have hfits : (g s.tree).1.fits = true := hfit
    rw [run_build, if_pos hfits]
    rfl
  stops c s _ hnot := by
    have hfull : (g s.tree).1.fits = false := hnot
    rw [run_build, if_neg (by simp [hfull])]

theorem metered_tryBuild {g : Tree → Tree × Except BuildError α} (h : ∀ t : Tree, t.Enlarged n (g t).1) :
    Metered n fun _ => tryBuild g := by
  refine Metered.bind (m := 0) (metered_build h) fun r => ?_
  cases r with
  | ok a => exact metered_pure a
  | error e => exact .of_same_tree fun _ => rfl

theorem metered_ident (text : Text) (span : Span) : Metered 0 fun _ => build (·.ident text span) :=
  metered_build fun _ => .of_sizes rfl rfl rfl rfl

theorem metered_addType (e : TypeExpr) : Metered 1 fun _ => build (·.addType e) :=
  metered_build fun t => t.enlarged_addType e

theorem metered_mapM {f : α → Capacity → LoadM β} (hf : ∀ a, Metered n (f a)) (xs : List α) :
    Metered (xs.length * n) fun c => xs.mapM fun a => f a c := by
  induction xs with
  | nil => exact (metered_pure []).le (Nat.zero_le _)
  | cons x xs ih =>
    simp only [List.mapM_cons]
    refine Metered.le ((hf x).bind fun _ => ih.bind fun _ => metered_pure _) ?_
    rw [List.length_cons, Nat.add_mul]
    omega

end Steps

/-! ## Entries -/

/-- How many nodes a written type needs: its base, and one for each pair of brackets. -/
def typeWeight : Option Node → Nat
  | some (.scalar _ _ _ value) => (TypeText.ofText value).depth + 1
  | _ => 1

def partWeight : Option Node → Nat
  | some _ => 1
  | none => 0

def listWeight : Option Node → Nat
  | some (.sequence _ _ items) => items.length
  | node => partWeight node

def formalsWeight : List FormalEntry → Nat
  | [] => 0
  | f :: rest => typeWeight f.type + 1 + formalsWeight rest

mutual

/-- How many nodes an entry needs at most. One that does not say what it declares is skipped. -/
def Entry.weight : Entry → Nat
  | ⟨node, keys, var, fn, cls, iface, type, returns, body, base, implements, formals, members⟩ =>
    let e : Entry :=
      ⟨node, keys, var, fn, cls, iface, type, returns, body, base, implements, formals, members⟩
    match e.kinds with
    | [(.var, _)] => typeWeight type + 1
    | [(.fn, _)] => formalsWeight formals + typeWeight returns + partWeight body + 1
    | [(.cls, _)] => weightOf members + partWeight base + listWeight implements + 1
    | [(.iface, _)] => weightOf members + 1
    | _ => 0

def weightOf : List Entry → Nat
  | [] => 0
  | e :: rest => e.weight + weightOf rest

end

section Loader

variable {file : SourceFile}

theorem metered_wrapArrays (span : Span) (n : Nat) (id : TypeExprId) : Metered n fun _ => wrapArrays span n id := by
  induction n generalizing id with
  | zero => exact metered_pure id
  | succ n ih =>
    exact ((metered_tryBuild fun t => t.enlarged_addArray id span).bind fun id => ih id).le (Nat.add_comm 1 n).le

theorem metered_typeOf (node : Option Node) (what : Text) (owner : Span) :
    Metered (typeWeight node) fun _ => typeOf file node what owner := by
  have herror : ∀ d span, Metered 1 fun _ => (do report d; build (·.addPrimitive .error span)) :=
    fun d span => ((metered_report d).bind fun _ => metered_addType _).le (Nat.le_refl _)
  unfold typeOf
  match node with
  | none => exact herror _ _
  | some (.sequence ..) => exact herror _ _
  | some (.mapping ..) => exact herror _ _
  | some (.reference ..) => exact herror _ _
  | some (.scalar p tag style value) =>
    rw [typeWeight]
    dsimp only
    split
    · exact (herror _ _).le (Nat.le_add_left 1 _)
    · split
      · exact ((metered_addType _).bind fun id => metered_wrapArrays _ _ id).le (Nat.add_comm 1 _).le
      · split
        · refine Metered.le ((metered_ident _ _).bind fun ident => (metered_addType _).bind fun id =>
            metered_wrapArrays _ _ id) ?_
          omega
        · exact (herror _ _).le (Nat.le_add_left 1 _)

theorem metered_namedType (clause : Text) (node : Node) : Metered 1 fun _ => namedType file clause node := by
  unfold namedType
  dsimp only
  split
  · exact ((metered_ident _ _).bind fun ident => metered_addType _).le (Nat.le_refl _)
  · exact ((metered_report _).bind fun _ => metered_pure 0).le (Nat.zero_le _)

theorem metered_baseType (node : Option Node) : Metered (partWeight node) fun _ => baseType file node := by
  cases node with
  | none => exact metered_pure 0
  | some n => exact metered_namedType _ n

theorem metered_implemented (node : Option Node) : Metered (listWeight node) fun _ => implemented file node := by
  have hlist : ∀ nodes : List Node, Metered nodes.length fun _ => (do
      let ids ← nodes.mapM (namedType file "implements")
      return ids.filter (· != 0)) := by
    intro nodes
    refine Metered.le ((metered_mapM (fun n => metered_namedType "implements" n) nodes).bind fun _ => metered_pure _) ?_
    omega
  have hnone := fun d => ((metered_report d).bind fun _ => hlist []).le (Nat.zero_le 1)
  match node with
  | none => exact (metered_pure []).le (Nat.zero_le _)
  | some (.sequence _ _ items) => exact hlist items
  | some (.mapping ..) => exact hnone _
  | some (.reference ..) => exact hnone _
  | some (.scalar p tag style value) =>
    simp only [implemented, nameList, pure_bind]
    split
    · exact (hlist []).le (Nat.zero_le _)
    · exact hlist [_]

theorem metered_resultType (name : Ident) (node : Option Node) :
    Metered (typeWeight node) fun _ => resultType file name node := by
  cases node with
  | none => exact metered_addType _
  | some n => exact ((metered_nameText name).bind fun _ => metered_typeOf _ _ _).le (Nat.zero_add _).le

theorem metered_addSignature (body : Option Node) (name : Ident) (result : TypeExprId) (formals : List DeclId)
    (whole : Span) (place : Place) :
    Metered (partWeight body + 1) fun _ => addSignature file body name result formals whole place := by
  have hproto : Metered 1 fun _ => tryBuild (·.addPrototype name result formals whole) :=
    metered_tryBuild fun t => t.enlarged_addFunctionIn _ _ _ _ _ _
  unfold addSignature
  split
  · exact hproto
  · split
    · exact hproto.le (Nat.le_succ 1)
    · split
      · refine Metered.le ((metered_nameText name).bind fun _ => (metered_report _).bind fun _ => hproto) ?_
        exact Nat.le_succ 1
      · exact Metered.bind (n := 1) (m := 1) (metered_tryBuild fun t => t.enlarged_addFunctionIn _ _ _ _ _ _) fun id =>
          Metered.bind (m := 0) (metered_build fun t => t.enlarged_addBlock _ _) fun block =>
            (metered_tryBuild fun t => t.enlarged_attachBody id block).bind fun _ => metered_pure id

theorem metered_loadFormals (fn : Ident) (number : Nat) (entries : List FormalEntry) :
    Metered (formalsWeight entries) fun _ => loadFormals file fn number entries := by
  induction entries generalizing number with
  | nil => exact metered_pure []
  | cons f rest ih =>
    have hskip := (metered_nameText fn).bind fun text =>
      (metered_report (.error .missingName (spanOf file f.node)
        ("formal " ++ Text.ofNat number ++ " of '" ++ text ++ "' has no name"))).bind fun _ => ih (number + 1)
    unfold loadFormals
    rw [formalsWeight]
    cases f.name with
    | none => exact hskip.le (by omega)
    | some name =>
      dsimp only
      split
      · exact hskip.le (by omega)
      · refine Metered.le ((metered_ident _ _).bind fun ident => (metered_typeOf f.type _ _).bind fun type =>
          (metered_tryBuild fun t => t.enlarged_addVariable ident type _).bind fun id =>
            (ih (number + 1)).bind fun ids => metered_pure _) ?_
        omega

theorem metered_checkEntryKeys (e : Entry) : Metered 0 fun _ => checkEntryKeys file e := by
  have hkeys : ∀ (kind : EntryKind) (keys : List Node), Metered 0 fun _ => checkKeys file kind keys := by
    intro kind keys
    induction keys with
    | nil => exact metered_pure _
    | cons k ks ih =>
      unfold checkKeys
      split
      · exact (metered_report _).bind fun _ => ih
      · exact ih
  unfold checkEntryKeys
  split
  · exact hkeys _ _
  · exact metered_pure _

mutual

theorem metered_loadEntry (file : SourceFile) (place : Place) : (e : Entry) →
    Metered e.weight fun _ => loadEntry file place e
  | ⟨node, keys, var, fn, cls, iface, type, returns, body, base, implements, formals, members⟩ => by
    have hskip : ∀ (m : Nat) d, Metered m fun _ => (do report d; return none) :=
      fun m d => ((metered_report d).bind fun _ => metered_pure (none : Option DeclId)).le (Nat.zero_le m)
    unfold loadEntry
    refine Metered.le ((metered_checkEntryKeys _).bind fun _ => ?_) (Nat.zero_add _).le
    split
    · exact hskip _ _
    next kind nameNode hc =>
    split
    · exact hskip _ _
    refine Metered.le ((metered_ident _ _).bind fun name => ?_) (Nat.zero_add _).le
    rw [Entry.weight, kinds_of_classify hc]
    cases kind with
    | var =>
      exact (metered_typeOf _ _ _).bind fun ty =>
        (metered_tryBuild fun t => t.enlarged_addVariable name ty _).map _
    | fn =>
      refine Metered.le (Metered.map ((metered_loadFormals name 1 formals).bind fun ids =>
        (metered_resultType name _).bind fun result => metered_addSignature _ _ _ _ _ _) _) ?_
      dsimp only
      omega
    | cls =>
      refine Metered.le ((metered_loadEntries file .inClass members).bind fun ms =>
        (metered_baseType _).bind fun b => (metered_implemented _).bind fun is =>
          (metered_tryBuild fun t => t.enlarged_addDecl _ _ _).map _) ?_
      dsimp only
      omega
    | iface =>
      exact (metered_loadEntries file .inInterface members).bind fun ms =>
        (metered_tryBuild fun t => t.enlarged_addInterface _ ms _).map _

theorem metered_loadEntries (file : SourceFile) (place : Place) : (es : List Entry) →
    Metered (weightOf es) fun _ => loadEntries file place es
  | [] => by
    unfold loadEntries
    exact metered_pure []
  | e :: rest => by
    unfold loadEntries
    rw [weightOf]
    exact (metered_loadEntry file place e).bind fun id =>
      (metered_loadEntries file place rest).bind fun ids => metered_pure _

end

theorem metered_loadTop (file : SourceFile) (entries : List Entry) :
    Metered (weightOf entries + 1) fun _ => loadTop file entries := by
  unfold loadTop
  refine Metered.le ((metered_build fun t => t.enlarged_addUnit _).bind fun unit =>
    (metered_loadEntries file .top entries).bind fun ids =>
      (metered_build fun t => t.enlarged_pushAll unit ids).bind fun _ => metered_pure unit) ?_
  omega

/-- Loads the entries of a file with a limit. -/
abbrev loadAllWithin (c : Capacity) (file : SourceFile) (entries : List Entry) : Except BuildError Loaded :=
  loadAll file entries

/-- With a limit, the same is loaded if there are numbers for its nodes, of which there are as many as the entries
need. Otherwise loading stops. -/
theorem loadAllWithin_eq {entries : List Entry} {l : Loaded} (h : loadAllWithin .unlimited file entries = .ok l)
    (c : Capacity) : l.tree.nodes ≤ weightOf entries + 1 ∧
      loadAllWithin c file entries = if l.tree.fits then .ok l else .error .overflow := by
  have htop := metered_loadTop file entries
  have hnodes := (htop.enlarges {}).nodes
  have hsame := htop.same c {}
  have hstops := htop.stops c {} (Tree.fits_of_nodes_le fun _ _ => Nat.zero_le _)
  unfold loadAllWithin loadAll at h ⊢
  rcases hrun : (@loadTop _ .unlimited file entries).run.run {} with ⟨_ | unit, s⟩
  · rw [hrun] at h
    cases h
  · rw [hrun] at h hnodes hsame hstops
    cases h
    refine ⟨hnodes.trans (Nat.zero_add _).le, ?_⟩
    cases hfit : s.tree.fits with
    | true =>
      rw [hsame hfit]
      rfl
    | false =>
      have herror := hstops hfit
      rcases hc : (loadTop file entries).run.run {} with ⟨_ | _, t⟩ <;> rw [hc] at herror <;> cases herror
      rfl

end Loader

end Manifest

end DeclCheck

import DeclCheck.Check.Lowering
import DeclCheck.Proofs.Tree.Building
import DeclCheck.Proofs.Types.Shape

/-!
# What lowering remembers

A written type spells a tree, and so does the signature of a function. Lowering turns spelled trees
into numbers and remembers them. Whatever it was asked before, the number that it gives stands for
the spelled tree, so its comparison of signatures depends on the declaration tree alone.
-/
namespace DeclCheck

/-- The kind of type that a built-in type stands for. -/
def Primitive.typeKind : Primitive → TypeKind
  | int => .int
  | double => .double
  | bool => .bool
  | void => .void
  | null => .null
  | string => .string
  | error | unknown _ => .error

namespace Tree

/-- The tree that a written type spells, looking through at most `fuel` arrays. -/
def shapeWithin (t : Tree) : Nat → TypeExprId → Shape
  | 0, _ => .primitive .error
  | fuel + 1, id =>
    match t.type? id with
    | none => .primitive .error
    | some (.primitive p _) => .primitive p.typeKind
    | some (.named ident) => .named ident.name
    | some (.array elem _) => .array (t.shapeWithin fuel elem)

/-- The tree that a written type spells. A type that is not there is the error type. -/
def shape (t : Tree) (id : TypeExprId) : Shape := t.shapeWithin (t.types.size + 1) id

/-- The type of a formal. -/
def formalShape (t : Tree) (id : DeclId) : Shape := t.shape ((t.variableType? id).getD 0)

/-- The signature that a function is declared with; other declarations have none. -/
def functionShape? (t : Tree) (id : DeclId) : Option FunctionShape :=
  (t.decl? id).bind fun d => d.function?.map fun f =>
    { name := d.name.name, result := t.shape f.result, params := f.formals.map t.formalShape }

/-- Are both functions, with signatures that agree? -/
def sameSignature (t : Tree) (f g : DeclId) : Bool :=
  match t.functionShape? f, t.functionShape? g with
  | some a, some b => a.agrees b
  | _, _ => false

/-- The element of an array is written before the array. -/
def TypesOrdered (t : Tree) : Prop :=
  ∀ (id elem : Nat) (span : Span), t.type? id = some (.array elem span) → elem < id

variable {t : Tree}

theorem Built.typesOrdered {w : Nat} (h : t.Built w) : t.TypesOrdered :=
  fun id elem span he => (h.ordered id elem span he).2

/-- Where there is fuel enough, more of it changes nothing. -/
theorem shapeWithin_congr (ht : t.TypesOrdered) {id m n : Nat} (hm : id < m) (hn : id < n) :
    t.shapeWithin m id = t.shapeWithin n id := by
  induction m generalizing id n with
  | zero => omega
  | succ m ih =>
    obtain ⟨n, rfl⟩ : ∃ k, n = k + 1 := ⟨n - 1, by omega⟩
    unfold shapeWithin
    cases he : t.type? id with
    | none => rfl
    | some e =>
      cases e with
      | primitive p s => rfl
      | named ident => rfl
      | array elem s =>
        have hlt := ht id elem s he
        simp only [Shape.array.injEq]
        exact ih (by omega) (by omega)

/-- The tree of a written type, one step at a time. -/
theorem shape_eq (ht : t.TypesOrdered) (id : Nat) :
    t.shape id = match t.type? id with
      | none => .primitive .error
      | some (.primitive p _) => .primitive p.typeKind
      | some (.named ident) => .named ident.name
      | some (.array elem _) => .array (t.shape elem) := by
  unfold shape
  rw [shapeWithin]
  cases he : t.type? id with
  | none => rfl
  | some e =>
    cases e with
    | primitive p s => rfl
    | named ident => rfl
    | array elem s =>
      have hlt := ht id elem s he
      have hle : id ≤ t.types.size := type?_le he
      simp only [Shape.array.injEq]
      exact shapeWithin_congr ht (by omega) (by omega)

theorem functionShape?_eq_some {id : DeclId} {d : Decl} {f : FunctionDecl}
    (hd : t.decl? id = some d) (hf : d.function? = some f) :
    t.functionShape? id = some
      { name := d.name.name, result := t.shape f.result, params := f.formals.map t.formalShape } := by
  simp [functionShape?, hd, hf]

theorem sameSignature_self {id : DeclId} {f : FunctionShape} (h : t.functionShape? id = some f) :
    t.sameSignature id id = true := by
  simp [sameSignature, h, FunctionShape.agrees_refl]

/-- Each written type is one that can be written: there is no error type. -/
def Readable (t : Tree) : Prop :=
  ∀ (id : Nat) (prim : Primitive) (span : Span), t.type? id = some (.primitive prim span) →
    prim ∈ Primitive.keywords

theorem shape_errorFree {w : Nat} (hb : t.Built w) (hr : t.Readable) {id : Nat}
    (h : (t.type? id).isSome) : (t.shape id).errorFree = true := by
  induction id using Nat.strongRecOn with
  | ind id ih =>
    obtain ⟨e, he⟩ := Option.isSome_iff_exists.mp h
    rw [shape_eq hb.typesOrdered, he]
    cases e with
    | primitive prim span =>
      have hkey := hr id prim span he
      cases prim <;> first | rfl | simp [Primitive.keywords] at hkey
    | named ident => rfl
    | array elem span =>
      obtain ⟨hpos, hlt⟩ := hb.ordered id elem span he
      have hle := type?_le he
      obtain ⟨x, hx⟩ := numbered?_of_le t.types hpos (Nat.le_of_lt (Nat.lt_of_lt_of_le hlt hle))
      exact ih elem hlt (Option.isSome_iff_exists.mpr ⟨x, hx⟩)

theorem functionShape?_errorFree (hb : t.Built 0) (hr : t.Readable) {id : DeclId}
    {g : FunctionShape} (h : t.functionShape? id = some g) : g.errorFree = true := by
  obtain ⟨d, hd, h⟩ := Option.bind_eq_some_iff.mp h
  obtain ⟨fn, hfn, rfl⟩ := Option.map_eq_some_iff.mp h
  have hfun : t.function? id = some fn := by rw [function?, hd]; exact hfn
  obtain ⟨e, he, hsub⟩ := subject_of_function? hfun
  obtain ⟨hresult, hformals, _⟩ := hb.fits he hsub
  simp only [FunctionShape.errorFree, Bool.and_eq_true, List.all_map, List.all_eq_true]
  refine ⟨shape_errorFree hb hr hresult, fun v hv => ?_⟩
  obtain ⟨type, htype⟩ := Option.isSome_iff_exists.mp (hformals v hv)
  obtain ⟨e, he, hvar⟩ := subject_of_variableType? htype
  simp only [Function.comp_apply, formalShape, htype, Option.getD_some]
  exact shape_errorFree hb hr (hb.fits he hvar)

/-- Where all types can be read, signatures agree only if they are the same. -/
theorem sameSignature_iff (hb : t.Built 0) (hr : t.Readable) {x y : DeclId} :
    t.sameSignature x y = true ↔ ∃ g, t.functionShape? x = some g ∧ t.functionShape? y = some g := by
  unfold sameSignature
  cases hx : t.functionShape? x with
  | none => simp
  | some a =>
    cases hy : t.functionShape? y with
    | none => simp
    | some b =>
      have ha := functionShape?_errorFree hb hr hx
      have hb' := functionShape?_errorFree hb hr hy
      simp [FunctionShape.agrees_iff_eq ha hb', eq_comm]

theorem sameSignature_trans (hb : t.Built 0) (hr : t.Readable) {x y z : DeclId}
    (hxy : t.sameSignature x y = true) (hyz : t.sameSignature y z = true) :
    t.sameSignature x z = true := by
  obtain ⟨g, hx, hy⟩ := (sameSignature_iff hb hr).mp hxy
  obtain ⟨k, hy', hz⟩ := (sameSignature_iff hb hr).mp hyz
  cases hy.symm.trans hy'
  exact (sameSignature_iff hb hr).mpr ⟨g, hx, hz⟩

end Tree

namespace Lowering

/-- What was remembered stands for what is written in the tree. -/
structure Sound (t : Tree) (l : Lowering) : Prop where
  store : l.store.Sound
  lowered : ∀ id type, l.lowered.lookup id = some type → l.store.Means type (t.shape id)
  signatures : ∀ id sig, l.signatures.lookup id = some sig →
    ∃ f, t.functionShape? id = some f ∧ l.store.MeansSignature sig f

theorem Sound.initial (t : Tree) : ({} : Lowering).Sound t :=
  ⟨.initial, fun _ _ h => (nomatch h), fun _ _ h => (nomatch h)⟩

variable {t : Tree} {l : Lowering}

/-- Remembering a type that was found keeps what is remembered right. -/
theorem Sound.remember {s : TypeStore} (hl : l.Sound t) (hs : s.Sound) (hg : l.store.Grows s)
    {id : TypeExprId} {type : TypeId} (hm : s.Means type (t.shape id)) :
    ({ l with store := s }.remember id type).Sound t := by
  refine ⟨hs, ?_, ?_⟩
  · intro i ty h
    by_cases hi : i = id
    · subst hi
      simp only [Lowering.remember, List.lookup_cons_self, Option.some.injEq] at h
      subst h
      exact hm
    · have hb : (i == id) = false := beq_eq_false_iff_ne.mpr hi
      simp only [Lowering.remember, List.lookup_cons, hb] at h
      exact (hl.lowered i ty h).grows hg
  · intro i sig h
    obtain ⟨f, hf, hsig⟩ := hl.signatures i sig h
    exact ⟨f, hf, hsig.grows hg⟩

theorem means_primitiveId {s : TypeStore} (hs : s.Sound) (p : Primitive) :
    s.Means (primitiveId p) (.primitive p.typeKind) := by
  cases p <;> exact hs.means_builtin (Nat.succ_pos _) (Nat.le_of_ble_eq_true rfl) rfl rfl

/-- A lowering after some steps: still right, and all earlier numbers mean what they meant. -/
structure After (t : Tree) (l m : Lowering) : Prop where
  sound : m.Sound t
  grows : l.store.Grows m.store

theorem After.refl (hl : l.Sound t) : After t l l := ⟨hl, .refl _⟩

theorem After.trans {m n : Lowering} (h : After t l m) (k : After t m n) : After t l n :=
  ⟨k.sound, h.grows.trans k.grows⟩

/-- The number of a written type stands for the tree that it spells. -/
theorem typeWithin_spec (ht : t.TypesOrdered) {fuel id : Nat} (hpos : 0 < fuel)
    (hf : id < fuel ∨ t.types.size < id) (hl : l.Sound t) :
    After t l (typeWithin t fuel l id).1 ∧
      (typeWithin t fuel l id).1.store.Means (typeWithin t fuel l id).2 (t.shape id) := by
  induction fuel generalizing id l with
  | zero => omega
  | succ fuel ih =>
    rw [typeWithin]
    have hshape := Tree.shape_eq ht id
    cases hk : l.lowered.lookup id with
    | some type => exact ⟨.refl hl, hl.lowered id type hk⟩
    | none =>
      cases he : t.type? id with
      | none =>
        rw [he] at hshape
        have hm : l.store.Means TypeStore.errorId (t.shape id) :=
          hshape ▸ means_primitiveId hl.store .error
        exact ⟨⟨hl.remember hl.store (.refl _) hm, .refl _⟩, hm⟩
      | some e =>
        cases e with
        | primitive p s =>
          rw [he] at hshape
          have hm : l.store.Means (primitiveId p) (t.shape id) :=
            hshape ▸ means_primitiveId hl.store p
          exact ⟨⟨hl.remember hl.store (.refl _) hm, .refl _⟩, hm⟩
        | named ident =>
          rw [he] at hshape
          obtain ⟨hs, hg, hget⟩ := hl.store.intern (t := { kind := .named, name := ident.name })
            (.inl ⟨ident.name, rfl⟩)
          have hm : (l.store.named ident.name).1.Means (l.store.named ident.name).2 (t.shape id) :=
            hshape ▸ .named hget
          exact ⟨⟨hl.remember hs hg hm, hg⟩, hm⟩
        | array elem s =>
          rw [he] at hshape
          have hlt := ht id elem s he
          have hle : id ≤ t.types.size := Tree.type?_le he
          obtain ⟨hafter, helem⟩ := @ih l elem (by omega) (by omega) hl
          obtain ⟨hs, hg, hget⟩ := hafter.sound.store.intern
            (t := { kind := .array, elem := (typeWithin t fuel l elem).2 })
            (.inr ⟨_, rfl, helem.pos⟩)
          have hm : ((typeWithin t fuel l elem).1.store.intern
              { kind := .array, elem := (typeWithin t fuel l elem).2 }).1.Means
              ((typeWithin t fuel l elem).1.store.intern
                { kind := .array, elem := (typeWithin t fuel l elem).2 }).2 (t.shape id) := by
            rw [hshape]
            exact .array hget (helem.grows hg)
          exact ⟨⟨hafter.sound.remember hs hg hm, hafter.grows.trans hg⟩, hm⟩

theorem type_spec (ht : t.TypesOrdered) (hl : l.Sound t) (id : Nat) :
    After t l (l.type t id).1 ∧ (l.type t id).1.store.Means (l.type t id).2 (t.shape id) :=
  typeWithin_spec ht (Nat.succ_pos _) (by omega) hl

theorem formalTypes_spec (ht : t.TypesOrdered) (hl : l.Sound t) (fs : List DeclId) :
    After t l (formalTypes t l fs).1 ∧
      List.Forall₂ (formalTypes t l fs).1.store.Means (formalTypes t l fs).2
        (fs.map t.formalShape) := by
  induction fs generalizing l with
  | nil => exact ⟨.refl hl, .nil⟩
  | cons f fs ih =>
    obtain ⟨hafter, hm⟩ := type_spec ht hl ((t.variableType? f).getD 0)
    obtain ⟨hrest, hms⟩ := ih hafter.sound
    exact ⟨hafter.trans hrest, .cons (hm.grows hrest.grows) hms⟩

/-- The signature that is found is the declared one, and only functions have one. -/
theorem signature_spec (ht : t.TypesOrdered) (hl : l.Sound t) (id : DeclId) :
    After t l (l.signature t id).1 ∧
      Option.Rel (l.signature t id).1.store.MeansSignature (l.signature t id).2
        (t.functionShape? id) := by
  unfold signature
  cases hk : l.signatures.lookup id with
  | some sig =>
    obtain ⟨f, hf, hsig⟩ := hl.signatures id sig hk
    refine ⟨.refl hl, ?_⟩
    rw [hf]
    exact .some hsig
  | none =>
    cases hd : t.decl? id with
    | none =>
      have hn : t.functionShape? id = none := by simp [Tree.functionShape?, hd]
      rw [hn]
      exact ⟨.refl hl, .none⟩
    | some d =>
      cases hf : d.function? with
      | none =>
        have hn : t.functionShape? id = none := by simp [Tree.functionShape?, hd, hf]
        simp only [hf]
        rw [hn]
        exact ⟨.refl hl, .none⟩
      | some f =>
        have hfn := Tree.functionShape?_eq_some hd hf
        obtain ⟨hres, hm⟩ := type_spec ht hl f.result
        obtain ⟨hpar, hms⟩ := formalTypes_spec ht hres.sound f.formals
        have hsig : (formalTypes t (l.type t f.result).1 f.formals).1.store.MeansSignature
            { name := d.name.name, result := (l.type t f.result).2,
              params := (formalTypes t (l.type t f.result).1 f.formals).2 }
            { name := d.name.name, result := t.shape f.result,
              params := f.formals.map t.formalShape } :=
          ⟨rfl, hm.grows hpar.grows, hms⟩
        simp only [hf]
        rw [hfn]
        refine ⟨⟨⟨hpar.sound.store, hpar.sound.lowered, ?_⟩, (hres.trans hpar).grows⟩, .some hsig⟩
        intro i sig h
        by_cases hi : i = id
        · subst hi
          simp only [List.lookup_cons_self, Option.some.injEq] at h
          subst h
          exact ⟨_, hfn, hsig⟩
        · have hb : (i == id) = false := beq_eq_false_iff_ne.mpr hi
          simp only [List.lookup_cons, hb] at h
          exact hpar.sound.signatures i sig h

/-- Whatever was remembered before, the comparison of two functions is that of their
declarations. -/
theorem sameSignature_spec (ht : t.TypesOrdered) (hl : l.Sound t) (f g : DeclId) :
    After t l (l.sameSignature t f g).1 ∧ (l.sameSignature t f g).2 = t.sameSignature f g := by
  obtain ⟨hf, hfs⟩ := signature_spec ht hl f
  obtain ⟨hg, hgs⟩ := signature_spec ht hf.sound g
  unfold sameSignature Tree.sameSignature
  generalize l.signature t f = rf at hf hfs hg hgs
  obtain ⟨lf, sf⟩ := rf
  simp only at hf hfs hg hgs ⊢
  generalize lf.signature t g = rg at hg hgs
  obtain ⟨lg, sg⟩ := rg
  simp only at hg hgs ⊢
  generalize t.functionShape? f = a at hfs
  generalize t.functionShape? g = b at hgs
  have hafter := hf.trans hg
  cases hfs with
  | none => exact ⟨hafter, rfl⟩
  | some hfs =>
    cases hgs with
    | none => exact ⟨hafter, rfl⟩
    | some hgs =>
      exact ⟨hafter, TypeStore.sameSignature_eq_agrees hg.sound.store (hfs.grows hg.grows) hgs⟩

end Lowering

end DeclCheck

import DeclCheck.Diagnostic
import DeclCheck.Tree
import Mathlib.Data.List.Nodup
import Mathlib.Data.List.Range

/-!
# Building trees

A tree that is built bottom up is a forest: a child has a smaller number than its parent, is listed by
it and by no other declaration, and the declarations without a parent are the ones that the next
declaration may take as its children. Each building step is stated once, by what it does to the
declaration with each number; that it keeps the forest follows from that.
-/
namespace DeclCheck

section Numbered

variable {α : Type}

theorem numbered?_eq_some {xs : Array α} {n : Nat} {a : α} (h : numbered? xs n = some a) :
    0 < n ∧ n ≤ xs.size ∧ xs[n - 1]? = some a := by
  cases n with
  | zero => cases h
  | succ i => exact ⟨Nat.succ_pos i, (Array.getElem?_eq_some_iff.mp h).1, h⟩

theorem numbered?_of_le (xs : Array α) {n : Nat} (hpos : 0 < n) (hle : n ≤ xs.size) :
    ∃ a, numbered? xs n = some a := by
  obtain ⟨i, rfl⟩ : ∃ i, n = i + 1 := ⟨n - 1, by omega⟩
  exact ⟨xs[i], Array.getElem?_eq_getElem hle⟩

theorem numbered?_push (xs : Array α) (a : α) (n : Nat) :
    numbered? (xs.push a) n = if n = xs.size + 1 then some a else numbered? xs n := by
  cases n with
  | zero => simp [numbered?]
  | succ i =>
    simp only [numbered?, Nat.succ.injEq]
    exact Array.getElem?_push

theorem numbered?_modify (xs : Array α) (f : α → α) {k : Nat} (hk : 0 < k) (n : Nat) :
    numbered? (xs.modify (k - 1) f) n =
      if n = k then (numbered? xs n).map f else numbered? xs n := by
  obtain ⟨j, rfl⟩ : ∃ j, k = j + 1 := ⟨k - 1, by omega⟩
  cases n with
  | zero => simp [numbered?]
  | succ i =>
    simp only [numbered?, Nat.add_sub_cancel, Array.getElem?_modify, Nat.succ.injEq,
      eq_comm (a := j)]

theorem numbered?_map {β : Type} (xs : Array α) (f : α → β) (n : Nat) :
    numbered? (xs.map f) n = (numbered? xs n).map f := by
  cases n with
  | zero => rfl
  | succ i => exact Array.getElem?_map

end Numbered

namespace Tree

/-- The parent of a declaration, zero if it has none. -/
def parent? (t : Tree) (id : DeclId) : Option DeclId := (t.decl? id).map (·.parent)

/-- The declarations without a parent, in the order of their numbers. -/
def loose (t : Tree) : List DeclId :=
  (List.range' 1 t.decls.size).filter fun id => t.parent? id == some 0

/-- What a declaration refers to is there and of the right kind, and a function has a body unless it
is a prototype. -/
def Fits (t : Tree) : Subject → Prop
  | .variable type => (t.type? type).isSome
  | .class c =>
    (c.base = 0 ∨ (t.namedType? c.base).isSome) ∧
      (∀ i ∈ c.implements, (t.namedType? i).isSome) ∧
      ∀ m ∈ c.members, t.isVariable m = true ∨ (t.function? m).isSome
  | .interface members => ∀ m ∈ members, t.isPrototype m = true
  | .function f =>
    (t.type? f.result).isSome ∧ (∀ v ∈ f.formals, t.isVariable v = true) ∧
      f.state = .complete ∧ (f.body = 0 ↔ f.isPrototype = true)

/-- The forest of a tree that is being built. The declaration `waiting`, if it is not zero, is a
function that still waits for its body. -/
structure Built (t : Tree) (waiting : Nat) : Prop where
  ordered : ∀ (id elem : Nat) (span : Span),
    t.type? id = some (.array elem span) → 0 < elem ∧ elem < id
  sorted : ∀ id, (t.children id).Pairwise (· < ·)
  child : ∀ p c : Nat, c ∈ t.children p → c < p ∧ t.parent? c = some p
  parent : ∀ c p : Nat, t.parent? c = some p → p ≠ 0 → c ∈ t.children p
  subjects : ∀ (id : Nat) (d : Decl), t.decl? id = some d → id ≠ waiting → t.Fits d.subject

/-- A later tree has all types and declarations of an earlier one; only parents may be new. -/
structure Grows (t u : Tree) : Prop where
  types : ∀ (id : Nat) (e : TypeExpr), t.type? id = some e → u.type? id = some e
  decls : ∀ (id : Nat) (d : Decl), t.decl? id = some d → ∃ p, u.decl? id = some { d with parent := p }

theorem Grows.refl (t : Tree) : t.Grows t := ⟨fun _ _ h => h, fun _ d h => ⟨d.parent, h⟩⟩

theorem Grows.trans {t u v : Tree} (h : t.Grows u) (k : u.Grows v) : t.Grows v := by
  refine ⟨fun id e he => k.types id e (h.types id e he), ?_⟩
  intro id d hd
  obtain ⟨p, hp⟩ := h.decls id d hd
  exact k.decls id { d with parent := p } hp

section Growth

variable {t u : Tree} (hg : t.Grows u)
include hg

theorem Grows.type?_isSome {id : TypeExprId} (h : (t.type? id).isSome) : (u.type? id).isSome := by
  obtain ⟨e, he⟩ := Option.isSome_iff_exists.mp h
  rw [hg.types id e he]
  rfl

theorem Grows.namedType? {id : TypeExprId} {i : Ident} (h : t.namedType? id = some i) :
    u.namedType? id = some i := by
  unfold Tree.namedType? at h ⊢
  cases he : t.type? id with
  | none => simp [he] at h
  | some e => simpa only [hg.types id e he, he] using h

theorem Grows.namedType?_isSome {id : TypeExprId} (h : (t.namedType? id).isSome) :
    (u.namedType? id).isSome := by
  obtain ⟨i, hi⟩ := Option.isSome_iff_exists.mp h
  rw [hg.namedType? hi]
  rfl

theorem Grows.isVariable {id : DeclId} (h : t.isVariable id = true) : u.isVariable id = true := by
  unfold Tree.isVariable variableType? at h ⊢
  cases hd : t.decl? id with
  | none => simp [hd] at h
  | some d =>
    obtain ⟨p, hp⟩ := hg.decls id d hd
    rw [hd] at h
    rw [hp]
    exact h

theorem Grows.function? {id : DeclId} {f : FunctionDecl} (h : t.function? id = some f) :
    u.function? id = some f := by
  unfold Tree.function? at h ⊢
  cases hd : t.decl? id with
  | none => simp [hd] at h
  | some d =>
    obtain ⟨p, hp⟩ := hg.decls id d hd
    rw [hd] at h
    rw [hp]
    exact h

theorem Grows.function?_isSome {id : DeclId} (h : (t.function? id).isSome) :
    (u.function? id).isSome := by
  obtain ⟨f, hf⟩ := Option.isSome_iff_exists.mp h
  rw [hg.function? hf]
  rfl

theorem Grows.isPrototype {id : DeclId} (h : t.isPrototype id = true) :
    u.isPrototype id = true := by
  unfold Tree.isPrototype at h ⊢
  cases hf : t.function? id with
  | none => simp [hf] at h
  | some f => simpa only [hg.function? hf, hf] using h

theorem Grows.fits {s : Subject} (h : t.Fits s) : u.Fits s := by
  cases s with
  | «variable» type => exact hg.type?_isSome h
  | «class» c =>
    obtain ⟨hb, hi, hm⟩ := h
    refine ⟨hb.imp_right hg.namedType?_isSome, fun i hi' => hg.namedType?_isSome (hi i hi'), ?_⟩
    exact fun m hm' => (hm m hm').imp hg.isVariable hg.function?_isSome
  | interface members => exact fun m hm => hg.isPrototype (h m hm)
  | function f =>
    obtain ⟨hr, hv, hrest⟩ := h
    exact ⟨hg.type?_isSome hr, fun v hv' => hg.isVariable (hv v hv'), hrest⟩

end Growth

variable {t : Tree}

theorem type?_le {id : Nat} {e : TypeExpr} (h : t.type? id = some e) : id ≤ t.types.size :=
  (numbered?_eq_some h).2.1

theorem decl?_le {id : Nat} {d : Decl} (h : t.decl? id = some d) : 0 < id ∧ id ≤ t.decls.size :=
  ⟨(numbered?_eq_some h).1, (numbered?_eq_some h).2.1⟩

theorem parent?_eq_some {id p : Nat} :
    t.parent? id = some p ↔ ∃ d, t.decl? id = some d ∧ d.parent = p := by
  simp [parent?, Option.map_eq_some_iff]

theorem children_eq {id : DeclId} {d : Decl} (h : t.decl? id = some d) :
    t.children id = d.children := by
  simp [children, h]

section Subjects

variable {id : DeclId}

theorem subject_of_variableType? {type : TypeExprId} (h : t.variableType? id = some type) :
    ∃ d, t.decl? id = some d ∧ d.subject = .variable type := by
  obtain ⟨d, hd, hv⟩ := Option.bind_eq_some_iff.mp h
  refine ⟨d, hd, ?_⟩
  unfold Decl.variableType? at hv
  split at hv
  · next hs => rw [hs, Option.some.inj hv]
  · cases hv

theorem subject_of_function? {g : FunctionDecl} (h : t.function? id = some g) :
    ∃ d, t.decl? id = some d ∧ d.subject = .function g := by
  obtain ⟨d, hd, hg⟩ := Option.bind_eq_some_iff.mp h
  refine ⟨d, hd, ?_⟩
  unfold Decl.function? at hg
  split at hg
  · next hs => rw [hs, Option.some.inj hg]
  · cases hg

theorem subject_of_interface? {ms : List DeclId} (h : t.interface? id = some ms) :
    ∃ d, t.decl? id = some d ∧ d.subject = .interface ms := by
  obtain ⟨d, hd, hms⟩ := Option.bind_eq_some_iff.mp h
  refine ⟨d, hd, ?_⟩
  unfold Decl.interface? at hms
  split at hms
  · next hs => rw [hs, Option.some.inj hms]
  · cases hms

theorem subject_of_class? {c : ClassDecl} (h : t.class? id = some c) :
    ∃ d, t.decl? id = some d ∧ d.subject = .class c := by
  obtain ⟨d, hd, hc⟩ := Option.bind_eq_some_iff.mp h
  refine ⟨d, hd, ?_⟩
  unfold Decl.class? at hc
  split at hc
  · next hs => rw [hs, Option.some.inj hc]
  · cases hc

theorem children_of_subject {d : Decl} {s : Subject} (hd : t.decl? id = some d)
    (hs : d.subject = s) : t.children id = s.children := by
  rw [children_eq hd, Decl.children, hs]

theorem children_of_interface? {ms : List DeclId} (h : t.interface? id = some ms) :
    t.children id = ms := by
  obtain ⟨d, hd, hs⟩ := subject_of_interface? h
  exact children_of_subject hd hs

theorem children_of_class? {c : ClassDecl} (h : t.class? id = some c) :
    t.children id = c.members := by
  obtain ⟨d, hd, hs⟩ := subject_of_class? h
  exact children_of_subject hd hs

/-- What a declaration refers to is there once the tree is complete. -/
theorem Built.fits (h : t.Built 0) {d : Decl} {s : Subject} (hd : t.decl? id = some d)
    (hs : d.subject = s) : t.Fits s :=
  hs ▸ h.subjects id d hd (Nat.ne_of_gt (decl?_le hd).1)

end Subjects

theorem Built.isSome_of_mem_children {w : Nat} (h : t.Built w) {id : DeclId} :
    ∀ c ∈ t.children id, (t.decl? c).isSome := by
  intro c hc
  obtain ⟨d, hd, _⟩ := parent?_eq_some.mp (h.child id c hc).2
  exact Option.isSome_iff_exists.mpr ⟨d, hd⟩

theorem mem_loose {id : Nat} : id ∈ t.loose ↔ t.parent? id = some 0 := by
  simp only [loose, List.mem_filter, List.mem_range'_1, beq_iff_eq, and_iff_right_iff_imp]
  intro h
  obtain ⟨d, hd, _⟩ := parent?_eq_some.mp h
  have := decl?_le hd
  omega

/-- Only variables and functions stand inside other declarations. -/
theorem Built.mem_loose_of_namesType (h : t.Built 0) {id : Nat} {d : Decl}
    (hd : t.decl? id = some d) (hk : d.kind.namesType = true) : id ∈ t.loose := by
  have hparent : t.parent? id = some d.parent := parent?_eq_some.mpr ⟨d, hd, rfl⟩
  rw [mem_loose, hparent]
  by_contra hne
  have hmem := h.parent id d.parent hparent fun h0 => hne (congrArg some h0)
  -- The declaration around it takes variables and functions only.
  have hvar : t.isVariable id = false := by
    simp only [isVariable, variableType?, hd, Option.bind_some, Decl.variableType?]
    cases hs : d.subject <;> simp_all [Decl.kind, Subject.kind, DeclKind.namesType]
  have hfun : t.function? id = none := by
    simp only [function?, hd, Option.bind_some, Decl.function?]
    cases hs : d.subject <;> simp_all [Decl.kind, Subject.kind, DeclKind.namesType]
  unfold children at hmem
  split at hmem
  · next e he =>
    have hfit := h.subjects d.parent e he (Nat.ne_of_gt (decl?_le he).1)
    unfold Decl.children at hmem
    cases hs : e.subject with
    | «variable» type => simp [hs, Subject.children] at hmem
    | «class» c =>
      rw [hs] at hfit hmem
      rcases hfit.2.2 id hmem with hv | hf
      · simp [hvar] at hv
      · simp [hfun] at hf
    | interface ms =>
      rw [hs] at hfit hmem
      have hp := hfit id hmem
      simp [isPrototype, hfun] at hp
    | function g =>
      rw [hs] at hfit hmem
      have hv := hfit.2.1 id hmem
      simp [hvar] at hv
  · cases hmem

theorem loose_pairwise (t : Tree) : t.loose.Pairwise (· < ·) :=
  List.Pairwise.filter _ (List.pairwise_lt_range' ..)

theorem loose_nodup (t : Tree) : t.loose.Nodup :=
  (loose_pairwise t).imp fun h => Nat.ne_of_lt h

/-- Children that have no parent yet get theirs, and nothing else changes. -/
theorem adopt_eq (parent : DeclId) {cs : List DeclId} (hn : cs.Nodup)
    (hc : ∀ c ∈ cs, ∃ d, t.decl? c = some d ∧ d.parent = 0) :
    ∃ ds, t.adopt parent cs = ({ t with decls := ds }, .ok ()) ∧ ds.size = t.decls.size ∧
      ∀ i : Nat, numbered? ds i =
        if i ∈ cs then (t.decl? i).map fun d => { d with parent } else t.decl? i := by
  induction cs generalizing t with
  | nil => exact ⟨t.decls, rfl, rfl, by simp [decl?]⟩
  | cons c cs ih =>
    obtain ⟨hnot, hn⟩ := List.nodup_cons.mp hn
    obtain ⟨d, hd, hp⟩ := hc c (List.mem_cons_self ..)
    have hpos := (decl?_le hd).1
    have hmod : ∀ i, (t.modifyDecl c fun d => { d with parent }).decl? i =
        if i = c then (t.decl? i).map fun d => { d with parent } else t.decl? i :=
      fun i => numbered?_modify t.decls _ hpos i
    obtain ⟨ds, hds, hsize, hget⟩ := ih (t := t.modifyDecl c fun d => { d with parent }) hn (by
      intro e he
      have hne : e ≠ c := fun h => hnot (h ▸ he)
      rw [hmod, if_neg hne]
      exact hc e (List.mem_cons_of_mem _ he))
    refine ⟨ds, ?_, ?_, ?_⟩
    · rw [adopt, hd]
      simp only [hp, ne_eq, not_true_eq_false, ↓reduceIte]
      exact hds
    · simpa [modifyDecl] using hsize
    · intro i
      rw [hget, hmod]
      by_cases hi : i = c
      · subst hi
        simp [hnot]
      · simp [hi]

/-- A new declaration takes the next number, and its children get it as their parent. -/
theorem addDecl_eq (name : Ident) (span : Span) (subject : Subject)
    (hn : subject.children.Nodup)
    (hc : ∀ c ∈ subject.children, ∃ d, t.decl? c = some d ∧ d.parent = 0) :
    ∃ ds, t.addDecl name span subject = ({ t with decls := ds }, .ok (t.decls.size + 1)) ∧
      ds.size = t.decls.size + 1 ∧
      ∀ i : Nat, ({ t with decls := ds } : Tree).decl? i =
        if i = t.decls.size + 1 then some { name, span, subject }
        else if i ∈ subject.children then
          (t.decl? i).map fun d => { d with parent := t.decls.size + 1 }
        else t.decl? i := by
  have hpush : ∀ i, ({ t with decls := t.decls.push { name, span, subject } } : Tree).decl? i =
      if i = t.decls.size + 1 then some { name, span, subject } else t.decl? i :=
    fun i => numbered?_push t.decls _ i
  have hne : ∀ c : Nat, c ∈ subject.children → c ≠ t.decls.size + 1 := by
    intro c hm he
    obtain ⟨d, hd, _⟩ := hc c hm
    have := decl?_le hd
    omega
  obtain ⟨ds, hds, hsize, hget⟩ := adopt_eq
    (t := { t with decls := t.decls.push { name, span, subject } })
    (t.decls.size + 1) hn (by
      intro c hm
      rw [hpush, if_neg (hne c hm)]
      exact hc c hm)
  refine ⟨ds, ?_, by simpa using hsize, ?_⟩
  · unfold addDecl
    simp only [hds]
  · intro i
    refine (hget i).trans ?_
    rw [hpush]
    by_cases hi : i = t.decls.size + 1
    · subst hi
      have hnot : t.decls.size + 1 ∉ subject.children := fun h => hne _ h rfl
      simp [hnot]
    · simp [hi]

/-- What a step that adds one declaration leaves: the declaration waits to be completed, and it
stands in place of its children among those without a parent. -/
structure Added (t u : Tree) (rest : List DeclId) (d : Decl) : Prop where
  built : u.Built (t.decls.size + 1)
  grows : t.Grows u
  decl : u.decl? (t.decls.size + 1) = some d
  loose : u.loose = rest ++ [t.decls.size + 1]
  types : u.types = t.types
  units : u.units = t.units
  origin : ∀ (i : Nat) (e : Decl), u.decl? i = some e → (i = t.decls.size + 1 ∧ e = d) ∨
    ∃ o p, t.decl? i = some o ∧ e = { o with parent := p }

theorem addDecl_built (ht : t.Built 0) (name : Ident) (span : Span) (subject : Subject)
    {rest : List DeclId} (hl : t.loose = rest ++ subject.children) :
    ∃ ds, t.addDecl name span subject = ({ t with decls := ds }, .ok (t.decls.size + 1)) ∧
      t.Added { t with decls := ds } rest { name, span, subject } := by
  have hmem : ∀ c ∈ subject.children, c ∈ t.loose := fun c hc => hl ▸ List.mem_append_right _ hc
  have hsorted : subject.children.Pairwise (· < ·) :=
    (List.pairwise_append.mp (hl ▸ loose_pairwise t)).2.1
  obtain ⟨ds, hds, hsize, hget⟩ := addDecl_eq (t := t) name span subject
    (hsorted.imp fun h => Nat.ne_of_lt h)
    fun c hc => parent?_eq_some.mp (mem_loose.mp (hmem c hc))
  refine ⟨ds, hds, ?_⟩
  generalize hu : ({ t with decls := ds } : Tree) = u at hget ⊢
  have hnew : u.decl? (t.decls.size + 1) = some { name, span, subject } := by
    rw [hget, if_pos rfl]
  have hold : ∀ (i : Nat) (d : Decl), t.decl? i = some d → u.decl? i = some
      { d with parent := if i ∈ subject.children then t.decls.size + 1 else d.parent } := by
    intro i d hd
    have hle := decl?_le hd
    rw [hget, if_neg (by omega)]
    split <;> simp_all
  have horigin : ∀ (i : Nat) (e : Decl), u.decl? i = some e →
      (i = t.decls.size + 1 ∧ e = { name, span, subject }) ∨
        ∃ o p, t.decl? i = some o ∧ e = { o with parent := p } := by
    intro i e he
    by_cases hi : i = t.decls.size + 1
    · subst hi
      exact .inl ⟨rfl, Option.some.inj (he.symm.trans hnew)⟩
    · have hle := decl?_le he
      obtain ⟨d, hd⟩ := numbered?_of_le t.decls hle.1 (by
        subst hu
        simp only [hsize] at hle
        omega)
      exact .inr ⟨d, _, hd, Option.some.inj (he.symm.trans (hold i d hd))⟩
  have hgrows : t.Grows u := ⟨fun _ _ h => hu ▸ h, fun i d hd => ⟨_, hold i d hd⟩⟩
  have hparent : ∀ i : Nat, i ≠ t.decls.size + 1 → u.parent? i =
      if i ∈ subject.children then some (t.decls.size + 1) else t.parent? i := by
    intro i hi
    unfold parent?
    rw [hget, if_neg hi]
    split
    · next hm =>
      obtain ⟨d, hd, _⟩ := parent?_eq_some.mp (mem_loose.mp (hmem i hm))
      rw [hd]
      rfl
    · rfl
  have hchildren : ∀ i : Nat, i ≠ t.decls.size + 1 → u.children i = t.children i := by
    intro i hi
    by_cases hm : i ∈ subject.children
    · obtain ⟨d, hd, _⟩ := parent?_eq_some.mp (mem_loose.mp (hmem i hm))
      rw [children_eq hd, children_eq (hold i d hd)]
      rfl
    · unfold children
      rw [hget, if_neg hi, if_neg hm]
  have hnewc : u.children (t.decls.size + 1) = subject.children := children_eq hnew
  have hlt : ∀ c p : Nat, t.parent? c = some p → c ≠ t.decls.size + 1 := by
    intro c p hc
    obtain ⟨d, hd, _⟩ := parent?_eq_some.mp hc
    have := decl?_le hd
    omega
  refine ⟨⟨hu ▸ ht.ordered, ?_, ?_, ?_, ?_⟩, hgrows, hnew, ?_, hu ▸ rfl, hu ▸ rfl, horigin⟩
  · intro i
    by_cases hi : i = t.decls.size + 1
    · rw [hi, hnewc]
      exact hsorted
    · rw [hchildren i hi]
      exact ht.sorted i
  · intro p c hc
    by_cases hp : p = t.decls.size + 1
    · rw [hp, hnewc] at hc
      have hloose := mem_loose.mp (hmem c hc)
      obtain ⟨d, hd, _⟩ := parent?_eq_some.mp hloose
      have hle := decl?_le hd
      rw [hparent c (hlt c 0 hloose), if_pos hc, hp]
      exact ⟨by omega, rfl⟩
    · rw [hchildren p hp] at hc
      obtain ⟨hcp, hpar⟩ := ht.child p c hc
      have hnot : c ∉ subject.children := by
        intro hm
        have hz := (mem_loose.mp (hmem c hm)).symm.trans hpar
        cases hz
        omega
      rw [hparent c (hlt c p hpar), if_neg hnot]
      exact ⟨hcp, hpar⟩
  · intro c p hc hp
    by_cases hi : c = t.decls.size + 1
    · subst hi
      obtain ⟨d, hd, rfl⟩ := parent?_eq_some.mp hc
      cases hd.symm.trans hnew
      exact (hp rfl).elim
    · rw [hparent c hi] at hc
      split at hc
      · next hm =>
        cases hc
        rw [hnewc]
        exact hm
      · have hm := ht.parent c p hc hp
        have hpne : p ≠ t.decls.size + 1 := by
          rintro rfl
          unfold children at hm
          split at hm
          · next d hd =>
            have := decl?_le hd
            omega
          · cases hm
        rw [hchildren p hpne]
        exact hm
  · intro i e he hi
    rcases horigin i e he with ⟨rfl, rfl⟩ | ⟨d, p, hd, rfl⟩
    · exact (hi rfl).elim
    · refine hgrows.fits (ht.subjects i d hd ?_)
      have := decl?_le hd
      omega
  · have hsplit : ∀ i ∈ List.range' 1 t.decls.size, (u.parent? i == some 0) =
        (!subject.children.contains i && t.parent? i == some 0) := by
      intro i hi
      rw [List.mem_range'_1] at hi
      rw [hparent i (by omega)]
      by_cases hm : i ∈ subject.children
      · simp [hm]
      · simp [hm]
    have hdisjoint : ∀ i ∈ rest, i ∉ subject.children := by
      have hnd := List.nodup_append.mp (hl ▸ loose_nodup t)
      exact fun i hi hc => hnd.2.2 i hi i hc rfl
    have hrest : t.loose.filter (fun i => !subject.children.contains i) = rest := by
      rw [hl, List.filter_append, List.filter_eq_self.mpr, List.filter_eq_nil_iff.mpr,
        List.append_nil]
      · intro i hi
        simpa using hi
      · intro i hi
        simpa using hdisjoint i hi
    have husize : u.decls.size = t.decls.size + 1 := hu ▸ hsize
    unfold loose at hrest ⊢
    rw [husize, List.range'_1_concat, List.filter_append, List.filter_congr hsplit,
      ← List.filter_filter, hrest, Nat.add_comm 1]
    simp [parent?, hnew]

theorem Built.complete {w : Nat} (h : t.Built w) {d : Decl} (hd : t.decl? w = some d)
    (hf : t.Fits d.subject) : t.Built 0 := by
  refine ⟨h.ordered, h.sorted, h.child, h.parent, ?_⟩
  intro i e he _
  by_cases hi : i = w
  · subst hi
    cases he.symm.trans hd
    exact hf
  · exact h.subjects i e he hi

/-- The forest is made of types and declarations alone. -/
theorem Built.congr {u : Tree} {w : Nat} (h : t.Built w) (hd : u.decls = t.decls)
    (ht : u.types = t.types) : u.Built w := by
  obtain ⟨_, _, _, _, _⟩ := t
  obtain ⟨_, _, _, _, _⟩ := u
  subst hd ht
  exact ⟨h.ordered, h.sorted, h.child, h.parent, h.subjects⟩

theorem Grows.congr {u v : Tree} (h : t.Grows u) (hd : v.decls = u.decls)
    (ht : v.types = u.types) : t.Grows v := by
  obtain ⟨_, _, _, _, _⟩ := u
  obtain ⟨_, _, _, _, _⟩ := v
  subst hd ht
  exact ⟨h.types, h.decls⟩

theorem loose_congr {u : Tree} (hd : u.decls = t.decls) : u.loose = t.loose := by
  obtain ⟨_, _, _, _, _⟩ := t
  obtain ⟨_, _, _, _, _⟩ := u
  subst hd
  rfl

theorem type?_addType (t : Tree) (e : TypeExpr) (i : Nat) :
    (t.addType e).1.type? i = if i = t.types.size + 1 then some e else t.type? i :=
  numbered?_push t.types e i

theorem grows_addType (t : Tree) (e : TypeExpr) : t.Grows (t.addType e).1 := by
  refine ⟨fun i o ho => ?_, fun i d hd => ⟨d.parent, hd⟩⟩
  have hle := type?_le ho
  rw [type?_addType, if_neg (by omega)]
  exact ho

/-- A new type takes the next number. The element of an array has to be there. -/
theorem addType_built (ht : t.Built 0) {e : TypeExpr}
    (he : ∀ (elem : Nat) (span : Span), e = .array elem span → 0 < elem ∧ elem ≤ t.types.size) :
    (t.addType e).1.Built 0 ∧ t.Grows (t.addType e).1 ∧
      ∀ i : Nat, (t.addType e).1.type? i = if i = t.types.size + 1 then some e else t.type? i := by
  have hgrows := grows_addType t e
  refine ⟨⟨?_, ht.sorted, ht.child, ht.parent, ?_⟩, hgrows, type?_addType t e⟩
  · intro i elem span h
    rw [type?_addType] at h
    split at h
    · next hi =>
      have := he elem span (Option.some.inj h)
      omega
    · exact ht.ordered i elem span h
  · intro i d hd hi
    exact hgrows.fits (ht.subjects i d hd hi)

theorem Added.addBlock {u : Tree} {rest : List DeclId} {d : Decl} (h : t.Added u rest d)
    (span : Span) (cs : List BlockId) : t.Added (u.addBlock span cs).1 rest d :=
  ⟨h.built.congr rfl rfl, h.grows.congr rfl rfl, h.decl, h.loose, h.types, h.units, h.origin⟩

theorem function?_eq_some {id : DeclId} {d : Decl} {f : FunctionDecl} (hd : t.decl? id = some d)
    (hf : d.subject = .function f) : t.function? id = some f := by
  simp [function?, hd, Decl.function?, hf]

/-- A function that waits gets its body. -/
theorem Added.attachBody (ht : t.Built 0) {u : Tree} {rest : List DeclId} {d : Decl}
    {f : FunctionDecl} (h : t.Added u rest d) (hf : d.subject = .function f)
    (hs : f.state = .signatureOnly) {body : BlockId} (hb : body ≠ 0) :
    ∃ ds, u.attachBody (t.decls.size + 1) body = ({ u with decls := ds }, .ok ()) ∧
      t.Added { u with decls := ds } rest
        { d with subject := .function { f with body, state := .complete } } := by
  let full : Decl → Decl := fun d =>
    { d with subject := .function { f with body, state := .complete } }
  refine ⟨(u.modifyDecl (t.decls.size + 1) full).decls, ?_, ?_⟩
  · unfold Tree.attachBody
    rw [function?_eq_some h.decl hf]
    simp only [hs, ne_eq, not_true_eq_false, ↓reduceIte, hb]
    rfl
  generalize hv : ({ u with decls := (u.modifyDecl (t.decls.size + 1) full).decls } : Tree) = v
  have hget : ∀ i : Nat, v.decl? i =
      if i = t.decls.size + 1 then (u.decl? i).map full else u.decl? i :=
    fun i => hv ▸ numbered?_modify u.decls full (Nat.succ_pos _) i
  have hnew : v.decl? (t.decls.size + 1) = some (full d) := by
    rw [hget, if_pos rfl, h.decl]
    rfl
  have hother : ∀ i : Nat, i ≠ t.decls.size + 1 → v.decl? i = u.decl? i :=
    fun i hi => by rw [hget, if_neg hi]
  have hchildren : ∀ i : Nat, v.children i = u.children i := by
    intro i
    by_cases hi : i = t.decls.size + 1
    · subst hi
      rw [children_eq hnew, children_eq h.decl]
      simp [full, Decl.children, hf, Subject.children]
    · unfold children
      rw [hother i hi]
  have hparent : ∀ i : Nat, v.parent? i = u.parent? i := by
    intro i
    unfold parent?
    by_cases hi : i = t.decls.size + 1
    · subst hi
      rw [hnew, h.decl]
      rfl
    · rw [hother i hi]
  have hgrows : t.Grows v := by
    refine ⟨fun i e he => hv ▸ h.grows.types i e he, fun i e he => ?_⟩
    have hle := decl?_le he
    rw [hother i (by omega)]
    exact h.grows.decls i e he
  have horigin : ∀ (i : Nat) (e : Decl), v.decl? i = some e →
      (i = t.decls.size + 1 ∧ e = full d) ∨
        ∃ o p, t.decl? i = some o ∧ e = { o with parent := p } := by
    intro i e he
    by_cases hi : i = t.decls.size + 1
    · subst hi
      exact .inl ⟨rfl, Option.some.inj (he.symm.trans hnew)⟩
    · rw [hother i hi] at he
      exact (h.origin i e he).imp_left fun ⟨he, _⟩ => (hi he).elim
  refine ⟨⟨hv ▸ h.built.ordered, ?_, ?_, ?_, ?_⟩, hgrows, hnew, ?_, hv ▸ h.types, hv ▸ h.units,
    horigin⟩
  · simpa only [hchildren] using h.built.sorted
  · simpa only [hchildren, hparent] using h.built.child
  · simpa only [hchildren, hparent] using h.built.parent
  · intro i e he hi
    rcases horigin i e he with ⟨rfl, rfl⟩ | ⟨o, p, ho, rfl⟩
    · exact (hi rfl).elim
    · refine hgrows.fits (ht.subjects i o ho ?_)
      have := decl?_le ho
      omega
  · have hsize : v.decls.size = u.decls.size := by
      subst hv
      simp [modifyDecl]
    rw [← h.loose]
    unfold Tree.loose
    simp only [hsize, hparent]

end Tree

/-! ## Places -/

/-- A diagnostic speaks about one file only. -/
structure Diagnostic.InFile (f : FileId) (d : Diagnostic) : Prop where
  primary : d.primary.file = f
  notes : ∀ n ∈ d.notes, n.span.file = f

theorem Diagnostic.inFile_error {f : FileId} {code : Code} {span : Span} {message : Text}
    (h : span.file = f) : (Diagnostic.error code span message).InFile f :=
  ⟨h, by intro n hn; cases hn⟩

/-- All names and types of a tree stand in one file. -/
structure Tree.InFile (f : FileId) (t : Tree) : Prop where
  decls : ∀ (id : Nat) (d : Decl), t.decl? id = some d → d.name.span.file = f ∧ d.span.file = f
  types : ∀ (id : Nat) (e : TypeExpr), t.type? id = some e → e.span.file = f

theorem Tree.type?_of_namedType? {t : Tree} {id : TypeExprId} {i : Ident}
    (h : t.namedType? id = some i) : t.type? id = some (.named i) := by
  unfold namedType? at h
  split at h
  · next he =>
    cases h
    exact he
  · cases h

theorem Tree.InFile.ident {f : FileId} {t : Tree} (ht : t.InFile f) {id : TypeExprId} {i : Ident}
    (h : t.namedType? id = some i) : i.span.file = f :=
  ht.types id (.named i) (t.type?_of_namedType? h)

theorem Span.cover_file (s t : Span) : (s.cover t).file = s.file := by
  unfold cover
  split <;> rfl

end DeclCheck

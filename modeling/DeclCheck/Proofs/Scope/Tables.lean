import DeclCheck.Proofs.Scope.Filling
import DeclCheck.Proofs.Tree.Calls
import Mathlib.Data.List.Pairwise

/-!
# Tables of scopes

A table fits its tree if each scope has an owner of its kind and a scope around it that belongs to the
parent of the owner, the map of owners leads to each scope, and a scope binds each name once, as its index
says, and to a declaration that is there. A fresh table fits, and it fits further whatever is built, handed out and entered. A table
that fits has no issues.
-/
namespace DeclCheck

/-! ## The first binding of each name -/

namespace Binding

/-- Bindings without those whose name was bound before. -/
def firsts : List Binding → List Binding
  | [] => []
  | b :: bs => b :: (firsts bs).filter (·.name != b.name)

theorem mem_names_firsts {n : NameId} {bs : List Binding} :
    n ∈ (firsts bs).map (·.name) ↔ n ∈ bs.map (·.name) := by
  induction bs with
  | nil => exact Iff.rfl
  | cons b bs ih =>
    simp only [firsts, List.map_cons, List.mem_cons, List.mem_map, List.mem_filter, bne_iff_ne] at ih ⊢
    by_cases hn : n = b.name
    · simp [hn]
    · rw [← ih]
      refine or_congr_right ⟨?_, ?_⟩
      · rintro ⟨a, ⟨ha, _⟩, he⟩
        exact ⟨a, ha, he⟩
      · rintro ⟨a, ha, he⟩
        exact ⟨a, ⟨ha, he ▸ hn⟩, he⟩

theorem firsts_append_singleton (bs : List Binding) (b : Binding) :
    firsts (bs ++ [b]) = if b.name ∈ bs.map (·.name) then firsts bs else firsts bs ++ [b] := by
  induction bs with
  | nil => rfl
  | cons a bs ih =>
    simp only [List.cons_append, firsts, ih, List.map_cons, List.mem_cons]
    by_cases hb : b.name ∈ bs.map (·.name)
    · rw [if_pos hb, if_pos (.inr hb)]
    · rw [if_neg hb, List.filter_append]
      by_cases ha : b.name = a.name
      · simp [ha]
      · simp only [ha, hb, or_self, ↓reduceIte]
        rw [List.filter_cons_of_pos (by simpa using ha), List.filter_nil]

theorem firsts_firsts_append (xs ys : List Binding) :
    firsts (firsts xs ++ ys) = firsts (xs ++ ys) := by
  induction ys using List.reverseRecOn with
  | nil =>
    induction xs using List.reverseRecOn with
    | nil => rfl
    | append_singleton xs x ih =>
      simp only [List.append_nil] at ih ⊢
      rw [firsts_append_singleton]
      split
      · exact ih
      · next hx => rw [firsts_append_singleton, if_neg (mt mem_names_firsts.mp hx), ih]
  | append_singleton ys y ih =>
    rw [← List.append_assoc, ← List.append_assoc, firsts_append_singleton, firsts_append_singleton, ih]
    simp only [List.map_append, List.mem_append, mem_names_firsts]

theorem firsts_eq_self {bs : List Binding} (h : (bs.map (·.name)).Nodup) : firsts bs = bs := by
  induction bs with
  | nil => rfl
  | cons b bs ih =>
    obtain ⟨hnot, hn⟩ := List.nodup_cons.mp h
    rw [firsts, ih hn, List.filter_eq_self.mpr]
    intro a ha
    rw [bne_iff_ne]
    exact fun he => hnot (List.mem_map.mpr ⟨a, ha, he⟩)

end Binding

namespace Scope

variable {s : Scope}

/-- A binding is entered unless its name is bound. -/
theorem entries_enter (s : Scope) (name : NameId) (id : DeclId) :
    (s.enter name id).entries = if (s.lookup? name).isSome then s.entries else s.entries ++ [⟨name, id⟩] := by
  unfold enter
  split <;> rfl

theorem enter_parent (s : Scope) (name : NameId) (id : DeclId) :
    (s.enter name id).parent = s.parent := by
  unfold enter
  split <;> rfl

theorem enter_kind (s : Scope) (name : NameId) (id : DeclId) : (s.enter name id).kind = s.kind := by
  unfold enter
  split <;> rfl

theorem Indexed.entries_enter (h : s.Indexed) (name : NameId) (id : DeclId) :
    (s.enter name id).entries = Binding.firsts (s.entries ++ [⟨name, id⟩]) := by
  rw [Scope.entries_enter, Binding.firsts_append_singleton, Binding.firsts_eq_self h.names]
  exact if_congr h.isSome_iff rfl rfl

end Scope

/-! ## Tables that fit -/

namespace ScopeTable

variable {t : ScopeTable} {tree : Tree}

theorem begin_eq_ok {decl : DeclId} {u : ScopeTable} (h : t.begin decl = .ok u) :
    u = t.modifyScope decl fun s => { s with filled := true } := by
  unfold ScopeTable.begin at h
  split at h
  · cases h
  · split at h
    · cases h
    · cases h
      rfl

/-- A fresh scope stands alone exactly if its owner has no parent. -/
theorem ofTree_parent_eq_zero (ht : tree.Rooted) {i : ScopeId} {s : Scope}
    (h : (ofTree tree).scope? i = some s) :
    s.Blank ∧ ∃ d, tree.decl? s.owner = some d ∧ (s.parent = 0 ↔ d.parent = 0) := by
  obtain ⟨d, hd, _, _, hshape⟩ := scope?_ofTree h
  have hblank : s.Blank := by
    rw [hshape]
    exact ⟨rfl, rfl⟩
  have hparent : s.parent = if d.parent = 0 then 0 else (unlinked tree).idOf d.parent := by rw [hshape]
  refine ⟨hblank, d, hd, ?_⟩
  by_cases hp : d.parent = 0
  · simp [hparent, hp]
  · obtain ⟨e, he, hk⟩ := ht s.owner d hd hp
    let r : Scope := { kind := .ofDecl e.kind, owner := d.parent, span := e.span }
    have hmem : r ∈ (unlinked tree).scopes := mem_unlinked.mpr ⟨e, he, hk, rfl⟩
    obtain ⟨j, hj, hget⟩ := Array.mem_iff_getElem.mp hmem
    have hscope : (unlinked tree).scope? (j + 1) = some r := Array.getElem?_eq_some_iff.mpr ⟨hj, hget⟩
    have hid : (unlinked tree).idOf d.parent = j + 1 := (unlinked_covers tree).linked.idOf_owner hscope
    rw [hparent, if_neg hp, hid]
    exact ⟨fun h0 => (Nat.succ_ne_zero j h0).elim, fun h0 => (hp h0).elim⟩

/-- A scope fits its owner. -/
structure ScopeFits (tree : Tree) (t : ScopeTable) (s : Scope) (owner : Decl) : Prop where
  kind : s.kind = .ofDecl owner.kind
  owns : owner.kind ≠ .variable
  parent : s.parent ≠ 0 →
    owner.parent ≠ 0 ∧ ∃ r, t.scope? s.parent = some r ∧ r.owner = owner.parent
  indexed : s.Indexed
  decls : ∀ b ∈ s.entries, (tree.decl? b.decl).isSome

/-- A table fits a tree. -/
structure Fits (tree : Tree) (t : ScopeTable) : Prop where
  linked : t.Backlinked
  scopes : ∀ (i : ScopeId) (s : Scope), t.scope? i = some s →
    ∃ d, tree.decl? s.owner = some d ∧ t.ScopeFits tree s d

theorem Fits.empty (tree : Tree) : ({} : ScopeTable).Fits tree := by
  refine ⟨(Covers.empty tree).linked, fun i s hs => ?_⟩
  cases i <;> cases hs

theorem Fits.ofTree (tree : Tree) : (ofTree tree).Fits tree := by
  refine ⟨ofTree_backlinked tree, fun i s hs => ?_⟩
  obtain ⟨d, hd, hk, _, hshape⟩ := scope?_ofTree hs
  have hblank : s.Blank := by
    rw [hshape]
    exact ⟨rfl, rfl⟩
  have hparent : s.parent = if d.parent = 0 then 0 else (unlinked tree).idOf d.parent := by rw [hshape]
  refine ⟨d, hd, ?_, hk, fun hp => ?_, hblank.indexed, ?_⟩
  · rw [hshape]
  · split at hparent
    · exact (hp hparent).elim
    · next hd0 =>
      obtain ⟨r, hr, ho⟩ := (unlinked_covers tree).linked.scope?_idOf (hparent ▸ hp)
      refine ⟨hd0, (unlinked tree).linked tree r, ?_, (linked_owner tree _ r).trans ho⟩
      rw [hparent, scope?_ofTree_eq, hr]
      rfl
  · rw [hblank.entries]
    exact nofun

section Changes

variable (h : t.Fits tree)
include h

/-- Further building does not matter. -/
theorem Fits.keeps {u : Tree} (hu : tree.Keeps u) : t.Fits u := by
  refine ⟨h.linked, fun i s hs => ?_⟩
  obtain ⟨d, hd, hfits⟩ := h.scopes i s hs
  obtain ⟨e, he, hkind, hparent⟩ := hu s.owner d hd
  refine ⟨e, he, hkind ▸ hfits.kind, hkind ▸ hfits.owns, fun hp => ?_, hfits.indexed,
    fun b hb => hu.isSome (hfits.decls b hb)⟩
  obtain ⟨hd0, r, hr, ho⟩ := hfits.parent hp
  rw [hparent hd0]
  exact ⟨hd0, r, hr, ho⟩

/-- Changing what a scope binds, and nothing else. -/
theorem Fits.modifyScope (decl : DeclId) {g : Scope → Scope} (hkind : ∀ s, (g s).kind = s.kind)
    (howner : ∀ s, (g s).owner = s.owner) (hparent : ∀ s, (g s).parent = s.parent)
    (hindexed : ∀ s : Scope, s.Indexed → (g s).Indexed)
    (hdecls : ∀ s : Scope, (∀ b ∈ s.entries, (tree.decl? b.decl).isSome) →
      ∀ b ∈ (g s).entries, (tree.decl? b.decl).isSome) : (t.modifyScope decl g).Fits tree := by
  -- Each scope is as before, or it is the one that was changed.
  have hscope : ∀ i s, (t.modifyScope decl g).scope? i = some s →
      ∃ r, t.scope? i = some r ∧ (s = r ∨ s = g r) := by
    intro i s hs
    rw [scope?_modifyScope] at hs
    split at hs
    · obtain ⟨r, hr, rfl⟩ := Option.map_eq_some_iff.mp hs
      exact ⟨r, hr, .inr rfl⟩
    · exact ⟨s, hs, .inl rfl⟩
  have howns : ∀ i r, t.scope? i = some r →
      ∃ s, (t.modifyScope decl g).scope? i = some s ∧ s.owner = r.owner := by
    intro i r hr
    rw [scope?_modifyScope, hr]
    split
    · exact ⟨g r, rfl, howner r⟩
    · exact ⟨r, rfl, rfl⟩
  constructor
  · exact h.linked.modifyScope decl howner
  · intro i s hs
    obtain ⟨r, hr, hs⟩ := hscope i s hs
    obtain ⟨d, hd, hfits⟩ := h.scopes i r hr
    have haround : r.parent ≠ 0 → d.parent ≠ 0 ∧
        ∃ q, (t.modifyScope decl g).scope? r.parent = some q ∧ q.owner = d.parent := by
      intro hp
      obtain ⟨hd0, q, hq, ho⟩ := hfits.parent hp
      obtain ⟨q', hq', ho'⟩ := howns _ q hq
      exact ⟨hd0, q', hq', ho'.trans ho⟩
    rcases hs with rfl | rfl
    · exact ⟨d, hd, hfits.kind, hfits.owns, haround, hfits.indexed, hfits.decls⟩
    · refine ⟨d, by rw [howner]; exact hd, ?_, hfits.owns, ?_, hindexed r hfits.indexed,
        hdecls r hfits.decls⟩
      · rw [hkind]
        exact hfits.kind
      · rw [hparent]
        exact haround

theorem Fits.begin {decl : DeclId} {u : ScopeTable} (hu : t.begin decl = .ok u) : u.Fits tree := by
  rw [begin_eq_ok hu]
  exact h.modifyScope decl (fun _ => rfl) (fun _ => rfl) (fun _ => rfl) (fun _ hs => ⟨hs.names, hs.size, hs.lookup⟩)
    fun _ hd => hd

theorem Fits.enter (owner : DeclId) (name : NameId) {decl : DeclId} (hd : (tree.decl? decl).isSome) :
    (t.enter owner name decl).Fits tree := by
  refine h.modifyScope owner (fun s => s.enter_kind name decl) (fun s => s.enter_owner name decl)
    (fun s => s.enter_parent name decl) (fun s hs => hs.enter name decl) fun s hs b hb => ?_
  rw [Scope.entries_enter] at hb
  split at hb
  · exact hs b hb
  · rcases List.mem_append.mp hb with hb | hb
    · exact hs b hb
    · rw [List.mem_singleton.mp hb]
      exact hd

/-! ## Issues -/

omit h in
theorem issueIf_eq_nil {b : Bool} {i : Issue} (hb : b = false) : issueIf b i = [] := by
  rw [issueIf, hb]
  rfl

theorem Fits.scopeIssues {i : ScopeId} {s : Scope} (hs : t.scope? i = some s) :
    t.scopeIssues tree i s = [] := by
  obtain ⟨d, hd, hfits⟩ := h.scopes i s hs
  have hvalid : s.kind ≠ .invalid := by
    rw [hfits.kind]
    cases hk : d.kind <;> simp_all [ScopeKind.ofDecl, hfits.owns]
  have hparent : t.parentFits s d = true := by
    unfold parentFits
    by_cases hp : s.parent = 0
    · simp [hp]
    · obtain ⟨_, r, hr, ho⟩ := hfits.parent hp
      simp [hr, ho]
  have hentries : entryIssues tree i s = [] := by
    refine List.flatMap_eq_nil_iff.mpr fun b hb => ?_
    have hfound := (hfits.indexed.lookup b.name b.decl).mpr hb
    rw [issueIf_eq_nil (by simpa using hfound), issueIf_eq_nil (by simpa using hfits.decls b hb)]
    rfl
  simp only [ScopeTable.scopeIssues, hd, hentries, List.append_nil, List.append_eq_nil_iff]
  refine ⟨issueIf_eq_nil ?_, ⟨⟨issueIf_eq_nil ?_, issueIf_eq_nil ?_⟩, issueIf_eq_nil ?_⟩, issueIf_eq_nil ?_⟩
  · simpa using hvalid
  · simpa using hfits.kind.symm
  · simpa using h.linked.idOf_owner hs
  · simpa using hparent
  · simpa using hfits.indexed.size.symm

/-- A table that fits has no issues. -/
theorem Fits.issues : t.issues tree = [] := by
  refine List.flatMap_eq_nil_iff.mpr ?_
  rintro ⟨s, i⟩ hmem
  refine h.scopeIssues ?_
  have hget := List.mk_mem_zipIdx_iff_getElem?.mp hmem
  rw [Array.getElem?_toList] at hget
  exact hget

end Changes

end ScopeTable

end DeclCheck

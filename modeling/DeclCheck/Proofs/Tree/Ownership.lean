import DeclCheck.Proofs.Scope.Tables
import DeclCheck.Render.Scopes
import DeclCheck.Tree.Invariants
import Mathlib.Tactic.TFAE

/-!
# Ownership

If all calls that built a tree have returned, each declaration is listed once, by its parent, and it has a
smaller number than its parent. There is one exception: a class may list the number that it is about to get,
and is then its own parent. Names are looked up from scope to scope and paths are spelled from parent to
parent; the structure of a tree is inspected from parent to child. Where these walks are run, their steps are
counted; here they are relations that count none. The walks come to their ends, with the answers of those that
are run, exactly if no class lists itself.
-/
namespace DeclCheck

namespace Tree

variable {t u : Tree}

/-! ## What calls that return make of ownership -/

/-- Who lists whom. -/
structure Owned (t : Tree) : Prop where
  nodup : ∀ p, (t.children p).Nodup
  child : ∀ p c : Nat, c ∈ t.children p → t.parent? c = some p
  parent : ∀ c p : Nat, t.parent? c = some p → p ≠ 0 → c ∈ t.children p
  le : ∀ p c : Nat, c ∈ t.children p → c ≤ p
  self : ∀ c : Nat, c ∈ t.children c → ∃ d, t.decl? c = some d ∧ d.kind = .class

/-- Ownership is made of parents, children and kinds. -/
theorem Owned.congr (h : t.Owned) (hparent : ∀ i, u.parent? i = t.parent? i)
    (hchildren : ∀ i, u.children i = t.children i) (hkeeps : t.Keeps u) : u.Owned := by
  refine ⟨?_, ?_, ?_, ?_, fun c hc => ?_⟩
  · simpa only [hchildren] using h.nodup
  · simpa only [hchildren, hparent] using h.child
  · simpa only [hchildren, hparent] using h.parent
  · simpa only [hchildren] using h.le
  · obtain ⟨d, hd, hk⟩ := h.self c (hchildren c ▸ hc)
    obtain ⟨e, he, hkind, _⟩ := hkeeps c d hd
    exact ⟨e, he, hkind.trans hk⟩

/-- All children get their parent only if they are different and have none. -/
theorem adopt_ok {parent : DeclId} (hp : parent ≠ 0) {cs : List DeclId}
    (h : (t.adopt parent cs).2.isOk = true) :
    cs.Nodup ∧ ∀ c ∈ cs, ∃ d, t.decl? c = some d ∧ d.parent = 0 := by
  induction cs generalizing t with
  | nil => exact ⟨.nil, nofun⟩
  | cons c cs ih =>
    unfold adopt at h
    split at h
    · cases h
    · next d hd =>
      split at h
      · cases h
      · next hfree =>
        have hget := modifyDecl_decl? t (decl?_le hd).1 fun d => { d with parent }
        obtain ⟨hnodup, hrest⟩ := ih h
        have hnot : c ∉ cs := by
          intro hc
          obtain ⟨e, he, he0⟩ := hrest c hc
          rw [hget, if_pos rfl, hd] at he
          cases he
          exact hp he0
        refine ⟨List.nodup_cons.mpr ⟨hnot, hnodup⟩, ?_⟩
        refine List.forall_mem_cons.mpr ⟨⟨d, hd, by simpa using hfree⟩, ?_⟩
        intro x hx
        have hne : x ≠ c := fun he => hnot (he ▸ hx)
        obtain ⟨e, he, he0⟩ := hrest x hx
        rw [hget, if_neg hne] at he
        exact ⟨e, he, he0⟩

/-- What a new declaration that is complete has taken: different children without parents, possibly itself. -/
theorem addDecl_ok {name : Ident} {span : Span} {subject : Subject}
    (h : (t.addDecl name span subject).2.isOk = true) :
    subject.children.Nodup ∧ (∀ c ∈ subject.children, c = t.decls.size + 1 ∨ t.parent? c = some 0) ∧
    ∀ i : Nat, (t.addDecl name span subject).1.decl? i =
      (if i = t.decls.size + 1 then some { name, span, subject } else t.decl? i).map fun d =>
        if i ∈ subject.children then { d with parent := t.decls.size + 1 } else d := by
  have hget : ∀ i, ({ t with decls := t.decls.push { name, span, subject } } : Tree).decl? i =
      if i = t.decls.size + 1 then some { name, span, subject } else t.decl? i :=
    numbered?_push t.decls _
  have hadopt : (({ t with decls := t.decls.push { name, span, subject } } : Tree).adopt
      (t.decls.size + 1) subject.children).2.isOk = true := by
    unfold addDecl at h
    dsimp only at h
    split at h
    · next hrun =>
      rw [hrun]
      rfl
    · cases h
  obtain ⟨hnodup, hfree⟩ := adopt_ok (Nat.succ_ne_zero _) hadopt
  obtain ⟨ds, hds, _, hdecls⟩ := adopt_eq (t.decls.size + 1) hnodup hfree
  refine ⟨hnodup, fun c hc => ?_, fun i => ?_⟩
  · obtain ⟨d, hd, hd0⟩ := hfree c hc
    rw [hget] at hd
    split at hd
    · next hi => exact .inl hi
    · exact .inr (parent?_eq_some.mpr ⟨d, hd, hd0⟩)
  · rw [addDecl_fst, hds, ← hget]
    refine (hdecls i).trans ?_
    split
    · rfl
    · rw [Option.map_id']

theorem children_eq_nil {id : DeclId} (h : t.decl? id = none) : t.children id = [] := by
  simp [children, h]

theorem decl?_eq_none {i : Nat} (h : t.decls.size < i) : t.decl? i = none := by
  by_contra hsome
  obtain ⟨d, hd⟩ := Option.ne_none_iff_exists'.mp hsome
  exact absurd (decl?_le hd).2 (Nat.not_le_of_lt h)

theorem parent?_le {c q : Nat} (h : t.parent? c = some q) : c ≤ t.decls.size := by
  obtain ⟨d, hd, _⟩ := parent?_eq_some.mp h
  exact (decl?_le hd).2

section Added

variable {name : Ident} {span : Span} {subject : Subject}
  (hok : (t.addDecl name span subject).2.isOk = true)
include hok

theorem addDecl_children (i : Nat) : (t.addDecl name span subject).1.children i =
    if i = t.decls.size + 1 then subject.children else t.children i := by
  have hget := (addDecl_ok hok).2.2 i
  split
  · next hi =>
    rw [if_pos hi] at hget
    rw [children_eq hget]
    split <;> rfl
  · next hi =>
    rw [if_neg hi] at hget
    cases hd : t.decl? i with
    | none =>
      rw [hd] at hget
      rw [children_eq_nil hget, children_eq_nil hd]
    | some d =>
      rw [hd] at hget
      rw [children_eq hget, children_eq hd]
      split <;> rfl

theorem addDecl_parent? (i : Nat) : (t.addDecl name span subject).1.parent? i =
    if i ∈ subject.children then some (t.decls.size + 1)
    else if i = t.decls.size + 1 then some 0 else t.parent? i := by
  obtain ⟨_, hfree, hget⟩ := addDecl_ok hok
  unfold parent?
  rw [hget]
  by_cases hi : i ∈ subject.children
  · simp only [if_pos hi, Option.map_map]
    split
    · rfl
    · next hne =>
      obtain ⟨d, hd, _⟩ := parent?_eq_some.mp ((hfree i hi).resolve_left hne)
      rw [hd]
      rfl
  · simp only [if_neg hi, Option.map_id']
    split <;> rfl

theorem Owned.addDecl (h : t.Owned)
    (hself : t.decls.size + 1 ∈ subject.children → subject.kind = .class) :
    (t.addDecl name span subject).1.Owned := by
  obtain ⟨hnodup, hfree, hget⟩ := addDecl_ok hok
  have hold : ∀ c q : Nat, t.parent? c = some q → c ≠ t.decls.size + 1 := fun c q hc =>
    Nat.ne_of_lt (Nat.lt_succ_of_le (parent?_le hc))
  refine ⟨fun i => ?_, fun i c hc => ?_, fun c i hc hi => ?_, fun i c hc => ?_, fun c hc => ?_⟩
  · rw [addDecl_children hok]
    split
    · exact hnodup
    · exact h.nodup i
  · rw [addDecl_children hok] at hc
    rw [addDecl_parent? hok]
    split at hc
    · next hi => rw [if_pos hc, hi]
    · have howner := h.child i c hc
      -- A declaration that is listed has a parent already, so it is not taken again.
      have hnot : c ∉ subject.children := by
        intro hm
        have hloose := (hfree c hm).resolve_left (hold c i howner)
        cases hloose.symm.trans howner
        cases hc
      rw [if_neg hnot, if_neg (hold c i howner)]
      exact howner
  · rw [addDecl_parent? hok] at hc
    rw [addDecl_children hok]
    split at hc
    · next hm =>
      cases hc
      rw [if_pos rfl]
      exact hm
    · split at hc
      · cases hc
        exact (hi rfl).elim
      · have hm := h.parent c i hc hi
        have hne : i ≠ t.decls.size + 1 := by
          rintro rfl
          rw [children_eq_nil (decl?_eq_none (Nat.lt_succ_self _))] at hm
          cases hm
        rw [if_neg hne]
        exact hm
  · rw [addDecl_children hok] at hc
    split at hc
    · next hi =>
      rcases hfree c hc with rfl | hloose
      · exact Nat.le_of_eq hi.symm
      · exact hi ▸ Nat.le_succ_of_le (parent?_le hloose)
    · exact h.le i c hc
  · rw [addDecl_children hok] at hc
    split at hc
    · next hi =>
      have hd := hget c
      rw [if_pos hi, Option.map_some, if_pos hc] at hd
      exact ⟨_, hd, hself (hi ▸ hc)⟩
    · obtain ⟨d, hd, hk⟩ := h.self c hc
      obtain ⟨e, he, hkind, _⟩ := addDecl_keeps t name span subject c d hd
      exact ⟨e, he, hkind.trans hk⟩

end Added

theorem Owned.step (h : t.Owned) (hstep : t.Step u true) : u.Owned := by
  have hkeeps := hstep.keeps
  cases hstep with
  | same hdecls =>
    have hget := decl?_congr hdecls
    exact h.congr (fun i => by simp only [parent?, hget]) (fun i => by simp only [children, hget]) hkeeps
  | added name span subject hself hdecls hreturns =>
    have hget := decl?_congr hdecls
    have howned := Owned.addDecl (hreturns rfl) h hself
    exact howned.congr (fun i => by simp only [parent?, hget]) (fun i => by simp only [children, hget])
      ((Keeps.refl _).congr hdecls)
  | completed id f body hf hdecls =>
    obtain ⟨d, hd, hs⟩ := subject_of_function? hf
    have hget : ∀ i, u.decl? i = if i = id then (t.decl? i).map _ else t.decl? i := fun i =>
      (decl?_congr hdecls i).trans (modifyDecl_decl? t (decl?_le hd).1 _ i)
    refine h.congr (fun i => ?_) (fun i => ?_) hkeeps
    · unfold parent?
      rw [hget]
      split
      · rw [Option.map_map]
        rfl
      · rfl
    · by_cases hi : i = id
      · subst hi
        have hu := hget i
        rw [if_pos rfl, hd] at hu
        rw [children_eq hu, children_eq hd]
        simp only [Decl.children, hs, Subject.children]
      · simp only [children, hget, if_neg hi]

theorem owned_empty : ({} : Tree).Owned := by
  have hnone : ∀ i, ({} : Tree).decl? i = none := by
    intro i
    cases i <;> rfl
  have hchildren : ∀ i, ({} : Tree).children i = [] := fun i => by rw [children, hnone]
  refine ⟨?_, ?_, ?_, ?_, ?_⟩ <;> simp [hchildren, parent?, hnone]

theorem Owned.after? {calls : List Call} (h : ({} : Tree).after? calls = some t) : t.Owned :=
  after?_induction Owned.step owned_empty h

/-- A declaration is listed by its parent once and by no other. -/
theorem Owned.listed (h : t.Owned) {c p : Nat} (hc : t.parent? c = some p) (hp : p ≠ 0) :
    c ≤ p ∧ (t.children p).count c = 1 ∧ ∀ q, c ∈ t.children q → q = p := by
  have hmem := h.parent c p hc hp
  refine ⟨h.le p c hmem, List.count_eq_one_of_mem (h.nodup p) hmem, fun q hq => ?_⟩
  exact Option.some.inj ((h.child q c hq).symm.trans hc)

/-- Unless it lists itself, a declaration has a smaller number than its parent. -/
theorem Owned.lt (h : t.Owned) (hself : ∀ c, c ∉ t.children c) {c p : Nat} (hc : c ∈ t.children p) :
    c < p := by
  refine Nat.lt_of_le_of_ne (h.le p c hc) ?_
  rintro rfl
  exact hself c hc

/-! ## Paths -/

/-- A walk from a declaration to the outermost one around it spells a path. -/
inductive Path (t : Tree) : DeclId → List Text → Prop
  | outside {id : DeclId} (h : t.decl? id = none) : Path t id []
  | inside {id : DeclId} {d : Decl} {names : List Text} (h : t.decl? id = some d)
      (around : Path t d.parent names) : Path t id (names ++ [t.nameOf id])

theorem path_of_lt (hlt : ∀ c p : Nat, t.parent? c = some p → p ≠ 0 → c < p) {fuel : Nat} {id : Nat}
    (hfuel : id = 0 ∨ t.decls.size < id + fuel) : t.Path id (t.pathWithin fuel id) := by
  induction fuel generalizing id with
  | zero =>
    refine .outside ?_
    rcases hfuel with rfl | hfuel
    · rfl
    · exact decl?_eq_none hfuel
  | succ fuel ih =>
    unfold pathWithin
    split
    · next hd => exact .outside hd
    · next d hd =>
      refine .inside hd (ih ?_)
      by_cases hp : d.parent = 0
      · exact .inl hp
      · have hid := hlt id d.parent (parent?_eq_some.mpr ⟨d, hd, rfl⟩) hp
        have hpos := (decl?_le hd).1
        exact .inr (by omega)

theorem not_path_of_self {c : DeclId} (hc : t.parent? c = some c) (names : List Text) :
    ¬ t.Path c names := by
  intro hpath
  induction hpath with
  | outside h =>
    obtain ⟨d, hd, _⟩ := parent?_eq_some.mp hc
    cases h.symm.trans hd
  | inside h _ ih =>
    obtain ⟨d, hd, hp⟩ := parent?_eq_some.mp hc
    cases h.symm.trans hd
    exact ih (hp.symm ▸ hc)

/-! ## Inspections -/

/-- A walk through a declaration and those inside it finds defects. -/
inductive Inspected (t : Tree) (unit : Span) (file : FileId) : DeclId → DeclId → Bool → List Defect → Prop
  | unknown {id owner : DeclId} {inInterface : Bool} (h : t.decl? id = none) :
      Inspected t unit file id owner inInterface [.unknownDecl id]
  | known {id owner : DeclId} {inInterface : Bool} {d : Decl} (below : DeclId → List Defect)
      (h : t.decl? id = some d)
      (hbelow : ∀ c ∈ d.children, Inspected t unit file c id (d.kind == .interface) (below c)) :
      Inspected t unit file id owner inInterface
        (t.ownDefects unit file owner inInterface d ++ d.children.flatMap below)

theorem inspected_of_lt (hlt : ∀ p c : Nat, c ∈ t.children p → c < p) (unit : Span) (file : FileId)
    {fuel : Nat} {id : Nat} (owner : DeclId) (inInterface : Bool)
    (hfuel : id < fuel ∨ t.decl? id = none ∧ 0 < fuel) :
    t.Inspected unit file id owner inInterface (t.defectsWithin unit file fuel id owner inInterface) := by
  induction fuel generalizing id owner inInterface with
  | zero => omega
  | succ fuel ih =>
    unfold defectsWithin
    split
    · next hd => exact .unknown hd
    · next d hd =>
      refine .known _ hd fun c hc => ih id _ (.inl ?_)
      have hless := hlt id c (children_eq hd ▸ hc)
      rcases hfuel with hfuel | ⟨hnone, _⟩
      · omega
      · cases hnone.symm.trans hd

theorem not_inspected_of_self {c : DeclId} (hc : c ∈ t.children c) {unit : Span} {file : FileId}
    {owner : DeclId} {inInterface : Bool} (ds : List Defect) :
    ¬ t.Inspected unit file c owner inInterface ds := by
  intro hwalk
  induction hwalk with
  | unknown h =>
    rw [children_eq_nil h] at hc
    cases hc
  | known below h _ ih => exact ih _ (children_eq h ▸ hc) hc

end Tree

/-! ## Looking names up from scope to scope -/

namespace ScopeTable

/-- A walk from a scope to those around it finds what a name stands for. -/
inductive Resolves (t : ScopeTable) (name : NameId) : ScopeId → Option DeclId → Prop
  | outside {id : ScopeId} (h : t.scope? id = none) : Resolves t name id none
  | here {id : ScopeId} {s : Scope} {decl : DeclId} (h : t.scope? id = some s)
      (hs : s.lookup? name = some decl) : Resolves t name id (some decl)
  | around {id : ScopeId} {s : Scope} {found : Option DeclId} (h : t.scope? id = some s)
      (hs : s.lookup? name = none) (hparent : Resolves t name s.parent found) : Resolves t name id found

/-- The tables have the same scopes around the same scopes, whatever these bind. -/
def LinkedAs (t u : ScopeTable) : Prop := t.scopes.map (·.parent) = u.scopes.map (·.parent)

theorem LinkedAs.scope? {t u : ScopeTable} (h : t.LinkedAs u) {i : ScopeId} {s : Scope}
    (hs : t.scope? i = some s) : ∃ r, u.scope? i = some r ∧ s.parent = r.parent := by
  have hget := congrArg (numbered? · i) h
  rw [numbered?_map, numbered?_map, ← ScopeTable.scope?, hs] at hget
  obtain ⟨r, hr, hp⟩ := Option.map_eq_some_iff.mp hget.symm
  exact ⟨r, hr, hp.symm⟩

variable {t : ScopeTable}

theorem resolves_of_lt
    (hlt : ∀ (i : Nat) (s : Scope), t.scope? i = some s → s.parent ≠ 0 → i < s.parent) (name : NameId)
    {fuel : Nat} {id : Nat} (hfuel : id = 0 ∨ t.scopes.size < id + fuel) :
    t.Resolves name id (t.resolveWithin name fuel id) := by
  have hnone : ∀ i : Nat, i = 0 ∨ t.scopes.size < i → t.scope? i = none := by
    intro i hi
    cases hs : t.scope? i with
    | none => rfl
    | some s =>
      have hle := numbered?_eq_some hs
      omega
  induction fuel generalizing id with
  | zero => exact .outside (hnone id hfuel)
  | succ fuel ih =>
    unfold resolveWithin
    split
    · next hs => exact .outside hs
    · next s hs =>
      split
      · next decl hfound => exact .here hs hfound
      · next hfree =>
        refine .around hs hfree (ih ?_)
        by_cases hp : s.parent = 0
        · exact .inl hp
        · have hid := hlt id s hs hp
          have hpos := (numbered?_eq_some hs).1
          exact .inr (by omega)

theorem not_resolves_of_self {i : ScopeId} {s : Scope} (hs : t.scope? i = some s) (hp : s.parent = i)
    {name : NameId} (hfree : s.lookup? name = none) (found : Option DeclId) :
    ¬ t.Resolves name i found := by
  intro hwalk
  induction hwalk with
  | outside h => cases h.symm.trans hs
  | here h hfound =>
    cases h.symm.trans hs
    cases hfound.symm.trans hfree
  | around h _ _ ih =>
    cases h.symm.trans hs
    exact ih (hp.symm ▸ hs) (hp.symm ▸ rfl)

variable {tree : Tree}

theorem ofTree_parent_lt (hlt : ∀ c p : Nat, tree.parent? c = some p → p ≠ 0 → c < p) {i : Nat} {s : Scope}
    (hs : (ofTree tree).scope? i = some s) (hp : s.parent ≠ 0) : i < s.parent := by
  obtain ⟨d, hd, _, hbare, hshape⟩ := scope?_ofTree hs
  have hparent : s.parent = if d.parent = 0 then 0 else (unlinked tree).idOf d.parent := by rw [hshape]
  split at hparent
  · exact (hp hparent).elim
  · next hd0 =>
    obtain ⟨r, hr, howner⟩ := (unlinked_covers tree).linked.scope?_idOf (hparent ▸ hp)
    have hless := hlt s.owner d.parent (Tree.parent?_eq_some.mpr ⟨d, hd, rfl⟩) hd0
    rw [← howner] at hless
    rw [hparent]
    rcases Nat.lt_trichotomy i ((unlinked tree).idOf d.parent) with h | h | h
    · exact h
    · rw [← h, hbare] at hr
      cases hr
      exact absurd hless (Nat.lt_irrefl _)
    · have hgreater := unlinked_ordered hr hbare h
      exact absurd hless (Nat.lt_asymm hgreater)

/-- The scope of a declaration that is its own parent stands inside itself. -/
theorem ofTree_parent_self {c : DeclId} {d : Decl} (hd : tree.decl? c = some d) (hk : d.kind ≠ .variable)
    (hp : d.parent = c) : ∃ i s, (ofTree tree).scope? i = some s ∧ s.parent = i ∧ s.Blank := by
  have hscope := scopeOf?_ofTree hd
  rw [if_neg hk] at hscope
  obtain ⟨s, hs, hblank, _⟩ := hscope
  have howner := (ofTree_backlinked tree).owner_eq hs
  obtain ⟨e, he, _, hbare, hshape⟩ := scope?_ofTree hs
  have hid := (unlinked_covers tree).linked.idOf_owner hbare
  rw [howner] at he
  cases he.symm.trans hd
  have hc : c ≠ 0 := Nat.ne_of_gt (Tree.decl?_le hd).1
  refine ⟨_, s, hs, ?_, hblank⟩
  rw [hshape, hp, if_neg hc, ← hid, howner]

end ScopeTable

namespace Tree

variable {t : Tree}

/-- If all calls have returned, a declaration is listed once, by its parent, and only a class can be its own
parent. If none is, parents have larger numbers and all walks come to their ends; if one is, they do not. -/
theorem listed_once_and_walks_end_iff {calls : List Call} (h : ({} : Tree).after? calls = some t) :
    (∀ c p : Nat, t.parent? c = some p → p ≠ 0 →
      c ≤ p ∧ (t.children p).count c = 1 ∧ ∀ q, c ∈ t.children q → q = p) ∧
    (∀ c, c ∈ t.children c → ∃ d, t.decl? c = some d ∧ d.kind = .class) ∧
    [∀ c, c ∉ t.children c,
      ∀ c p : Nat, t.parent? c = some p → p ≠ 0 → c < p,
      ∀ table : ScopeTable, table.LinkedAs (.ofTree t) → ∀ scope name,
        table.Resolves name scope (table.resolveWithin name (table.scopes.size + 1) scope),
      ∀ id, t.Path id (t.pathWithin (t.decls.size + 1) id),
      ∀ unit file id owner inInterface, t.Inspected unit file id owner inInterface
        (t.defectsWithin unit file (t.decls.size + 1) id owner inInterface)].TFAE := by
  have howned := Owned.after? h
  refine ⟨fun c p hc hp => howned.listed hc hp, howned.self, ?_⟩
  tfae_have 1 → 2 := fun hself c p hc hp => howned.lt hself (howned.parent c p hc hp)
  tfae_have 2 → 3 := by
    intro hlt table hlinked scope name
    refine ScopeTable.resolves_of_lt (fun i s hs hp => ?_) name (by omega)
    obtain ⟨r, hr, hparent⟩ := hlinked.scope? hs
    rw [hparent] at hp ⊢
    exact ScopeTable.ofTree_parent_lt hlt hr hp
  tfae_have 3 → 1 := by
    intro hends c hc
    obtain ⟨d, hd, hp⟩ := parent?_eq_some.mp (howned.child c c hc)
    obtain ⟨e, he, hk⟩ := howned.self c hc
    cases he.symm.trans hd
    obtain ⟨i, s, hs, hself, hblank⟩ := ScopeTable.ofTree_parent_self hd (by simp [hk]) hp
    exact ScopeTable.not_resolves_of_self hs hself (hblank.lookup? 0) _ (hends _ rfl i 0)
  tfae_have 2 → 4 := fun hlt id => path_of_lt hlt (by omega)
  tfae_have 4 → 1 := fun hends c hc => not_path_of_self (howned.child c c hc) _ (hends c)
  tfae_have 1 → 5 := by
    intro hself unit file id owner inInterface
    refine inspected_of_lt (fun p c hc => howned.lt hself hc) unit file owner inInterface ?_
    by_cases hid : id < t.decls.size + 1
    · exact .inl hid
    · exact .inr ⟨decl?_eq_none (Nat.lt_of_succ_le (Nat.le_of_not_lt hid)), Nat.succ_pos _⟩
  tfae_have 5 → 1 := fun hends c hc => not_inspected_of_self hc _ (hends {} 0 c 0 false)
  tfae_finish

/-- The first declaration is a class that lists the number one. -/
def selfListed : List Call := [.class {} { members := [1] } {}]

theorem selfListed_walks_never_end : ∃ t, ({} : Tree).after? selfListed = some t ∧
    t.parent? 1 = some 1 ∧ (t.children 1).count 1 = 1 ∧ (∀ names, ¬ t.Path 1 names) ∧
    (∀ unit file owner inInterface ds, ¬ t.Inspected unit file 1 owner inInterface ds) ∧
    ¬ ∀ table : ScopeTable, table.LinkedAs (.ofTree t) → ∀ scope name,
      table.Resolves name scope (table.resolveWithin name (table.scopes.size + 1) scope) := by
  have hfacts : (({} : Tree).after? selfListed).any (fun t => decide (t.parent? 1 = some 1)) = true := by
    decide +kernel
  cases ht : ({} : Tree).after? selfListed with
  | none =>
    rw [ht] at hfacts
    cases hfacts
  | some t =>
    rw [ht] at hfacts
    have hparent : t.parent? 1 = some 1 := of_decide_eq_true hfacts
    obtain ⟨hlisted, _, hends⟩ := listed_once_and_walks_end_iff ht
    obtain ⟨_, honce, _⟩ := hlisted 1 1 hparent (by decide)
    have hself : 1 ∈ t.children 1 := List.count_pos_iff.mp (by omega)
    refine ⟨t, rfl, hparent, honce, not_path_of_self hparent,
      fun unit file owner inInterface => not_inspected_of_self hself, fun hresolves => ?_⟩
    have hnone : ∀ c, c ∉ t.children c := (hends.out 2 0).mp hresolves
    exact hnone 1 hself

end Tree

end DeclCheck

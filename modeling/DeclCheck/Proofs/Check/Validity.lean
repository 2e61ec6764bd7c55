import DeclCheck.Proofs.Check.Moves

/-!
# Tables that stay valid

A tree and its table may be worked on in any order: the tree grows, a table is made or comes from a check,
scopes are handed out and filled. Whatever was done, the table has no issues: its map of owners and its scopes,
and the index and the bindings of each scope, say the same. What a scope binds is the first binding of each name
that was entered.
-/
namespace DeclCheck

/-! ## Checks keep a table fit -/

theorem checkWith_fits (tree : Tree) (unit : UnitId) (globals : Globals) (reported : Array Diagnostic)
    (reached : Option Nat) :
    (checkWith tree unit globals reported reached).analysis.table.Fits tree := by
  unfold checkWith
  dsimp only
  split
  · exact .ofTree tree
  · next u _ =>
    obtain ⟨_, _, _, hmoves⟩ := AnalysisM.analyzeAll_steps (p := ⟨tree, globals⟩) u reached
      { table := .ofTree tree, diagnostics := reported }
    have hfits := (hmoves.fits (.ofTree tree)).1
    split
    · next hrun =>
      rw [hrun] at hfits
      exact hfits
    · next hrun =>
      rw [hrun] at hfits
      exact hfits

theorem check_fits (tree : Tree) (unit : UnitId) (registry : Option Globals) (reached : Option Nat) :
    (check tree unit registry reached).analysis.table.Fits tree := by
  unfold check
  split
  · exact checkWith_fits tree unit _ _ reached
  · split
    · exact checkWith_fits tree unit _ _ reached
    · exact .empty tree

/-! ## Working on a tree and its table -/

/-- A tree and a table of scopes for it. -/
structure Desk where
  tree : Tree := {}
  table : ScopeTable := {}

/-- What can be done at a desk. -/
inductive Act where
  | build (call : Tree.Call)
  /-- Makes a fresh table. -/
  | renew
  /-- Takes over the table of a check. -/
  | check (unit : UnitId) (registry : Option Globals) (reached : Option Nat)
  | begin (decl : DeclId)
  | enter (owner : DeclId) (name : NameId) (decl : DeclId)

namespace Act

/-- The desk after an act. A scope that cannot be handed out and a check with a fault change nothing. -/
def run (d : Desk) : Act → Desk
  | .build call => { d with tree := (call.run d.tree).1 }
  | .renew => { d with table := .ofTree d.tree }
  | .check unit registry reached =>
    if (DeclCheck.check d.tree unit registry reached).fault.isNone then
      { d with table := (DeclCheck.check d.tree unit registry reached).analysis.table }
    else d
  | .begin decl => { d with table := (d.table.begin decl).toOption.getD d.table }
  | .enter owner name decl => { d with table := d.table.enter owner name decl }

/-- Only declarations that are there may be entered. -/
def allowed (d : Desk) : Act → Bool
  | .enter _ _ decl => (d.tree.decl? decl).isSome
  | _ => true

/-- Does the act go on with the table that is there? -/
def keepsTable : Act → Bool
  | .renew => false
  | .check _ _ _ => false
  | _ => true

/-- What an act writes to the scope of a declaration. -/
def writes (decl : DeclId) : Act → List Binding
  | .enter owner name value => if owner = decl then [⟨name, value⟩] else []
  | _ => []

end Act

namespace Desk

/-- The desk after some acts, if they are allowed. -/
def after? (d : Desk) : List Act → Option Desk
  | [] => some d
  | act :: acts => if act.allowed d then (act.run d).after? acts else none

/-- The parents of the tree are there, and the table fits. -/
structure Sound (d : Desk) : Prop where
  tree : d.tree.Rooted
  table : d.table.Fits d.tree

theorem sound_empty : ({} : Desk).Sound := by
  refine ⟨fun id decl hd => ?_, .empty _⟩
  cases id <;> cases hd

variable {d e : Desk}

theorem Sound.run (h : d.Sound) {act : Act} (ha : act.allowed d = true) : (act.run d).Sound := by
  cases act with
  | build call =>
    have hstep := call.run_step d.tree
    exact ⟨hstep.rooted h.tree, h.table.keeps hstep.keeps⟩
  | renew => exact ⟨h.tree, .ofTree d.tree⟩
  | check unit registry reached =>
    simp only [Act.run]
    split
    · exact ⟨h.tree, check_fits d.tree unit registry reached⟩
    · exact h
  | begin decl =>
    refine ⟨h.tree, ?_⟩
    simp only [Act.run]
    cases hb : d.table.begin decl with
    | error err => exact h.table
    | ok table => exact h.table.begin hb
  | enter owner name decl => exact ⟨h.tree, h.table.enter owner name ha⟩

theorem Sound.after? (h : d.Sound) {acts : List Act} (hacts : d.after? acts = some e) : e.Sound := by
  induction acts generalizing d with
  | nil =>
    cases hacts
    exact h
  | cons act acts ih =>
    unfold Desk.after? at hacts
    split at hacts
    · next ha => exact ih (h.run ha) hacts
    · cases hacts

/-- A scope keeps its place and its bindings, and gets the first binding of each further name. -/
structure Extends (written : List Binding) (r s : Scope) : Prop where
  kind : s.kind = r.kind
  owner : s.owner = r.owner
  parent : s.parent = r.parent
  entries : s.entries = Binding.firsts (r.entries ++ written)

theorem extends_nil {r : Scope} (hr : r.Indexed) : Extends [] r r :=
  ⟨rfl, rfl, rfl, by rw [List.append_nil, Binding.firsts_eq_self hr.names]⟩

theorem Extends.trans {xs ys : List Binding} {r s u : Scope} (h : Extends xs r s) (k : Extends ys s u) :
    Extends (xs ++ ys) r u := by
  refine ⟨k.kind.trans h.kind, k.owner.trans h.owner, k.parent.trans h.parent, ?_⟩
  rw [k.entries, h.entries, Binding.firsts_firsts_append, List.append_assoc]

/-- What one act does to the scope with a number. -/
theorem Sound.extends_run (h : d.Sound) {act : Act} (hkeeps : act.keepsTable = true) {i : ScopeId}
    {r : Scope} (hr : d.table.scope? i = some r) :
    ∃ s, (act.run d).table.scope? i = some s ∧ Extends (act.writes r.owner) r s := by
  obtain ⟨_, _, hfits⟩ := h.table.scopes i r hr
  have hsame := extends_nil hfits.indexed
  cases act with
  | build call => exact ⟨r, hr, hsame⟩
  | renew => cases hkeeps
  | check unit registry reached => cases hkeeps
  | begin decl =>
    simp only [Act.run]
    cases hb : d.table.begin decl with
    | error err => exact ⟨r, hr, hsame⟩
    | ok table =>
      rw [ScopeTable.begin_eq_ok hb]
      simp only [Except.toOption, Option.getD_some, ScopeTable.scope?_modifyScope, hr]
      split
      · exact ⟨{ r with filled := true }, rfl, hsame.kind, hsame.owner, hsame.parent, hsame.entries⟩
      · exact ⟨r, rfl, hsame⟩
  | enter owner name decl =>
    simp only [Act.run, ScopeTable.enter, ScopeTable.scope?_modifyScope, hr]
    have hid := h.table.linked.idOf_owner hr
    split
    · next hi =>
      -- The number belongs to the scope of one declaration only.
      have howner : owner = r.owner := by
        have hscope : d.table.scopeOf? owner = some r := by rw [ScopeTable.scopeOf?, ← hi, hr]
        exact (h.table.linked.owner_eq hscope).symm
      refine ⟨r.enter name decl, rfl, r.enter_kind name decl, r.enter_owner name decl,
        r.enter_parent name decl, ?_⟩
      rw [Act.writes, if_pos howner]
      exact hfits.indexed.entries_enter name decl
    · next hi =>
      have howner : owner ≠ r.owner := fun he => hi (he ▸ hid.symm)
      rw [Act.writes, if_neg howner]
      exact ⟨r, rfl, hsame⟩

theorem Sound.extends_after? (h : d.Sound) {acts : List Act} (hacts : d.after? acts = some e)
    (hkeeps : acts.all Act.keepsTable = true) {i : ScopeId} {r : Scope} (hr : d.table.scope? i = some r) :
    ∃ s, e.table.scope? i = some s ∧ Extends (acts.flatMap (Act.writes r.owner)) r s := by
  induction acts generalizing d r with
  | nil =>
    cases hacts
    obtain ⟨_, _, hfits⟩ := h.table.scopes i r hr
    exact ⟨r, hr, extends_nil hfits.indexed⟩
  | cons act acts ih =>
    unfold Desk.after? at hacts
    split at hacts
    · next ha =>
      rw [List.all_cons, Bool.and_eq_true] at hkeeps
      obtain ⟨s, hs, hfirst⟩ := h.extends_run hkeeps.1 hr
      obtain ⟨u, hu, hrest⟩ := ih (h.run ha) hacts hkeeps.2 hs
      rw [hfirst.owner] at hrest
      exact ⟨u, hu, hfirst.trans hrest⟩
    · cases hacts

/-- Whatever was done at a desk, its table has no issues: the map of owners leads to the scope of each owner, the
bindings of a scope and its index are the same map, and a scope stands inside that of the parent of its owner. A
fresh table links each scope whose owner has a parent; from then on scopes keep their places, and of the bindings
that are entered the first of each name stays. -/
theorem table_stays_valid {acts : List Act} (hacts : ({} : Desk).after? acts = some d) :
    d.table.issues d.tree = [] ∧
    (∀ (decl : DeclId) (i : ScopeId), d.table.owners.get? decl = some i ↔
      ∃ s, d.table.scope? i = some s ∧ s.owner = decl) ∧
    (∀ (i : ScopeId) (s : Scope), d.table.scope? i = some s → ∃ owner, d.tree.decl? s.owner = some owner ∧
      (s.parent ≠ 0 → ∃ r, d.table.scope? s.parent = some r ∧ r.owner = owner.parent) ∧
      s.index.size = s.entries.length ∧
      ∀ (name : NameId) (id : DeclId), s.index.get? name = some id ↔ ⟨name, id⟩ ∈ s.entries) ∧
    (∀ (i : ScopeId) (s : Scope), (ScopeTable.ofTree d.tree).scope? i = some s → s.entries = [] ∧
      ∃ owner, d.tree.decl? s.owner = some owner ∧ (s.parent = 0 ↔ owner.parent = 0)) ∧
    ∀ (more : List Act) (e : Desk), d.after? more = some e → more.all Act.keepsTable = true →
      ∀ (i : ScopeId) (r : Scope), d.table.scope? i = some r →
        ∃ s, e.table.scope? i = some s ∧ Extends (more.flatMap (Act.writes r.owner)) r s := by
  have hd := sound_empty.after? hacts
  refine ⟨hd.table.issues, fun decl i => ?_, fun i s hs => ?_, fun i s hs => ?_,
    fun more e hmore hkeeps i r hr => hd.extends_after? hmore hkeeps hr⟩
  · rw [hd.table.linked decl i, Option.map_eq_some_iff]
  · obtain ⟨owner, howner, hfits⟩ := hd.table.scopes i s hs
    exact ⟨owner, howner, fun hp => (hfits.parent hp).2, hfits.indexed.size, hfits.indexed.lookup⟩
  · obtain ⟨hblank, howner⟩ := ScopeTable.ofTree_parent_eq_zero hd.tree hs
    exact ⟨hblank.entries, howner⟩

/-- A class takes a method whose scope was made before, and a name is entered twice. -/
def takenLate : List Act :=
  [.build (.prototype {} 1 [] {}), .renew, .build (.class {} { members := [1] } {}), .begin 1,
    .enter 1 5 1, .enter 1 5 2]

theorem takenLate_stays_valid : ∃ d, ({} : Desk).after? takenLate = some d ∧
    d.table.issues d.tree = [] ∧ d.tree.parent? 1 = some 2 ∧
    (d.table.scopeOf? 1).map (fun s => (s.parent, s.index.pairs, s.entries)) = some (0, [(5, 1)], [⟨5, 1⟩]) := by
  have hfacts : (({} : Desk).after? takenLate).any (fun d => decide (d.tree.parent? 1 = some 2 ∧
      (d.table.scopeOf? 1).map (fun s => (s.parent, s.index.pairs, s.entries)) =
        some (0, [(5, 1)], [⟨5, 1⟩]))) = true := by
    decide +kernel
  cases hd : ({} : Desk).after? takenLate with
  | none =>
    rw [hd] at hfacts
    cases hfacts
  | some d =>
    rw [hd] at hfacts
    exact ⟨d, rfl, (table_stays_valid hd).1, of_decide_eq_true hfacts⟩

end Desk

end DeclCheck

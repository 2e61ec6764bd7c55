import DeclCheck.Proofs.Tree.Building

/-!
# Sequences of building calls

A tree that is built by hand comes from a sequence of calls with numbers of any kind, also of
declarations that are not there. A call that does not return may leave a declaration and the parents it has
given out so far. What one call can do to the declarations is said once, in `Step`.
-/
namespace DeclCheck.Tree

/-- One call that builds a part of a tree. -/
inductive Call where
  | ident (text : Text) (span : Span)
  | unit (span : Span)
  | top (owner : UnitId) (decl : DeclId)
  | primitive (prim : Primitive) (span : Span)
  | named (name : Ident)
  | array (elem : TypeExprId) (span : Span)
  | block (span : Span) (children : List BlockId)
  | variable (name : Ident) (type : TypeExprId) (span : Span)
  | function (name : Ident) (result : TypeExprId) (formals : List DeclId) (span : Span)
  | prototype (name : Ident) (result : TypeExprId) (formals : List DeclId) (span : Span)
  | class (name : Ident) (decl : ClassDecl) (span : Span)
  | interface (name : Ident) (members : List DeclId) (span : Span)
  | body (decl : DeclId) (stmts : BlockId)

/-- The tree that a call leaves, and whether the call returns. -/
def Call.run (t : Tree) : Call → Tree × Bool
  | .ident text span => ((t.ident text span).1, true)
  | .unit span => ((t.addUnit span).1, true)
  | .top owner decl => ((t.pushTop? owner decl).getD t, (t.pushTop? owner decl).isSome)
  | .primitive prim span => ((t.addPrimitive prim span).1, true)
  | .named name => ((t.addNamed name).1, true)
  | .array elem span => (t.addArray elem span).map id (·.isOk)
  | .block span children => ((t.addBlock span children).1, true)
  | .variable name type span => (t.addVariable name type span).map id (·.isOk)
  | .function name result formals span => (t.addFunction name result formals span).map id (·.isOk)
  | .prototype name result formals span => (t.addPrototype name result formals span).map id (·.isOk)
  | .class name decl span => (t.addClass name decl span).map id (·.isOk)
  | .interface name members span => (t.addInterface name members span).map id (·.isOk)
  | .body decl stmts => (t.attachBody decl stmts).map id (·.isOk)

/-- The tree after some calls, if all of them return. -/
def after? (t : Tree) : List Call → Option Tree
  | [] => some t
  | call :: calls => if (call.run t).2 then (call.run t).1.after? calls else none

/-- What a call can do to the declarations: nothing, add one, or complete a function. Only a class can be
asked to hold the number that it is about to get. -/
inductive Step (t u : Tree) (returns : Bool) : Prop where
  | same (hdecls : u.decls = t.decls)
  | added (name : Ident) (span : Span) (subject : Subject)
      (hself : t.decls.size + 1 ∈ subject.children → subject.kind = .class)
      (hdecls : u.decls = (t.addDecl name span subject).1.decls)
      (hreturns : returns = true → (t.addDecl name span subject).2.isOk = true)
  | completed (id : DeclId) (f : FunctionDecl) (body : BlockId) (hf : t.function? id = some f)
      (hdecls : u.decls = (t.modifyDecl id fun d =>
        { d with subject := .function { f with body, state := .complete } }).decls)

variable {t u v : Tree}

theorem decl?_congr (h : u.decls = t.decls) (id : DeclId) : u.decl? id = t.decl? id := by
  simp only [decl?, h]

theorem isVariable_lt {id : DeclId} (h : t.isVariable id = true) : id < t.decls.size + 1 := by
  obtain ⟨type, htype⟩ := Option.isSome_iff_exists.mp h
  obtain ⟨d, hd, _⟩ := subject_of_variableType? htype
  exact Nat.lt_succ_of_le (decl?_le hd).2

theorem isPrototype_lt {id : DeclId} (h : t.isPrototype id = true) : id < t.decls.size + 1 := by
  unfold isPrototype at h
  split at h
  · next f hf =>
    obtain ⟨d, hd, _⟩ := subject_of_function? hf
    exact Nat.lt_succ_of_le (decl?_le hd).2
  · cases h

/-- Formals are variables that are there, so a function cannot be asked to hold itself. -/
theorem addFunctionIn_step (t : Tree) (state : FunctionState) (isPrototype : Bool) (name : Ident)
    (result : TypeExprId) (formals : List DeclId) (span : Span) :
    t.Step (t.addFunctionIn state isPrototype name result formals span).1
      (t.addFunctionIn state isPrototype name result formals span).2.isOk := by
  unfold addFunctionIn
  split
  · exact .same rfl
  · split
    · exact .same rfl
    · next hfind =>
      refine .added name span (.function { result, formals, state, isPrototype }) ?_ rfl id
      intro hself
      have hvariable := List.find?_eq_none.mp hfind _ hself
      simp only [Bool.not_eq_true', Bool.not_eq_false] at hvariable
      exact absurd (isVariable_lt hvariable) (Nat.lt_irrefl _)

theorem addInterface_step (t : Tree) (name : Ident) (members : List DeclId) (span : Span) :
    t.Step (t.addInterface name members span).1 (t.addInterface name members span).2.isOk := by
  unfold addInterface
  split
  · exact .same rfl
  · next hfind =>
    refine .added name span (.interface members) ?_ rfl id
    intro hself
    have hprototype := List.find?_eq_none.mp hfind _ hself
    simp only [Bool.not_eq_true', Bool.not_eq_false] at hprototype
    exact absurd (isPrototype_lt hprototype) (Nat.lt_irrefl _)

theorem attachBody_step (t : Tree) (id : DeclId) (body : BlockId) :
    t.Step (t.attachBody id body).1 (t.attachBody id body).2.isOk := by
  unfold attachBody
  split
  · exact .same rfl
  · next f hf =>
    split
    · exact .same rfl
    · split
      · exact .same rfl
      · exact .completed id f body hf rfl

theorem Call.run_step (t : Tree) (call : Call) : t.Step (call.run t).1 (call.run t).2 := by
  cases call with
  | ident text span => exact .same rfl
  | unit span => exact .same rfl
  | top owner decl =>
    refine .same ?_
    simp only [run, pushTop?]
    split
    · rfl
    · split <;> rfl
  | primitive prim span => exact .same rfl
  | named name => exact .same rfl
  | array elem span =>
    refine .same ?_
    simp only [run, addArray]
    split <;> rfl
  | block span children => exact .same rfl
  | «variable» name type span =>
    simp only [run, addVariable]
    split
    · exact .same rfl
    · exact .added name span (.variable type) nofun rfl id
  | function name result formals span => exact addFunctionIn_step t _ _ name result formals span
  | prototype name result formals span => exact addFunctionIn_step t _ _ name result formals span
  | «class» name decl span => exact .added name span (.class decl) (fun _ => rfl) rfl id
  | interface name members span => exact addInterface_step t name members span
  | body decl stmts => exact attachBody_step t decl stmts

/-- What holds of a tree and is kept by every call that returns holds after calls that all return. -/
theorem after?_induction {P : Tree → Prop} (hstep : ∀ {t u}, P t → t.Step u true → P u)
    {calls : List Call} (ht : P t) (h : t.after? calls = some u) : P u := by
  induction calls generalizing t with
  | nil =>
    cases h
    exact ht
  | cons call calls ih =>
    unfold after? at h
    split at h
    · next hreturns => exact ih (hstep ht (hreturns ▸ call.run_step t)) h
    · cases h

/-! ## What every call keeps -/

/-- Declarations stay what they are, and a parent, once given, stays. -/
def Keeps (t u : Tree) : Prop := ∀ (id : DeclId) (d : Decl), t.decl? id = some d →
  ∃ e, u.decl? id = some e ∧ e.kind = d.kind ∧ (d.parent ≠ 0 → e.parent = d.parent)

theorem Keeps.refl (t : Tree) : t.Keeps t := fun _ d hd => ⟨d, hd, rfl, fun _ => rfl⟩

theorem Keeps.trans (h : t.Keeps u) (k : u.Keeps v) : t.Keeps v := by
  intro id d hd
  obtain ⟨e, he, hkind, hparent⟩ := h id d hd
  obtain ⟨f, hf, hkind', hparent'⟩ := k id e he
  refine ⟨f, hf, hkind'.trans hkind, fun hp => ?_⟩
  have hpe := hparent hp
  exact (hparent' (hpe ▸ hp)).trans hpe

theorem Keeps.congr (h : t.Keeps u) (hdecls : v.decls = u.decls) : t.Keeps v := by
  intro id d hd
  rw [decl?_congr hdecls]
  exact h id d hd

theorem Keeps.isSome {id : DeclId} (h : t.Keeps u) (hid : (t.decl? id).isSome) :
    (u.decl? id).isSome := by
  obtain ⟨d, hd⟩ := Option.isSome_iff_exists.mp hid
  obtain ⟨e, he, _⟩ := h id d hd
  exact Option.isSome_iff_exists.mpr ⟨e, he⟩

theorem modifyDecl_decl? (t : Tree) {id : DeclId} (hid : 0 < id) (f : Decl → Decl) (i : DeclId) :
    (t.modifyDecl id f).decl? i = if i = id then (t.decl? i).map f else t.decl? i :=
  numbered?_modify t.decls f hid i

theorem modifyDecl_keeps {id : DeclId} {d : Decl} (hd : t.decl? id = some d) {f : Decl → Decl}
    (hkind : (f d).kind = d.kind) (hparent : d.parent ≠ 0 → (f d).parent = d.parent) :
    t.Keeps (t.modifyDecl id f) := by
  intro i e he
  rw [modifyDecl_decl? t (decl?_le hd).1]
  split
  · next hi =>
    subst hi
    cases he.symm.trans hd
    exact ⟨f d, by rw [hd]; rfl, hkind, hparent⟩
  · exact ⟨e, he, rfl, fun _ => rfl⟩

theorem adopt_keeps (t : Tree) (parent : DeclId) (cs : List DeclId) :
    t.Keeps (t.adopt parent cs).1 := by
  induction cs generalizing t with
  | nil => exact .refl t
  | cons c cs ih =>
    unfold adopt
    split
    · exact .refl t
    · next d hd =>
      split
      · exact .refl t
      · next hp =>
        exact (modifyDecl_keeps hd rfl fun h => (hp h).elim).trans (ih _)

theorem addDecl_fst (t : Tree) (name : Ident) (span : Span) (subject : Subject) :
    (t.addDecl name span subject).1 =
      (({ t with decls := t.decls.push { name, span, subject } } : Tree).adopt (t.decls.size + 1)
        subject.children).1 := by
  unfold addDecl
  dsimp only
  split <;> simp_all

theorem addDecl_keeps (t : Tree) (name : Ident) (span : Span) (subject : Subject) :
    t.Keeps (t.addDecl name span subject).1 := by
  rw [addDecl_fst]
  refine .trans (fun id d hd => ⟨d, ?_, rfl, fun _ => rfl⟩) (adopt_keeps _ _ _)
  have hle := (decl?_le hd).2
  refine (numbered?_push t.decls _ id).trans ?_
  rw [if_neg (Nat.ne_of_lt (Nat.lt_succ_of_le hle))]
  exact hd

theorem Step.keeps {returns : Bool} (h : t.Step u returns) : t.Keeps u := by
  cases h with
  | same hdecls => exact (Keeps.refl t).congr hdecls
  | added name span subject _ hdecls _ => exact (addDecl_keeps t name span subject).congr hdecls
  | completed id f body hf hdecls =>
    obtain ⟨d, hd, hs⟩ := subject_of_function? hf
    refine (modifyDecl_keeps hd ?_ fun _ => rfl).congr hdecls
    simp only [Decl.kind, hs, Subject.kind]

/-! ## Owners -/

/-- A parent is there, and it is no variable. -/
def Rooted (t : Tree) : Prop := ∀ (id : DeclId) (d : Decl), t.decl? id = some d → d.parent ≠ 0 →
  ∃ e, t.decl? d.parent = some e ∧ e.kind ≠ .variable

theorem Rooted.congr (h : t.Rooted) (hdecls : u.decls = t.decls) : u.Rooted := by
  intro id d hd
  simp only [decl?_congr hdecls] at hd ⊢
  exact h id d hd

theorem Rooted.modifyDecl (h : t.Rooted) {id : DeclId} {d : Decl} (hd : t.decl? id = some d)
    {f : Decl → Decl} (hkind : (f d).kind = d.kind)
    (hparent : (f d).parent ≠ 0 → ∃ e, t.decl? (f d).parent = some e ∧ e.kind ≠ .variable) :
    (t.modifyDecl id f).Rooted := by
  have hget := modifyDecl_decl? t (decl?_le hd).1 f
  -- A declaration that is no variable stays one that is none.
  have howner : ∀ p, (∃ e, t.decl? p = some e ∧ e.kind ≠ .variable) →
      ∃ e, (t.modifyDecl id f).decl? p = some e ∧ e.kind ≠ .variable := by
    rintro p ⟨e, he, hk⟩
    rw [hget]
    split
    · next hp =>
      subst hp
      cases he.symm.trans hd
      exact ⟨f d, by rw [hd]; rfl, hkind ▸ hk⟩
    · exact ⟨e, he, hk⟩
  intro i e he hp
  rw [hget] at he
  split at he
  · next hi =>
    subst hi
    rw [hd] at he
    cases he
    exact howner _ (hparent hp)
  · exact howner _ (h i e he hp)

theorem Rooted.adopt (h : t.Rooted) {parent : DeclId}
    (hparent : ∃ e, t.decl? parent = some e ∧ e.kind ≠ .variable) (cs : List DeclId) :
    (t.adopt parent cs).1.Rooted := by
  induction cs generalizing t with
  | nil => exact h
  | cons c cs ih =>
    unfold Tree.adopt
    split
    · exact h
    · next d hd =>
      split
      · exact h
      · next hp =>
        refine ih (h.modifyDecl hd rfl fun _ => hparent) ?_
        obtain ⟨e, he, hk⟩ := hparent
        obtain ⟨e', he', hk', _⟩ := modifyDecl_keeps (f := fun d => { d with parent }) hd rfl
          (fun h => (hp h).elim) parent e he
        exact ⟨e', he', hk' ▸ hk⟩

theorem Rooted.addDecl (h : t.Rooted) (name : Ident) (span : Span) (subject : Subject) :
    (t.addDecl name span subject).1.Rooted := by
  rw [addDecl_fst]
  have hget : ∀ i, ({ t with decls := t.decls.push { name, span, subject } } : Tree).decl? i =
      if i = t.decls.size + 1 then some { name, span, subject } else t.decl? i :=
    numbered?_push t.decls _
  have hpush : ({ t with decls := t.decls.push { name, span, subject } } : Tree).Rooted := by
    intro i d hd hp
    rw [hget] at hd
    split at hd
    · cases hd
      exact (hp rfl).elim
    · obtain ⟨e, he, hk⟩ := h i d hd hp
      refine ⟨e, ?_, hk⟩
      rw [hget, if_neg (Nat.ne_of_lt (Nat.lt_succ_of_le (decl?_le he).2))]
      exact he
  cases subject with
  | «variable» type => exact hpush
  | «class» c => exact hpush.adopt ⟨_, (hget _).trans (if_pos rfl), nofun⟩ _
  | interface members => exact hpush.adopt ⟨_, (hget _).trans (if_pos rfl), nofun⟩ _
  | function f => exact hpush.adopt ⟨_, (hget _).trans (if_pos rfl), nofun⟩ _

theorem Step.rooted {returns : Bool} (h : t.Step u returns) (ht : t.Rooted) : u.Rooted := by
  cases h with
  | same hdecls => exact ht.congr hdecls
  | added name span subject _ hdecls _ => exact (ht.addDecl name span subject).congr hdecls
  | completed id f body hf hdecls =>
    obtain ⟨d, hd, hs⟩ := subject_of_function? hf
    refine (ht.modifyDecl hd ?_ fun hp => ht id d hd hp).congr hdecls
    simp only [Decl.kind, hs, Subject.kind]

end DeclCheck.Tree

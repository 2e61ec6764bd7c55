import DeclCheck.Check.Analysis
import DeclCheck.Proofs.Scope.Tables
import DeclCheck.Proofs.Steps

/-!
# What an analysis does to its table

Whatever an analysis does, it changes its table in two ways only: a scope is handed out to be filled, and a
declaration is entered. Besides it hands over bodies with the table as it is then. So what these moves keep is
kept by every step, also where the analysis stops. Only the analysis of a declaration as a whole begins and ends
spans; all other steps tell points at most, inside the span that is the parent.
-/
namespace DeclCheck

/-- Is a moment a point inside a span? -/
def Trace.Moment.isPointIn (span : Nat) : Trace.Moment → Bool
  | .point _ _ _ parent => parent == span
  | _ => false

/-! ## Spans -/

/-- An analysis that goes on inside a span that begins. -/
def Analysis.inside (a : Analysis) (scope : Trace.EventScope) (name : Text) : Analysis :=
  { a with
    spans := a.spans + 1
    moments := a.moments.push (.begins scope name a.parent)
    parent := a.spans + 1 }

/-- An analysis where the span ends that began at `a`. -/
def Analysis.outside (a b : Analysis) : Analysis :=
  { b with moments := b.moments.push (.ends (a.spans + 1) []), parent := a.parent }

theorem AnalysisM.run_inSpan (scope : Trace.EventScope) (name : Text) (steps : Nat → AnalysisM Unit)
    (a : Analysis) : (inSpan scope name steps).run.run a =
      (((steps (a.spans + 1)).run.run (a.inside scope name)).1,
        a.outside ((steps (a.spans + 1)).run.run (a.inside scope name)).2) :=
  run_tryFinally (steps (a.spans + 1)) (do setParent a.parent; endSpan (a.spans + 1)) (a.inside scope name)

theorem AnalysisM.ends_inSpan {scope : Trace.EventScope} {name : Text} {steps : Nat → AnalysisM Unit}
    {a : Analysis} {post : Unit → Analysis → Prop} : Ends (inSpan scope name steps) a post ↔
      Ends (steps (a.spans + 1)) (a.inside scope name) fun r b => post r (a.outside b) := by
  unfold Ends
  rw [run_inSpan]
  rcases (steps (a.spans + 1)).run.run (a.inside scope name) with ⟨_ | r, b⟩ <;> exact Iff.rfl

/-! ## Moves -/

variable {p : Program}

/-- The analysis comes from `a` to `b` and hands over some bodies on its way. -/
inductive Moves (p : Program) : Analysis → List BodyCall → Analysis → Prop
  | quiet {a b : Analysis} (table : b.table = a.table) (bodies : b.bodies = a.bodies) : Moves p a [] b
  | begin {a : Analysis} {id : DeclId} {t : ScopeTable} (h : a.table.begin id = .ok t) :
      Moves p a [] { a with table := t }
  | enter {a : Analysis} (owner : DeclId) (name : NameId) {id : DeclId}
      (h : (p.tree.decl? id).isSome) :
      Moves p a [] { a with table := a.table.enter owner name id }
  | hand {a : Analysis} (id : DeclId) (body : BlockId) :
      Moves p a [⟨id, body, a.table⟩] { a with bodies := a.bodies.push ⟨id, body, a.table⟩ }
  | trans {a b c : Analysis} {xs ys : List BodyCall} (first : Moves p a xs b) (then_ : Moves p b ys c) :
      Moves p a (xs ++ ys) c

namespace Moves

variable {a b : Analysis} {calls : List BodyCall}

theorem bodies_eq (h : Moves p a calls b) : b.bodies.toList = a.bodies.toList ++ calls := by
  induction h with
  | quiet _ hbodies => rw [hbodies, List.append_nil]
  | begin _ => rw [List.append_nil]
  | enter _ _ _ => rw [List.append_nil]
  | hand id body => exact Array.toList_push
  | trans _ _ hfirst hthen => rw [hthen, hfirst, List.append_assoc]

/-- Tables go on to fit. -/
theorem fits (h : Moves p a calls b) (ha : a.table.Fits p.tree) :
    b.table.Fits p.tree ∧ ∀ c ∈ calls, c.table.Fits p.tree := by
  induction h with
  | quiet htable _ => exact ⟨htable ▸ ha, by simp⟩
  | begin hbegin => exact ⟨ha.begin hbegin, by simp⟩
  | enter owner name hid => exact ⟨ha.enter owner name hid, by simp⟩
  | hand id body => exact ⟨ha, by simpa using ha⟩
  | trans _ _ hfirst hthen =>
    obtain ⟨hb, hxs⟩ := hfirst ha
    obtain ⟨hc, hys⟩ := hthen hb
    exact ⟨hc, fun c h => (List.mem_append.mp h).elim (hxs c) (hys c)⟩

/-- Scopes keep their numbers. -/
theorem idOf_eq (h : Moves p a calls b) :
    b.table.idOf = a.table.idOf ∧ ∀ c ∈ calls, c.table.idOf = a.table.idOf := by
  induction h with
  | quiet htable _ => exact ⟨by rw [htable], by simp⟩
  | begin hbegin =>
    refine ⟨?_, by simp⟩
    rw [ScopeTable.begin_eq_ok hbegin]
    exact funext (ScopeTable.idOf_modifyScope _ _ _)
  | enter owner name hid => exact ⟨funext (ScopeTable.idOf_modifyScope _ _ _), by simp⟩
  | hand id body => exact ⟨rfl, by simp⟩
  | trans _ _ hfirst hthen =>
    refine ⟨hthen.1.trans hfirst.1, fun c h => (List.mem_append.mp h).elim (hfirst.2 c) fun hc => ?_⟩
    exact (hthen.2 c hc).trans hfirst.1

end Moves

namespace AnalysisM

variable {α β : Type} {hands spans : Prop}

/-- From `a` to `b` the analysis tells nothing but points, all of them inside the span where it is. -/
structure TellsPoints (a b : Analysis) : Prop where
  parent : b.parent = a.parent
  spans : b.spans = a.spans
  points : ∃ told, b.moments.toList = a.moments.toList ++ told ∧ ∀ m ∈ told, m.isPointIn a.parent = true

theorem TellsPoints.silent {a b : Analysis} (hparent : b.parent = a.parent) (hspans : b.spans = a.spans)
    (hmoments : b.moments = a.moments) : TellsPoints a b :=
  ⟨hparent, hspans, [], by rw [hmoments, List.append_nil], by simp⟩

theorem TellsPoints.trans {a b c : Analysis} (h : TellsPoints a b) (k : TellsPoints b c) : TellsPoints a c := by
  obtain ⟨told, htold, hpoints⟩ := h.points
  obtain ⟨more, hmore, hpoints'⟩ := k.points
  refine ⟨k.parent.trans h.parent, k.spans.trans h.spans, told ++ more, ?_, fun m hm => ?_⟩
  · rw [hmore, htold, List.append_assoc]
  · rcases List.mem_append.mp hm with hm | hm
    · exact hpoints m hm
    · exact h.parent ▸ hpoints' m hm

/-- The steps are moves. Bodies are handed over only if `hands` holds, and without `spans` only points are told. -/
def Steps (p : Program) (hands spans : Prop) (x : AnalysisM α) : Prop :=
  ∀ a : Analysis, ∃ calls, (calls ≠ [] → hands) ∧ (spans ∨ TellsPoints a (x.run.run a).2) ∧
    Moves p a calls (x.run.run a).2

/-- Steps that leave all but reports and types alone. -/
theorem Steps.of_quiet {x : AnalysisM α} (h : ∀ a, ∃ (lowering : Lowering) (diagnostics : Array Diagnostic),
      (x.run.run a).2 = { a with lowering, diagnostics }) :
    Steps p hands spans x := by
  intro a
  obtain ⟨lowering, diagnostics, hrun⟩ := h a
  rw [hrun]
  exact ⟨[], by simp, .inr (.silent rfl rfl rfl), .quiet rfl rfl⟩

theorem Steps.pure (a : α) : Steps p hands spans (Pure.pure a : AnalysisM α) :=
  .of_quiet fun _ => ⟨_, _, rfl⟩

theorem Steps.throw (e : CheckFault) : Steps p hands spans (MonadExcept.throw e : AnalysisM α) :=
  .of_quiet fun _ => ⟨_, _, rfl⟩

theorem Steps.bind {x : AnalysisM α} {f : α → AnalysisM β} (hx : Steps p hands spans x)
    (hf : ∀ a, Steps p hands spans (f a)) : Steps p hands spans (x >>= f) := by
  intro a
  obtain ⟨xs, hxs, htold, hmoves⟩ := hx a
  rw [run_bind]
  rcases hrun : x.run.run a with ⟨_ | r, b⟩
  · rw [hrun] at hmoves htold
    exact ⟨xs, hxs, htold, hmoves⟩
  · rw [hrun] at hmoves htold
    obtain ⟨ys, hys, hmore, hrest⟩ := hf r b
    refine ⟨xs ++ ys, fun hne => ?_, ?_, hmoves.trans hrest⟩
    · by_cases hnil : xs = []
      · exact hys fun h => hne (by rw [hnil, h, List.append_nil])
      · exact hxs hnil
    · rcases htold with hspans | htold
      · exact .inl hspans
      · exact hmore.imp_right htold.trans

theorem Steps.forIn {xs : List α} {b : β} {f : α → β → AnalysisM (ForInStep β)}
    (hf : ∀ x ∈ xs, ∀ b, Steps p hands spans (f x b)) : Steps p hands spans (ForIn.forIn xs b f) := by
  induction xs generalizing b with
  | nil => exact .pure b
  | cons x xs ih =>
    rw [List.forIn_cons]
    refine (hf x (List.mem_cons_self ..) b).bind fun r => ?_
    cases r with
    | done b => exact .pure b
    | yield b => exact ih fun y hy => hf y (List.mem_cons_of_mem _ hy)

/-- A loop that does the same for each element. -/
theorem Steps.forEach {xs : List α} {f : α → AnalysisM β} (hf : ∀ x ∈ xs, Steps p hands spans (f x)) :
    Steps p hands spans (ForIn.forIn xs PUnit.unit fun x _ => do
      let _ ← f x
      Pure.pure (.yield PUnit.unit)) :=
  .forIn fun x hx _ => (hf x hx).bind fun _ => .pure _

/-- What follows on a declaration may use that it is there. -/
theorem Steps.decl {id : DeclId} {f : Decl → AnalysisM β}
    (hf : ∀ d, p.tree.decl? id = some d → Steps p hands spans (f d)) :
    Steps p hands spans (AnalysisM.decl p id >>= f) := by
  unfold AnalysisM.decl
  cases hd : p.tree.decl? id with
  | none => exact .of_quiet fun _ => ⟨_, _, rfl⟩
  | some d => exact hf d hd

theorem report_steps (d : Diagnostic) : Steps p hands spans (report d) := .of_quiet fun _ => ⟨_, _, rfl⟩

theorem point_steps (name detail : Text) : Steps p hands spans (point name detail) := by
  refine fun a => ⟨[], by simp, .inr ⟨rfl, rfl, [.point .node name detail a.parent], Array.toList_push, ?_⟩,
    .quiet rfl rfl⟩
  simp [Trace.Moment.isPointIn]

theorem noteFact_steps (span : Nat) (key value : Text) : Steps p hands True (noteFact span key value) :=
  fun _ => ⟨[], by simp, .inl trivial, .quiet rfl rfl⟩

theorem inSpan_steps {scope : Trace.EventScope} {name : Text} {steps : Nat → AnalysisM Unit}
    (h : ∀ span, Steps p hands True (steps span)) : Steps p hands True (inSpan scope name steps) := by
  intro a
  obtain ⟨calls, hcalls, _, hmoves⟩ := h (a.spans + 1) (a.inside scope name)
  refine ⟨calls, hcalls, .inl trivial, ?_⟩
  rw [run_inSpan]
  have hbegins : Moves p a [] (a.inside scope name) := .quiet rfl rfl
  have hall := (hbegins.trans hmoves).trans (.quiet (a := _) (b := a.outside _) rfl rfl)
  rwa [List.nil_append, List.append_nil] at hall

theorem signature_steps (id : DeclId) : Steps p hands spans (signature p id) := .of_quiet fun _ => ⟨_, _, rfl⟩

theorem sameSignature_steps (f g : DeclId) : Steps p hands spans (sameSignature p f g) :=
  .of_quiet fun _ => ⟨_, _, rfl⟩

theorem lookup?_steps (owner : DeclId) (name : NameId) : Steps p hands spans (lookup? owner name) :=
  .of_quiet fun _ => ⟨_, _, rfl⟩

theorem reportConflict_steps (id prev : DeclId) : Steps p hands spans (reportConflict p id prev) :=
  .decl fun _ _ => .decl fun _ _ => report_steps _

theorem reportOverride_steps (id base : DeclId) : Steps p hands spans (reportOverride p id base) := by
  refine .decl fun d _ => (signature_steps base).bind fun sig => ?_
  cases sig with
  | none => exact report_steps _
  | some sig => exact .decl fun b _ => .bind (.of_quiet fun _ => ⟨_, _, rfl⟩) fun _ => report_steps _

theorem reportNotImplemented_steps (cls : DeclId) (iface : Ident) (method : DeclId) :
    Steps p hands spans (reportNotImplemented p cls iface method) := .decl fun _ _ => report_steps _

theorem beginScope_steps (id : DeclId) : Steps p hands spans (beginScope id) := by
  intro a
  refine ⟨[], by simp, ?_⟩
  have hget : (get : AnalysisM Analysis).run.run a = (.ok a, a) := rfl
  unfold beginScope
  rw [run_bind, hget]
  dsimp only
  cases hbegin : a.table.begin id with
  | ok table => exact ⟨.inr (.silent rfl rfl rfl), .begin hbegin⟩
  | error e => exact ⟨.inr (.silent rfl rfl rfl), .quiet rfl rfl⟩

theorem bind_steps (owner : DeclId) (name : NameId) {id : DeclId} (hid : (p.tree.decl? id).isSome) :
    Steps p hands spans (AnalysisM.bind owner name id) := 
  fun _ => ⟨[], by simp, .inr (.silent rfl rfl rfl), .enter owner name hid⟩

theorem enter?_steps (owner id : DeclId) : Steps p hands spans (enter? p owner id) := by
  refine .decl fun d hd => (lookup?_steps owner _).bind fun r => ?_
  cases r with
  | some prev => exact .pure _
  | none => exact (bind_steps owner _ (Option.isSome_iff_exists.mpr ⟨d, hd⟩)).bind fun _ => .pure _

theorem enterMember_steps (owner id : DeclId) : Steps p hands spans (enterMember p owner id) := by
  refine (enter?_steps owner id).bind fun r => ?_
  cases r with
  | some prev => exact reportConflict_steps id prev
  | none => exact .pure _

theorem validateType_steps (id : TypeExprId) : Steps p hands spans (validateType p id) := by
  unfold validateType
  split
  · exact .pure _
  · split
    · exact report_steps _
    · refine .decl fun d _ => ?_
      split
      · exact .pure _
      · exact report_steps _

theorem checkInherited_steps (entry inherited : DeclId) :
    Steps p hands spans (checkInherited p entry inherited) := by
  refine .decl fun e _ => .decl fun i _ => ?_
  split
  · exact reportConflict_steps entry inherited
  · refine (sameSignature_steps entry inherited).bind fun same => ?_
    split
    · exact .pure _
    · exact reportOverride_steps entry inherited

theorem shadowed_steps (owner : DeclId) (ms : List DeclId) : Steps p hands spans (shadowed p owner ms) := by
  induction ms with
  | nil => exact .pure _
  | cons m ms ih =>
    refine .decl fun d _ => (lookup?_steps owner _).bind fun r => ?_
    cases r with
    | none => exact ih.bind fun _ => .pure _
    | some entry => exact (checkInherited_steps entry m).bind fun _ => ih

theorem inheritFrom_steps (owner base : DeclId) : Steps p hands spans (inheritFrom p owner base) :=
  (shadowed_steps owner _).bind fun _ =>
    (Steps.forEach fun m _ => enter?_steps owner m).bind fun _ => .pure _

theorem reportChainEnd_steps (stop : ChainEnd) : Steps p hands spans (reportChainEnd p stop) := by
  cases stop with
  | root => exact .pure _
  | unnamed => exact .pure _
  | undeclared ident => exact report_steps _
  | notClass id => exact point_steps _ _
  | cycle id => exact point_steps _ _

theorem inherit_steps (id : DeclId) (c : ClassDecl) : Steps p hands spans (inherit p id c) :=
  (Steps.forEach fun base _ => inheritFrom_steps id base).bind fun _ => reportChainEnd_steps _

theorem checkMethod_steps (cls : DeclId) (iface : Ident) (method : DeclId) :
    Steps p hands spans (checkMethod p cls iface method) := by
  refine .decl fun m _ => (lookup?_steps cls _).bind fun r => ?_
  cases r with
  | none => exact reportNotImplemented_steps cls iface method
  | some entry =>
    refine .decl fun e _ => ?_
    split
    · exact reportConflict_steps method entry
    · refine (sameSignature_steps entry method).bind fun same => ?_
      split
      · exact .pure _
      · exact reportOverride_steps entry method

theorem conform_steps (cls : DeclId) (type : TypeExprId) : Steps p hands spans (conform p cls type) := by
  unfold conform
  split
  · exact .pure _
  · split
    · exact report_steps _
    · exact (Steps.forEach fun m _ => checkMethod_steps cls _ m).bind fun _ => .pure _

theorem declareClass_steps {id : DeclId} (hid : (p.tree.decl? id).isSome) (name : NameId)
    (c : ClassDecl) : Steps p hands spans (declareClass p id name c) := by
  refine (beginScope_steps id).bind fun _ => (bind_steps id name hid).bind fun _ => ?_
  refine (Steps.forEach fun m _ => enterMember_steps id m).bind fun _ => ?_
  refine (inherit_steps id c).bind fun _ => ?_
  exact (Steps.forEach fun type _ => conform_steps id type).bind fun _ => .pure _

/-- The steps before the body of a function is handed over, if what is done with formals is known. -/
theorem formals_steps (owner : DeclId) {formals : List DeclId} {step : DeclId → AnalysisM Unit}
    (h : ∀ v ∈ formals, Steps p hands spans (step v)) :
    Steps p hands spans (ForIn.forIn formals PUnit.unit fun formal _ => do
      match ← enter? p owner formal with
      | some prev => do
        reportConflict p formal prev
        Pure.pure (.yield PUnit.unit)
      | none => do
        step formal
        Pure.pure (.yield PUnit.unit)) := by
  refine .forIn fun formal hf _ => (enter?_steps owner formal).bind fun r => ?_
  cases r with
  | some prev => exact (reportConflict_steps formal prev).bind fun _ => .pure _
  | none => exact (h formal hf).bind fun _ => .pure _

theorem analyzeWithin_steps (depth : Nat) (id : DeclId) : Steps p True True (analyzeWithin p depth id) := by
  induction depth generalizing id with
  | zero => exact .pure _
  | succ depth ih =>
    unfold analyzeWithin
    split
    · exact .throw _
    · next d hd =>
      refine inSpan_steps fun _ => ?_
      split
      · exact validateType_steps _
      · next f _ =>
        dsimp only
        split
        · exact .of_quiet fun _ => ⟨_, _, rfl⟩
        · refine (beginScope_steps id).bind fun _ => ?_
          refine (formals_steps id fun v _ => ih v).bind fun _ => ?_
          refine (validateType_steps f.result).bind fun _ => ?_
          split
          · exact fun a => ⟨_, fun _ => trivial, .inl trivial, .hand id f.body⟩
          · exact .pure _
      · refine (beginScope_steps id).bind fun _ => ?_
        exact (Steps.forEach fun m _ => enterMember_steps id m).bind fun _ => .pure _
      · next c _ =>
        refine (declareClass_steps (Option.isSome_iff_exists.mpr ⟨d, hd⟩) _ c).bind fun _ => ?_
        exact (Steps.forEach fun m _ => ih m).bind fun _ => .pure _

theorem analyzeAll_steps (top : TopLevel) (reached : Option Nat) :
    Steps p True True (analyzeAll p top reached) :=
  inSpan_steps fun span =>
    (Steps.forEach fun id _ => analyzeWithin_steps _ id).bind fun _ => noteFact_steps span _ _

end AnalysisM

end DeclCheck

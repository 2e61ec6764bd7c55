/-!
# Steps that end well

Loading and analysis are made of steps over a state that may stop with a fault. A statement about
them says that they do not stop, and what holds of the result and of the last state. Steps are taken
apart by the equations below, so that no proof has to run them.
-/
namespace DeclCheck

variable {ε σ α β : Type}

/-- The steps do not stop from `s`, and `post` holds of their result and of the last state. -/
def Ends (x : ExceptT ε (StateM σ) α) (s : σ) (post : α → σ → Prop) : Prop :=
  match x.run.run s with
  | (.ok a, t) => post a t
  | (.error _, _) => False

theorem Ends.run_eq {x : ExceptT ε (StateM σ) α} {s : σ} {post : α → σ → Prop}
    (h : Ends x s post) : ∃ a t, x.run.run s = (.ok a, t) ∧ post a t := by
  unfold Ends at h
  split at h
  · next a t he => exact ⟨a, t, he, h⟩
  · exact h.elim

theorem ends_of_run {x : ExceptT ε (StateM σ) α} {s t : σ} {a : α} {post : α → σ → Prop}
    (h : x.run.run s = (.ok a, t)) : Ends x s post ↔ post a t := by
  unfold Ends
  rw [h]

theorem Ends.mono {x : ExceptT ε (StateM σ) α} {s : σ} {post weaker : α → σ → Prop}
    (h : Ends x s post) (hp : ∀ a t, post a t → weaker a t) : Ends x s weaker := by
  obtain ⟨a, t, he, ha⟩ := h.run_eq
  exact (ends_of_run he).mpr (hp a t ha)

theorem Ends.and {x : ExceptT ε (StateM σ) α} {s : σ} {post post' : α → σ → Prop}
    (h : Ends x s post) (h' : Ends x s post') : Ends x s fun a t => post a t ∧ post' a t := by
  obtain ⟨a, t, hrun, hpost⟩ := h.run_eq
  rw [ends_of_run hrun] at h' ⊢
  exact ⟨hpost, h'⟩

@[simp] theorem ends_pure {a : α} {s : σ} {post : α → σ → Prop} :
    Ends (pure a : ExceptT ε (StateM σ) α) s post ↔ post a s := Iff.rfl

@[simp] theorem ends_throw {e : ε} {s : σ} {post : α → σ → Prop} :
    Ends (throw e : ExceptT ε (StateM σ) α) s post ↔ False := Iff.rfl

@[simp] theorem ends_get {s : σ} {post : σ → σ → Prop} :
    Ends (get : ExceptT ε (StateM σ) σ) s post ↔ post s s := Iff.rfl

@[simp] theorem ends_modify {f : σ → σ} {s : σ} {post : PUnit → σ → Prop} :
    Ends (modify f : ExceptT ε (StateM σ) PUnit) s post ↔ post ⟨⟩ (f s) := Iff.rfl

@[simp] theorem ends_modifyGet {f : σ → α × σ} {s : σ} {post : α → σ → Prop} :
    Ends (modifyGet f : ExceptT ε (StateM σ) α) s post ↔ post (f s).1 (f s).2 := Iff.rfl

theorem run_bind (x : ExceptT ε (StateM σ) α) (f : α → ExceptT ε (StateM σ) β) (s : σ) :
    (x >>= f).run.run s = match x.run.run s with
      | (.ok a, t) => (f a).run.run t
      | (.error e, t) => (.error e, t) := by
  change (ExceptT.bindCont f (x.run.run s).1).run (x.run.run s).2 = _
  rcases x.run.run s with ⟨_ | a, t⟩ <;> rfl

@[simp] theorem ends_bind {x : ExceptT ε (StateM σ) α} {f : α → ExceptT ε (StateM σ) β} {s : σ}
    {post : β → σ → Prop} :
    Ends (x >>= f) s post ↔ Ends x s fun a t => Ends (f a) t post := by
  unfold Ends
  rw [run_bind]
  rcases x.run.run s with ⟨_ | a, t⟩ <;> exact Iff.rfl

@[simp] theorem ends_map {x : ExceptT ε (StateM σ) α} {f : α → β} {s : σ} {post : β → σ → Prop} :
    Ends (f <$> x) s post ↔ Ends x s fun a t => post (f a) t := by
  rw [map_eq_pure_bind, ends_bind]
  exact Iff.rfl

/-- The last steps are taken however those before them end, and what these gave stays. -/
theorem run_tryFinally (x : ExceptT ε (StateM σ) α) (last : ExceptT ε (StateM σ) β) (s : σ) :
    (tryFinally x last).run.run s = match last.run.run (x.run.run s).2 with
      | (.ok _, t) => ((x.run.run s).1, t)
      | (.error e, t) => (.error e, t) := by
  rw [tryFinally, map_eq_pure_bind, run_bind]
  simp only [tryFinally', ExceptT.run, StateT.run, ExceptT.mk, bind, StateT.bind]
  rcases x s with ⟨_ | a, t⟩ <;> dsimp only [Id.run] <;> rcases last t with ⟨_ | b, u⟩ <;> rfl

/-- A loop is its first round and, unless that ends it, the loop over the rest. -/
theorem ends_forIn_cons {x : α} {xs : List α} {b : β}
    {f : α → β → ExceptT ε (StateM σ) (ForInStep β)} {s : σ} {post : β → σ → Prop} :
    Ends (forIn (x :: xs) b f) s post ↔ Ends (f x b) s fun r t =>
      match r with
      | .done b => post b t
      | .yield b => Ends (forIn xs b f) t post := by
  rw [List.forIn_cons, ends_bind]
  unfold Ends
  rcases (f x b).run.run s with ⟨_ | _ | _, t⟩ <;> exact Iff.rfl

@[simp] theorem ends_forIn_nil {b : β} {f : α → β → ExceptT ε (StateM σ) (ForInStep β)} {s : σ}
    {post : β → σ → Prop} : Ends (forIn ([] : List α) b f) s post ↔ post b s := Iff.rfl

end DeclCheck

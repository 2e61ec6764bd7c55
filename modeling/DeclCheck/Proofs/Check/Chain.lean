import DeclCheck.Check.Oracle
import DeclCheck.Proofs.Tree.Building
import Mathlib.Data.List.Perm.Subperm
import Mathlib.Data.List.Chain

/-!
# Chains of base classes

The chain of a class goes from it to its superclass and on to further superclasses until there is none
or one that was met before. A class has one chain. Climbing finds it, since the bound on the number of
bases is never reached: a class is met once.
-/
namespace DeclCheck

namespace Program

/-- The class that a class names as its base. -/
def superclass? (p : Program) (id : DeclId) : Option DeclId :=
  (p.tree.class? id).bind fun c =>
    (p.resolveType? c.base).filter fun b => (p.tree.class? b).isSome

/-- The chain of a class: it and its superclasses, each once. -/
structure ExtendsChain (p : Program) (id : DeclId) (ids : List DeclId) : Prop where
  starts : ids.head? = some id
  linked : ids.IsChain fun a b => p.superclass? a = some b
  nodup : ids.Nodup
  closed : ∀ a ∈ ids, ∀ b, p.superclass? a = some b → b ∈ ids

/-- A class names a base that is not declared. -/
def BaseMissing (p : Program) (id : DeclId) : Prop :=
  ∃ c ident, p.tree.class? id = some c ∧ p.tree.namedType? c.base = some ident ∧
    p.globals.lookup? ident.name = none

variable {p : Program}

theorem class?_le {id : Nat} {c : ClassDecl} (h : p.tree.class? id = some c) :
    0 < id ∧ id ≤ p.tree.decls.size := by
  obtain ⟨d, hd, _⟩ := Option.bind_eq_some_iff.mp h
  exact Tree.decl?_le hd

theorem superclass?_eq_some {a b : DeclId} : p.superclass? a = some b ↔
    ∃ c ident d, p.tree.class? a = some c ∧ p.tree.namedType? c.base = some ident ∧
      p.globals.lookup? ident.name = some b ∧ p.tree.class? b = some d := by
  unfold superclass? resolveType?
  simp only [Option.bind_eq_some_iff, Option.filter_eq_some_iff, Option.isSome_iff_exists]
  constructor
  · rintro ⟨c, hc, ⟨ident, hi, hb⟩, d, hd⟩
    exact ⟨c, ident, d, hc, hi, hb, hd⟩
  · rintro ⟨c, ident, d, hc, hi, hb, hd⟩
    exact ⟨c, hc, ⟨ident, hi, hb⟩, d, hd⟩

theorem not_mem_of_nodup_append {seen rest : List DeclId} {a b : DeclId}
    (h : (seen ++ a :: b :: rest).Nodup) : b ∉ seen ++ [a] := by
  intro hb
  have h' : (seen ++ [a] ++ b :: rest).Nodup := by simpa using h
  exact (List.nodup_append.mp h').2.2 b hb b (List.mem_cons_self ..) rfl

/-- Two ways to go on from a class after those that were seen are one. -/
theorem chain_tail_unique (seen : List DeclId) {a : DeclId} {xs ys : List DeclId}
    (hx : (a :: xs).IsChain fun a b => p.superclass? a = some b)
    (hy : (a :: ys).IsChain fun a b => p.superclass? a = some b)
    (nx : (seen ++ a :: xs).Nodup) (ny : (seen ++ a :: ys).Nodup)
    (cx : ∀ c ∈ a :: xs, ∀ b, p.superclass? c = some b → b ∈ seen ++ a :: xs)
    (cy : ∀ c ∈ a :: ys, ∀ b, p.superclass? c = some b → b ∈ seen ++ a :: ys) : xs = ys := by
  induction xs generalizing a seen ys with
  | nil =>
    cases ys with
    | nil => rfl
    | cons b ys =>
      have hb := cx a (List.mem_cons_self ..) b (List.isChain_cons_cons.mp hy).1
      exact (not_mem_of_nodup_append ny hb).elim
  | cons b xs ih =>
    have hab := (List.isChain_cons_cons.mp hx).1
    cases ys with
    | nil =>
      have hb := cy a (List.mem_cons_self ..) b hab
      exact (not_mem_of_nodup_append nx hb).elim
    | cons b' ys =>
      obtain rfl : b = b' := Option.some.inj (hab.symm.trans (List.isChain_cons_cons.mp hy).1)
      refine congrArg (b :: ·) (ih (seen ++ [a]) (List.isChain_cons_cons.mp hx).2
        (List.isChain_cons_cons.mp hy).2 (by simpa using nx) (by simpa using ny) ?_ ?_)
      · intro c hc e he
        simpa using cx c (List.mem_cons_of_mem _ hc) e he
      · intro c hc e he
        simpa using cy c (List.mem_cons_of_mem _ hc) e he

theorem ExtendsChain.unique {id : DeclId} {xs ys : List DeclId} (hx : p.ExtendsChain id xs)
    (hy : p.ExtendsChain id ys) : xs = ys := by
  obtain ⟨xs', rfl⟩ := List.head?_eq_some_iff.mp hx.starts
  obtain ⟨ys', rfl⟩ := List.head?_eq_some_iff.mp hy.starts
  exact congrArg (id :: ·) (chain_tail_unique [] hx.linked hy.linked hx.nodup hy.nodup
    hx.closed hy.closed)

/-- What comes after the first of a chain are classes. -/
theorem class?_of_linked {a : DeclId} {xs : List DeclId}
    (h : (a :: xs).IsChain fun a b => p.superclass? a = some b) :
    ∀ b ∈ xs, ∃ c, p.tree.class? b = some c := by
  induction xs generalizing a with
  | nil => simp
  | cons x xs ih =>
    obtain ⟨hx, hxs⟩ := List.isChain_cons_cons.mp h
    intro b hb
    rcases List.mem_cons.mp hb with rfl | hb
    · obtain ⟨_, _, c, _, _, _, hc⟩ := superclass?_eq_some.mp hx
      exact ⟨c, hc⟩
    · exact ih hxs b hb

/-- A chain that starts on another one stays on it. -/
theorem ExtendsChain.mem_of_linked {id : DeclId} {ids : List DeclId} (h : p.ExtendsChain id ids)
    {a : DeclId} {xs : List DeclId} (hx : (a :: xs).IsChain fun a b => p.superclass? a = some b)
    (ha : a ∈ ids) : ∀ x ∈ a :: xs, x ∈ ids := by
  induction xs generalizing a with
  | nil => simpa using ha
  | cons y ys ih =>
    obtain ⟨hay, hys⟩ := List.isChain_cons_cons.mp hx
    intro x hx
    rcases List.mem_cons.mp hx with rfl | hx
    · exact ha
    · exact ih hys (h.closed a ha y hay) x hx

/-! ## Climbing -/

/-- What climbing on from a class finds: `bases` continue its chain after `seen`, and `stop` tells
whether a base is missing. -/
structure Climbed (p : Program) (seen : List DeclId) (id : DeclId) (bases : List DeclId)
    (stop : ChainEnd) : Prop where
  linked : (id :: bases).IsChain fun a b => p.superclass? a = some b
  nodup : (seen ++ id :: bases).Nodup
  closed : ∀ a ∈ id :: bases, ∀ b, p.superclass? a = some b → b ∈ seen ++ id :: bases
  missing : (∃ ident, stop = .undeclared ident) ↔ ∃ a ∈ id :: bases, p.BaseMissing a
  named : ∀ ident, stop = .undeclared ident → ∃ type, p.tree.namedType? type = some ident

/-- Climbing ends at a class. -/
theorem Climbed.last {seen : List DeclId} {id : DeclId} {stop : ChainEnd}
    (hn : (seen ++ [id]).Nodup) (hs : ∀ b, p.superclass? id = some b → b ∈ seen ++ [id])
    (hm : (∃ ident, stop = .undeclared ident) ↔ p.BaseMissing id)
    (hi : ∀ ident, stop = .undeclared ident → ∃ type, p.tree.namedType? type = some ident) :
    p.Climbed seen id [] stop :=
  ⟨List.isChain_singleton _, hn, by simpa using hs, by simpa using hm, hi⟩

theorem Climbed.step {seen : List DeclId} {a b : DeclId} {bases : List DeclId} {stop : ChainEnd}
    (h : p.Climbed (seen ++ [a]) b bases stop) (hab : p.superclass? a = some b)
    (hm : ¬ p.BaseMissing a) : p.Climbed seen a (b :: bases) stop := by
  refine ⟨List.isChain_cons_cons.mpr ⟨hab, h.linked⟩, by simpa using h.nodup, ?_, ?_, h.named⟩
  · intro c hc e he
    rcases List.mem_cons.mp hc with rfl | hc
    · obtain rfl : b = e := Option.some.inj (hab.symm.trans he)
      simp
    · simpa using h.closed c hc e he
  · rw [h.missing]
    simp [hm]

/-- A list of classes without repeats is not longer than the tree. -/
theorem length_le_of_classes {ids : List DeclId} (hn : ids.Nodup)
    (hc : ∀ id ∈ ids, (p.tree.class? id).isSome) : ids.length ≤ p.tree.decls.size := by
  have hsub : ids ⊆ List.range' 1 p.tree.decls.size := by
    intro id hid
    obtain ⟨c, hc⟩ := Option.isSome_iff_exists.mp (hc id hid)
    have := class?_le hc
    rw [List.mem_range'_1]
    omega
  simpa using (hn.subperm hsub).length_le

theorem climb_climbed (fuel : Nat) (visited seen : List DeclId) {id : DeclId} {c : ClassDecl}
    (hv : ∀ a, a ∈ visited ↔ a ∈ seen ++ [id]) (hc : p.tree.class? id = some c)
    (hn : (seen ++ [id]).Nodup) (hseen : ∀ a ∈ seen ++ [id], (p.tree.class? a).isSome)
    (hfuel : p.tree.decls.size < fuel + (seen ++ [id]).length) :
    p.Climbed seen id (p.climb fuel visited c.base).1 (p.climb fuel visited c.base).2 := by
  induction fuel generalizing visited seen id c with
  | zero =>
    have := length_le_of_classes hn hseen
    omega
  | succ fuel ih =>
    -- Unless the base is a class, there is no superclass.
    have hsuper : ∀ b, p.superclass? id = some b → ∃ ident d,
        p.tree.namedType? c.base = some ident ∧ p.globals.lookup? ident.name = some b ∧
          p.tree.class? b = some d := by
      intro b hb
      obtain ⟨c', ident, d, hc', hrest⟩ := superclass?_eq_some.mp hb
      cases hc.symm.trans hc'
      exact ⟨ident, d, hrest⟩
    have hmissing : p.BaseMissing id ↔ ∃ ident, p.tree.namedType? c.base = some ident ∧
        p.globals.lookup? ident.name = none := by
      constructor
      · rintro ⟨c', ident, hc', h⟩
        cases hc.symm.trans hc'
        exact ⟨ident, h⟩
      · rintro ⟨ident, h⟩
        exact ⟨c, ident, hc, h⟩
    rw [climb]
    by_cases hzero : c.base = 0
    · have hnone : p.tree.namedType? c.base = none := by rw [hzero]; rfl
      rw [if_pos hzero]
      refine .last hn (fun b hb => ?_) (by simp [hmissing, hnone]) (by simp)
      obtain ⟨ident, d, hi, _⟩ := hsuper b hb
      simp [hnone] at hi
    rw [if_neg hzero]
    cases hnamed : p.tree.namedType? c.base with
    | none =>
      refine .last hn (fun b hb => ?_) (by simp [hmissing, hnamed]) (by simp)
      obtain ⟨ident, d, hi, _⟩ := hsuper b hb
      simp [hnamed] at hi
    | some ident =>
      dsimp only
      cases hlookup : p.globals.lookup? ident.name with
      | none =>
        refine .last hn (fun b hb => ?_) (by simp [hmissing, hnamed, hlookup]) ?_
        · obtain ⟨i, d, hi, hb, _⟩ := hsuper b hb
          cases hnamed.symm.trans hi
          simp [hlookup] at hb
        · rintro i ⟨⟩
          exact ⟨c.base, hnamed⟩
      | some b =>
        dsimp only
        cases hclass : p.tree.class? b with
        | none =>
          refine .last hn (fun e he => ?_) (by simp [hmissing, hnamed, hlookup]) (by simp)
          obtain ⟨i, d, hi, he, hd⟩ := hsuper e he
          cases hnamed.symm.trans hi
          cases hlookup.symm.trans he
          simp [hclass] at hd
        | some d =>
          dsimp only
          have hab : p.superclass? id = some b :=
            superclass?_eq_some.mpr ⟨c, ident, d, hc, hnamed, hlookup, hclass⟩
          have hnm : ¬ p.BaseMissing id := by simp [hmissing, hnamed, hlookup]
          by_cases hmet : b ∈ visited
          · rw [if_pos (by simpa using hmet)]
            refine .last hn (fun e he => ?_) (by simp [hnm]) (by simp)
            obtain rfl : b = e := Option.some.inj (hab.symm.trans he)
            exact (hv b).mp hmet
          · rw [if_neg (by simpa using hmet)]
            have hfresh : b ∉ seen ++ [id] := fun h => hmet ((hv b).mpr h)
            refine .step (ih (b :: visited) (seen ++ [id]) (fun a => ?_) hclass ?_ ?_ ?_) hab hnm
            · simp [hv, or_comm, or_assoc, or_left_comm]
            · rw [List.nodup_append]
              refine ⟨hn, List.nodup_singleton b, ?_⟩
              rintro x hx y hy rfl
              exact hfresh (List.mem_singleton.mp hy ▸ hx)
            · intro a ha
              rcases List.mem_append.mp ha with ha | ha
              · exact hseen a ha
              · rw [List.mem_singleton.mp ha, hclass]
                rfl
            · simp only [List.length_append, List.length_cons, List.length_nil] at hfuel ⊢
              omega

/-- Climbing finds the chain of a class. -/
theorem bases_chain {id : DeclId} {c : ClassDecl} (hc : p.tree.class? id = some c) :
    p.ExtendsChain id (id :: (p.bases id c).1) ∧
    ((∃ ident, (p.bases id c).2 = .undeclared ident) ↔
      ∃ a ∈ id :: (p.bases id c).1, p.BaseMissing a) ∧
    ∀ ident, (p.bases id c).2 = .undeclared ident →
      ∃ type, p.tree.namedType? type = some ident := by
  have h := climb_climbed (p := p) (p.tree.decls.size + 1) [id] [] (by simp) hc (by simp)
    (by simp [hc]) (Nat.lt_succ_of_lt (Nat.lt_succ_self _))
  exact ⟨⟨rfl, h.linked, h.nodup, h.closed⟩, h.missing, h.named⟩

/-! ## Subtypes -/

/-- A class lists an interface, or names a class as its base, by name. -/
def Names (p : Program) (goal : Decl) (c : ClassDecl) : Prop :=
  (goal.kind = .interface ∧ ∃ i ∈ c.implements, p.namesType i goal.name.name = true) ∨
    (goal.kind = .class ∧ p.namesType c.base goal.name.name = true)

/-- What is reached from a class is named by a class on its chain. -/
theorem reaches_names {goal : Decl} {ids : List DeclId}
    (hclosed : ∀ a ∈ ids, ∀ b, p.superclass? a = some b → b ∈ ids) (fuel : Nat)
    {visited : List DeclId} {id : DeclId} (hid : id ∈ ids)
    (h : p.reaches goal fuel visited id = true) :
    ∃ a ∈ ids, ∃ c, p.tree.class? a = some c ∧ p.Names goal c := by
  induction fuel generalizing visited id with
  | zero => cases h
  | succ fuel ih =>
    rw [reaches] at h
    cases hc : p.tree.class? id with
    | none => simp [hc] at h
    | some c =>
      simp only [hc] at h
      split at h
      · cases h
      split at h
      · next hi =>
        simp only [Bool.and_eq_true, beq_iff_eq, List.any_eq_true] at hi
        exact ⟨id, hid, c, hc, .inl hi⟩
      split at h
      · cases h
      split at h
      · next hb =>
        simp only [Bool.and_eq_true, beq_iff_eq] at hb
        exact ⟨id, hid, c, hc, .inr hb⟩
      split at h
      · cases h
      · next base hbase =>
        -- The search goes on at a class only.
        obtain ⟨d, hd⟩ : ∃ d, p.tree.class? base = some d := by
          cases fuel with
          | zero => cases h
          | succ fuel =>
            rw [reaches] at h
            cases hd : p.tree.class? base with
            | none => simp [hd] at h
            | some d => exact ⟨d, rfl⟩
        obtain ⟨ident, hident, hlookup⟩ := Option.bind_eq_some_iff.mp hbase
        have hsuper : p.superclass? id = some base :=
          superclass?_eq_some.mpr ⟨c, ident, d, hc, hident, hlookup, hd⟩
        exact ih (hclosed id hid base hsuper) h

end Program

end DeclCheck

import DeclCheck.Proofs.Check.Lowering
import Mathlib.Logic.Relation

/-!
# Comparing written types

Two written types are related if they are spelled alike, where the error type is like every type. Lowering
answers with numbers, which depend on what it was asked before. Whatever that was, and whatever it is asked
between the two answers and after them, the numbers are the same exactly if the written types are related,
and a number is labelled as its type is written.
-/
namespace DeclCheck

namespace Tree

variable {t : Tree}

/-! ## Related types -/

/-- A type that is not there, that is not known, or that could not be read. -/
def IsErrorType (t : Tree) (id : TypeExprId) : Prop :=
  t.type? id = none ∨
    ∃ prim span, t.type? id = some (.primitive prim span) ∧ prim ∉ Primitive.keywords

/-- Written types that are alike. -/
inductive Related (t : Tree) : TypeExprId → TypeExprId → Prop
  | errorLeft {a b : TypeExprId} (h : t.IsErrorType a) : Related t a b
  | errorRight {a b : TypeExprId} (h : t.IsErrorType b) : Related t a b
  | primitive {a b : TypeExprId} {prim : Primitive} {s s' : Span}
      (ha : t.type? a = some (.primitive prim s)) (hb : t.type? b = some (.primitive prim s')) :
      Related t a b
  | named {a b : TypeExprId} {i j : Ident} (ha : t.type? a = some (.named i))
      (hb : t.type? b = some (.named j)) (h : i.name = j.name) : Related t a b
  | array {a b x y : TypeExprId} {s s' : Span} (ha : t.type? a = some (.array x s))
      (hb : t.type? b = some (.array y s')) (h : Related t x y) : Related t a b

/-- A written type that is there and has only known types in it. -/
inductive Known (t : Tree) : TypeExprId → Prop
  | primitive {a : TypeExprId} {prim : Primitive} {s : Span} (h : t.type? a = some (.primitive prim s))
      (hp : ∀ n, prim ≠ .unknown n) : Known t a
  | named {a : TypeExprId} {i : Ident} (h : t.type? a = some (.named i)) : Known t a
  | array {a x : TypeExprId} {s : Span} (h : t.type? a = some (.array x s)) (hx : Known t x) : Known t a

theorem typeKind_eq_error_iff (prim : Primitive) : prim.typeKind = .error ↔ prim ∉ Primitive.keywords := by
  cases prim <;> simp [Primitive.typeKind, Primitive.keywords]

theorem typeKind_inj {x y : Primitive} (h : x.typeKind = y.typeKind) (hx : x.typeKind ≠ .error) : x = y := by
  cases x <;> cases y <;> simp_all [Primitive.typeKind]

section Ordered

variable (ht : t.TypesOrdered)
include ht

theorem shape_isError_iff (id : TypeExprId) : (t.shape id).isError = true ↔ t.IsErrorType id := by
  rw [shape_eq ht, IsErrorType]
  cases he : t.type? id with
  | none => simp [Shape.isError]
  | some e =>
    cases e with
    | primitive prim span => simp [Shape.isError, typeKind_eq_error_iff]
    | named ident => simp [Shape.isError]
    | array elem span => simp [Shape.isError]

theorem agrees_of_related {a b : TypeExprId} (h : t.Related a b) :
    (t.shape a).agrees (t.shape b) = true := by
  induction h with
  | errorLeft h =>
    unfold Shape.agrees
    rw [(shape_isError_iff ht _).mpr h, Bool.true_or, Bool.true_or]
  | errorRight h =>
    unfold Shape.agrees
    rw [(shape_isError_iff ht _).mpr h, Bool.or_true, Bool.true_or]
  | primitive ha hb => simp [shape_eq ht, ha, hb, Shape.agrees]
  | named ha hb h => simp [shape_eq ht, ha, hb, h, Shape.agrees]
  | @array a b x y s s' ha hb _ ih =>
    have hx : t.shape a = .array (t.shape x) := by rw [shape_eq ht, ha]
    have hy : t.shape b = .array (t.shape y) := by rw [shape_eq ht, hb]
    rw [hx, hy, Shape.agrees, ih, Bool.or_true]

theorem related_of_agrees {a b : TypeExprId} (h : (t.shape a).agrees (t.shape b) = true) :
    t.Related a b := by
  induction a using Nat.strongRecOn generalizing b with
  | ind a ih =>
    by_cases ha : t.IsErrorType a
    · exact .errorLeft ha
    by_cases hb : t.IsErrorType b
    · exact .errorRight hb
    -- Both types are there, and neither is the error type: they agree by their spelling.
    have hea := Bool.eq_false_iff.mpr fun h => ha ((shape_isError_iff ht a).mp h)
    have heb := Bool.eq_false_iff.mpr fun h => hb ((shape_isError_iff ht b).mp h)
    unfold Shape.agrees at h
    rw [hea, heb, Bool.false_or, Bool.false_or] at h
    obtain ⟨e, he⟩ := Option.ne_none_iff_exists'.mp fun hnone => ha (.inl hnone)
    obtain ⟨f, hf⟩ := Option.ne_none_iff_exists'.mp fun hnone => hb (.inl hnone)
    rw [shape_eq ht a, shape_eq ht b, he, hf] at h
    cases e with
    | primitive x s =>
      cases f with
      | primitive y s' =>
        have hx : x.typeKind ≠ .error := fun hx =>
          ha (.inr ⟨x, s, he, (typeKind_eq_error_iff x).mp hx⟩)
        obtain rfl := typeKind_inj (beq_iff_eq.mp h) hx
        exact .primitive he hf
      | named j => cases h
      | array y s' => cases h
    | named i =>
      cases f with
      | primitive y s' => cases h
      | named j => exact .named he hf (beq_iff_eq.mp h)
      | array y s' => cases h
    | array x s =>
      cases f with
      | primitive y s' => cases h
      | named j => cases h
      | array y s' => exact .array he hf (ih x (ht a x s he) h)

/-- Types are related exactly if the trees that they spell agree. -/
theorem related_iff_agrees {a b : TypeExprId} :
    t.Related a b ↔ (t.shape a).agrees (t.shape b) = true :=
  ⟨agrees_of_related ht, related_of_agrees ht⟩

theorem labelWithin_eq_label {a : Nat} (h : t.Known a) {fuel : Nat} (hf : a < fuel) :
    t.labelWithin fuel a = (t.shape a).label t.names := by
  induction h generalizing fuel with
  | @primitive a prim s h hp =>
    obtain ⟨fuel, rfl⟩ : ∃ n, fuel = n + 1 := ⟨fuel - 1, by omega⟩
    rw [shape_eq ht, labelWithin, h]
    cases prim with
    | unknown n => exact (hp n rfl).elim
    | _ => rfl
  | @named a i h =>
    obtain ⟨fuel, rfl⟩ : ∃ n, fuel = n + 1 := ⟨fuel - 1, by omega⟩
    rw [shape_eq ht, labelWithin, h]
    rfl
  | @array a x s h _ ih =>
    obtain ⟨fuel, rfl⟩ : ∃ n, fuel = n + 1 := ⟨fuel - 1, by omega⟩
    have hlt := ht a x s h
    rw [shape_eq ht, labelWithin, h]
    exact congrArg (· ++ Text.ofString "[]") (ih (Nat.lt_of_lt_of_le hlt (Nat.le_of_lt_succ hf)))

theorem typeLabel_eq_label {a : TypeExprId} (h : t.Known a) : t.typeLabel a = (t.shape a).label t.names := by
  -- A type that is there has a number that the bound exceeds.
  refine labelWithin_eq_label ht h ?_
  have hle : ∀ e, t.type? a = some e → a < t.types.size + 1 := fun e he => Nat.lt_succ_of_le (type?_le he)
  cases h with
  | primitive h _ => exact hle _ h
  | named h => exact hle _ h
  | array h _ => exact hle _ h

end Ordered

end Tree

/-! ## What lowering is asked -/

namespace Lowering

/-- One question: a written type, a signature, or a comparison. Others may put types into the store
meanwhile. -/
inductive Asks (t : Tree) (l : Lowering) : Lowering → Prop
  | type (id : TypeExprId) : Asks t l (l.type t id).1
  | signature (id : DeclId) : Asks t l (l.signature t id).1
  | sameSignature (f g : DeclId) : Asks t l (l.sameSignature t f g).1
  | named (name : NameId) : Asks t l { l with store := (l.store.named name).1 }
  | array {elem : TypeId} (h : (l.store.get? elem).isSome) :
      Asks t l { l with store := (l.store.array elem).1 }

def Reaches (t : Tree) : Lowering → Lowering → Prop := Relation.ReflTransGen (Asks t)

variable {t : Tree} {l m : Lowering}

/-- What is remembered stays right in a store that has grown. -/
theorem Sound.after_grown {s : TypeStore} (hl : l.Sound t) (hs : s.Sound) (hg : l.store.Grows s) :
    After t l { l with store := s } := by
  refine ⟨⟨hs, fun id type h => (hl.lowered id type h).grows hg, fun id sig h => ?_⟩, hg⟩
  obtain ⟨f, hf, hsig⟩ := hl.signatures id sig h
  exact ⟨f, hf, hsig.grows hg⟩

theorem Asks.after (ht : t.TypesOrdered) (hl : l.Sound t) (h : Asks t l m) : After t l m := by
  cases h with
  | type id => exact (type_spec ht hl id).1
  | signature id => exact (signature_spec ht hl id).1
  | sameSignature f g => exact (sameSignature_spec ht hl f g).1
  | named name =>
    obtain ⟨hs, hg, _⟩ := hl.store.intern (t := { kind := .named, name }) (.inl ⟨name, rfl⟩)
    exact hl.after_grown hs hg
  | @array elem h =>
    obtain ⟨ty, hty⟩ := Option.isSome_iff_exists.mp h
    obtain ⟨hzero, hget⟩ := TypeStore.get?_eq_some hty
    have hlt := (Array.getElem?_eq_some_iff.mp hget).1
    obtain ⟨hs, hg, _⟩ := hl.store.intern (t := { kind := .array, elem })
      (.inr ⟨elem, rfl, Nat.pos_of_ne_zero hzero, hlt⟩)
    rw [TypeStore.array, if_neg hzero]
    exact hl.after_grown hs hg

theorem Reaches.after (ht : t.TypesOrdered) (hl : l.Sound t) (h : Reaches t l m) : After t l m := by
  induction h with
  | refl => exact .refl hl
  | tail _ hstep ih => exact ih.trans (hstep.after ht ih.sound)

/-- Whatever lowering is asked before, between and after, the types that it gives for two written types are
the same exactly if the written types are related; and a type of known parts is labelled as it is written. -/
theorem lowered_same_iff_related (ht : t.TypesOrdered) {l m n : Lowering} {a b : TypeExprId}
    (hl : Reaches t {} l) (hm : Reaches t (l.type t a).1 m) (hn : Reaches t (m.type t b).1 n) :
    (n.store.same (l.type t a).2 (m.type t b).2 = true ↔ t.Related a b) ∧
      (t.Known a → n.store.label t.names (l.type t a).2 = t.typeLabel a) := by
  have hlsound := (hl.after ht (.initial t)).sound
  obtain ⟨ha, hmeans⟩ := type_spec ht hlsound a
  have hbetween := hm.after ht ha.sound
  obtain ⟨hb, hmeans'⟩ := type_spec ht hbetween.sound b
  have hafter := hn.after ht hb.sound
  have hx := hmeans.grows ((hbetween.trans hb).trans hafter).grows
  have hy := hmeans'.grows hafter.grows
  constructor
  · rw [TypeStore.same_eq_agrees hafter.sound.store hx hy, Tree.related_iff_agrees ht]
  · intro hknown
    rw [TypeStore.label_eq hafter.sound.store t.names hx, Tree.typeLabel_eq_label ht hknown]

/-- Two functions give arrays of one name, each written on its own. A third array has an element that is not
known. -/
def shelf : Tree :=
  { names := { texts := #[[], Text.ofString "Book"] }
    decls := #[{ name := { name := 1 }, span := {}, subject := .function { result := 2 } },
      { name := { name := 1 }, span := {}, subject := .function { result := 4 } }]
    types := #[.named { name := 1 }, .array 1 {}, .named { name := 1 }, .array 3 {},
      .primitive (.unknown 9) {}, .array 5 {}] }

/-- The arrays are one type, and each is the type of the third; an element is not the type of its array. -/
theorem shelf_compared :
    let l := (({} : Lowering).type shelf 6).1
    let m := ((l.type shelf 2).1.sameSignature shelf 1 2).1
    shelf.TypesOrdered ∧ Asks shelf {} l ∧ Asks shelf (l.type shelf 2).1 m ∧
      (m.type shelf 4).1.store.same (l.type shelf 2).2 (m.type shelf 4).2 = true ∧
      (m.type shelf 6).1.store.same (l.type shelf 2).2 (m.type shelf 6).2 = true ∧
      ¬ shelf.Related 2 1 ∧
      (m.type shelf 4).1.store.label shelf.names (l.type shelf 2).2 = Text.ofString "Book[]" := by
  intro l m
  have ht : shelf.TypesOrdered := by
    intro id elem span h
    obtain ⟨hpos, hle, _⟩ := numbered?_eq_some h
    have hle : id ≤ 6 := hle
    interval_cases id <;> cases h <;> decide
  have hl : Asks shelf {} l := .type 6
  have hm : Asks shelf (l.type shelf 2).1 m := .sameSignature 1 2
  have hcompared (b : TypeExprId) := lowered_same_iff_related ht (b := b) (.single hl) (.single hm) .refl
  have hrelated : shelf.Related 2 4 := .array (x := 1) (y := 3) rfl rfl (.named rfl rfl rfl)
  have hunknown : shelf.Related 2 6 :=
    .array (x := 1) (y := 5) rfl rfl (.errorRight (.inr ⟨.unknown 9, {}, rfl, by decide⟩))
  have hknown : shelf.Known 2 := .array (x := 1) rfl (.named rfl)
  refine ⟨ht, hl, hm, (hcompared 4).1.mpr hrelated, (hcompared 6).1.mpr hunknown, fun h => ?_, ?_⟩
  · have hsame := (hcompared 1).1.mpr h
    revert hsame
    decide +kernel
  · rw [(hcompared 4).2 hknown]
    decide

end Lowering

end DeclCheck

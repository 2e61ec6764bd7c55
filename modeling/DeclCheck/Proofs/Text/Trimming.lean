import DeclCheck.Proofs.Text.Pieces
import DeclCheck.Text.Utf8
import Mathlib.Data.List.TakeWhile

/-!
# Trimming

Trimming a text leaves the part of its pieces between the blanks at its ends. That part has no blank at its
ends, and it is the only one.
-/
namespace DeclCheck.Text

/-- There is no blank at either end. -/
def Trimmed (xs : List Piece) : Prop :=
  (∀ x ∈ xs.head?, x.isBlank = false) ∧ ∀ x ∈ xs.getLast?, x.isBlank = false

theorem trimmed_of_forall {xs : List Piece} (h : ∀ x ∈ xs, x.isBlank = false) : Trimmed xs :=
  ⟨fun x hx => h x (List.mem_of_head? hx), fun x hx => h x (List.mem_of_getLast? hx)⟩

theorem dropWhile_eq_self {α : Type} {q : α → Bool} {xs : List α} (h : ∀ x ∈ xs.head?, q x = false) :
    xs.dropWhile q = xs := by
  cases xs with
  | nil => rfl
  | cons x xs => rw [List.dropWhile_cons, h x rfl, if_neg Bool.false_ne_true]

/-- Where a list is dropped to, what is dropped does not go on. -/
theorem exists_dropWhile {α : Type} (q : α → Bool) (xs : List α) :
    ∃ ys, xs = ys ++ xs.dropWhile q ∧ (∀ y ∈ ys, q y = true) ∧
      ∀ x ∈ (xs.dropWhile q).head?, q x = false := by
  refine ⟨xs.takeWhile q, List.takeWhile_append_dropWhile.symm, fun y hy => List.mem_takeWhile_imp hy, ?_⟩
  intro x hx
  have hnot := List.head?_dropWhile_not q xs
  rw [Option.mem_def.mp hx] at hnot
  exact hnot

theorem trim_eq {t u : Text} {xs ys : List Piece} (h : pieces t = xs ++ (pieces u ++ ys))
    (hxs : ∀ x ∈ xs, x.isBlank = true) (hys : ∀ y ∈ ys, y.isBlank = true) (hu : Trimmed (pieces u)) :
    trim t = u := by
  have hfront : (pieces u ++ ys).dropWhile Piece.isBlank = if pieces u = [] then [] else pieces u ++ ys := by
    split
    · next hnil => rw [hnil, List.nil_append, List.dropWhile_eq_nil_iff.mpr hys]
    · next hne =>
      refine dropWhile_eq_self fun x hx => hu.1 x ?_
      obtain ⟨y, rest, hy⟩ := List.exists_cons_of_ne_nil hne
      rw [hy] at hx ⊢
      exact hx
  have hback : (pieces u ++ ys).reverse.dropWhile Piece.isBlank = (pieces u).reverse := by
    rw [List.reverse_append, List.dropWhile_append_of_pos (fun y hy => hys y (List.mem_reverse.mp hy))]
    refine dropWhile_eq_self fun x hx => hu.2 x ?_
    rwa [List.head?_reverse] at hx
  have hpieces : (((pieces t).dropWhile Piece.isBlank).reverse.dropWhile Piece.isBlank).reverse =
      pieces u := by
    rw [h, List.dropWhile_append_of_pos hxs, hfront]
    split
    · next hnil => rw [hnil]; rfl
    · rw [hback, List.reverse_reverse]
  rw [trim, hpieces, flatMap_bytes_pieces]

/-- The pieces of a text are those of the trimmed text between blanks. -/
theorem pieces_trim (t : Text) : ∃ xs ys, pieces t = xs ++ (pieces (trim t) ++ ys) ∧
    (∀ x ∈ xs, x.isBlank = true) ∧ (∀ y ∈ ys, y.isBlank = true) ∧ Trimmed (pieces (trim t)) := by
  obtain ⟨xs, hxs, hfront, hhead⟩ := exists_dropWhile Piece.isBlank (pieces t)
  generalize hmid : (pieces t).dropWhile Piece.isBlank = mid at hxs hhead
  obtain ⟨zs, hzs, hback, hlast⟩ := exists_dropWhile Piece.isBlank mid.reverse
  generalize hinner : mid.reverse.dropWhile Piece.isBlank = inner at hzs hlast
  have hmidEq : mid = inner.reverse ++ zs.reverse := by
    rw [← List.reverse_append, ← hzs, List.reverse_reverse]
  have htrim : trim t = inner.reverse.flatMap Piece.bytes := by
    rw [trim, hmid, hinner]
  have hpieces : pieces (trim t) = inner.reverse := by
    rw [hmidEq, ← List.append_assoc] at hxs
    have hall := (pieces_of_append hxs).1
    have hown := pieces_of_append (t := (xs ++ inner.reverse).flatMap Piece.bytes) hall
    rw [htrim]
    exact hown.2
  rw [hpieces]
  refine ⟨xs, zs.reverse, hmidEq ▸ hxs, hfront, fun y hy => hback y (List.mem_reverse.mp hy), ?_, ?_⟩
  · intro x hx
    refine hhead x ?_
    rw [hmidEq, List.head?_append, Option.mem_def.mp hx]
    rfl
  · intro x hx
    rw [List.getLast?_reverse] at hx
    exact hlast x hx

theorem exists_blanks {xs : List Piece} (h : ∀ x ∈ xs, x.isBlank = true) :
    ∃ cs : List Char, xs = cs.map .char ∧ ∀ c ∈ cs, isBlank c = true := by
  induction xs with
  | nil => exact ⟨[], rfl, by simp⟩
  | cons x xs ih =>
    obtain ⟨hx, hxs⟩ := List.forall_mem_cons.mp h
    obtain ⟨cs, rfl, hcs⟩ := ih hxs
    cases x with
    | stray b => cases hx
    | char c => exact ⟨c :: cs, rfl, List.forall_mem_cons.mpr ⟨hx, hcs⟩⟩

/-- In front of a text that does not start with a blank, only the end is trimmed. -/
theorem eq_trim_append {u v : Text} (h : ∀ x ∈ (pieces (u ++ v)).head?, x.isBlank = false) :
    ∃ cs : List Char, u = trim u ++ ofChars cs ∧ ∀ c ∈ cs, isBlank c = true := by
  obtain ⟨xs, ys, hpieces, hxs, hys, _⟩ := pieces_trim u
  obtain ⟨as, rfl, has⟩ := exists_blanks hxs
  obtain ⟨cs, rfl, hcs⟩ := exists_blanks hys
  have hu := flatMap_bytes_pieces u
  rw [hpieces, List.flatMap_append, List.flatMap_append, flatMap_bytes_pieces, List.flatMap_map,
    List.flatMap_map] at hu
  cases as with
  | nil => exact ⟨cs, hu.symm, hcs⟩
  | cons a as =>
    have hblank : isBlank a = false := by
      refine h (.char a) ?_
      rw [← hu, List.flatMap_cons, List.append_assoc, List.append_assoc]
      change (pieces (String.utf8EncodeChar a ++ _)).head? = _
      rw [pieces_char]
      rfl
    rw [List.forall_mem_cons, hblank] at has
    cases has.1

/-- Characters without a blank at their ends are what is left of them between blanks. -/
theorem trim_ofChars_append {cs bs : List Char} (hcs : Trimmed (cs.map .char))
    (hbs : ∀ b ∈ bs, isBlank b = true) : trim (ofChars cs ++ ofChars bs) = ofChars cs := by
  have hpieces : pieces (ofChars cs ++ ofChars bs) =
      [] ++ (pieces (ofChars cs) ++ bs.map .char) := by
    rw [pieces_ofChars_append, pieces_ofChars, pieces_ofChars, List.nil_append]
  refine trim_eq hpieces (by simp) ?_ (by rwa [pieces_ofChars])
  intro y hy
  obtain ⟨b, hb, rfl⟩ := List.mem_map.mp hy
  exact hbs b hb

end DeclCheck.Text

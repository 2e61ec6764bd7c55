import DeclCheck.Source.Path
import Mathlib.Data.List.Infix

/-!
# The parts of a clean path

A clean path is its parts with slashes between them, and cutting it at the slashes gives the parts
back. Names that are joined to a path stay its last parts.
-/
namespace DeclCheck

namespace Text

variable {b : UInt8}

theorem splitOn_ne_nil (b : UInt8) (t : Text) : splitOn b t ≠ [] := by
  cases t with
  | nil => simp [splitOn]
  | cons c t =>
    unfold splitOn
    split
    · simp
    · split <;> simp

theorem splitOn_of_not_mem {t : Text} (h : b ∉ t) : splitOn b t = [t] := by
  induction t with
  | nil => rfl
  | cons c t ih =>
    obtain ⟨hc, ht⟩ := not_or.mp (List.mem_cons.not.mp h)
    rw [splitOn, ih ht]
    exact if_neg (Ne.symm hc)

theorem splitOn_append (s t : Text) : splitOn b (s ++ b :: t) = splitOn b s ++ splitOn b t := by
  induction s with
  | nil =>
    cases ht : splitOn b t with
    | nil => exact absurd ht (splitOn_ne_nil b t)
    | cons p ps => simp [splitOn, ht]
  | cons c s ih =>
    cases hs : splitOn b s with
    | nil => exact absurd hs (splitOn_ne_nil b s)
    | cons p ps =>
      rw [List.cons_append, splitOn, ih, splitOn, hs]
      by_cases hc : c = b <;> simp [hc]

theorem not_mem_of_mem_splitOn {t p : Text} (h : p ∈ splitOn b t) : b ∉ p := by
  induction t generalizing p with
  | nil => simp_all [splitOn]
  | cons c t ih =>
    cases ht : splitOn b t with
    | nil => exact absurd ht (splitOn_ne_nil b t)
    | cons q qs =>
      rw [splitOn, ht] at h
      dsimp only at h
      rw [ht] at ih
      by_cases hc : c = b
      · rw [if_pos hc] at h
        rcases List.mem_cons.mp h with rfl | h
        · simp
        · exact ih h
      · rw [if_neg hc] at h
        rcases List.mem_cons.mp h with rfl | h
        · have hq : b ∉ q := ih (List.mem_cons_self ..)
          simp [hq, Ne.symm hc]
        · exact ih (List.mem_cons_of_mem q h)

theorem join_cons_cons (sep p q : Text) (ps : List Text) :
    join sep (p :: q :: ps) = p ++ (sep ++ join sep (q :: ps)) := by
  rw [join, List.intercalate_cons_cons, List.append_assoc]
  rfl

theorem join_append_singleton (sep p : Text) {ps : List Text} (h : ps ≠ []) :
    join sep (ps ++ [p]) = join sep ps ++ (sep ++ p) := by
  induction ps with
  | nil => exact absurd rfl h
  | cons q qs ih =>
    cases qs with
    | nil => simp [join, List.intercalate]
    | cons r rs =>
      have hrest := ih (by simp)
      rw [List.cons_append] at hrest
      rw [List.cons_append, List.cons_append, join_cons_cons, hrest, join_cons_cons]
      simp only [List.append_assoc]

theorem splitOn_join {ps : List Text} (hne : ps ≠ []) (h : ∀ p ∈ ps, b ∉ p) :
    splitOn b (join [b] ps) = ps := by
  induction ps with
  | nil => exact absurd rfl hne
  | cons p ps ih =>
    have hp : splitOn b p = [p] := splitOn_of_not_mem (h p (List.mem_cons_self ..))
    cases ps with
    | nil => simpa [join, List.intercalate] using hp
    | cons q qs =>
      have hrest := ih (by simp) fun r hr => h r (List.mem_cons_of_mem p hr)
      rw [join_cons_cons, List.singleton_append, splitOn_append, hp, hrest]
      rfl

theorem join_splitOn (b : UInt8) (t : Text) : join [b] (splitOn b t) = t := by
  induction t with
  | nil => rfl
  | cons c t ih =>
    obtain ⟨p, ps, hsplit⟩ := List.exists_cons_of_ne_nil (splitOn_ne_nil b t)
    rw [splitOn, hsplit]
    rw [hsplit] at ih
    dsimp only
    split
    · next hc => rw [join_cons_cons, ih, hc, List.nil_append, List.singleton_append]
    · cases ps with
      | nil =>
        simp only [join, List.intercalate_singleton] at ih ⊢
        rw [ih]
      | cons q qs =>
        rw [join_cons_cons] at ih ⊢
        rw [List.cons_append, ih]

end Text

namespace Path

/-- A part that leads to something below. -/
def IsName (part : Text) : Prop := part ≠ [] ∧ part ≠ here ∧ part ≠ up ∧ slash ∉ part

/-- The parts of a clean path: names, and before them ways up, but none from the root. -/
def CleanParts (rooted : Bool) (ps : List Text) : Prop :=
  ∃ n names, ps = List.replicate n up ++ names ∧ (∀ p ∈ names, IsName p) ∧ (rooted = true → n = 0)

theorem CleanParts.mem {rooted : Bool} {ps : List Text} (h : CleanParts rooted ps) {p : Text}
    (hp : p ∈ ps) : p ≠ [] ∧ p ≠ here ∧ slash ∉ p := by
  obtain ⟨n, names, rfl, hnames, _⟩ := h
  rcases List.mem_append.mp hp with hp | hp
  · rw [List.eq_of_mem_replicate hp]
    decide
  · obtain ⟨hne, hhere, _, hslash⟩ := hnames p hp
    exact ⟨hne, hhere, hslash⟩

theorem CleanParts.append {rooted : Bool} {ps : List Text} (h : CleanParts rooted ps) {name : Text}
    (hname : IsName name) : CleanParts rooted (ps ++ [name]) := by
  obtain ⟨n, names, rfl, hnames, hroot⟩ := h
  refine ⟨n, names ++ [name], by simp, fun p hp => ?_, hroot⟩
  rcases List.mem_append.mp hp with hp | hp
  · exact hnames p hp
  · rwa [List.mem_singleton.mp hp]

/-- One step up from clean parts. -/
theorem CleanParts.up {rooted : Bool} {ps : List Text} {last : Text}
    (h : CleanParts rooted (ps ++ [last])) :
    (last = Path.up → CleanParts rooted (ps ++ [last] ++ [Path.up])) ∧
      (last ≠ Path.up → CleanParts rooted ps) := by
  obtain ⟨n, names, heq, hnames, hroot⟩ := h
  rcases List.eq_nil_or_concat names with rfl | ⟨front, name, rfl⟩
  · rw [List.append_nil] at heq
    have hlast : last ∈ List.replicate n Path.up := heq ▸ List.mem_append_right ps (by simp)
    have hn : n ≠ 0 := by
      rintro rfl
      simp at heq
    refine ⟨fun _ => ⟨n + 1, [], ?_, by simp, fun hr => absurd (hroot hr) hn⟩,
      fun hne => absurd (List.eq_of_mem_replicate hlast) hne⟩
    rw [heq, List.append_nil, List.replicate_succ']
  · rw [List.concat_eq_append, ← List.append_assoc] at heq
    obtain ⟨hps, hl⟩ := List.append_inj' heq rfl
    have hname := hnames name (by simp)
    cases hl
    refine ⟨fun hup => absurd hup hname.2.2.1, fun _ => ⟨n, front, hps, fun p hp => ?_, hroot⟩⟩
    exact hnames p (by simp [hp])

theorem pushPart_clean {rooted : Bool} {done : List Text} {part : Text}
    (h : CleanParts rooted done.reverse) (hpart : slash ∉ part) :
    CleanParts rooted (pushPart rooted done part).reverse := by
  unfold pushPart
  split
  · exact h
  · next hskip =>
    obtain ⟨hempty, hhere⟩ : part ≠ [] ∧ part ≠ here := by
      simpa [List.isEmpty_iff, not_or] using hskip
    split
    · next hup =>
      cases done with
      | nil =>
        cases rooted with
        | true => exact h
        | false => exact ⟨1, [], rfl, by simp, by simp⟩
      | cons last before =>
        rw [List.reverse_cons] at h
        dsimp only
        split
        · next hlast =>
          simpa using h.up.1 (by simpa using hlast)
        · next hlast => exact h.up.2 (by simpa using hlast)
    · next hup =>
      rw [List.reverse_cons]
      exact h.append ⟨hempty, hhere, by simpa using hup, hpart⟩

theorem foldl_pushPart_clean {rooted : Bool} {done parts : List Text}
    (h : CleanParts rooted done.reverse) (hparts : ∀ p ∈ parts, slash ∉ p) :
    CleanParts rooted (parts.foldl (pushPart rooted) done).reverse := by
  induction parts generalizing done with
  | nil => exact h
  | cons p ps ih =>
    obtain ⟨hp, hps⟩ := List.forall_mem_cons.mp hparts
    exact ih (pushPart_clean h hp) hps

theorem parts_clean (p : Text) : CleanParts (isAbsolute p) (parts p) :=
  foldl_pushPart_clean ⟨0, [], rfl, by simp, fun _ => rfl⟩ fun _ => Text.not_mem_of_mem_splitOn

theorem pushPart_name {rooted : Bool} {done : List Text} {name : Text} (h : IsName name) :
    pushPart rooted done name = name :: done := by
  obtain ⟨hempty, hhere, hup, _⟩ := h
  simp [pushPart, hempty, hhere, hup]

/-- A name that is joined to paths is the last part. -/
theorem join_append_name (front : List Text) {name : Text} (h : IsName name) :
    ∃ rooted pre, join (front ++ [name]) = ofParts rooted (pre ++ [name]) ∧
      CleanParts rooted (pre ++ [name]) := by
  have hne : name.isEmpty = false := by simpa [List.isEmpty_eq_false_iff] using h.1
  have hsplit : ∃ whole before, join (front ++ [name]) = clean whole ∧
      Text.splitOn slash whole = before ++ [name] := by
    have hname := Text.splitOn_of_not_mem h.2.2.2
    unfold join
    rw [List.filter_append, List.filter_singleton, hne]
    cases hfront : front.filter (!·.isEmpty) with
    | nil =>
      refine ⟨name, [], ?_, by rw [hname]; rfl⟩
      simp [Text.join]
    | cons q qs =>
      refine ⟨Text.join [slash] (q :: qs) ++ slash :: name, _, ?_,
        (Text.splitOn_append _ name).trans (by rw [hname])⟩
      exact congrArg clean (Text.join_append_singleton [slash] name (List.cons_ne_nil q qs))
  obtain ⟨whole, before, hjoin, hwhole⟩ := hsplit
  have hparts : parts whole =
      (before.foldl (pushPart (isAbsolute whole)) []).reverse ++ [name] := by
    rw [parts, hwhole, List.foldl_append, List.foldl_cons, List.foldl_nil, pushPart_name h,
      List.reverse_cons]
  refine ⟨isAbsolute whole, _, ?_, hparts ▸ parts_clean whole⟩
  rw [hjoin, clean, hparts]

theorem splitOn_ofParts {rooted : Bool} {ps : List Text} (h : CleanParts rooted ps) (hne : ps ≠ []) :
    Text.splitOn slash (ofParts rooted ps) = if rooted then [] :: ps else ps := by
  have hjoin : Text.splitOn slash (Text.join [slash] ps) = ps :=
    Text.splitOn_join hne fun p hp => (h.mem hp).2.2
  cases rooted with
  | false => simpa [ofParts, hne] using hjoin
  | true =>
    have hroot := Text.splitOn_append (b := slash) [] (Text.join [slash] ps)
    rw [hjoin] at hroot
    exact hroot

theorem isAbsolute_ofParts {rooted : Bool} {ps : List Text} (h : CleanParts rooted ps) :
    isAbsolute (ofParts rooted ps) = rooted := by
  cases rooted with
  | true => simp [isAbsolute, ofParts]
  | false =>
    cases ps with
    | nil => rfl
    | cons p rest =>
      obtain ⟨hp, _, hslash⟩ := h.mem (List.mem_cons_self ..)
      obtain ⟨c, cs, rfl⟩ := List.exists_cons_of_ne_nil hp
      have hc : c ≠ slash := fun hc => hslash (hc ▸ List.mem_cons_self ..)
      cases rest with
      | nil => simpa [isAbsolute, ofParts, Text.join] using hc
      | cons q qs => simpa [isAbsolute, ofParts, Text.join_cons_cons] using hc

/-- The last part of a path whose last part is a name. -/
theorem base_ofParts {rooted : Bool} {pre : List Text} {name : Text} (h : IsName name) :
    base (ofParts rooted (pre ++ [name])) = name := by
  obtain ⟨front, hfront, hpath⟩ : ∃ front : Text, (front = [] ∨ ∃ x, front = x ++ [slash]) ∧
      ofParts rooted (pre ++ [name]) = front ++ name := by
    have hjoin : ∃ front : Text, (front = [] ∨ ∃ x, front = x ++ [slash]) ∧
        Text.join [slash] (pre ++ [name]) = front ++ name := by
      cases pre with
      | nil => exact ⟨[], .inl rfl, by simp [Text.join]⟩
      | cons q qs =>
        refine ⟨Text.join [slash] (q :: qs) ++ [slash], .inr ⟨_, rfl⟩, ?_⟩
        rw [Text.join_append_singleton [slash] name (List.cons_ne_nil q qs), List.append_assoc]
    obtain ⟨front, hfront, hjoin⟩ := hjoin
    cases rooted with
    | false => exact ⟨front, hfront, by simp [ofParts, hjoin]⟩
    | true =>
      refine ⟨slash :: front, .inr ?_, by simp [ofParts, hjoin]⟩
      rcases hfront with rfl | ⟨x, rfl⟩
      · exact ⟨[], rfl⟩
      · exact ⟨slash :: x, rfl⟩
  obtain ⟨hempty, _, _, hslash⟩ := h
  obtain ⟨last, body, hname⟩ := List.exists_cons_of_ne_nil (List.reverse_ne_nil_iff.mpr hempty)
  have hbytes : ∀ c ∈ name.reverse, (c != slash) = true := by
    intro c hc
    rw [bne_iff_ne]
    rintro rfl
    exact hslash (List.mem_reverse.mp hc)
  have hdrop : (name.reverse ++ front.reverse).dropWhile (· == slash) =
      name.reverse ++ front.reverse := by
    have hlast : (last == slash) = false := by simpa using hbytes last (by simp [hname])
    rw [hname, List.cons_append, List.dropWhile_cons_of_neg (by simp [hlast])]
  have htake : (name.reverse ++ front.reverse).takeWhile (· != slash) = name.reverse := by
    rw [List.takeWhile_append_of_pos hbytes]
    rcases hfront with rfl | ⟨x, rfl⟩ <;> simp
  rw [base, hpath, if_neg (by simp [hempty]), List.reverse_append, hdrop, htake, hname]
  show (last :: body).reverse = name
  rw [← hname, List.reverse_reverse]

end Path

end DeclCheck

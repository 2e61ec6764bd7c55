import DeclCheck.Proofs.Manifest.Skipping
import DeclCheck.Proofs.Manifest.Spellings

/-!
# The names of declarations

An entry is kept only if its name is an identifier. A formal is kept if it has any name. In the tree a name has
its normal form, and that of an identifier is as clean as the identifier: what a letter is taken apart into and
what is joined to a letter is no blank and no bracket, and it starts with a letter still.
-/
namespace DeclCheck.Manifest

open Text Outline

/-! ## Normal forms of identifiers -/

/-- What joining needs of the tables, besides what the normal form does. -/
structure PairsAgree : Prop where
  pair_notBlank : ∀ p ∈ canonicalPairs, (rangeBits (blankPoints.map fun n => (n, n))).testBit p.1 = false
  letters_notDigits : rangeBits letterRanges &&& rangeBits digitRanges = 0

theorem pairs_agree : PairsAgree where
  pair_notBlank := by decide +kernel
  letters_notDigits := by decide +kernel

theorem pair_points {c a b : Nat} (h : (c, a, b) ∈ canonicalPairs) :
    startPoint c = startPoint a ∧ wordPoint c = startPoint c ∧ wordPoint a = startPoint a := by
  obtain ⟨hletter, hdigit, hdigit', hne, hne'⟩ := tables_agree.pair_bits _ h
  exact points_of_bits hletter hdigit hdigit' hne hne'

/-- What starts an identifier is no digit. -/
theorem not_digit_of_startPoint {n : Nat} (h : startPoint n = true) : inRanges digitRanges n = false := by
  rw [startPoint, Bool.or_eq_true, beq_iff_eq, isLetter_iff] at h
  apply inRanges_eq_false
  rcases h with rfl | hletter
  · decide +kernel
  · have hboth := congrArg (Nat.testBit · n) pairs_agree.letters_notDigits
    simpa only [Nat.testBit_and, hletter, Bool.true_and, Nat.zero_testBit] using hboth

def brackets : List Char := ['(', ')', '[', ']', '{', '}', '<', '>']

/-- The code point is neither a blank, line breaks included, nor a bracket. -/
def CleanPoint (n : Nat) : Prop := n ∉ blankPoints ∧ n ∉ brackets.map Char.toNat

theorem cleanPoint_of_high {n : Nat} (hblank : n ∉ blankPoints) (h : 0xC0 ≤ n) : CleanPoint n := by
  have hlow : ∀ m ∈ brackets.map Char.toNat, m < 0xC0 := by decide
  refine ⟨hblank, fun hmem => ?_⟩
  have := hlow n hmem
  omega

theorem cleanPoint_of_wordPoint {n : Nat} (h : wordPoint n = true) : CleanPoint n := by
  have hbrackets : ∀ m ∈ brackets.map Char.toNat, wordPoint m = false := by decide +kernel
  constructor
  · intro hmem
    rw [wordPoint_blankPoints n hmem] at h
    cases h
  · intro hmem
    rw [hbrackets n hmem] at h
    cases h

theorem cleanPoint_second {n : Nat} (h : Second n) : CleanPoint n := by
  obtain ⟨-, hblank, hhigh⟩ := second_outside h
  exact cleanPoint_of_high hblank (by omega)

theorem takeApart_clean {d n : Nat} (h : wordPoint n = true) : ∀ m ∈ takeApart d n, CleanPoint m := by
  induction d generalizing n with
  | zero => exact List.forall_mem_singleton.mpr (cleanPoint_of_wordPoint h)
  | succ d ih =>
    rcases takeApart_cases d n with ⟨_, hn⟩ | ⟨hhangul, hn⟩ | ⟨a, b, hmem, hn⟩ | ⟨a, hmem, hn⟩ <;> rw [hn]
    · exact List.forall_mem_singleton.mpr (cleanPoint_of_wordPoint h)
    · intro m hm
      have hstart := startPoint_hangul (.inl (hangulParts_mem hhangul hm))
      exact cleanPoint_of_wordPoint (wordPoint_of_startPoint hstart)
    · obtain ⟨hsame, hc, ha⟩ := pair_points hmem
      intro m hm
      rcases List.mem_append.mp hm with hm | hm
      · exact ih (by rw [ha, ← hsame, ← hc, h]) m hm
      · rw [List.mem_singleton.mp hm]
        exact cleanPoint_second ⟨_, _, hmem⟩
    · obtain ⟨hsame, hc, ha⟩ := singleton_points hmem
      exact ih (by rw [ha, ← hsame, ← hc, h])

/-- What starts an identifier is taken apart into what starts one, and more. -/
theorem takeApart_start {d n : Nat} (h : startPoint n = true) :
    ∀ m ∈ (takeApart d n).head?, startPoint m = true := by
  induction d generalizing n with
  | zero =>
    intro m hm
    cases hm
    exact h
  | succ d ih =>
    rcases takeApart_cases d n with ⟨_, hn⟩ | ⟨hhangul, hn⟩ | ⟨a, b, hmem, hn⟩ | ⟨a, hmem, hn⟩ <;> rw [hn]
    · intro m hm
      cases hm
      exact h
    · intro m hm
      exact startPoint_hangul (.inl (hangulParts_mem hhangul (List.mem_of_mem_head? hm)))
    · rw [List.head?_append_of_ne_nil _ (takeApart_ne_nil d a)]
      exact ih (by rw [← (pair_points hmem).1, h])
    · exact ih (by rw [← (singleton_points hmem).1, h])

theorem composite?_clean {a b c : Nat} (h : composite? a b = some c) : CleanPoint c := by
  rcases composite?_cases h with hjoin | hpair
  · have hstart := startPoint_hangul (.inr (hangulJoin?_apart hjoin).1)
    exact cleanPoint_of_wordPoint (wordPoint_of_startPoint hstart)
  · have hhigh := (tables_agree.first_notHangul _ (firstParts_of_pair hpair)).2.2
    refine cleanPoint_of_high (fun hmem => ?_) (by dsimp only at hhigh; omega)
    have hbit := pairs_agree.pair_notBlank _ hpair
    rw [testBit_rangeBits.mpr ⟨_, List.mem_map_of_mem hmem, Nat.le_refl _, Nat.le_refl _⟩] at hbit
    cases hbit

theorem composite?_start {a b c : Nat} (h : composite? a b = some c) (ha : startPoint a = true) :
    startPoint c = true := by
  rcases composite?_cases h with hjoin | hpair
  · exact startPoint_hangul (.inr (hangulJoin?_apart hjoin).1)
  · rw [(pair_points hpair).1, ha]

/-- What an identifier may start with, or a joiner. -/
def FrontPoint (n : Nat) : Prop := n = runJoiner ∨ startPoint n = true

theorem FrontPoint.combiningClass_eq {n : Nat} (h : FrontPoint n) : combiningClass n = 0 := by
  rcases h with rfl | h
  · decide +kernel
  · exact combiningClass_of_wordPoint (wordPoint_of_startPoint h)

theorem FrontPoint.not_digit {n : Nat} (h : FrontPoint n) : inRanges digitRanges n = false := by
  rcases h with rfl | h
  · decide +kernel
  · exact not_digit_of_startPoint h

theorem joinFrom_front {starter : Nat} (marks rest : List Nat) (h : FrontPoint starter) :
    ∃ n l, joinFrom starter marks rest = n :: l ∧ FrontPoint n := by
  fun_induction joinFrom starter marks rest with
  | case1 => exact ⟨_, _, rfl, h⟩
  | case2 starter marks n rest cls reaches c hjoin ih =>
    have hcomp := (some_of_ite hjoin).2
    exact ih (.inr (composite?_start hcomp (h.resolve_left (composite?_not_joiner hcomp).1)))
  | case3 => exact ⟨_, _, rfl, h⟩
  | case4 starter marks n rest cls reaches _ hcls ih => exact ih h

/-- The first code point of an identifier is no mark, so it stays in front, unless a joiner does. -/
theorem joined_front {c : Char} (h : startPoint c.toNat = true) {cs : List Char} {us : List Nat}
    (hus : Parted (apart (c :: cs)) us) : ∃ n l, joined us = n :: l ∧ FrontPoint n := by
  obtain ⟨n, hfirst, hhead⟩ := exists_head?_apart c cs
  obtain ⟨l, hl⟩ := List.head?_eq_some_iff.mp hhead
  obtain ⟨m, vs, rfl, hm⟩ : ∃ m vs, us = m :: vs ∧ FrontPoint m := by
    rw [hl] at hus
    cases hus with
    | cons _ _ => exact ⟨_, _, rfl, .inr (takeApart_start h n hfirst)⟩
    | joiner _ => exact ⟨_, _, rfl, .inl rfl⟩
  rw [joined, orderMarks, if_pos hm.combiningClass_eq, joinAll, if_pos hm.combiningClass_eq]
  exact joinFrom_front _ _ hm

theorem joined_clean {cs : List Char} (h : ∀ c ∈ cs, wordPoint c.toNat = true) {us : List Nat}
    (hus : Parted (apart cs) us) : ∀ n ∈ joined us, CleanPoint n := by
  refine joined_forall (fun hjoin _ _ => composite?_clean hjoin) ?_ hus ?_
  · exact cleanPoint_of_high (by decide) (by decide)
  · intro n hn
    obtain ⟨c, hc, hn⟩ := List.mem_flatMap.mp hn
    exact takeApart_clean (h c hc) n hn

/-- A name without blanks, line breaks and brackets that does not start with a digit. -/
def CleanName (t : Text) : Prop := ∃ (c : Char) (cs : List Char), t = ofChars (c :: cs) ∧ isDigit c = false ∧
  ∀ d ∈ c :: cs, isBlank d = false ∧ d ∉ brackets

/-- The normal form of an identifier is clean. -/
theorem cleanName_of_isIdentifier [NormalForm] [LawfulNormalForm] {t : Text} (h : isIdentifier t = true) :
    CleanName t.normal := by
  obtain ⟨c, cs, rfl, hc, hcs⟩ := isIdentifier_iff.mp h
  obtain ⟨us, hus, hnormal⟩ := LawfulNormalForm.chars (c :: cs)
  have hclean := joined_clean (word_of_isIdentifier hc hcs) hus
  have hvalid := joined_valid hus
  obtain ⟨n, l, hjoined, hn⟩ := joined_front hc hus
  rw [hnormal]
  rw [hjoined] at hclean hvalid ⊢
  refine ⟨Char.ofNat n, l.map Char.ofNat, rfl, ?_, ?_⟩
  · rw [isDigit, toNat_ofNat (hvalid n List.mem_cons_self)]
    exact hn.not_digit
  · intro d hd
    obtain ⟨m, hm, rfl⟩ := List.mem_map.mp (List.map_cons ▸ hd)
    have hnat := toNat_ofNat (hvalid m hm)
    obtain ⟨hblank, hbracket⟩ := hclean m hm
    constructor
    · rw [Bool.eq_false_iff, ne_eq, isBlank_iff, hnat]
      exact hblank
    · intro hmem
      exact hbracket (hnat ▸ List.mem_map_of_mem hmem)

/-! ## Names of what is kept -/

section Laws

variable [NormalForm]

/-- The name of an entry is an identifier; that of a formal is not empty. -/
def Sourced (x : Role × Text) : Prop := if x.1 = .formal then x.2.isEmpty = false else isIdentifier x.2 = true

omit [NormalForm] in
theorem sourced_formals (file : SourceFile) (fn : Text) (number : Nat) (fs : List FormalEntry) :
    ∀ x ∈ sources (FormalEntry.outlines file fn number fs), Sourced x := by
  induction fs generalizing number with
  | nil =>
    intro x hx
    cases hx
  | cons f fs ih =>
    rw [FormalEntry.outlines, ← List.singleton_append, sources_append, List.forall_mem_append]
    refine ⟨?_, ih (number + 1)⟩
    unfold FormalEntry.outline
    split
    · intro x hx
      cases hx
    · next htext =>
      rw [sources_kept]
      refine List.forall_mem_singleton.mpr ?_
      rw [Sourced, if_pos rfl]
      exact Bool.eq_false_iff.mpr htext

omit [NormalForm] in
theorem isIdentifier_of_entryName {file : SourceFile} {e : Entry} {kind : EntryKind} {n : Yaml.Node} {text : Text}
    (h : entryName file e kind n = .ok text) : isIdentifier text = true := by
  unfold entryName at h
  dsimp only at h
  split at h
  · cases h
  · split at h
    · cases h
    · next hname =>
      cases h
      simpa using hname

mutual

theorem sourced_entry (file : SourceFile) (place : Place) : (e : Entry) →
    ∀ x ∈ sources [e.outline file place], Sourced x
  | ⟨node, keys, var, fn, cls, iface, type, returns, body, base, implements, formals, members⟩ => by
    unfold Entry.outline
    dsimp only
    split
    · intro x hx
      cases hx
    · next kind nameNode _ =>
      split
      · intro x hx
        cases hx
      · next text hname =>
        rw [sources_kept, List.forall_mem_append]
        constructor
        · cases kind with
          | var =>
            intro x hx
            cases hx
          | fn => exact sourced_formals file text.normal 1 formals
          | cls => exact sourced_entries file .inClass members
          | iface => exact sourced_entries file .inInterface members
        · exact List.forall_mem_singleton.mpr (isIdentifier_of_entryName hname)

theorem sourced_entries (file : SourceFile) (place : Place) : (es : List Entry) →
    ∀ x ∈ sources (Entry.outlines file place es), Sourced x
  | [] => by
    intro x hx
    cases hx
  | e :: es => by
    rw [Entry.outlines, ← List.singleton_append, sources_append, List.forall_mem_append]
    exact ⟨sourced_entry file place e, sourced_entries file place es⟩

end

/-- Each declaration of a file is made from the name of an entry or of a formal, in the order of their numbers.
The names of entries are identifiers, and the name of a declaration is clean if it is made from an identifier.
So all names are identifiers exactly if those of the formals are. -/
theorem names_identifiers_iff_formals [LawfulNormalForm] (file : SourceFile) (entries : List Entry) :
    ∃ l, loadAll file entries = .ok l ∧
      l.tree.decls.size = (sources (entries.map (Entry.outline file .top))).length ∧
      (∀ (k : Nat) (role : Role) (text : Text),
        (sources (entries.map (Entry.outline file .top)))[k]? = some (role, text) →
        (∃ d, l.tree.decl? (k + 1) = some d ∧ d.kind = role.declKind) ∧ l.tree.nameOf (k + 1) = text.normal ∧
        Sourced (role, text) ∧ (isIdentifier text = true → CleanName (l.tree.nameOf (k + 1)))) ∧
      ((∀ x ∈ sources (entries.map (Entry.outline file .top)), isIdentifier x.2 = true) ↔
        ∀ x ∈ sources (entries.map (Entry.outline file .top)), x.1 = .formal → isIdentifier x.2 = true) := by
  rw [← Entry.outlines_eq_map]
  obtain ⟨l, t, ids, hload, ht, htree, -, -⟩ := loadAll_adds file entries
  have hsourced := sourced_entries file .top entries
  refine ⟨l, hload, ?_, ?_, fun h x hx _ => h x hx, ?_⟩
  · rw [htree, ht.size]
    exact Nat.zero_add _
  · intro k role text hk
    obtain ⟨d, hd, hkind, hname⟩ := ht.named k role text hk
    have hnumber : ({} : Tree).decls.size + k + 1 = k + 1 := congrArg (· + 1) (Nat.zero_add k)
    have hdecl : l.tree.decl? (k + 1) = some d := by
      rw [htree, ← hnumber]
      exact hd
    have hnameOf : l.tree.nameOf (k + 1) = text.normal := by
      rw [Tree.nameOf, hdecl, htree]
      exact congrArg (Option.getD · []) hname
    refine ⟨⟨d, hdecl, hkind⟩, hnameOf, hsourced _ (List.mem_of_getElem? hk), ?_⟩
    rw [hnameOf]
    exact cleanName_of_isIdentifier
  · intro h x hx
    by_cases hrole : x.1 = .formal
    · exact h x hx hrole
    · have hx := hsourced x hx
      rwa [Sourced, if_neg hrole] at hx

end Laws

/-- A class that is named by an accented letter, with a variable in two spellings. -/
def accentEntries : List Entry :=
  [{ node := .mapping (.on 1 1) [] [], cls := some (.scalar (.on 1 8) [] .plain (ofString "\u00C9")),
     members := [{ node := .mapping (.on 2 1) [] [], var := some (.scalar (.on 2 6) [] .plain (ofString "e\u0301")) },
       { node := .mapping (.on 3 1) [] [], var := some (.scalar (.on 3 6) [] .plain (ofString "\u00E9")) }] }]

/-- The variable in the second spelling is left out, and both names that are kept are clean. -/
theorem accentEntries_named : ∃ l, loadAll {} accentEntries = .ok l ∧ l.tree.decls.size = 2 ∧
    l.tree.nameOf 1 = ofString "\u00E9" ∧ CleanName (l.tree.nameOf 1) ∧ CleanName (l.tree.nameOf 2) := by
  obtain ⟨l, hload, hsize, hnamed, _⟩ := names_identifiers_iff_formals {} accentEntries
  have hsources : sources (accentEntries.map (Entry.outline {} .top)) =
      [(.entry .var, ofString "\u00E9"), (.entry .cls, ofString "\u00C9")] := by decide +kernel
  rw [hsources] at hsize hnamed
  obtain ⟨_, hname, _, hclean⟩ := hnamed 0 _ _ rfl
  obtain ⟨_, _, _, hclean'⟩ := hnamed 1 _ _ rfl
  refine ⟨l, hload, hsize, hname.trans (by decide +kernel), hclean (by decide +kernel), hclean' (by decide +kernel)⟩

/-- A function with a formal whose name has a blank in it. -/
def spacedFormal : Text := "decls:\n- fn: f\n  formals:\n  - name: a b\n    type: int\n"

theorem spacedFormal_kept : ∃ l, load { content := spacedFormal, breaks := Lines.breaks spacedFormal } = .ok l ∧
    l.tree.nameOf 1 = ofString "a b" ∧ isIdentifier (ofString "a b") = false ∧ ¬ CleanName (l.tree.nameOf 1) := by
  have hload : (load { content := spacedFormal, breaks := Lines.breaks spacedFormal }).toOption.any
      (fun l => decide (l.tree.nameOf 1 = ofChars ['a', ' ', 'b'])) = true := by
    decide +kernel
  cases hl : load { content := spacedFormal, breaks := Lines.breaks spacedFormal } with
  | error e =>
    rw [hl] at hload
    cases hload
  | ok l =>
    rw [hl] at hload
    have hname : l.tree.nameOf 1 = ofChars ['a', ' ', 'b'] := of_decide_eq_true hload
    refine ⟨l, rfl, hname, by decide +kernel, ?_⟩
    rw [hname]
    rintro ⟨c, cs, heq, -, hclean⟩
    rw [← ofChars_inj heq] at hclean
    exact absurd (hclean ' ' (by decide)).1 (by decide)

end DeclCheck.Manifest

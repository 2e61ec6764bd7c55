import DeclCheck.Proofs.Diagnostic.Sorting
import DeclCheck.Proofs.Source.Parts
import DeclCheck.Proofs.Text.Trimming
import DeclCheck.Render.Short
import Mathlib.Data.List.Perm.Basic

/-!
# One line for each diagnostic

The lines of diagnostics and notes are put into one list and grouped again: a note goes to the line before it
that is none. No diagnostic has the label of a note, so the groups are the diagnostics of known files with their
notes. Groups are sorted by what stands in their first lines; where this tells the groups apart, the order of
the diagnostics does not show. No line has a line feed in it, so the lines of the text are those of the groups.
-/
namespace DeclCheck

namespace Text

theorem compare_eq (s t : Text) : compare s t = List.compareLex Ord.compare s t := by
  induction s generalizing t with
  | nil => cases t <;> rfl
  | cons a s ih =>
    cases t with
    | nil => rfl
    | cons b t =>
      rw [compare, List.compareLex_cons_cons, ih]
      split
      · next h => rw [Std.compare_eq_lt.mpr h, Ordering.lt_then]
      · next hab =>
        split
        · next h => rw [Std.compare_eq_gt.mpr h, Ordering.gt_then]
        · next hba =>
          have heq : a = b := UInt8.le_antisymm (UInt8.not_lt.mp hba) (UInt8.not_lt.mp hab)
          rw [heq, Std.compare_self, Ordering.eq_then]

theorem compare_eq_eq_iff {s t : Text} : compare s t = .eq ↔ s = t := by
  rw [compare_eq]
  exact Std.LawfulEqCmp.compare_eq_iff_eq

theorem mem_of_mem_trim {t : Text} {b : UInt8} (h : b ∈ trim t) : b ∈ t := by
  obtain ⟨xs, ys, hpieces, _⟩ := pieces_trim t
  rw [← flatMap_bytes_pieces t, hpieces, List.flatMap_append, List.flatMap_append, flatMap_bytes_pieces]
  simp [h]

end Text

namespace Short

open Text

/-! ## Groups -/

theorem addLine_head {l : Line} (h : l.severity ≠ noteLabel) (gs : List Group) :
    addLine gs l = { head := l, notes := [] } :: gs := by
  cases gs with
  | nil => rfl
  | cons g gs => simp [addLine, h]

theorem foldl_addLine_notes {notes : List Line} (h : ∀ n ∈ notes, n.severity = noteLabel) (g : Group)
    (gs : List Group) : notes.foldl addLine (g :: gs) = { g with notes := g.notes ++ notes } :: gs := by
  induction notes generalizing g with
  | nil => simp
  | cons n notes ih =>
    obtain ⟨hn, hnotes⟩ := List.forall_mem_cons.mp h
    simp [addLine, hn, ih hnotes]

/-- The lines of a diagnostic as a group, if its file is known. -/
def group? (fs : FileSet) (withNotes : Bool) (d : Diagnostic) : Option Group :=
  (headLine? fs d).map fun head => { head, notes := if withNotes then noteLines fs d else [] }

theorem lineAt?_eq (fs : FileSet) (severity code : Text) (span : Span) (message : Text) :
    lineAt? fs severity code span message = (fs.get? span.file).map fun file =>
      { severity, code, path := shownPath fs file, line := (file.position span.start).line.toNat,
        column := (file.position span.start).col.toNat, message := flatten message } := by
  unfold lineAt? FileSet.resolve?
  cases fs.get? span.file <;> rfl

theorem lineAt?_severity {fs : FileSet} {severity code message : Text} {span : Span} {l : Line}
    (h : lineAt? fs severity code span message = some l) : l.severity = severity := by
  rw [lineAt?_eq, Option.map_eq_some_iff] at h
  obtain ⟨_, _, rfl⟩ := h
  rfl

/-- A label is none of a note, and it has no line feed. -/
theorem label_spec (s : Severity) : s.label ≠ noteLabel ∧ newline ∉ s.label := by
  unfold Severity.label
  split
  · decide
  · split <;> decide

theorem severity_of_mem_noteLines {fs : FileSet} {d : Diagnostic} {l : Line} (h : l ∈ noteLines fs d) :
    l.severity = noteLabel := by
  obtain ⟨_, _, hl⟩ := List.mem_filterMap.mp h
  exact lineAt?_severity hl

theorem foldl_addLine_linesOf (fs : FileSet) (withNotes : Bool) (d : Diagnostic) (gs : List Group) :
    (linesOf fs withNotes d).foldl addLine gs = (group? fs withNotes d).toList ++ gs := by
  unfold linesOf group?
  cases hhead : headLine? fs d with
  | none => rfl
  | some head =>
    have hlabel : head.severity ≠ noteLabel := lineAt?_severity hhead ▸ (label_spec _).1
    have hnotes : ∀ n ∈ (if withNotes then noteLines fs d else []), n.severity = noteLabel := by
      cases withNotes with
      | false => simp
      | true => exact fun n hn => severity_of_mem_noteLines hn
    simp [addLine_head hlabel, foldl_addLine_notes hnotes]

theorem groups_flatMap_linesOf (fs : FileSet) (withNotes : Bool) (ds : List Diagnostic) :
    groups (ds.flatMap (linesOf fs withNotes)) = ds.filterMap (group? fs withNotes) := by
  have hfold : ∀ gs, (ds.flatMap (linesOf fs withNotes)).foldl addLine gs =
      (ds.filterMap (group? fs withNotes)).reverse ++ gs := by
    induction ds with
    | nil => simp
    | cons d ds ih =>
      intro gs
      rw [List.flatMap_cons, List.foldl_append, foldl_addLine_linesOf, ih, List.filterMap_cons]
      cases group? fs withNotes d <;> simp
  simp [groups, hfold]

/-! ## The order of lines -/

instance : Std.TransCmp order := by
  have h : order = compareLex (compareOn (·.path)) (compareLex (compareOn (·.line))
      (compareLex (compareOn (·.column)) (compareLex (compareOn (·.code)) (compareOn (·.message))))) := by
    funext a b
    simp only [order, compare_eq, Bag.firstDifference_cons, Bag.firstDifference, compareLex, compareOn,
      Ordering.then_eq]
    rfl
  rw [h]
  infer_instance

/-- Lines that agree in all that they are sorted by, which is all but the severity. -/
def SamePlace (a b : Line) : Prop :=
  a.path = b.path ∧ a.line = b.line ∧ a.column = b.column ∧ a.code = b.code ∧ a.message = b.message

instance (a b : Line) : Decidable (SamePlace a b) := inferInstanceAs (Decidable (_ ∧ _))

theorem SamePlace.eq {a b : Line} (h : SamePlace a b) (hseverity : a.severity = b.severity) : a = b := by
  cases a
  cases b
  simp_all [SamePlace]

theorem order_eq_eq_iff {a b : Line} : order a b = .eq ↔ SamePlace a b := by
  simp [order, Bag.firstDifference_cons, Bag.firstDifference, Ordering.then_eq_eq, compare_eq_eq_iff, SamePlace]

/-- What is shown of a group: its first line, and its notes as texts. -/
def Group.shown (g : Group) : Line × List Text := (g.head, g.notes.map Line.render)

theorem sortGroups_perm (gs : List Group) : (sortGroups gs).Perm gs := List.mergeSort_perm ..

theorem sortGroups_pairwise (gs : List Group) :
    ((sortGroups gs).map Group.shown).Pairwise fun p q => (order p.1 q.1 != .gt) = true := by
  rw [List.pairwise_map]
  exact List.pairwise_mergeSort (fun a b c => ne_gt_trans order a.head b.head c.head)
    (fun a b => ne_gt_total order a.head b.head) gs

/-- Where groups with the same place show the same, sorting leaves nothing of the order that they came in. -/
theorem shown_sortGroups_of_perm {xs ys : List Group} (h : xs.Perm ys)
    (hsame : ∀ a ∈ xs, ∀ b ∈ ys, SamePlace a.head b.head → a.shown = b.shown) :
    (sortGroups xs).map Group.shown = (sortGroups ys).map Group.shown := by
  have hperm : (sortGroups xs).Perm (sortGroups ys) := (sortGroups_perm xs).trans (h.trans (sortGroups_perm ys).symm)
  refine List.Perm.eq_of_pairwise ?_ (sortGroups_pairwise xs) (sortGroups_pairwise ys) (hperm.map _)
  intro p q hp hq hpq hqp
  obtain ⟨a, ha, rfl⟩ := List.mem_map.mp hp
  obtain ⟨b, hb, rfl⟩ := List.mem_map.mp hq
  rw [bne_iff_ne, ne_eq, ← Ordering.isLE_iff_ne_gt] at hpq hqp
  have heq : order a.head b.head = .eq := Std.OrientedCmp.isLE_antisymm hpq hqp
  exact hsame a ((sortGroups_perm xs).mem_iff.mp ha) b ((sortGroups_perm ys).mem_iff.mp hb) (order_eq_eq_iff.mp heq)

theorem render_eq (fs : FileSet) (withNotes : Bool) (ds : List Diagnostic) :
    render fs withNotes ds = join [newline]
      (((sortGroups (ds.filterMap (group? fs withNotes))).map Group.shown).flatMap fun p => p.1.render :: p.2) := by
  simp [render, groups_flatMap_linesOf, List.map_flatMap, List.flatMap_map, Group.shown]

/-! ## The lines of the text -/

/-- The notes of a diagnostic as texts, none if notes are left out. -/
def noteTexts (fs : FileSet) (withNotes : Bool) (d : Diagnostic) : List Text :=
  (if withNotes then noteLines fs d else []).map Line.render

/-- A diagnostic as text; empty if its file is unknown. -/
def headText (fs : FileSet) (d : Diagnostic) : Text := ((headLine? fs d).map Line.render).getD []

/-- Is the file of a span known? -/
def isKnown (fs : FileSet) (s : Span) : Bool := s.file < fs.size

/-- The lines of a text; the empty text has none. -/
def linesIn (t : Text) : List Text := if t.isEmpty then [] else splitOn newline t

theorem linesIn_join {ls : List Text} (h : ∀ l ∈ ls, l ≠ [] ∧ newline ∉ l) : linesIn (join [newline] ls) = ls := by
  cases ls with
  | nil => rfl
  | cons l ls =>
    have hsplit : splitOn newline (join [newline] (l :: ls)) = l :: ls :=
      splitOn_join (List.cons_ne_nil l ls) fun p hp => (h p hp).2
    have hne : join [newline] (l :: ls) ≠ [] := by
      intro hnil
      rw [hnil] at hsplit
      exact (h l List.mem_cons_self).1 (List.cons.inj hsplit).1.symm
    rw [linesIn, if_neg (by simpa using hne), hsplit]

theorem isSome_lineAt? (fs : FileSet) (severity code : Text) (span : Span) (message : Text) :
    (lineAt? fs severity code span message).isSome = isKnown fs span := by
  rw [Bool.eq_iff_iff, isKnown, decide_eq_true_eq]
  simp [lineAt?_eq, FileSet.get?, FileSet.size]

theorem newline_not_mem_flatten (t : Text) : newline ∉ flatten t := by
  intro hmem
  obtain ⟨b, _, hb⟩ := List.mem_map.mp (mem_of_mem_trim hmem)
  split at hb
  · exact absurd hb (by decide)
  · next hne => simp [hb] at hne

/-- The words, codes and numbers of a line and its message have no line feed, so only its path could. -/
theorem newline_not_mem_render {fs : FileSet} (hpaths : ∀ f ∈ fs.files, newline ∉ shownPath fs f)
    {severity message : Text} {code : Code} {span : Span} {l : Line} (hseverity : newline ∉ severity)
    (h : lineAt? fs severity code.id span message = some l) : newline ∉ l.render := by
  rw [lineAt?_eq, Option.map_eq_some_iff] at h
  obtain ⟨file, hfile, rfl⟩ := h
  have hpath := hpaths file (Array.mem_of_getElem? hfile)
  have hcode : newline ∉ code.id := by
    intro hmem
    exact absurd (Code.letter_or_digit_of_mem_id hmem) (by decide)
  have hnumber : ∀ n, newline ∉ Text.ofNat n := by
    intro n hmem
    exact absurd (isDigitByte_of_mem_ofNat hmem) (by decide)
  have hblank : newline ∉ ofString " " := by decide
  have hcolon : newline ∉ ofString ":" := by decide
  simp [Line.render, hseverity, hcode, hpath, hnumber, hblank, hcolon, newline_not_mem_flatten]

theorem render_ne_nil (l : Line) : l.render ≠ [] := by
  have hblank : ofString " " ≠ [] := by decide
  simp [Line.render, hblank]

/-- A diagnostic as text, and its notes behind it. -/
def block (fs : FileSet) (withNotes : Bool) (d : Diagnostic) : List Text := headText fs d :: noteTexts fs withNotes d

theorem block_of_group? {fs : FileSet} {withNotes : Bool} {d : Diagnostic} {g : Group}
    (h : group? fs withNotes d = some g) :
    g.shown.1 ∈ headLine? fs d ∧ g.shown.2 = noteTexts fs withNotes d ∧
      g.shown.1.render :: g.shown.2 = block fs withNotes d := by
  obtain ⟨head, hhead, rfl⟩ := Option.map_eq_some_iff.mp h
  refine ⟨hhead, rfl, ?_⟩
  simp [block, headText, hhead, Group.shown, noteTexts]

theorem map_filterMap_group? (fs : FileSet) (withNotes : Bool) (ds : List Diagnostic) :
    ((ds.filterMap (group? fs withNotes)).map Group.shown).map (fun p => p.1.render :: p.2) =
      (ds.filter (isKnown fs ·.primary)).map (block fs withNotes) := by
  induction ds with
  | nil => rfl
  | cons d ds ih =>
    have hknown := isSome_lineAt? fs d.severity.label d.code.id d.primary d.message
    cases hgroup : group? fs withNotes d with
    | none =>
      have hnone : headLine? fs d = none := Option.map_eq_none_iff.mp hgroup
      rw [show lineAt? fs d.severity.label d.code.id d.primary d.message = none from hnone] at hknown
      rw [List.filterMap_cons_none hgroup, ih, List.filter_cons_of_neg (by simp [← hknown])]
    | some g =>
      obtain ⟨hhead, _, hblock⟩ := block_of_group? hgroup
      rw [show lineAt? fs d.severity.label d.code.id d.primary d.message = _ from hhead] at hknown
      rw [List.filterMap_cons_some hgroup, List.filter_cons_of_pos (by simp [← hknown]), List.map_cons, List.map_cons,
        List.map_cons, ih, hblock]

/-- The diagnostics of known files can be put in an order in which the lines are theirs, each with its notes. -/
theorem exists_order (fs : FileSet) (withNotes : Bool) (ds : List Diagnostic) :
    ∃ ordered : List Diagnostic, ordered.Perm (ds.filter (isKnown fs ·.primary)) ∧
      render fs withNotes ds = join [newline] (ordered.flatMap (block fs withNotes)) := by
  have hperm : (((sortGroups (ds.filterMap (group? fs withNotes))).map Group.shown).map fun p =>
      p.1.render :: p.2).Perm ((ds.filter (isKnown fs ·.primary)).map (block fs withNotes)) := by
    rw [← map_filterMap_group?]
    exact ((sortGroups_perm _).map _).map _
  have hcomp : Relation.Comp (fun x y => x = List.map (block fs withNotes) y) (fun x y => x.Perm y)
      (((sortGroups (ds.filterMap (group? fs withNotes))).map Group.shown).map fun p => p.1.render :: p.2)
      (ds.filter (isKnown fs ·.primary)) := by
    rw [List.eq_map_comp_perm]
    exact hperm
  obtain ⟨ordered, heq, hordered⟩ := hcomp
  refine ⟨ordered, hordered, ?_⟩
  rw [render_eq, List.flatMap_def, heq, ← List.flatMap_def]

theorem clean_of_mem_block {fs : FileSet} (hpaths : ∀ f ∈ fs.files, newline ∉ shownPath fs f) {withNotes : Bool}
    {d : Diagnostic} (hd : isKnown fs d.primary = true) {t : Text} (ht : t ∈ block fs withNotes d) :
    t ≠ [] ∧ newline ∉ t := by
  rcases List.mem_cons.mp ht with rfl | ht
  · rw [← isSome_lineAt? fs d.severity.label d.code.id d.primary d.message] at hd
    obtain ⟨l, hl⟩ := Option.isSome_iff_exists.mp hd
    have htext : headText fs d = l.render := by simp [headText, headLine?, hl]
    rw [htext]
    exact ⟨render_ne_nil l, newline_not_mem_render hpaths (label_spec _).2 hl⟩
  · obtain ⟨l, hl, rfl⟩ := List.mem_map.mp ht
    cases withNotes with
    | false => cases hl
    | true =>
      obtain ⟨n, _, hn⟩ := List.mem_filterMap.mp hl
      exact ⟨render_ne_nil l, newline_not_mem_render hpaths (by decide) hn⟩

/-- The notes of a diagnostic that are in known files, none if notes are left out. -/
def knownNotes (fs : FileSet) (withNotes : Bool) (d : Diagnostic) : List Note :=
  if withNotes then d.notes.filter (isKnown fs ·.span) else []

theorem length_noteTexts (fs : FileSet) (withNotes : Bool) (d : Diagnostic) :
    (noteTexts fs withNotes d).length = (knownNotes fs withNotes d).length := by
  cases withNotes with
  | false => rfl
  | true =>
    simp only [noteTexts, noteLines, knownNotes, if_true, List.length_map, List.length_filterMap_eq_countP,
      isSome_lineAt?, List.countP_eq_length_filter]

theorem length_flatMap_block (fs : FileSet) (withNotes : Bool) (ds : List Diagnostic) :
    (ds.flatMap (block fs withNotes)).length = ds.length + (ds.flatMap (knownNotes fs withNotes)).length := by
  induction ds with
  | nil => rfl
  | cons d ds ih =>
    simp only [List.flatMap_cons, List.length_append, ih, block, List.length_cons, length_noteTexts]
    omega

/-- The text of diagnostics is the same in whatever order they come, if those that are shown at one place with one
code and one message have one label and the same notes. It has a line for each diagnostic of a known file and,
if notes are asked for, for each of its notes in a known file, and the notes are right behind their diagnostic. -/
theorem render_order_irrelevant (fs : FileSet) (hpaths : ∀ f ∈ fs.files, newline ∉ shownPath fs f)
    (withNotes : Bool) (ds : List Diagnostic)
    (hsame : ∀ d ∈ ds, ∀ e ∈ ds, ∀ l ∈ headLine? fs d, ∀ m ∈ headLine? fs e, SamePlace l m →
      d.severity.label = e.severity.label ∧ noteTexts fs withNotes d = noteTexts fs withNotes e) :
    (∀ es, es.Perm ds → render fs withNotes es = render fs withNotes ds) ∧
    (linesIn (render fs withNotes ds)).length = (ds.filter (isKnown fs ·.primary)).length +
      ((ds.filter (isKnown fs ·.primary)).flatMap (knownNotes fs withNotes)).length ∧
    ∃ ordered : List Diagnostic, ordered.Perm (ds.filter (isKnown fs ·.primary)) ∧
      linesIn (render fs withNotes ds) = ordered.flatMap fun d => headText fs d :: noteTexts fs withNotes d := by
  constructor
  · intro es hperm
    rw [render_eq, render_eq, shown_sortGroups_of_perm (hperm.filterMap _)]
    intro a ha b hb hplace
    obtain ⟨d, hd, hgroup⟩ := List.mem_filterMap.mp ha
    obtain ⟨e, he, hgroup'⟩ := List.mem_filterMap.mp hb
    obtain ⟨hhead, hnotes, _⟩ := block_of_group? hgroup
    obtain ⟨hhead', hnotes', _⟩ := block_of_group? hgroup'
    obtain ⟨hlabel, htexts⟩ := hsame d (hperm.mem_iff.mp hd) e he _ hhead _ hhead' hplace
    have hseverity : a.shown.1.severity = b.shown.1.severity := by
      rw [lineAt?_severity hhead, lineAt?_severity hhead', hlabel]
    exact Prod.ext (hplace.eq hseverity) (by rw [hnotes, hnotes', htexts])
  · obtain ⟨ordered, hordered, hrender⟩ := exists_order fs withNotes ds
    have hlines : linesIn (render fs withNotes ds) = ordered.flatMap (block fs withNotes) := by
      rw [hrender]
      apply linesIn_join
      intro t ht
      obtain ⟨d, hd, ht⟩ := List.mem_flatMap.mp ht
      exact clean_of_mem_block hpaths (List.mem_filter.mp (hordered.mem_iff.mp hd)).2 ht
    refine ⟨?_, ordered, hordered, hlines⟩
    rw [hlines, (hordered.flatMap_right _).length_eq, length_flatMap_block]

/-- A file of three lines, shown relative to its directory. -/
def zooFiles : FileSet := (({ base := "/w" } : FileSet).addVirtual "/w/t/zoo.yaml" "a\nb\nc\n").1

/-- A conflict with a note stands behind a warning that is further down, and one diagnostic has no file. -/
def zoo : List Diagnostic :=
  [.warning .checkError { start := 4, stop := 5 } "later",
    (Diagnostic.error .declConflict { start := 2, stop := 3 } "first line\nsecond").withNote { stop := 1 } "previous",
    .error .declConflict { file := 9, stop := 1 } "dangling"]

theorem zoo_order_irrelevant :
    (∀ f ∈ zooFiles.files, newline ∉ shownPath zooFiles f) ∧
    (∀ d ∈ zoo, ∀ e ∈ zoo, ∀ l ∈ headLine? zooFiles d, ∀ m ∈ headLine? zooFiles e, SamePlace l m →
      d.severity.label = e.severity.label ∧ noteTexts zooFiles true d = noteTexts zooFiles true e) ∧
    render zooFiles true zoo.reverse = render zooFiles true zoo ∧
    (linesIn (render zooFiles true zoo)).length = 3 := by
  have hpaths : ∀ f ∈ zooFiles.files, newline ∉ shownPath zooFiles f := by decide +kernel
  have hsame : ∀ d ∈ zoo, ∀ e ∈ zoo, ∀ l ∈ headLine? zooFiles d, ∀ m ∈ headLine? zooFiles e, SamePlace l m →
      d.severity.label = e.severity.label ∧ noteTexts zooFiles true d = noteTexts zooFiles true e := by
    decide +kernel
  obtain ⟨hperm, hlength, _⟩ := render_order_irrelevant zooFiles hpaths true zoo hsame
  exact ⟨hpaths, hsame, hperm _ (List.reverse_perm zoo), hlength.trans (by decide)⟩

end Short

end DeclCheck

import DeclCheck.Progress
import DeclCheck.Proofs.Source.Relative
import Mathlib.Data.List.MinMax

/-!
# The names of files in progress

In progress, a file below the base is shown by the names that are left after those of the base. The way to it
is taken for one that leads out of the base as soon as it begins with two dots, so a file is shown from the root
also if it lies below the base and the first of its names there begins so. In diagnostics such a file is shown
relative to the base.

Files shown from two bases have the same names only if the bases are the same, or no name is relative.
-/
namespace DeclCheck.Progress

open DeclCheck.Path

theorem ofParts_eq_here_iff {ps : List Text} (h : ∀ p ∈ ps, IsName p) : ofParts false ps = here ↔ ps = [] := by
  constructor
  · intro heq
    have hclean : CleanParts false ps := cleanParts_names h
    rw [← parts_ofParts hclean, heq]
    rfl
  · rintro rfl
    rfl

/-- A way up begins with two dots. -/
theorem up_prefix_ofParts (ps : List Text) : up <+: ofParts false (up :: ps) := by
  cases ps with
  | nil => exact ⟨[], rfl⟩
  | cons p ps => exact ⟨slash :: Text.join [slash] (p :: ps), (Text.join_cons_cons [slash] up p ps).symm⟩

section Shown

variable {cwd : Text} (hcwd : isAbsolute cwd = true) {bs ts : List Text} {file : Text}
include hcwd

/-- A file strictly below the base is shown by the names that are left, if they do not begin with two dots. Any
other file is shown from the root. -/
theorem displayPath_cases (hbs : ∀ p ∈ bs, IsName p) (hts : ∀ p ∈ ts, IsName p)
    (hfile : absolute cwd file = ofParts true ts) :
    (∃ rest, ts = bs ++ rest ∧ rest ≠ [] ∧ ¬ up <+: ofParts false rest ∧
      displayPath cwd (ofParts true bs) file = ofParts false rest) ∨
    (∀ rest, ts = bs ++ rest → rest ≠ [] → up <+: ofParts false rest) ∧
      displayPath cwd (ofParts true bs) file = ofParts true ts := by
  have hbase : (ofParts true bs).isEmpty = false := rfl
  simp only [displayPath, hbase, Bool.false_eq_true, if_false, absolute_clean hcwd, hfile]
  rcases relative?_ofParts hbs hts with ⟨rest, rfl, hway⟩ | ⟨hnot, ps, _, hway⟩
  · have hrest : ∀ p ∈ rest, IsName p := fun p hp => hts p (List.mem_append_right bs hp)
    simp only [hway, Text.startsWith, Bool.or_eq_true, beq_iff_eq, ofParts_eq_here_iff hrest,
      List.isPrefixOf_iff_prefix]
    by_cases hroot : rest = [] ∨ up <+: ofParts false rest
    · refine .inr ⟨fun other heq hne => ?_, if_pos hroot⟩
      obtain rfl := List.append_cancel_left heq
      exact hroot.resolve_left hne
    · obtain ⟨hne, hdots⟩ := not_or.mp hroot
      exact .inl ⟨rest, rfl, hne, hdots, if_neg hroot⟩
  · refine .inr ⟨fun rest heq => absurd ⟨rest, heq.symm⟩ hnot, ?_⟩
    have hup : (ofParts false (up :: ps)).startsWith up = true :=
      List.isPrefixOf_iff_prefix.mpr (up_prefix_ofParts ps)
    simp only [hway, hup, Bool.or_true, if_true]

end Shown

/-- A file strictly below the base is shown in diagnostics relative to the base. In progress it is shown so
exactly if this does not begin with two dots, and otherwise from the root. -/
theorem displayPath_eq_relativeTo_iff {cwd base file : Text} (hcwd : isAbsolute cwd = true)
    (hbase : isAbsolute base = true) (hclean : clean base = base)
    (hbelow : Within base (absolute cwd file)) (hne : absolute cwd file ≠ base) :
    isAbsolute (relativeTo cwd base file) = false ∧
    join [base, relativeTo cwd base file] = absolute cwd file ∧
    (displayPath cwd base file = relativeTo cwd base file ↔ ¬ up <+: relativeTo cwd base file) ∧
    (up <+: relativeTo cwd base file → displayPath cwd base file = absolute cwd file) := by
  have habsolute : absolute cwd base = base := by rw [absolute, hbase, if_pos rfl, hclean]
  obtain ⟨bs, ts, hbs, hts, hroot, hfile, _, hseen⟩ := relativeTo_cases hcwd base file
  rw [habsolute] at hroot
  subst hroot
  rw [hfile] at hbelow hne ⊢
  have hfront := (within_ofParts_iff hbs hts).mp hbelow
  obtain ⟨rest, rfl, hleft⟩ := hseen.resolve_right fun hnot => hnot.1 hfront
  have hrest : ∀ p ∈ rest, IsName p := fun p hp => hts p (List.mem_append_right bs hp)
  have hrelative : isAbsolute (ofParts false rest) = false := isAbsolute_ofParts (cleanParts_names hrest)
  have hsome : rest ≠ [] := by
    rintro rfl
    exact hne (by rw [List.append_nil])
  rw [hleft]
  refine ⟨hrelative, join_ofParts hbs hrest, ?_⟩
  rcases displayPath_cases hcwd hbs hts hfile with ⟨other, heq, _, hdots, hshown⟩ | ⟨hdots, hshown⟩
  · obtain rfl := List.append_cancel_left heq
    exact ⟨by simp [hshown, hdots], fun h => absurd h hdots⟩
  · have hup := hdots rest rfl hsome
    refine ⟨?_, fun _ => hshown⟩
    simp only [hup, not_true, iff_false, hshown]
    intro heq
    have hkind := isAbsolute_ofParts (cleanParts_true_iff.mpr hts)
    rw [heq, hrelative] at hkind
    cases hkind

/-- One dot before the name of a file is shown in both, and two dots only in diagnostics. -/
theorem dotted_displayPath :
    displayPath "/w" "/w/p" "p/.a.yaml" = relativeTo "/w" "/w/p" "p/.a.yaml" ∧
    displayPath "/w" "/w/p" "p/..a.yaml" = absolute "/w" "p/..a.yaml" ∧
    relativeTo "/w" "/w/p" "p/..a.yaml" = "..a.yaml" := by
  have hcwd : isAbsolute "/w" = true := rfl
  have hbase : isAbsolute "/w/p" = true := rfl
  have hclean : clean "/w/p" = "/w/p" := by decide +kernel
  have hbelow : Within "/w/p" (absolute "/w" "p/.a.yaml") := .inr (.inr (by decide +kernel))
  have hbelow' : Within "/w/p" (absolute "/w" "p/..a.yaml") := .inr (.inr (by decide +kernel))
  have hone := displayPath_eq_relativeTo_iff hcwd hbase hclean hbelow (by decide +kernel)
  have htwo := displayPath_eq_relativeTo_iff hcwd hbase hclean hbelow' (by decide +kernel)
  have hshown : relativeTo "/w" "/w/p" "p/..a.yaml" = "..a.yaml" := by decide +kernel
  refine ⟨hone.2.2.1.mpr (by decide +kernel), htwo.2.2.2 ?_, hshown⟩
  rw [hshown]
  decide +kernel

/-! ## Names from two bases -/

/-- The name of a file is its absolute path, or what is left of that after the directory with the names `ds`. -/
def ShownFrom (cwd : Text) (ds : List Text) (file name : Text) : Prop :=
  name = absolute cwd file ∨ ∃ rest, (∀ p ∈ rest, IsName p) ∧ name = ofParts false rest ∧
    absolute cwd file = ofParts true (ds ++ rest)

theorem ShownFrom.of_absolute {cwd file name : Text} {ds : List Text} (h : ShownFrom cwd ds file name)
    (hname : isAbsolute name = true) : name = absolute cwd file := by
  refine h.resolve_right ?_
  rintro ⟨rest, hrest, rfl, _⟩
  rw [isAbsolute_ofParts (cleanParts_names hrest)] at hname
  cases hname

theorem exists_longest_relative {names : List Text} (h : ∃ name ∈ names, isAbsolute name = false) :
    ∃ name ∈ names, isAbsolute name = false ∧
      ∀ other ∈ names, isAbsolute other = false → (parts other).length ≤ (parts name).length := by
  have hmem : ∀ {name}, name ∈ names.filter (!isAbsolute ·) ↔ name ∈ names ∧ isAbsolute name = false := by
    intro name
    rw [List.mem_filter, Bool.not_eq_true']
  obtain ⟨first, hfirst⟩ := h
  cases hmax : (names.filter (!isAbsolute ·)).argmax (fun name => (parts name).length) with
  | none => exact absurd (List.argmax_eq_none.mp hmax) (List.ne_nil_of_mem (hmem.mpr hfirst))
  | some name =>
    obtain ⟨hname, hle, _⟩ := List.argmax_eq_some_iff.mp hmax
    obtain ⟨hlisted, hkind⟩ := hmem.mp hname
    exact ⟨name, hlisted, hkind, fun other hother hrelative => hle other (hmem.mpr ⟨hother, hrelative⟩)⟩

section Bases

variable {cwd : Text} (hcwd : isAbsolute cwd = true) {ds es : List Text}
include hcwd

theorem isAbsolute_absolute (file : Text) : isAbsolute (absolute cwd file) = true := by
  obtain ⟨ts, hts, hfile⟩ := absolute_eq_ofParts hcwd file
  rw [hfile, isAbsolute_ofParts (cleanParts_true_iff.mpr hts)]

theorem ShownFrom.of_relative {file name : Text} (h : ShownFrom cwd ds file name)
    (hname : isAbsolute name = false) : ∃ rest, (∀ p ∈ rest, IsName p) ∧ name = ofParts false rest ∧
      absolute cwd file = ofParts true (ds ++ rest) := by
  refine h.resolve_left ?_
  rintro rfl
  rw [isAbsolute_absolute hcwd file] at hname
  cases hname

theorem shownFrom_displayPath (hds : ∀ p ∈ ds, IsName p) (file : Text) :
    ShownFrom cwd ds file (displayPath cwd (ofParts true ds) file) := by
  obtain ⟨ts, hts, hfile⟩ := absolute_eq_ofParts hcwd file
  rcases displayPath_cases hcwd hds hts hfile with ⟨rest, rfl, _, _, hshown⟩ | ⟨_, hshown⟩
  · exact .inr ⟨rest, fun p hp => hts p (List.mem_append_right ds hp), hshown, hfile⟩
  · exact .inl (hshown.trans hfile.symm)

/-- Two ways to name some files give the same names, some of them relative. If the second depends on the absolute
path only, its directory lies at or above that of the first. -/
theorem prefix_of_same_names (hds : ∀ p ∈ ds, IsName p) (hes : ∀ p ∈ es, IsName p) {f g : Text → Text}
    {paths : List Text} (hf : ∀ p ∈ paths, ShownFrom cwd ds p (f p))
    (hg : ∀ p ∈ paths, ShownFrom cwd es p (g p))
    (hpath : ∀ p q, absolute cwd p = absolute cwd q → g p = g q)
    (hsame : ∀ name, name ∈ paths.map f ↔ name ∈ paths.map g)
    (hrelative : ∃ name ∈ paths.map f, isAbsolute name = false) : es <+: ds := by
  -- The file `q` with the longest relative name has no longer one from the other directory.
  obtain ⟨name, hmem, hkind, hlongest⟩ := exists_longest_relative hrelative
  obtain ⟨q, hq, rfl⟩ := List.mem_map.mp ((hsame name).mp hmem)
  obtain ⟨rest, hrest, hgq, habs⟩ := (hg q hq).of_relative hcwd hkind
  have hfq : isAbsolute (f q) = false := by
    rw [Bool.eq_false_iff]
    intro hroot
    -- The absolute path would be the second name of a file as well, and this file is `q`.
    have hown := (hf q hq).of_absolute hroot
    obtain ⟨p, hp, hgp⟩ := List.mem_map.mp ((hsame _).mp (List.mem_map_of_mem hq))
    have hsecond := (hg p hp).of_absolute (hgp ▸ hroot)
    rw [hpath p q (hsecond.symm.trans (hgp.trans hown))] at hgp
    rw [hgp, hroot] at hkind
    cases hkind
  obtain ⟨left, hleft, hfirst, habs'⟩ := (hf q hq).of_relative hcwd hfq
  have hlength := hlongest (f q) (List.mem_map_of_mem hq) hfq
  rw [hgq, hfirst, parts_ofParts (cleanParts_names hleft), parts_ofParts (cleanParts_names hrest)] at hlength
  have hparts : ds ++ left = es ++ rest := by
    have hnames : ∀ {xs ys : List Text}, (∀ p ∈ xs, IsName p) → (∀ p ∈ ys, IsName p) →
        CleanParts true (xs ++ ys) := fun hxs hys =>
      cleanParts_true_iff.mpr fun p hp => (List.mem_append.mp hp).elim (hxs p) (hys p)
    rw [← parts_ofParts (hnames hds hleft), ← parts_ofParts (hnames hes hrest), ← habs', habs]
  have htotal := congrArg List.length hparts
  rw [List.length_append, List.length_append] at htotal
  refine List.prefix_of_prefix_length_le ⟨rest, rfl⟩ (hparts ▸ List.prefix_append ds left) ?_
  omega

end Bases

end DeclCheck.Progress

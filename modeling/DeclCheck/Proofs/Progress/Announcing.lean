import DeclCheck.Proofs.Progress.Naming
import DeclCheck.Proofs.Progress.Settled
import DeclCheck.Proofs.Text.Trimming

/-!
# Files that are announced and files that are told of

Before files are checked, progress is told which files are waiting; then the check of each file tells how far it
is. The names of the files that wait are taken from the base without the blanks at its ends, and the names in
what is told later from the base as it is. They are the same names exactly if both bases are the same directory,
or all of the names are absolute.
-/
namespace DeclCheck

/-! ## A base of blanks -/

/-- All ASCII in a text of blanks is a blank. -/
theorem Text.isBlank_of_trim_eq_nil {t : Text} (h : trim t = []) {b : UInt8} (hb : b ∈ t) (hascii : b.toNat < 128) :
    isBlank (Char.ofNat b.toNat) = true := by
  obtain ⟨xs, ys, hpieces, hxs, hys, _⟩ := pieces_trim t
  have hnil : pieces (trim t) = [] := by rw [h]; rfl
  rw [hnil, List.nil_append] at hpieces
  have hall : ∀ x ∈ pieces t, x.isBlank = true := fun x hx =>
    (List.mem_append.mp (hpieces ▸ hx)).elim (hxs x) (hys x)
  obtain ⟨cs, hcs, hblank⟩ := exists_blanks hall
  rw [← flatMap_bytes_pieces t, hcs, List.flatMap_map] at hb
  obtain ⟨c, hc, hbc⟩ := List.mem_flatMap.mp hb
  rcases encode_cases c with ⟨hlow, hencode⟩ | ⟨_, hhigh⟩
  · have hbyte : b.toNat = c.toNat := by
      change b ∈ String.utf8EncodeChar c at hbc
      rw [hencode, List.mem_singleton] at hbc
      rw [hbc, toNat_byte (by omega)]
    rw [hbyte, Char.ofNat_toNat]
    exact hblank c hc
  · have := hhigh b hbc
    omega

open DeclCheck.Path in
theorem Path.isName_of_blank {base : Text} (hne : base ≠ []) (h : base.trim = []) : IsName base := by
  refine ⟨hne, ?_, ?_, fun hslash => ?_⟩
  · rintro rfl
    exact absurd h (by decide)
  · rintro rfl
    exact absurd h (by decide)
  · exact absurd (Text.isBlank_of_trim_eq_nil h hslash (by decide)) (by decide)

namespace Run

open DeclCheck.Path Progress

/-! ## Names from a base and from the trimmed base -/

section Names

variable {cwd : Text} (hcwd : isAbsolute cwd = true)
include hcwd

theorem displayBase_eq_ofParts {base : Text} (hne : base ≠ []) :
    ∃ bs, (∀ p ∈ bs, IsName p) ∧ displayBase cwd base = ofParts true bs := by
  have hempty : base.isEmpty = false := List.isEmpty_eq_false_iff.mpr hne
  obtain ⟨bs, hbs, hbase⟩ := absolute_eq_ofParts hcwd base
  exact ⟨bs, hbs, by rw [displayBase, hempty, if_neg Bool.false_ne_true, hbase]⟩

theorem displayBase_blank {base : Text} (hne : base ≠ []) (h : base.trim = []) :
    displayBase cwd base = ofParts true (parts cwd ++ [base]) := by
  have hempty : base.isEmpty = false := List.isEmpty_eq_false_iff.mpr hne
  have hname : ∀ p ∈ [base], IsName p := by simpa using isName_of_blank hne h
  have hself : ofParts false [base] = base := by simp [ofParts, Text.join]
  rw [displayBase, hempty, if_neg Bool.false_ne_true, ← absolute_ofParts hcwd hname, hself]

/-- From a base, the name of a file depends on its absolute path only. -/
theorem displayPath_congr (bs : List Text) {p q : Text} (h : absolute cwd p = absolute cwd q) :
    displayPath cwd (ofParts true bs) p = displayPath cwd (ofParts true bs) q := by
  have hbase : (ofParts true bs).isEmpty = false := rfl
  simp only [displayPath, hbase, Bool.false_eq_true, if_false, absolute_clean hcwd, h]

theorem displayPath_of_isAbsolute (base : Text) {p : Text}
    (h : isAbsolute (displayPath cwd (displayBase cwd base) p) = true) :
    displayPath cwd (displayBase cwd base) p = absolute cwd p := by
  by_cases hne : base = []
  · subst hne
    have hclean : displayPath cwd (displayBase cwd []) p = clean p := rfl
    rw [hclean, isAbsolute_clean] at h
    rw [hclean, absolute, h, if_pos rfl]
  · obtain ⟨bs, hbs, hbase⟩ := displayBase_eq_ofParts hcwd hne
    rw [hbase] at h ⊢
    exact (shownFrom_displayPath hcwd hbs p).of_absolute h

/-- Clean paths are the names from a directory of blanks only if they are absolute. -/
theorem isAbsolute_of_same_names_blank {base : Text} (hne : base ≠ []) (htrim : base.trim = []) {paths : List Text}
    (hsame : ∀ name, name ∈ paths.map clean ↔ name ∈ paths.map (displayPath cwd (displayBase cwd base))) :
    ∀ name ∈ paths.map clean, isAbsolute name = true := by
  have hroot : ∀ p ∈ parts cwd, IsName p := by
    have hparts := parts_clean cwd
    rw [hcwd] at hparts
    exact cleanParts_true_iff.mp hparts
  have hblank : ∀ p ∈ parts cwd ++ [base], IsName p := by
    intro p hp
    rcases List.mem_append.mp hp with hp | hp
    · exact hroot p hp
    · rw [List.mem_singleton.mp hp]
      exact isName_of_blank hne htrim
  rw [displayBase_blank hcwd hne htrim] at hsame
  have hclean : ∀ p ∈ paths, ShownFrom cwd (parts cwd) p (clean p) := by
    intro p hp
    cases hkind : isAbsolute (clean p) with
    | true =>
      rw [isAbsolute_clean] at hkind
      exact .inl (by rw [absolute, hkind, if_pos rfl])
    | false =>
      -- As a name from the other directory, the clean path does not lead up.
      obtain ⟨q, _, hq⟩ := List.mem_map.mp ((hsame _).mp (List.mem_map_of_mem hp))
      obtain ⟨rest, hrest, hname, _⟩ := (shownFrom_displayPath hcwd hblank q).of_relative hcwd (hq ▸ hkind)
      rw [hq] at hname
      exact .inr ⟨rest, hrest, hname, by rw [← absolute_clean hcwd, hname, absolute_ofParts hcwd hrest]⟩
  by_contra hrelative
  have habove := prefix_of_same_names hcwd hroot hblank hclean (fun p _ => shownFrom_displayPath hcwd hblank p)
    (fun p q => displayPath_congr hcwd _) hsame (by simpa using hrelative)
  have hlength := habove.length_le
  simp at hlength

end Names

/-- The names of files are the same from a base and from the trimmed base for one of two reasons: the bases are one
directory, or all of the names are absolute. -/
def BasesAgree (cwd base : Text) (paths : List Text) : Prop :=
  displayBase cwd base.trim = displayBase cwd base ∨
    ∀ p ∈ paths, isAbsolute (displayPath cwd (displayBase cwd base.trim) p) = true ∧
      isAbsolute (displayPath cwd (displayBase cwd base) p) = true

theorem same_names_iff {cwd : Text} (hcwd : isAbsolute cwd = true) (base : Text) (paths : List Text) :
    (∀ name, name ∈ paths.map (displayPath cwd (displayBase cwd base.trim)) ↔
      name ∈ paths.map (displayPath cwd (displayBase cwd base))) ↔ BasesAgree cwd base paths := by
  constructor
  · intro hsame
    by_cases hbase : base = []
    · subst hbase
      exact .inl rfl
    by_cases hall : ∀ name ∈ paths.map (displayPath cwd (displayBase cwd base.trim)), isAbsolute name = true
    · exact .inr fun p hp => ⟨hall _ (List.mem_map_of_mem hp), hall _ ((hsame _).mpr (List.mem_map_of_mem hp))⟩
    left
    by_cases htrim : base.trim = []
    · rw [htrim] at hsame hall
      exact absurd (isAbsolute_of_same_names_blank hcwd hbase htrim hsame) hall
    · obtain ⟨ds, hds, hfirst⟩ := displayBase_eq_ofParts hcwd htrim
      obtain ⟨es, hes, hsecond⟩ := displayBase_eq_ofParts hcwd hbase
      rw [hfirst, hsecond] at hsame ⊢
      rw [hfirst] at hall
      obtain ⟨name, hname, hkind⟩ : ∃ name ∈ paths.map (displayPath cwd (ofParts true ds)),
          isAbsolute name = false := by simpa using hall
      have hback := prefix_of_same_names hcwd hds hes (fun p _ => shownFrom_displayPath hcwd hds p)
        (fun p _ => shownFrom_displayPath hcwd hes p) (fun p q => displayPath_congr hcwd es) hsame
        ⟨name, hname, hkind⟩
      have hforth := prefix_of_same_names hcwd hes hds (fun p _ => shownFrom_displayPath hcwd hes p)
        (fun p _ => shownFrom_displayPath hcwd hds p) (fun p q => displayPath_congr hcwd ds)
        (fun name => (hsame name).symm) ⟨name, (hsame name).mp hname, hkind⟩
      rw [hforth.eq_of_length_le hback.length_le]
  · rintro (hbase | hall) name
    · rw [hbase]
    · have hpaths : paths.map (displayPath cwd (displayBase cwd base.trim)) =
          paths.map (displayPath cwd (displayBase cwd base)) := by
        refine List.map_congr_left fun p hp => ?_
        obtain ⟨hfirst, hsecond⟩ := hall p hp
        rw [displayPath_of_isAbsolute hcwd _ hfirst, displayPath_of_isAbsolute hcwd _ hsecond]
      rw [hpaths]

/-! ## What progress is told -/

/-- Progress is told of the same files in both. -/
def SameFilesIn (first second : List Event) : Prop :=
  ∀ name, name ∈ first.map (·.file) ↔ name ∈ second.map (·.file)

/-- The announcement of files: those that wait. -/
def announcement (cwd : Text) (o : Options) (paths : List Text) : List Event :=
  queuedEvents (displayFiles cwd (o.withBase paths).base paths)

theorem mem_distinct {t : Text} {ts : List Text} : t ∈ Progress.distinct ts ↔ t ∈ ts := by
  induction ts with
  | nil => rfl
  | cons s ts ih =>
    rw [Progress.distinct, List.mem_cons, List.mem_cons, List.mem_filter, ih]
    by_cases h : t = s <;> simp [h]

theorem mem_files_announcement {cwd : Text} {o : Options} {paths : List Text} (hpaths : ∀ p ∈ paths, p ≠ [])
    (name : Text) : name ∈ (announcement cwd o paths).map (·.file) ↔
      name ∈ paths.map (displayPath cwd (displayBase cwd (o.withBase paths).base.trim)) := by
  have hfiles : (announcement cwd o paths).map (·.file) = displayFiles cwd (o.withBase paths).base paths := by
    rw [announcement, queuedEvents, List.map_map]
    exact List.map_id _
  have hall : paths.filter (!·.isEmpty) = paths := List.filter_eq_self.mpr (by simpa using hpaths)
  rw [hfiles, displayFiles, List.mem_mergeSort, mem_distinct, hall, displayBase]
  generalize (o.withBase paths).base.trim = base
  cases base <;> rfl

/-- What is told of some files: of each of them something, and of no other. -/
def TellsOf (cwd : Text) (o : Options) (paths : List Text) (told : List Event) : Prop :=
  ∀ name, name ∈ told.map (·.file) ↔ name ∈ paths.map (shownAs cwd o)

theorem TellsOf.cons {cwd : Text} {o : Options} {path : Text} {paths : List Text} {told more : List Event}
    (hpath : About (shownAs cwd o path) told) (hpaths : TellsOf cwd o paths more) :
    TellsOf cwd o (path :: paths) (told ++ more) := by
  intro name
  obtain ⟨hsome, hfile⟩ := hpath
  rw [List.map_append, List.mem_append, hpaths name, List.map_cons, List.mem_cons]
  refine or_congr_left ?_
  constructor
  · intro hname
    obtain ⟨e, he, rfl⟩ := List.mem_map.mp hname
    exact hfile e he
  · rintro rfl
    obtain ⟨e, rest, rfl⟩ := List.exists_cons_of_ne_nil hsome
    rw [← hfile e List.mem_cons_self]
    exact List.mem_map_of_mem List.mem_cons_self

theorem emits_events (events : List Event) : Emits [] (events.forM event) fun _ told => told = events := by
  induction events with
  | nil => exact .pure rfl
  | cons e events ih => exact .bind (emits_event (ih.mono fun _ told h => by rw [h]; rfl))

theorem emits_checkInOrder (cwd : Text) (o : Options) (failed : Option Failure) (paths : List Text) :
    Emits [] (checkInOrder cwd o failed paths) fun _ told => TellsOf cwd o paths told := by
  induction paths generalizing failed with
  | nil => cases failed <;> exact .pure fun _ => Iff.rfl
  | cons path paths ih =>
    -- Whether a file before has failed makes no difference to what is told.
    cases failed
    all_goals
      refine .bind ((emits_checkFile [] cwd o _ path).mono fun res told habout => ?_)
      cases res with
      | error f => exact (ih _).mono fun _ more hmore => .cons habout.1 hmore
      | ok r => exact .bind ((ih _).mono fun _ more hmore => .pure (.cons habout.1 (by rwa [List.append_nil])))

theorem emits_checkFiles (cwd : Text) (o : Options) (paths : List Text) :
    Emits [] (checkFiles cwd o paths) fun _ told => ∃ later, told = announcement cwd o paths ++ later ∧
      TellsOf cwd (o.withBase paths) paths later := by
  refine .bind (emits_beginSpan fun span => .bind (emits_enterSpan fun around => ?_))
  refine .bind ((emits_events _).mono fun _ told h => ?_)
  refine .bind ((emits_checkInOrder cwd (o.withBase paths) none paths).mono fun _ later hlater => ?_)
  refine .bind (emits_tell (.bind (emits_enterSpan fun _ => .pure ?_)))
  exact ⟨later, by rw [h]; simp [announcement], hlater⟩

theorem tellsOf_calls (cwd : Text) (o : Options) (calls : List Call) {told : List Event}
    (h : Interleaves (calls.map (·.events cwd o)) told) : TellsOf cwd o (calls.map (·.path)) told := by
  intro name
  have hone : TellsOf cwd o (calls.map (·.path)) (calls.flatMap (·.events cwd o)) := by
    clear h
    induction calls with
    | nil => exact fun _ => Iff.rfl
    | cons c calls ih => exact .cons (c.isAbout cwd o) ih
  rw [← hone name, List.mem_map, List.mem_map]
  simp only [h.mem_iff, List.flatMap, List.mem_flatten]

theorem sameFilesIn_iff {cwd : Text} (hcwd : isAbsolute cwd = true) {o : Options} {paths : List Text}
    (hpaths : ∀ p ∈ paths, p ≠ []) {told : List Event} (h : TellsOf cwd (o.withBase paths) paths told) :
    SameFilesIn (announcement cwd o paths) told ↔ BasesAgree cwd (o.withBase paths).base paths := by
  rw [← same_names_iff hcwd]
  exact forall_congr' fun name => iff_congr (mem_files_announcement hpaths name) (h name)

/-- A run announces files and then tells of them, whether they can be read or not. The announcement is about the
same files exactly if the base and the trimmed base are one directory or show all files by absolute names. So it
is for files that are checked at the same time, in whatever order their events come. -/
theorem announced_files_told_iff {cwd : Text} (hcwd : isAbsolute cwd = true) (o : Options) {paths : List Text}
    (hpaths : ∀ p ∈ paths, p ≠ []) :
    (∀ (log : Log) (answers : Answers), ∃ told,
      (((checkFiles cwd o paths : RunM Thread _).run log).answered answers).1.2.events.toList =
        log.events.toList ++ (announcement cwd o paths ++ told) ∧
      (SameFilesIn (announcement cwd o paths) told ↔ BasesAgree cwd (o.withBase paths).base paths)) ∧
    ∀ (calls : List Call) (told : List Event), calls.map (·.path) = paths →
      Interleaves (calls.map (·.events cwd (o.withBase paths))) told →
      (SameFilesIn (announcement cwd o paths) told ↔ BasesAgree cwd (o.withBase paths).base paths) := by
  constructor
  · intro log answers
    obtain ⟨_, hlog, told, rfl, htold⟩ := emits_checkFiles cwd o paths log answers (by simp)
    exact ⟨told, hlog, sameFilesIn_iff hcwd hpaths htold⟩
  · rintro calls told rfl htold
    exact sameFilesIn_iff hcwd hpaths (tellsOf_calls cwd _ calls htold)

/-- A file in a directory whose name ends with a blank is not announced by the name that is told later. -/
theorem blank_dir_announced : ∃ told,
    (((checkFiles "/w" {} ["a /b.yaml"] : RunM Thread _).run {}).answered
      (trayAnswers (.error .notFound))).1.2.events.toList = announcement "/w" {} ["a /b.yaml"] ++ told ∧
    ¬ SameFilesIn (announcement "/w" {} ["a /b.yaml"]) told := by
  have hcwd : isAbsolute "/w" = true := rfl
  have hpaths : ∀ p ∈ [("a /b.yaml" : Text)], p ≠ [] := by decide
  obtain ⟨told, hlog, hsame⟩ := (announced_files_told_iff hcwd {} hpaths).1 {} (trayAnswers (.error .notFound))
  refine ⟨told, hlog, fun h => ?_⟩
  rcases hsame.mp h with hbase | habsolute
  · exact absurd hbase (by decide +kernel)
  · exact absurd (habsolute _ List.mem_cons_self).2 (by decide +kernel)

end Run

end DeclCheck

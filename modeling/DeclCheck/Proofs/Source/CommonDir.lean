import DeclCheck.Proofs.Source.Relative

/-!
# The directory that all files share

Directories are compared as texts with a slash behind them, so that a name is never taken for the start of a
longer one; at the root this text has two slashes and is found nowhere else. A climb from one directory
towards another ends where the two part, and a search that climbs for one file after the other ends at the
longest list of names that the directories of all files start with.
-/
namespace DeclCheck.Path

/-! ## Shared names -/

/-- The longest list of names that all of some lists start with. -/
structure Shared (cs : List Text) (lists : List (List Text)) : Prop where
  starts : ∀ ts ∈ lists, cs <+: ts
  longest : ∀ es, (∀ ts ∈ lists, es <+: ts) → es <+: cs

namespace Shared

variable {cs ds : List Text} {lists : List (List Text)}

theorem singleton (ds : List Text) : Shared ds [ds] :=
  ⟨fun _ h => List.mem_singleton.mp h ▸ List.prefix_rfl, fun _ h => h ds (List.mem_singleton_self ds)⟩

theorem unique (h : Shared cs lists) (h' : Shared ds lists) : cs = ds := by
  have hle := h'.longest cs h.starts
  have hge := h.longest ds h'.starts
  exact hle.eq_of_length (Nat.le_antisymm hle.length_le hge.length_le)

theorem of_mem_iff {others : List (List Text)} (h : Shared cs lists) (hmem : ∀ ts, ts ∈ lists ↔ ts ∈ others) :
    Shared cs others :=
  ⟨fun ts hts => h.starts ts ((hmem ts).mpr hts), fun es hes => h.longest es fun ts hts => hes ts ((hmem ts).mp hts)⟩

/-- Names that two lists share stand for both of them. -/
theorem cons_cons {bs ts : List Text} (hpair : Shared bs [ds, ts]) (h : Shared cs (bs :: lists)) :
    Shared cs (ds :: ts :: lists) := by
  have hbs := h.starts bs (List.mem_cons_self ..)
  refine ⟨fun us hus => ?_, fun es hes => h.longest es fun us hus => ?_⟩
  · rcases List.mem_cons.mp hus with rfl | hus
    · exact hbs.trans (hpair.starts us (by simp))
    · rcases List.mem_cons.mp hus with rfl | hus
      · exact hbs.trans (hpair.starts us (by simp))
      · exact h.starts us (List.mem_cons_of_mem bs hus)
  · rcases List.mem_cons.mp hus with rfl | hus
    · refine hpair.longest es fun us hus => hes us ?_
      rcases List.mem_cons.mp hus with rfl | hus
      · exact List.mem_cons_self ..
      · rw [List.mem_singleton.mp hus]
        simp
    · exact hes us (by simp [hus])

/-- Where the last name is not shared, the names before it share as much. -/
theorem concat {ts : List Text} {last : Text} (h : Shared cs [ds, ts]) (hnot : ¬ ds ++ [last] <+: ts) :
    Shared cs [ds ++ [last], ts] := by
  obtain ⟨hds, hts⟩ : cs <+: ds ∧ cs <+: ts := by simpa using h.starts
  refine ⟨by simp [hds.trans (List.prefix_append ds [last]), hts], fun es hes => h.longest es ?_⟩
  obtain ⟨hes, hes'⟩ : es <+: ds ++ [last] ∧ es <+: ts := by simpa using hes
  rcases List.prefix_concat_iff.mp hes with rfl | hes
  · exact absurd hes' hnot
  · simp [hes, hes']

end Shared

/-! ## Directories -/

variable {ds ts : List Text}

/-- What stands before the last name of a path, with its slash, is the path of the other names. -/
theorem exists_front (h : ∀ p ∈ ds, IsName p) (name : Text) : ∃ front : Text,
    ofParts true (ds ++ [name]) = front ++ slash :: name ∧ clean (front ++ [slash]) = ofParts true ds := by
  by_cases hds : ds = []
  · subst hds
    exact ⟨[], by simp [ofParts, Text.join], rfl⟩
  · refine ⟨ofParts true ds, ?_, ?_⟩
    · simp only [ofParts, if_true, Text.join_append_singleton [slash] name hds, List.cons_append, List.nil_append]
    · have hclean := cleanParts_true_iff.mpr h
      obtain ⟨habs, hparts⟩ := parts_below (isAbsolute_ofParts hclean) []
      have hnil : (Text.splitOn slash []).foldl (pushPart true) (parts (ofParts true ds)).reverse =
          (parts (ofParts true ds)).reverse := rfl
      rw [clean_of_absolute habs, hparts, hnil, List.reverse_reverse, parts_ofParts hclean]

/-- The directory of a path has all names but the last. -/
theorem dir_ofParts (h : ∀ p ∈ ds, IsName p) : dir (ofParts true ds) = ofParts true ds.dropLast := by
  rcases List.eq_nil_or_concat ds with rfl | ⟨front, name, rfl⟩
  · rfl
  · rw [List.concat_eq_append] at h ⊢
    obtain ⟨before, hpath, hclean⟩ := exists_front (fun p hp => h p (List.mem_append_left _ hp)) name
    have hname : ∀ b ∈ name.reverse, (b != slash) = true := by
      intro b hb
      rw [bne_iff_ne]
      rintro rfl
      exact (h name (by simp)).2.2.2 (List.mem_reverse.mp hb)
    have hdrop : (before ++ slash :: name).reverse.dropWhile (· != slash) = slash :: before.reverse := by
      rw [List.reverse_append, List.reverse_cons, List.append_assoc, List.dropWhile_append_of_pos hname]
      rfl
    rw [dir, hpath, hdrop, List.reverse_cons, List.reverse_reverse, hclean, List.dropLast_concat]

theorem ofParts_inj (hd : ∀ p ∈ ds, IsName p) (ht : ∀ p ∈ ts, IsName p) (h : ofParts true ds = ofParts true ts) : ds = ts := by
  have hparts := congrArg parts h
  rwa [parts_ofParts (cleanParts_true_iff.mpr hd), parts_ofParts (cleanParts_true_iff.mpr ht)] at hparts

/-- By their texts, a directory lies at or above those that start with its names; the root, with its two
slashes, only above itself. -/
theorem isAtOrAbove_ofParts (hd : ∀ p ∈ ds, IsName p) (ht : ∀ p ∈ ts, IsName p) :
    isAtOrAbove (ofParts true ds) (ofParts true ts) = true ↔ ds <+: ts ∧ (ds = [] → ts = []) := by
  rw [isAtOrAbove, Text.startsWith, List.isPrefixOf_iff_prefix]
  cases ds with
  | nil =>
    cases ts with
    | nil => exact iff_of_true List.prefix_rfl ⟨List.prefix_rfl, fun _ => rfl⟩
    | cons t ts =>
      refine iff_of_false (fun hstarts => ?_) fun h => List.cons_ne_nil t ts (h.2 rfl)
      obtain ⟨hempty, _, _, hslash⟩ := ht t (List.mem_cons_self ..)
      obtain ⟨b, bs, rfl⟩ := List.exists_cons_of_ne_nil hempty
      have hpath : ∃ rest, ofParts true ((b :: bs) :: ts) = slash :: b :: rest := by
        cases ts with
        | nil => exact ⟨bs, by simp [ofParts, Text.join]⟩
        | cons u us => exact ⟨_, congrArg _ (Text.join_cons_cons ..)⟩
      obtain ⟨rest, hpath⟩ := hpath
      obtain ⟨more, hmore⟩ := hstarts
      rw [hpath] at hmore
      have hb : slash = b := (List.cons.inj (List.cons.inj hmore).2).1
      exact hslash (hb ▸ List.mem_cons_self ..)
  | cons d ds =>
    have hne : ofParts true (d :: ds) ≠ [slash] := fun h => List.cons_ne_nil d ds (ofParts_inj hd (by simp) h)
    have hwithin := within_ofParts_iff hd ht
    simp only [Within, hne, false_or] at hwithin
    rw [List.prefix_concat_iff, List.append_cancel_right_eq, eq_comm, hwithin]
    simp

/-! ## Climbing -/

/-- A climb from `d` towards `p` without a bound on its steps, and how it ends. -/
inductive Climbs (p : Text) : Text → Climb → Prop
  | arrived {d : Text} (h : isAtOrAbove d p = true) : Climbs p d (.arrived d)
  | atTop {d : Text} (h : isAtOrAbove d p = false) (htop : dir d = d) : Climbs p d (.atTop d)
  | up {d : Text} {c : Climb} (h : isAtOrAbove d p = false) (hup : dir d ≠ d) (hrest : Climbs p (dir d) c) :
      Climbs p d c

/-- A climb ends where the two directories part, and it is stopped at the root only. -/
theorem exists_climb (hd : ∀ p ∈ ds, IsName p) (ht : ∀ p ∈ ts, IsName p) {steps : Nat} (hsteps : ds.length < steps) :
    ∃ cs, Shared cs [ds, ts] ∧
      Climbs (ofParts true ts) (ofParts true ds) (climb (ofParts true ts) steps (ofParts true ds)) ∧
      (climb (ofParts true ts) steps (ofParts true ds) = .arrived (ofParts true cs) ∨
        climb (ofParts true ts) steps (ofParts true ds) = .atTop (ofParts true cs) ∧ cs = []) := by
  induction steps generalizing ds with
  | zero => omega
  | succ steps ih =>
    have habove := isAtOrAbove_ofParts hd ht
    rw [climb]
    cases hat : isAtOrAbove (ofParts true ds) (ofParts true ts) with
    | true =>
      have hstarts := (habove.mp hat).1
      refine ⟨ds, ⟨by simp [hstarts], fun es hes => hes ds (by simp)⟩, ?_, .inl (by simp)⟩
      exact .arrived hat
    | false =>
      have hdir := dir_ofParts hd
      rcases List.eq_nil_or_concat ds with rfl | ⟨front, last, rfl⟩
      · have htop : dir (ofParts true []) = ofParts true [] := rfl
        refine ⟨[], ⟨by simp, fun es hes => hes [] (by simp)⟩, ?_, .inr (by simp [htop])⟩
        simpa [htop] using Climbs.atTop hat htop
      · rw [List.concat_eq_append] at *
        have hfront : ∀ p ∈ front, IsName p := fun p hp => hd p (List.mem_append_left _ hp)
        rw [List.dropLast_concat] at hdir
        have hup : dir (ofParts true (front ++ [last])) ≠ ofParts true (front ++ [last]) := by
          rw [hdir]
          intro h
          simpa using ofParts_inj hfront hd h
        have hnot : ¬ front ++ [last] <+: ts := by
          intro hstarts
          rw [habove.mpr ⟨hstarts, by simp⟩] at hat
          cases hat
        rw [List.length_append, List.length_singleton] at hsteps
        obtain ⟨cs, hshared, hclimbs, hend⟩ := ih hfront (by omega)
        rw [← hdir] at hclimbs hend
        refine ⟨cs, hshared.concat hnot, ?_, ?_⟩
        · simpa [hup] using Climbs.up hat hup hclimbs
        · simpa [hup] using hend

/-! ## Searching -/

/-- A clean path from the root. -/
structure FromRoot (p : Text) : Prop where
  isAbsolute : isAbsolute p = true
  clean : clean p = p

theorem FromRoot.eq_ofParts {p : Text} (h : FromRoot p) : p = ofParts true (parts p) ∧ ∀ q ∈ parts p, IsName q := by
  have hparts := parts_clean p
  rw [h.isAbsolute] at hparts
  exact ⟨h.clean.symm.trans (clean_of_absolute h.isAbsolute), cleanParts_true_iff.mp hparts⟩

theorem fromRoot_ofParts (h : ∀ p ∈ ds, IsName p) : FromRoot (ofParts true ds) :=
  ⟨isAbsolute_ofParts (cleanParts_true_iff.mpr h), clean_ofParts (cleanParts_true_iff.mpr h)⟩

/-- The names of the directory of a file. -/
def dirNames (f : Text) : List Text := (parts f).dropLast

theorem FromRoot.dir_eq {f : Text} (h : FromRoot f) :
    dir f = ofParts true (dirNames f) ∧ ∀ p ∈ dirNames f, IsName p := by
  obtain ⟨hf, hnames⟩ := h.eq_ofParts
  refine ⟨?_, fun p hp => hnames p (List.mem_of_mem_dropLast hp)⟩
  rw [dirNames, ← dir_ofParts hnames, ← hf]

/-- There are no more names than bytes. -/
theorem length_le_ofParts (ds : List Text) : ds.length ≤ (ofParts true ds).length := by
  induction ds with
  | nil => exact Nat.zero_le _
  | cons d ds ih =>
    cases ds with
    | nil => simp [ofParts]
    | cons e es =>
      simp only [ofParts, if_true, Text.join_cons_cons, List.length_cons, List.length_append] at ih ⊢
      omega

/-- A search that climbs from a directory for one file after the other, without a bound on its steps, and the
directory that it ends at. It is over at the top. -/
inductive Search : Text → List Text → Text → Prop
  | found (d : Text) : Search d [] d
  | next {d e r f : Text} {files : List Text} (hclimb : Climbs (dir f) d (.arrived e)) (hrest : Search e files r) :
      Search d (f :: files) r
  | atTop {d e f : Text} {files : List Text} (hclimb : Climbs (dir f) d (.atTop e)) : Search d (f :: files) e

/-- A search ends at the names that are shared by where it starts and the directories of all files. -/
theorem exists_search (hd : ∀ p ∈ ds, IsName p) {files : List Text} (hfiles : ∀ f ∈ files, FromRoot f) :
    ∃ cs, Shared cs (ds :: files.map dirNames) ∧ commonDirFrom (ofParts true ds) files = ofParts true cs ∧
      Search (ofParts true ds) files (ofParts true cs) := by
  induction files generalizing ds with
  | nil => exact ⟨ds, .singleton ds, rfl, .found _⟩
  | cons f files ih =>
    obtain ⟨hf, hrest⟩ := List.forall_mem_cons.mp hfiles
    obtain ⟨hdir, hnames⟩ := hf.dir_eq
    have hsteps : ds.length < (ofParts true ds).length + 2 := Nat.lt_add_right 1 (Nat.lt_succ_of_le (length_le_ofParts ds))
    obtain ⟨bs, hshared, hclimbs, hend⟩ := exists_climb hd hnames hsteps
    rw [← hdir] at hclimbs hend
    unfold commonDirFrom
    rcases hend with hend | ⟨hend, rfl⟩
    · have hbs : ∀ p ∈ bs, IsName p := fun p hp =>
        hd p ((hshared.starts ds (List.mem_cons_self ..)).subset hp)
      obtain ⟨cs, hcs, hdone, hsearch⟩ := ih hbs hrest
      rw [hend] at hclimbs ⊢
      exact ⟨cs, hshared.cons_cons hcs, hdone, .next hclimbs hsearch⟩
    · -- Nothing is shared here, so nothing is shared with the files that are not looked at.
      rw [hend] at hclimbs ⊢
      have hnil : Shared [] ([] :: files.map dirNames) :=
        ⟨fun _ _ => List.nil_prefix, fun es hes => hes [] (List.mem_cons_self ..)⟩
      exact ⟨[], hshared.cons_cons hnil, rfl, .atTop hclimbs⟩

/-- The directory of files is what their directories share. -/
theorem exists_commonDir {first : Text} {rest : List Text} (h : ∀ f ∈ first :: rest, FromRoot f) :
    ∃ cs, Shared cs ((first :: rest).map dirNames) ∧ (∀ p ∈ cs, IsName p) ∧
      commonDir (first :: rest) = ofParts true cs ∧ Search (dir first) rest (ofParts true cs) := by
  obtain ⟨hfirst, hrest⟩ := List.forall_mem_cons.mp h
  obtain ⟨hdir, hnames⟩ := hfirst.dir_eq
  obtain ⟨cs, hshared, hdone, hsearch⟩ := exists_search hnames hrest
  rw [← hdir] at hdone hsearch
  exact ⟨cs, hshared, fun p hp => hnames p ((hshared.starts _ (List.mem_cons_self ..)).subset hp), hdone, hsearch⟩

/-- For files with clean paths from the root the search for their directory ends. It ends at the deepest directory at
or above those of all files, whichever order the files come in. -/
theorem commonDir_deepest {first : Text} {rest : List Text} (h : ∀ f ∈ first :: rest, FromRoot f) :
    Search (dir first) rest (commonDir (first :: rest)) ∧
    FromRoot (commonDir (first :: rest)) ∧
    (∀ f ∈ first :: rest, Within (commonDir (first :: rest)) (dir f)) ∧
    (∀ d, FromRoot d → (∀ f ∈ first :: rest, Within d (dir f)) → Within d (commonDir (first :: rest))) ∧
    ∀ files : List Text, files.Perm (first :: rest) → commonDir files = commonDir (first :: rest) := by
  obtain ⟨cs, hshared, hnames, hdone, hsearch⟩ := exists_commonDir h
  rw [hdone]
  refine ⟨hsearch, fromRoot_ofParts hnames, fun f hf => ?_, fun d hd hall => ?_, fun files hperm => ?_⟩
  · obtain ⟨hdir, hdirNames⟩ := (h f hf).dir_eq
    rw [hdir, within_ofParts_iff hnames hdirNames]
    exact hshared.starts _ (List.mem_map_of_mem hf)
  · obtain ⟨hd, hdnames⟩ := hd.eq_ofParts
    rw [hd, within_ofParts_iff hdnames hnames]
    refine hshared.longest _ fun ts hts => ?_
    obtain ⟨f, hf, rfl⟩ := List.mem_map.mp hts
    obtain ⟨hdir, hdirNames⟩ := (h f hf).dir_eq
    have hwithin := hall f hf
    rwa [hd, hdir, within_ofParts_iff hdnames hdirNames] at hwithin
  · cases files with
    | nil => exact absurd hperm.length_eq (by simp)
    | cons f files =>
      obtain ⟨bs, hshared', _, hdone', _⟩ := exists_commonDir fun g hg => h g (hperm.mem_iff.mp hg)
      have hmem : ∀ ts, ts ∈ (f :: files).map dirNames ↔ ts ∈ (first :: rest).map dirNames := fun ts =>
        (hperm.map dirNames).mem_iff
      rw [hdone', hshared.unique (hshared'.of_mem_iff hmem)]

/-- A directory is not taken for one whose name is longer. -/
theorem siblings_commonDir :
    commonDir ["/w/a/x.yaml", "/w/ab/y.yaml"] = "/w" ∧ commonDir ["/w/ab/y.yaml", "/w/a/x.yaml"] = "/w" ∧
      Search "/w/a" ["/w/ab/y.yaml"] "/w" ∧ Within "/w" "/w/ab" := by
  have h : ∀ f ∈ ([("/w/a/x.yaml" : Text), "/w/ab/y.yaml"]), FromRoot f := by
    intro f hf
    rcases List.mem_cons.mp hf with rfl | hf
    · exact ⟨rfl, by decide +kernel⟩
    · rw [List.mem_singleton.mp hf]
      exact ⟨rfl, by decide +kernel⟩
  have hdone : commonDir ["/w/a/x.yaml", "/w/ab/y.yaml"] = "/w" := by decide +kernel
  have hdirs : dir "/w/a/x.yaml" = "/w/a" ∧ dir "/w/ab/y.yaml" = "/w/ab" := by decide +kernel
  obtain ⟨hsearch, -, hwithin, -, hperm⟩ := commonDir_deepest h
  rw [hdone] at hsearch hwithin hperm
  rw [hdirs.1] at hsearch
  exact ⟨hdone, hperm _ (.swap ..), hsearch, hdirs.2 ▸ hwithin "/w/ab/y.yaml" (by simp)⟩

end DeclCheck.Path

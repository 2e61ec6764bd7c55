import DeclCheck.Proofs.Source.Parts

/-!
# Paths seen from a directory

A clean path from the root is the list of its names. Seen from a directory that is at or above it, it is the
names that are left after those of the directory; from any other directory it is shown from the root. Joining
the directory with what is left gives the path again, so the path is not lost.
-/
namespace DeclCheck

theorem Text.join_append (sep : Text) {ps qs : List Text} (hps : ps ≠ []) (hqs : qs ≠ []) :
    join sep (ps ++ qs) = join sep ps ++ (sep ++ join sep qs) := by
  obtain ⟨q, qs, rfl⟩ := List.exists_cons_of_ne_nil hqs
  induction ps with
  | nil => exact absurd rfl hps
  | cons p ps ih =>
    cases ps with
    | nil => simp [join]
    | cons p' ps =>
      have hrest := ih (by simp)
      rw [List.cons_append] at hrest
      rw [List.cons_append, List.cons_append, join_cons_cons, hrest, join_cons_cons]
      simp only [List.append_assoc]

namespace Path

/-! ## Clean paths -/

theorem cleanParts_true_iff {ps : List Text} : CleanParts true ps ↔ ∀ p ∈ ps, IsName p := by
  constructor
  · rintro ⟨n, names, rfl, hnames, hroot⟩
    simpa [hroot rfl] using hnames
  · intro h
    exact ⟨0, ps, by simp, h, fun _ => rfl⟩

theorem cleanParts_names {rooted : Bool} {names : List Text} (h : ∀ p ∈ names, IsName p) :
    CleanParts rooted names :=
  ⟨0, names, by simp, h, fun _ => rfl⟩

theorem foldl_pushPart_names {rooted : Bool} {names : List Text} (h : ∀ p ∈ names, IsName p)
    (done : List Text) : names.foldl (pushPart rooted) done = names.reverse ++ done := by
  induction names generalizing done with
  | nil => rfl
  | cons p names ih =>
    obtain ⟨hp, hnames⟩ := List.forall_mem_cons.mp h
    simp [pushPart_name hp, ih hnames]

theorem foldl_pushPart_ups (n : Nat) :
    (List.replicate n up).foldl (pushPart false) [] = List.replicate n up := by
  induction n with
  | zero => rfl
  | succ n ih =>
    rw [List.replicate_succ', List.foldl_append, ih, ← List.replicate_succ']
    cases n with
    | zero => rfl
    | succ n => rfl

/-- Clean parts are left as they are. -/
theorem foldl_pushPart_self {rooted : Bool} {ps : List Text} (h : CleanParts rooted ps) :
    ps.foldl (pushPart rooted) [] = ps.reverse := by
  obtain ⟨n, names, rfl, hnames, hroot⟩ := h
  have hups : (List.replicate n up).foldl (pushPart rooted) [] = List.replicate n up := by
    cases rooted with
    | true => rw [hroot rfl]; rfl
    | false => exact foldl_pushPart_ups n
  rw [List.foldl_append, hups, foldl_pushPart_names hnames, List.reverse_append, List.reverse_replicate]

theorem parts_ofParts {rooted : Bool} {ps : List Text} (h : CleanParts rooted ps) :
    parts (ofParts rooted ps) = ps := by
  cases ps with
  | nil => cases rooted <;> rfl
  | cons p ps =>
    have hne := List.cons_ne_nil p ps
    have hself := foldl_pushPart_self h
    rw [parts, isAbsolute_ofParts h, splitOn_ofParts h hne]
    cases rooted with
    | false => simp [hself]
    | true =>
      have hempty : pushPart true [] [] = [] := rfl
      simp only [if_true, List.foldl_cons, hempty] at hself ⊢
      rw [hself, List.reverse_reverse]

theorem parts_clean_eq (p : Text) : parts (clean p) = parts p := parts_ofParts (parts_clean p)

theorem isAbsolute_clean (p : Text) : isAbsolute (clean p) = isAbsolute p := isAbsolute_ofParts (parts_clean p)

theorem clean_clean (p : Text) : clean (clean p) = clean p := by
  rw [clean, isAbsolute_clean, parts_clean_eq, ← clean]

theorem clean_of_absolute {q : Text} (h : isAbsolute q = true) : clean q = ofParts true (parts q) := by
  rw [clean, h]

theorem clean_ofParts {rooted : Bool} {ps : List Text} (h : CleanParts rooted ps) :
    clean (ofParts rooted ps) = ofParts rooted ps := by
  rw [clean, isAbsolute_ofParts h, parts_ofParts h]

/-- A path that is taken below a directory has the parts of the directory and then its own. -/
theorem parts_below {d : Text} (hd : isAbsolute d = true) (r : Text) :
    isAbsolute (d ++ slash :: r) = true ∧
      parts (d ++ slash :: r) = ((Text.splitOn slash r).foldl (pushPart true) (parts d).reverse).reverse := by
  have habs : isAbsolute (d ++ slash :: r) = true := by
    cases d with
    | nil => rfl
    | cons b d => exact hd
  refine ⟨habs, ?_⟩
  rw [parts, habs, Text.splitOn_append, List.foldl_append, parts, hd, List.reverse_reverse]

theorem join_pair {d r : Text} (hd : d ≠ []) (hr : r ≠ []) : join [d, r] = clean (d ++ slash :: r) := by
  simp [join, hd, hr, Text.join]

/-- A path is absolute by itself, or it is taken below the current directory. -/
theorem absolute_cases {cwd : Text} (hcwd : isAbsolute cwd = true) (p : Text) :
    isAbsolute p = true ∧ absolute cwd p = clean p ∨
      isAbsolute p = false ∧ absolute cwd p = clean (cwd ++ slash :: p) := by
  have hne : cwd ≠ [] := by
    rintro rfl
    cases hcwd
  unfold absolute
  cases habs : isAbsolute p with
  | true => exact .inl ⟨rfl, rfl⟩
  | false =>
    refine .inr ⟨rfl, ?_⟩
    cases p with
    | nil =>
      -- An empty path is left out, and it would add no part.
      obtain ⟨hroot, hparts⟩ := parts_below hcwd []
      have hskip : (Text.splitOn slash []).foldl (pushPart true) (parts cwd).reverse = (parts cwd).reverse := rfl
      have hjoin : join [cwd, []] = clean cwd := by simp [join, hne, Text.join]
      rw [if_neg Bool.false_ne_true, hjoin, clean_of_absolute hcwd, clean_of_absolute hroot, hparts, hskip,
        List.reverse_reverse]
    | cons b p => exact join_pair hne (List.cons_ne_nil b p)

theorem absolute_eq_ofParts {cwd : Text} (hcwd : isAbsolute cwd = true) (p : Text) :
    ∃ ps, (∀ q ∈ ps, IsName q) ∧ absolute cwd p = ofParts true ps := by
  have hclean : ∀ q, isAbsolute q = true → (∀ r ∈ parts q, IsName r) ∧ clean q = ofParts true (parts q) := by
    intro q hq
    have hparts := parts_clean q
    rw [hq] at hparts
    exact ⟨cleanParts_true_iff.mp hparts, clean_of_absolute hq⟩
  rcases absolute_cases hcwd p with ⟨habs, heq⟩ | ⟨_, heq⟩
  · exact ⟨parts p, (hclean p habs).1, heq.trans (hclean p habs).2⟩
  · have hbelow := (parts_below hcwd p).1
    exact ⟨_, (hclean _ hbelow).1, heq.trans (hclean _ hbelow).2⟩

/-- Below a directory, the parts of a relative path do what its clean parts do. -/
theorem foldl_pushPart_cleaned (done : List Text) {qs : List Text} (h : ∀ q ∈ qs, slash ∉ q) :
    qs.foldl (pushPart true) done = (qs.foldl (pushPart false) []).reverse.foldl (pushPart true) done := by
  induction qs using List.reverseRecOn with
  | nil => rfl
  | append_singleton qs q ih =>
    have hqs : ∀ p ∈ qs, slash ∉ p := fun p hp => h p (List.mem_append_left [q] hp)
    have hclean : CleanParts false (qs.foldl (pushPart false) []).reverse :=
      foldl_pushPart_clean ⟨0, [], rfl, by simp, fun _ => rfl⟩ hqs
    simp only [List.foldl_append, List.foldl_cons, List.foldl_nil, ih hqs]
    generalize qs.foldl (pushPart false) [] = kept at hclean
    by_cases hskip : q = [] ∨ q = here
    · simp [pushPart, hskip]
    · by_cases hup : q = up
      · subst hup
        cases kept with
        | nil => rfl
        | cons last before =>
          by_cases hlast : last = up
          · have hpush : pushPart false (last :: before) up = up :: last :: before := by
              rw [hlast]
              rfl
            simp only [hpush, List.reverse_cons, List.foldl_append, List.foldl_cons, List.foldl_nil]
          · -- The last part is a name, which the way up takes away again.
            obtain ⟨hne, hhere, _⟩ := hclean.mem (p := last) (by simp)
            have hpush : ∀ rooted done, pushPart rooted (last :: done) up = done := by
              intro rooted done
              have hskip : ¬ (up.isEmpty || up == here) = true := by decide
              simp [pushPart, hskip, hlast]
            rw [hpush, List.reverse_cons, List.foldl_append, List.foldl_cons, List.foldl_nil]
            generalize before.reverse.foldl (pushPart true) done = front
            have hname : pushPart true front last = last :: front := by simp [pushPart, hne, hhere, hlast]
            rw [hname, hpush]
      · have hname : ∀ rooted done, pushPart rooted done q = q :: done := by
          intro rooted done
          obtain ⟨hne, hhere⟩ := not_or.mp hskip
          simp [pushPart, hne, hhere, hup]
        rw [hname false, List.reverse_cons, List.foldl_append, List.foldl_cons, List.foldl_nil]

theorem absolute_clean {cwd : Text} (hcwd : isAbsolute cwd = true) (p : Text) :
    absolute cwd (clean p) = absolute cwd p := by
  have habs := isAbsolute_clean p
  rcases absolute_cases hcwd p with ⟨hp, heq⟩ | ⟨hp, heq⟩
  · rw [absolute, habs, hp, if_pos rfl, clean_clean, heq]
  · obtain ⟨hroot, hparts⟩ := parts_below hcwd p
    obtain ⟨hroot', hparts'⟩ := parts_below hcwd (clean p)
    have hsplit : (Text.splitOn slash (clean p)).foldl (pushPart true) (parts cwd).reverse =
        (parts p).foldl (pushPart true) (parts cwd).reverse := by
      have hclean := parts_clean p
      rw [hp] at hclean
      rw [clean, hp]
      cases hps : parts p with
      | nil => rfl
      | cons q qs =>
        rw [hps] at hclean
        rw [splitOn_ofParts hclean (List.cons_ne_nil q qs), if_neg Bool.false_ne_true]
    have hraw : (Text.splitOn slash p).foldl (pushPart true) (parts cwd).reverse =
        (parts p).foldl (pushPart true) (parts cwd).reverse := by
      have hown : ((Text.splitOn slash p).foldl (pushPart false) []).reverse = parts p := by rw [parts, hp]
      rw [foldl_pushPart_cleaned _ fun q hq => Text.not_mem_of_mem_splitOn hq, hown]
    rcases absolute_cases hcwd (clean p) with ⟨hp', _⟩ | ⟨_, heq'⟩
    · rw [habs, hp] at hp'
      cases hp'
    · rw [heq', heq, clean_of_absolute hroot, clean_of_absolute hroot', hparts, hparts', hsplit, hraw]

/-! ## The way from one path to another -/

theorem dropCommon_spec (as bs : List Text) : ∃ common, as = common ++ (dropCommon as bs).1 ∧
    bs = common ++ (dropCommon as bs).2 ∧ ((dropCommon as bs).1 = [] ↔ as <+: bs) := by
  fun_induction dropCommon as bs with
  | case1 a as b bs heq ih =>
    obtain ⟨common, has, hbs, hfront⟩ := ih
    obtain rfl : a = b := by simpa using heq
    refine ⟨a :: common, ?_, ?_, ?_⟩
    · rw [List.cons_append, ← has]
    · rw [List.cons_append, ← hbs]
    · simpa [List.cons_prefix_cons] using hfront
  | case2 a as b bs hne =>
    refine ⟨[], rfl, rfl, ?_⟩
    have hab : a ≠ b := by simpa using hne
    simp [List.cons_prefix_cons, hab]
  | case3 as bs hnot =>
    refine ⟨[], rfl, rfl, ?_⟩
    cases as with
    | nil => simp
    | cons a as =>
      cases bs with
      | nil => simp
      | cons b bs => exact (hnot a as b bs rfl rfl).elim

section Names

variable {bs ts : List Text} (hb : ∀ p ∈ bs, IsName p) (ht : ∀ p ∈ ts, IsName p)
include hb ht

/-- There is a way between two paths from the root, and it goes up unless it starts at or above the other. -/
theorem relative?_ofParts :
    (∃ rest, ts = bs ++ rest ∧ relative? (ofParts true bs) (ofParts true ts) = some (ofParts false rest)) ∨
    ¬ bs <+: ts ∧ ∃ ps, CleanParts false (up :: ps) ∧
      relative? (ofParts true bs) (ofParts true ts) = some (ofParts false (up :: ps)) := by
  have hbs := cleanParts_true_iff.mpr hb
  have hts := cleanParts_true_iff.mpr ht
  obtain ⟨common, hbase, htarget, hfront⟩ := dropCommon_spec bs ts
  simp only [relative?, isAbsolute_ofParts hbs, isAbsolute_ofParts hts, parts_ofParts hbs, parts_ofParts hts,
    bne_self_eq_false, Bool.false_eq_true, if_false]
  generalize dropCommon bs ts = left at hbase htarget hfront
  rcases left with ⟨left, rest⟩
  dsimp only at hbase htarget hfront
  cases left with
  | nil =>
    left
    rw [List.append_nil] at hbase
    exact ⟨rest, by rw [hbase, ← htarget], rfl⟩
  | cons b left =>
    right
    have hname : IsName b := hb b (by simp [hbase])
    have hrest : ∀ p ∈ rest, IsName p := fun p hp => ht p (by simp [htarget, hp])
    refine ⟨by simpa using hfront, left.map (fun _ => up) ++ rest, ?_, ?_⟩
    · exact ⟨left.length + 1, rest, by simp [List.replicate_succ], hrest, by simp⟩
    · simp [hname.2.2.1]

end Names

/-- What stands before the first slash of a clean path is its first part. -/
theorem head?_of_ofParts_eq {ps : List Text} (h : CleanParts false ps) {part r : Text} (hpart : slash ∉ part)
    (heq : ofParts false ps = part ++ slash :: r) : ps.head? = some part := by
  cases ps with
  | nil =>
    have hslash : slash ∈ ofParts false [] := by simp [heq]
    exact absurd hslash (by decide)
  | cons p ps =>
    have hsplit := splitOn_ofParts h (List.cons_ne_nil p ps)
    rw [if_neg Bool.false_ne_true, heq, Text.splitOn_append, Text.splitOn_of_not_mem hpart] at hsplit
    rw [List.head?_cons, (List.cons.inj hsplit).1]

/-- A clean path leads up exactly if its first part does. -/
theorem leadsUp_ofParts {ps : List Text} (h : CleanParts false ps) :
    leadsUp (ofParts false ps) = true ↔ ps.head? = some up := by
  rw [leadsUp, Bool.or_eq_true, beq_iff_eq, Text.startsWith, List.isPrefixOf_iff_prefix]
  constructor
  · rintro (heq | ⟨r, heq⟩)
    · have hparts := parts_ofParts h
      rw [heq] at hparts
      rw [← hparts]
      decide
    · rw [List.append_assoc] at heq
      exact head?_of_ofParts_eq h (by decide) heq.symm
  · intro hhead
    cases ps with
    | nil => cases hhead
    | cons p ps =>
      obtain rfl : p = up := Option.some.inj hhead
      cases ps with
      | nil => exact .inl (by simp [ofParts, Text.join])
      | cons q qs => exact .inr ⟨Text.join [slash] (q :: qs), by rw [List.append_assoc, ← Text.join_cons_cons]; rfl⟩

/-! ## Seen from a directory -/

section Seen

variable {cwd : Text} (hcwd : isAbsolute cwd = true)
include hcwd

/-- A path at or below a directory is shown by the names that are left, any other from the root. -/
theorem relativeTo_cases (base p : Text) : ∃ bs ts, (∀ q ∈ bs, IsName q) ∧ (∀ q ∈ ts, IsName q) ∧
    absolute cwd base = ofParts true bs ∧ absolute cwd p = ofParts true ts ∧
    (relative? (ofParts true bs) (ofParts true ts)).isSome = true ∧
    ((∃ rest, ts = bs ++ rest ∧ relativeTo cwd base p = ofParts false rest) ∨
      ¬ bs <+: ts ∧ relativeTo cwd base p = ofParts true ts) := by
  obtain ⟨bs, hbs, hbase⟩ := absolute_eq_ofParts hcwd base
  obtain ⟨ts, hts, htarget⟩ := absolute_eq_ofParts hcwd p
  refine ⟨bs, ts, hbs, hts, hbase, htarget, ?_⟩
  rcases relative?_ofParts hbs hts with ⟨rest, heq, hway⟩ | ⟨hnot, ps, hps, hway⟩
  · have hrest : CleanParts false rest := cleanParts_names fun q hq => hts q (by simp [heq, hq])
    have hdown : leadsUp (ofParts false rest) = false := by
      rw [Bool.eq_false_iff, ne_eq, leadsUp_ofParts hrest]
      intro hhead
      have hname := hts up (by simp [heq, List.mem_of_mem_head? hhead])
      exact hname.2.2.1 rfl
    refine ⟨by rw [hway]; rfl, .inl ⟨rest, heq, ?_⟩⟩
    simp [relativeTo, hbase, htarget, hway, hdown, clean_ofParts hrest]
  · have hup : leadsUp (ofParts false (up :: ps)) = true := (leadsUp_ofParts hps).mpr rfl
    refine ⟨by rw [hway]; rfl, .inr ⟨hnot, ?_⟩⟩
    simp [relativeTo, hbase, htarget, hway, hup, clean_ofParts (cleanParts_true_iff.mpr hts)]

end Seen

/-- Names that are taken below a directory come after those of the directory. -/
theorem foldl_pushPart_ofParts {rest : List Text} (h : ∀ p ∈ rest, IsName p) (done : List Text) :
    (Text.splitOn slash (ofParts false rest)).foldl (pushPart true) done = rest.reverse ++ done := by
  cases rest with
  | nil => rfl
  | cons p ps =>
    rw [splitOn_ofParts (cleanParts_names h) (List.cons_ne_nil p ps), if_neg Bool.false_ne_true,
      foldl_pushPart_names h]

/-- The names of a path below a directory are added to those of the directory. -/
theorem join_ofParts {bs rest : List Text} (hb : ∀ p ∈ bs, IsName p) (hr : ∀ p ∈ rest, IsName p) :
    join [ofParts true bs, ofParts false rest] = ofParts true (bs ++ rest) := by
  have hbs := cleanParts_true_iff.mpr hb
  have hrest : CleanParts false rest := cleanParts_names hr
  have hnonempty : ofParts false rest ≠ [] := by
    intro hnil
    cases rest with
    | nil => cases hnil
    | cons p ps =>
      have hsplit := splitOn_ofParts hrest (List.cons_ne_nil p ps)
      rw [hnil] at hsplit
      exact (hr p List.mem_cons_self).1 (List.cons.inj hsplit).1.symm
  obtain ⟨habs, hparts⟩ := parts_below (isAbsolute_ofParts hbs) (ofParts false rest)
  rw [join_pair (by simp [ofParts]) hnonempty, clean, habs, hparts, parts_ofParts hbs, foldl_pushPart_ofParts hr,
    ← List.reverse_append, List.reverse_reverse]

theorem absolute_ofParts {cwd : Text} (hcwd : isAbsolute cwd = true) {rest : List Text}
    (hr : ∀ p ∈ rest, IsName p) : absolute cwd (ofParts false rest) = ofParts true (parts cwd ++ rest) := by
  obtain ⟨habs, hparts⟩ := parts_below hcwd (ofParts false rest)
  rcases absolute_cases hcwd (ofParts false rest) with ⟨hroot, _⟩ | ⟨_, heq⟩
  · rw [isAbsolute_ofParts (cleanParts_names hr)] at hroot
    cases hroot
  · rw [heq, clean_of_absolute habs, hparts, foldl_pushPart_ofParts hr, List.reverse_append,
      List.reverse_reverse, List.reverse_reverse]

/-- The path `p` is the directory `d` or lies below it; both are clean and from the root. -/
def Within (d p : Text) : Prop := p = d ∨ d = [slash] ∨ d ++ [slash] <+: p

theorem within_ofParts_iff {bs ts : List Text} (hb : ∀ p ∈ bs, IsName p) (ht : ∀ p ∈ ts, IsName p) :
    Within (ofParts true bs) (ofParts true ts) ↔ bs <+: ts := by
  have hbs := cleanParts_true_iff.mpr hb
  have hts := cleanParts_true_iff.mpr ht
  constructor
  · rintro (heq | heq | ⟨r, heq⟩)
    · have hparts := congrArg parts heq
      rw [parts_ofParts hts, parts_ofParts hbs] at hparts
      exact ⟨[], by rw [hparts, List.append_nil]⟩
    · have hparts := congrArg parts heq
      rw [parts_ofParts hbs] at hparts
      exact ⟨ts, by rw [hparts]; rfl⟩
    · cases bs with
      | nil => exact List.nil_prefix
      | cons b bs =>
        have hne : ts ≠ [] := by
          rintro rfl
          have hlength := congrArg List.length heq
          simp [ofParts, Text.join] at hlength
        have hsplit := congrArg (Text.splitOn slash) heq
        rw [List.append_assoc, List.singleton_append, Text.splitOn_append, splitOn_ofParts hbs (List.cons_ne_nil b bs),
          splitOn_ofParts hts hne, if_pos rfl, if_pos rfl] at hsplit
        exact ⟨_, (List.cons.inj hsplit).2⟩
  · rintro ⟨rest, rfl⟩
    by_cases hbs' : bs = []
    · subst hbs'
      exact .inr (.inl rfl)
    · by_cases hrest : rest = []
      · subst hrest
        exact .inl (by rw [List.append_nil])
      · refine .inr (.inr ⟨Text.join [slash] rest, ?_⟩)
        simp only [ofParts, if_true, Text.join_append [slash] hbs' hrest, List.cons_append, List.append_assoc]

section Shown

variable {cwd : Text} (hcwd : isAbsolute cwd = true)
include hcwd

/-- A path is shown relative exactly at or below the directory, and then the two joined are the path. -/
theorem relativeTo_spec (base p : Text) :
    (isAbsolute (relativeTo cwd base p) = false ↔ Within (absolute cwd base) (absolute cwd p)) ∧
    (isAbsolute (relativeTo cwd base p) = false →
      join [absolute cwd base, relativeTo cwd base p] = absolute cwd p) ∧
    (isAbsolute (relativeTo cwd base p) = true → relativeTo cwd base p = absolute cwd p) := by
  obtain ⟨bs, ts, hbs, hts, hbase, htarget, _, hshown⟩ := relativeTo_cases hcwd base p
  rw [hbase, htarget, within_ofParts_iff hbs hts]
  rcases hshown with ⟨rest, rfl, hshown⟩ | ⟨hnot, hshown⟩
  · have hrest : ∀ q ∈ rest, IsName q := fun q hq => hts q (List.mem_append_right bs hq)
    simp [hshown, isAbsolute_ofParts (cleanParts_names hrest), join_ofParts hbs hrest]
  · simp [hshown, isAbsolute_ofParts (cleanParts_true_iff.mpr hts), hnot]

theorem absolute_eq_of_relativeTo_eq {base p q : Text} (h : relativeTo cwd base p = relativeTo cwd base q) :
    absolute cwd p = absolute cwd q := by
  obtain ⟨_, hrelative, habsolute⟩ := relativeTo_spec hcwd base p
  obtain ⟨_, hrelative', habsolute'⟩ := relativeTo_spec hcwd base q
  rw [← h] at hrelative' habsolute'
  cases hroot : isAbsolute (relativeTo cwd base p) with
  | false => rw [← hrelative hroot, hrelative' hroot]
  | true => rw [← habsolute hroot, habsolute' hroot]

theorem relativeTo_clean (base p : Text) : relativeTo cwd base (clean p) = relativeTo cwd base p := by
  simp only [relativeTo, absolute_clean hcwd]

/-- What is shown does not start with a part for the directory itself. -/
theorem relativeTo_ne_here (base p r : Text) : relativeTo cwd base p ≠ here ++ slash :: r := by
  obtain ⟨bs, ts, _, hts, _, _, _, hshown⟩ := relativeTo_cases hcwd base p
  intro hdot
  rcases hshown with ⟨rest, rfl, hshown⟩ | ⟨_, hshown⟩
  · have hrest : ∀ q ∈ rest, IsName q := fun q hq => hts q (List.mem_append_right bs hq)
    have hhead := head?_of_ofParts_eq (cleanParts_names hrest) (by decide) (hshown.symm.trans hdot)
    exact (hrest here (List.mem_of_mem_head? hhead)).2.1 rfl
  · have hroot := isAbsolute_ofParts (cleanParts_true_iff.mpr hts)
    rw [← hshown, hdot] at hroot
    cases hroot

end Shown

end Path

end DeclCheck

import DeclCheck.Disk
import DeclCheck.Proofs.Source.Parts

/-!
# Tidy disks

On a tidy disk everything stands in a directory. Then what a clean path reads depends only on the file
at the place that its text leads to, and a change of one file leaves what other paths read alone.
-/
namespace DeclCheck

/-- The content of a file. -/
def DiskNode.content? : DiskNode → Option Text
  | directory => none
  | file content => some content

namespace Disk

/-- Whatever is there stands in a directory, and so does the working directory, which is one. -/
structure Tidy (d : Disk) : Prop where
  above : ∀ place part, d.node? (place ++ [part]) ≠ none → d.node? place = some .directory
  cwd : d.node? d.cwd = some .directory

/-- The content of the file at a place. -/
def fileAt? (d : Disk) (place : List Text) : Option Text := (d.node? place).bind DiskNode.content?

variable {d e : Disk} {place q : List Text}

@[simp] theorem node?_nil (d : Disk) : d.node? [] = some .directory := rfl

theorem fileAt?_eq_some {content : Text} :
    d.fileAt? place = some content ↔ d.node? place = some (.file content) := by
  unfold fileAt?
  cases d.node? place with
  | none => simp
  | some n => cases n <;> simp [DiskNode.content?]

theorem Tidy.directory (h : d.Tidy) {rest : List Text} (hrest : rest ≠ [])
    (hnode : d.node? (place ++ rest) ≠ none) : d.node? place = some .directory := by
  induction rest using List.reverseRecOn with
  | nil => exact absurd rfl hrest
  | append_singleton rest part ih =>
    rw [← List.append_assoc] at hnode
    have habove := h.above (place ++ rest) part hnode
    cases rest with
    | nil => simpa using habove
    | cons r rs => exact ih (List.cons_ne_nil r rs) (by simp [habove])

theorem Tidy.dropLast (h : d.Tidy) (hdir : d.node? place = some .directory) :
    d.node? place.dropLast = some .directory := by
  rcases List.eq_nil_or_concat place with rfl | ⟨front, part, rfl⟩
  · rfl
  · rw [List.concat_eq_append] at hdir ⊢
    rw [List.dropLast_concat]
    exact h.above front part (by simp [hdir])

/-! ## One change -/

/-- The disks differ at most at one place, where the second one has `n`. -/
structure Sets (d e : Disk) (place : List Text) (n : Option DiskNode) : Prop where
  cwd : e.cwd = d.cwd
  node : ∀ q, e.node? q = if q = place then n else d.node? q

theorem put_sets (d : Disk) (hplace : place ≠ []) (n : DiskNode) :
    Sets d (d.put place n) place (some n) := by
  refine ⟨rfl, fun q => ?_⟩
  by_cases hq : q = place
  · subst hq
    have hnone : (d.nodes.filter (·.1 != q)).find? (·.1 == q) = none := by
      simp [List.find?_eq_none]
    simp [node?, put, hplace, hnone]
  · have hsame : (d.nodes.filter (·.1 != place)).find? (·.1 == q) = d.nodes.find? (·.1 == q) := by
      rw [List.find?_filter]
      congr 1
      funext a
      by_cases ha : a.1 = q
      · simp [ha, hq]
      · simp [ha]
    have hlast : ([(place, n)] : List (List Text × DiskNode)).find? (·.1 == q) = none := by
      simp [Ne.symm hq]
    rw [if_neg hq]
    simp only [node?, put, List.find?_append, hsame, hlast, Option.or_none]

/-- A file or a new directory that is put into a directory, or a file that is taken away, leaves a
tidy disk. -/
theorem Sets.tidy (h : d.Tidy) {n : Option DiskNode} (hs : Sets d e place n)
    (hparent : n ≠ none → ∃ q part, place = q ++ [part] ∧ d.node? q = some .directory)
    (hdir : d.node? place = some .directory → n = some .directory) : e.Tidy := by
  have hkept : ∀ p, d.node? p = some .directory → e.node? p = some .directory := by
    intro p hp
    rw [hs.node]
    split
    · next hpp => exact hdir (hpp ▸ hp)
    · exact hp
  refine ⟨fun p part hnode => ?_, ?_⟩
  · rw [hs.node] at hnode
    split at hnode
    · next heq =>
      obtain ⟨q, x, hplace, hq⟩ := hparent hnode
      obtain ⟨rfl, _⟩ := List.append_inj' (heq.trans hplace) rfl
      exact hkept p hq
    · exact hkept p (h.above p part hnode)
  · rw [hs.cwd]
    exact hkept _ h.cwd

/-! ## Walking along a path -/

/-- Where a part leads, whatever is there. -/
def step (place : List Text) (part : Text) : List Text :=
  if part.isEmpty || part == Path.here then place
  else if part == Path.up then place.dropLast
  else place ++ [part]

theorem step_name {part : Text} (h : Path.IsName part) : step place part = place ++ [part] := by
  obtain ⟨hempty, hhere, hup, _⟩ := h
  simp [step, hempty, hhere, hup]

theorem enter_ok {part : Text} (h : d.enter place part = .ok q) :
    d.node? place = some .directory ∧ q = step place part ∧
      (Path.IsName part → part.length ≤ maxName) := by
  unfold enter at h
  split at h
  · cases h
  · cases h
  · next hdir =>
    refine ⟨hdir, ?_⟩
    unfold step
    split at h
    · next hskip =>
      cases h
      exact ⟨by rw [if_pos hskip], fun hn => absurd hskip (by simp [hn.1, hn.2.1])⟩
    · next hskip =>
      rw [if_neg hskip]
      split at h
      · next hup =>
        cases h
        exact ⟨by rw [if_pos hup], fun hn => absurd hup (by simpa using hn.2.2.1)⟩
      · next hup =>
        rw [if_neg hup]
        split at h
        · cases h
        · next hlen =>
          cases h
          exact ⟨rfl, fun _ => Nat.le_of_not_lt hlen⟩

theorem enter_name {part : Text} (hdir : d.node? place = some .directory) (h : Path.IsName part)
    (hlen : part.length ≤ maxName) : d.enter place part = .ok (place ++ [part]) := by
  obtain ⟨hempty, hhere, hup, _⟩ := h
  simp [enter, hdir, hempty, hhere, hup, Nat.not_lt.mpr hlen]

theorem foldlM_enter_ok {parts : List Text} (h : parts.foldlM d.enter place = .ok q) :
    q = parts.foldl step place ∧ ∀ p ∈ parts, Path.IsName p → p.length ≤ maxName := by
  induction parts generalizing place with
  | nil =>
    cases h
    exact ⟨rfl, by simp⟩
  | cons p ps ih =>
    rw [List.foldlM_cons] at h
    cases henter : d.enter place p with
    | error fault =>
      rw [henter] at h
      cases h
    | ok r =>
      rw [henter] at h
      obtain ⟨_, rfl, hlen⟩ := enter_ok henter
      obtain ⟨hq, hrest⟩ := ih h
      exact ⟨hq, List.forall_mem_cons.mpr ⟨hlen, hrest⟩⟩

/-- The last step of a walk. -/
theorem foldlM_enter_append {parts : List Text} {last : Text}
    (h : (parts ++ [last]).foldlM d.enter place = .ok q) :
    ∃ r, d.node? r = some .directory ∧ q = step r last := by
  rw [List.foldlM_append] at h
  cases hfront : parts.foldlM d.enter place with
  | error fault =>
    rw [hfront] at h
    cases h
  | ok r =>
    rw [hfront] at h
    have hlast : d.enter r last = .ok q := by
      rw [← h]
      show d.enter r last = d.enter r last >>= pure
      rw [bind_pure]
    obtain ⟨hdir, hq, _⟩ := enter_ok hlast
    exact ⟨r, hdir, hq⟩

/-- What is not there and can be walked to would stand in a directory. -/
theorem Tidy.locate_none (h : d.Tidy) {path : Text} (hlocate : d.locate path = .ok place)
    (hnone : d.node? place = none) :
    ∃ q part, place = q ++ [part] ∧ d.node? q = some .directory := by
  unfold locate at hlocate
  split at hlocate
  · cases hlocate
  split at hlocate
  · cases hlocate
  split at hlocate
  · cases hlocate
  obtain ⟨front, last, hsplit⟩ : ∃ front last, Text.splitOn Path.slash path = front ++ [last] := by
    obtain ⟨front, last, hsplit⟩ := (List.eq_nil_or_concat (Text.splitOn Path.slash path)).resolve_left
      (Text.splitOn_ne_nil Path.slash path)
    exact ⟨front, last, hsplit.trans (List.concat_eq_append ..)⟩
  rw [hsplit] at hlocate
  obtain ⟨r, hdir, rfl⟩ := foldlM_enter_append hlocate
  unfold step at hnone ⊢
  split at hnone
  · rw [hdir] at hnone
    cases hnone
  · next hskip =>
    split at hnone
    · rw [h.dropLast hdir] at hnone
      cases hnone
    · next hup =>
      rw [if_neg hskip, if_neg hup]
      exact ⟨r, last, rfl, hdir⟩

/-! ## Clean paths -/

/-- The place that the parts of a path lead to, whatever is there. -/
def placeOf (cwd : List Text) (rooted : Bool) (parts : List Text) : List Text :=
  parts.foldl step (if rooted then [] else cwd)

theorem placeOf_append_name (cwd : List Text) (rooted : Bool) (pre : List Text) {name : Text}
    (h : Path.IsName name) : ∃ q, placeOf cwd rooted (pre ++ [name]) = q ++ [name] := by
  rw [placeOf, List.foldl_append]
  exact ⟨_, step_name h⟩

section Clean

variable {rooted : Bool} {ps : List Text} (hclean : Path.CleanParts rooted ps) (hne : ps ≠ [])
include hclean hne

theorem locate_ofParts (d : Disk) : d.locate (Path.ofParts rooted ps) =
    if (Path.ofParts rooted ps).contains 0 then .error .invalidArgument
    else if maxPath ≤ (Path.ofParts rooted ps).length then .error .nameTooLong
    else ps.foldlM d.enter (if rooted then [] else d.cwd) := by
  have hempty : (Path.ofParts rooted ps).isEmpty = false := by
    rw [List.isEmpty_eq_false_iff]
    intro h
    have hsplit := Path.splitOn_ofParts hclean hne
    rw [h] at hsplit
    cases rooted with
    | true => exact hne (List.cons.inj hsplit).2.symm
    | false =>
      have hps : [[]] = ps := hsplit
      exact (hclean.mem (hps ▸ List.mem_singleton_self [])).1 rfl
  rw [locate, Path.splitOn_ofParts hclean hne, Path.isAbsolute_ofParts hclean, hempty]
  cases rooted <;> rfl

theorem placeOf_of_locate (h : d.locate (Path.ofParts rooted ps) = .ok place) :
    place = placeOf d.cwd rooted ps := by
  rw [locate_ofParts hclean hne] at h
  split at h
  · cases h
  split at h
  · cases h
  exact (foldlM_enter_ok h).1

end Clean

theorem Tidy.foldlM_up (h : d.Tidy) (hdir : d.node? place = some .directory) (n : Nat) :
    (List.replicate n Path.up).foldlM d.enter place =
        .ok ((List.replicate n Path.up).foldl step place) ∧
      d.node? ((List.replicate n Path.up).foldl step place) = some .directory := by
  induction n generalizing place with
  | zero => exact ⟨rfl, hdir⟩
  | succ n ih =>
    have henter : d.enter place Path.up = .ok place.dropLast := by
      rw [enter, hdir]
      rfl
    have hstep : step place Path.up = place.dropLast := rfl
    obtain ⟨hfold, hup⟩ := ih (h.dropLast hdir)
    rw [List.replicate_succ, List.foldlM_cons, henter, List.foldl_cons, hstep]
    exact ⟨hfold, hup⟩

theorem foldl_step_names {names : List Text} (h : ∀ p ∈ names, Path.IsName p) :
    names.foldl step place = place ++ names := by
  induction names generalizing place with
  | nil => simp
  | cons p ps ih =>
    obtain ⟨hp, hps⟩ := List.forall_mem_cons.mp h
    rw [List.foldl_cons, step_name hp, ih hps]
    simp

/-- Names lead to what is there. -/
theorem Tidy.foldlM_names (h : d.Tidy) {names : List Text}
    (hnames : ∀ p ∈ names, Path.IsName p ∧ p.length ≤ maxName)
    (hnode : d.node? (place ++ names) ≠ none) :
    names.foldlM d.enter place = .ok (place ++ names) := by
  induction names generalizing place with
  | nil => simp [pure, Except.pure]
  | cons p ps ih =>
    obtain ⟨⟨hp, hlen⟩, hps⟩ := List.forall_mem_cons.mp hnames
    have hdir := h.directory (List.cons_ne_nil p ps) hnode
    have hsplit : place ++ p :: ps = place ++ [p] ++ ps := by simp
    rw [hsplit] at hnode ⊢
    rw [List.foldlM_cons, enter_name hdir hp hlen]
    exact ih hps hnode

section Clean

variable {rooted : Bool} {ps : List Text} (hclean : Path.CleanParts rooted ps) (hne : ps ≠ [])
include hclean hne

/-- A clean path that leads to a place on one disk leads to it wherever something is there. -/
theorem Tidy.locate_congr (he : e.Tidy) (hcwd : e.cwd = d.cwd)
    (h : d.locate (Path.ofParts rooted ps) = .ok place) (hnode : e.node? place ≠ none) :
    e.locate (Path.ofParts rooted ps) = .ok place := by
  have hplace := placeOf_of_locate hclean hne h
  rw [locate_ofParts hclean hne] at h ⊢
  split at h
  · cases h
  next hzero =>
  split at h
  · cases h
  next hlong =>
  rw [if_neg hzero, if_neg hlong, hcwd]
  have hlengths := (foldlM_enter_ok h).2
  obtain ⟨n, names, rfl, hnames, hroot⟩ := hclean
  have hstart : e.node? (if rooted then [] else d.cwd) = some .directory := by
    cases rooted with
    | true => rfl
    | false => exact hcwd ▸ he.cwd
  obtain ⟨hups, _⟩ := he.foldlM_up hstart n
  have hend : place =
      (List.replicate n Path.up).foldl step (if rooted then [] else d.cwd) ++ names := by
    rw [hplace, placeOf, List.foldl_append, foldl_step_names hnames]
  rw [List.foldlM_append, hups, hend]
  refine he.foldlM_names (fun p hp => ⟨hnames p hp, ?_⟩) (hend ▸ hnode)
  exact hlengths p (List.mem_append_right _ hp) (hnames p hp)

end Clean

theorem readBytes_eq_ok {path content : Text} : d.readBytes path = .ok content ↔
    ∃ place, d.locate path = .ok place ∧ d.fileAt? place = some content := by
  unfold readBytes lookup
  cases hlocate : d.locate path with
  | error fault => simp [bind, Except.bind]
  | ok place =>
    simp only [bind, Except.bind, pure, Except.pure, Except.ok.injEq, exists_eq_left',
      fileAt?_eq_some]
    cases d.node? place with
    | none => simp
    | some n =>
      cases n with
      | directory => simp
      | file c => simp

/-- What a clean path reads depends on the file at its place only. -/
theorem Tidy.readBytes_congr (hd : d.Tidy) (he : e.Tidy) (hcwd : e.cwd = d.cwd) {rooted : Bool}
    {ps : List Text} (hclean : Path.CleanParts rooted ps) (hne : ps ≠ [])
    (hfile : e.fileAt? (placeOf d.cwd rooted ps) = d.fileAt? (placeOf d.cwd rooted ps)) :
    (e.readBytes (Path.ofParts rooted ps)).toOption =
      (d.readBytes (Path.ofParts rooted ps)).toOption := by
  have hone : ∀ {x y : Disk}, y.Tidy → y.cwd = x.cwd →
      y.fileAt? (placeOf x.cwd rooted ps) = x.fileAt? (placeOf x.cwd rooted ps) → ∀ content,
        x.readBytes (Path.ofParts rooted ps) = .ok content →
          y.readBytes (Path.ofParts rooted ps) = .ok content := by
    intro x y hy hcwd hsame content hread
    obtain ⟨place, hlocate, hcontent⟩ := readBytes_eq_ok.mp hread
    rw [← placeOf_of_locate hclean hne hlocate, hcontent] at hsame
    refine readBytes_eq_ok.mpr ⟨place, hy.locate_congr hclean hne hcwd hlocate ?_, hsame⟩
    rw [fileAt?_eq_some.mp hsame]
    simp
  have hiff : ∀ content, e.readBytes (Path.ofParts rooted ps) = .ok content ↔
      d.readBytes (Path.ofParts rooted ps) = .ok content := fun content =>
    ⟨hone hd hcwd.symm (by rw [hcwd]; exact hfile.symm) content, hone he hcwd hfile content⟩
  cases hr : d.readBytes (Path.ofParts rooted ps) with
  | ok content => rw [(hiff content).mpr hr]
  | error fault =>
    cases hs : e.readBytes (Path.ofParts rooted ps) with
    | ok content =>
      rw [(hiff content).mp hs] at hr
      cases hr
    | error other => rfl

end Disk

end DeclCheck

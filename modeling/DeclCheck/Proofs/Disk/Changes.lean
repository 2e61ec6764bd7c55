import DeclCheck.Proofs.Disk.Tidy

/-!
# Changes of a disk

What the operations on files do to the files of a tidy disk: making directories changes none of them,
and writing, moving and removing a file change that file only. The disk stays tidy.
-/
namespace DeclCheck.Disk

variable {d e : Disk} {place : List Text}

theorem Tidy.ne_nil_of_file (hnode : d.node? place ≠ some .directory) : place ≠ [] := by
  rintro rfl
  exact hnode rfl

/-- What can be walked to and is no directory stands in one. -/
theorem Tidy.parent (h : d.Tidy) {path : Text} (hlocate : d.locate path = .ok place)
    (hnode : d.node? place ≠ some .directory) :
    ∃ q part, place = q ++ [part] ∧ d.node? q = some .directory := by
  cases hplace : d.node? place with
  | none => exact h.locate_none hlocate hplace
  | some n =>
    obtain ⟨front, part, rfl⟩ :=
      (List.eq_nil_or_concat place).resolve_left (Tidy.ne_nil_of_file hnode)
    rw [List.concat_eq_append] at hplace ⊢
    exact ⟨front, part, rfl, h.above front part (by simp [hplace])⟩

theorem Sets.fileAt? {n : Option DiskNode} (h : Sets d e place n) (q : List Text) :
    e.fileAt? q = if q = place then n.bind DiskNode.content? else d.fileAt? q := by
  rw [Disk.fileAt?, h.node]
  split <;> rfl

/-! ## Directories -/

/-- The second disk has the files of the first one. -/
structure SameFiles (d e : Disk) : Prop where
  tidy : e.Tidy
  cwd : e.cwd = d.cwd
  files : ∀ q, e.fileAt? q = d.fileAt? q

theorem SameFiles.refl (h : d.Tidy) : SameFiles d d := ⟨h, rfl, fun _ => rfl⟩

theorem SameFiles.trans {x : Disk} (h : SameFiles d e) (k : SameFiles e x) : SameFiles d x :=
  ⟨k.tidy, k.cwd.trans h.cwd, fun q => (k.files q).trans (h.files q)⟩

theorem Tidy.makeDir (h : d.Tidy) {path : Text} (hmake : d.makeDir path = .ok e) :
    SameFiles d e := by
  simp only [Disk.makeDir] at hmake
  generalize (if (path.reverse.dropWhile (· == Path.slash)).reverse.isEmpty then path
    else (path.reverse.dropWhile (· == Path.slash)).reverse) = bare at hmake
  cases hlocate : d.locate bare with
  | error fault =>
    rw [hlocate] at hmake
    cases hmake
  | ok place =>
    rw [hlocate] at hmake
    simp only [bind, Except.bind] at hmake
    cases hnode : d.node? place with
    | some n =>
      rw [hnode] at hmake
      cases hmake
    | none =>
      rw [hnode] at hmake
      cases hmake
      have hne : d.node? place ≠ some .directory := by simp [hnode]
      have hsets := put_sets d (Tidy.ne_nil_of_file hne) .directory
      refine ⟨hsets.tidy h (fun _ => h.parent hlocate hne) fun hdir => absurd hdir hne, rfl,
        fun q => ?_⟩
      rw [hsets.fileAt?]
      split
      · next hq =>
        rw [hq, Disk.fileAt?, hnode]
        rfl
      · rfl

/-- The computation on the disk `d` ends with a value and a disk of which `post` holds. -/
def Leaves {α : Type} (x : StateM Disk α) (d : Disk) (post : α → Disk → Prop) : Prop :=
  post (x.run d).1 (x.run d).2

section Leaves

variable {α β : Type} {x : StateM Disk α}

theorem Leaves.pure {a : α} {post : α → Disk → Prop} (h : post a d) : Leaves (pure a) d post := h

theorem Leaves.bind {f : α → StateM Disk β} {post : β → Disk → Prop}
    (h : Leaves x d fun a e => Leaves (f a) e post) : Leaves (x >>= f) d post := h

theorem Leaves.mono {post post' : α → Disk → Prop} (h : Leaves x d post)
    (himp : ∀ a e, post a e → post' a e) : Leaves x d post' := himp _ _ h

theorem leaves_change {f : Disk → Except FileFault Disk} {post : Except FileFault Unit → Disk → Prop}
    (hok : ∀ e, f d = .ok e → post (.ok ()) e)
    (herror : ∀ fault, f d = .error fault → post (.error fault) d) :
    Leaves (change f) d post := by
  show post (change f d).1 (change f d).2
  unfold change
  cases h : f d with
  | ok e => exact hok e h
  | error fault => exact herror fault h

theorem leaves_kindOf {path : Text} {post : Except FileFault FileKind → Disk → Prop}
    (h : ∀ kind, post kind d) : Leaves (MonadFiles.kindOf path) d post := h _

theorem leaves_write {path bytes : Text} {post : Except FileError Unit → Disk → Prop}
    (hok : ∀ e, d.writeBytes path bytes = .ok e → post (.ok ()) e)
    (herror : ∀ error, post (.error error) d) : Leaves (Files.write path bytes) d post :=
  .bind (leaves_change (fun e he => .pure (hok e he)) fun _ _ => .pure (herror _))

theorem leaves_isDirectory {path : Text} {post : Bool → Disk → Prop} (h : ∀ b, post b d) :
    Leaves (Files.isDirectory path) d post := by
  refine .bind (leaves_kindOf fun kind => ?_)
  split <;> exact .pure (h _)

theorem leaves_move {old new : Text} {post : Except FileError Unit → Disk → Prop}
    (hok : ∀ e, d.move old new = .ok e → post (.ok ()) e)
    (herror : ∀ error, post (.error error) d) : Leaves (Files.move old new) d post := by
  refine .bind (leaves_isDirectory fun b => ?_)
  cases b with
  | true => exact .pure (herror _)
  | false => exact .bind (leaves_change (fun e he => .pure (hok e he)) fun _ _ => .pure (herror _))

end Leaves

theorem Tidy.makeOne (h : d.Tidy) (path : Text) :
    Leaves (Files.makeOne path) d fun _ e => SameFiles d e := by
  refine .bind (leaves_change (fun e he => .pure (h.makeDir he)) fun fault _ => ?_)
  refine .bind (leaves_isDirectory fun b => ?_)
  cases b <;> exact .pure (.refl h)

theorem Tidy.makeDirsWithin (h : d.Tidy) (depth : Nat) (path : Text) :
    Leaves (Files.makeDirsWithin depth path) d fun _ e => SameFiles d e := by
  induction depth generalizing path with
  | zero => exact h.makeOne path
  | succ depth ih =>
    refine .bind (leaves_kindOf fun kind => ?_)
    split
    · exact .pure (.refl h)
    · exact .pure (.refl h)
    · split
      · exact h.makeOne path
      · next parent _ =>
        refine .bind ((ih parent).mono fun made e he => ?_)
        split
        · exact .pure he
        · exact (he.tidy.makeOne path).mono fun _ x hx => he.trans hx

/-! ## One file -/

theorem Tidy.writeBytes (h : d.Tidy) {path bytes : Text} (hwrite : d.writeBytes path bytes = .ok e) :
    ∃ place, d.locate path = .ok place ∧ e.Tidy ∧ Sets d e place (some (.file bytes)) := by
  simp only [Disk.writeBytes] at hwrite
  cases hlocate : d.locate path with
  | error fault =>
    rw [hlocate] at hwrite
    cases hwrite
  | ok place =>
    rw [hlocate] at hwrite
    simp only [bind, Except.bind] at hwrite
    split at hwrite
    · cases hwrite
    · next hnode =>
      cases hwrite
      have hsets := put_sets d (Tidy.ne_nil_of_file hnode) (.file bytes)
      exact ⟨place, rfl, hsets.tidy h (fun _ => h.parent hlocate hnode) fun hdir => absurd hdir hnode,
        hsets⟩

/-- Below what is no directory there is nothing. -/
theorem Tidy.clear_sets (h : d.Tidy) (hnode : d.node? place ≠ some .directory) :
    Sets d (d.clear place) place none := by
  refine ⟨rfl, fun q => ?_⟩
  have hne := Tidy.ne_nil_of_file hnode
  by_cases hprefix : place.isPrefixOf q = true
  · obtain ⟨rest, rfl⟩ := List.isPrefixOf_iff_prefix.mp hprefix
    have hnone : (d.clear place).node? (place ++ rest) = none := by
      have hfind : (d.nodes.filter fun n => !place.isPrefixOf n.1).find? (·.1 == place ++ rest) =
          none := by
        rw [List.find?_eq_none]
        intro n hn heq
        rw [beq_iff_eq] at heq
        rw [List.mem_filter, heq, hprefix] at hn
        exact absurd hn.2 (by decide)
      simp [node?, clear, hne, hfind]
    rw [hnone]
    split
    · rfl
    · next hq =>
      have hrest : rest ≠ [] := fun hr => hq (by rw [hr, List.append_nil])
      by_contra hsome
      exact hnode (h.directory hrest (Ne.symm hsome))
  · have hq : q ≠ place := by
      rintro rfl
      exact hprefix (List.isPrefixOf_iff_prefix.mpr (List.prefix_refl q))
    have hsame : (d.nodes.filter fun n => !place.isPrefixOf n.1).find? (·.1 == q) =
        d.nodes.find? (·.1 == q) := by
      rw [List.find?_filter]
      congr 1
      funext a
      by_cases ha : a.1 = q
      · simp [ha, hprefix]
      · simp [ha]
    rw [if_neg hq]
    simp only [node?, clear, hsame]

theorem Tidy.clear (h : d.Tidy) (hnode : d.node? place ≠ some .directory) : (d.clear place).Tidy :=
  (h.clear_sets hnode).tidy h (fun hn => absurd rfl hn) fun hdir => absurd hdir hnode

/-- What is moved along with a file is the file only. -/
theorem Tidy.moved (h : d.Tidy) {source : List Text} (hnode : d.node? source ≠ some .directory)
    (target : List Text) :
    (d.nodes.filterMap fun (p, n) =>
      if source.isPrefixOf p then some (target ++ p.drop source.length, n) else none) =
        (d.nodes.filter (·.1 == source)).map fun x => (target, x.2) := by
  rw [← List.filterMap_eq_map, List.filterMap_filter]
  refine List.filterMap_congr fun x hx => ?_
  obtain ⟨p, n⟩ := x
  by_cases hp : p = source
  · subst hp
    simp [List.isPrefixOf_iff_prefix]
  · have hprefix : ¬ source.isPrefixOf p = true := by
      intro hprefix
      obtain ⟨rest, rfl⟩ := List.isPrefixOf_iff_prefix.mp hprefix
      have hrest : rest ≠ [] := fun hr => hp (by rw [hr, List.append_nil])
      refine hnode (h.directory hrest ?_)
      simp only [node?]
      split
      · simp
      · rw [ne_eq, Option.map_eq_none_iff, List.find?_eq_none]
        exact fun hall => hall _ hx (by simp)
    simp [hp, hprefix]

/-- The disk on which a file was moved from `source` to `target`. -/
def relocate (d : Disk) (source target : List Text) : Disk :=
  { (d.clear source).clear target with
    nodes := ((d.clear source).clear target).nodes ++ d.nodes.filterMap fun (p, n) =>
      if source.isPrefixOf p then some (target ++ p.drop source.length, n) else none }

section Relocate

variable {source target : List Text} {content : Text} (h : d.Tidy)
  (hfile : d.node? source = some (.file content)) (htarget : d.node? target ≠ some .directory)
include h hfile htarget

theorem Tidy.relocate_node (q : List Text) :
    (d.relocate source target).node? q = if q = target then some (.file content)
      else if q = source then none else d.node? q := by
  have hsource : d.node? source ≠ some .directory := by simp [hfile]
  have hcleared := h.clear_sets hsource
  have htarget' : (d.clear source).node? target ≠ some .directory := by
    rw [hcleared.node]
    split
    · simp
    · exact htarget
  have hboth := (h.clear hsource).clear_sets htarget'
  have hempty : target ≠ [] := Tidy.ne_nil_of_file htarget
  have hfound : d.nodes.find? (·.1 == source) = some (source, .file content) := by
    have hne : source ≠ [] := Tidy.ne_nil_of_file hsource
    simp only [node?, List.isEmpty_iff, hne, if_false, Option.map_eq_some_iff] at hfile
    obtain ⟨⟨p, n⟩, hx, rfl⟩ := hfile
    have hp : p = source := by simpa using List.find?_some hx
    rw [hx, hp]
  unfold relocate
  rw [h.moved hsource]
  by_cases hq : q = target
  · subst hq
    have hnone : ((d.clear source).clear q).nodes.find? (·.1 == q) = none := by
      have hnode := hboth.node q
      rw [if_pos rfl] at hnode
      simpa [node?, hempty] using hnode
    have hmoved : ((d.nodes.filter (·.1 == source)).map fun x => (q, x.2)).find? (·.1 == q) =
        some (q, .file content) := by
      rw [List.find?_map, List.find?_filter]
      have htest : (fun a : List Text × DiskNode =>
          decide ((a.1 == source) = true ∧ ((·.1 == q) ∘ fun x : List Text × DiskNode => (q, x.2)) a = true)) =
            fun a => a.1 == source := by
        funext a
        by_cases ha : a.1 = source <;> simp [ha]
      rw [htest, hfound]
      rfl
    simp only [node?, List.isEmpty_iff, hempty, if_false, List.find?_append, hnone, hmoved,
      Option.none_or, Option.map_some, if_true]
  · have hmoved : ((d.nodes.filter (·.1 == source)).map fun x => (target, x.2)).find? (·.1 == q) =
        none := by
      simp [List.find?_eq_none, Ne.symm hq]
    have hnode := hboth.node q
    rw [if_neg hq, hcleared.node] at hnode
    rw [if_neg hq, ← hnode]
    simp only [node?, List.find?_append, hmoved, Option.or_none]

theorem Tidy.relocate_tidy
    (hparent : ∃ q part, target = q ++ [part] ∧ d.node? q = some .directory) :
    (d.relocate source target).Tidy := by
  have hsource : d.node? source ≠ some .directory := by simp [hfile]
  have hcleared := h.clear_sets hsource
  have hsets : Sets (d.clear source) (d.relocate source target) target (some (.file content)) := by
    refine ⟨rfl, fun q => ?_⟩
    rw [h.relocate_node hfile htarget, hcleared.node]
  refine hsets.tidy (h.clear hsource) (fun _ => ?_) fun hdir => ?_
  · obtain ⟨q, part, ht, hq⟩ := hparent
    refine ⟨q, part, ht, ?_⟩
    rw [hcleared.node, if_neg]
    · exact hq
    · rintro rfl
      exact hsource hq
  · rw [hcleared.node] at hdir
    split at hdir
    · cases hdir
    · exact absurd hdir htarget

end Relocate

theorem Tidy.move (h : d.Tidy) {old new content : Text} {source : List Text}
    (hold : d.locate old = .ok source) (hfile : d.node? source = some (.file content))
    (hmove : d.move old new = .ok e) :
    ∃ target, d.locate new = .ok target ∧ e.Tidy ∧ e.cwd = d.cwd ∧
      ∀ q, e.fileAt? q =
        if q = target then some content else if q = source then none else d.fileAt? q := by
  cases hnew : d.locate new with
  | error fault =>
    simp [Disk.move, lookup, hold, hfile, hnew, bind, Except.bind, pure, Except.pure] at hmove
  | ok target =>
    refine ⟨target, rfl, ?_⟩
    simp only [Disk.move, lookup, hold, hfile, hnew, bind, Except.bind, pure, Except.pure] at hmove
    split at hmove
    · next hsame =>
      rw [beq_iff_eq] at hsame
      cases hmove
      subst hsame
      refine ⟨h, rfl, fun q => ?_⟩
      split
      · next hq =>
        subst hq
        exact fileAt?_eq_some.mpr hfile
      · rfl
    · split at hmove
      · cases hmove
      · split at hmove
        · cases hmove
        · cases hmove
        · next hdir =>
          have htarget : d.node? target ≠ some .directory := hdir content rfl
          have he : e = d.relocate source target := (Except.ok.inj hmove).symm
          rw [he]
          refine ⟨h.relocate_tidy hfile htarget (h.parent hnew htarget), rfl, fun q => ?_⟩
          rw [fileAt?, h.relocate_node hfile htarget]
          split
          · rfl
          · split <;> rfl

end DeclCheck.Disk

import DeclCheck.Proofs.Manifest.Adding

/-!
# Entries that are skipped

An entry is looked at as a whole before anything is made of it, so nothing is left of one that is skipped but
the error. What is kept is listed in the order of the entries, and together with the errors for what is skipped
there is one thing for each entry.
-/
namespace DeclCheck

namespace Manifest

open Outline

section Skipping

variable [Text.NormalForm]

/-! ## Entries -/

/-- The steps report warnings and change nothing else. -/
structure Warns (s t : LoadState) : Prop where
  tree : t.tree = s.tree
  reported : ∃ warnings, t.diagnostics.toList = s.diagnostics.toList ++ warnings ∧ ∀ w ∈ warnings, w.isError = false

/-- The steps report one error, behind any warnings, and change nothing else. -/
structure Skips (s t : LoadState) (d : Diagnostic) : Prop where
  tree : t.tree = s.tree
  error : d.isError = true
  reported : ∃ warnings, t.diagnostics.toList = s.diagnostics.toList ++ warnings ++ [d] ∧
    ∀ w ∈ warnings, w.isError = false

section Skipped

variable {file : SourceFile} {s t : LoadState}

omit [Text.NormalForm] in
theorem Warns.refl (s : LoadState) : Warns s s := ⟨rfl, [], (List.append_nil _).symm, by simp⟩

omit [Text.NormalForm] in
theorem Warns.of_push {w : Diagnostic} (hw : w.isError = false)
    (h : Warns { s with diagnostics := s.diagnostics.push w } t) : Warns s t := by
  obtain ⟨htree, warnings, hdiags, hwarnings⟩ := h
  refine ⟨htree, w :: warnings, ?_, List.forall_mem_cons.mpr ⟨hw, hwarnings⟩⟩
  rw [hdiags, Array.toList_push, List.append_assoc, List.singleton_append]

omit [Text.NormalForm] in
theorem checkKeys_warns (kind : EntryKind) (keys : List Yaml.Node) :
    Ends (checkKeys file kind keys) s fun _ t => Warns s t := by
  induction keys generalizing s with
  | nil => exact .refl s
  | cons k ks ih =>
    unfold checkKeys
    split
    · rw [ends_bind, ends_report]
      exact ih.mono fun _ t ht => .of_push rfl ht
    · exact ih

omit [Text.NormalForm] in
theorem checkEntryKeys_warns (e : Entry) : Ends (checkEntryKeys file e) s fun _ t => Warns s t := by
  unfold checkEntryKeys
  split
  · exact checkKeys_warns _ _
  · exact .refl s

theorem Warns.adds (h : Warns s t) : Adds s t [] [] := by
  obtain ⟨htree, warnings, hdiags, hwarnings⟩ := h
  refine .of_decls_eq rfl .nil ?_ (by rw [htree]) (by rw [htree]) ⟨warnings, hdiags, ?_⟩
  · rw [htree]
    exact ⟨.refl _, fun _ _ h => h⟩
  · refine List.filter_eq_nil_iff.mpr fun w hw => ?_
    simp [isSkip, hwarnings w hw]

omit [Text.NormalForm] in
theorem isSkip_of_classify {e : Entry} {place : Place} {d : Diagnostic} (h : classify file e place = .error d) :
    isSkip d = true := by
  unfold classify at h
  split at h
  · cases h
    rfl
  · split at h <;> cases h
    rfl
  · cases h
    rfl

omit [Text.NormalForm] in
theorem isSkip_of_entryName {e : Entry} {kind : EntryKind} {n : Yaml.Node} {d : Diagnostic}
    (h : entryName file e kind n = .error d) : isSkip d = true := by
  unfold entryName at h
  dsimp only at h
  split at h
  · cases h
    rfl
  · split at h <;> cases h
    rfl

/-- What is made of an entry: one declaration that may stand in its place, or nothing but an error. -/
structure EntryAdds (place : Place) (s : LoadState) (o : Outline) (r : Option DeclId) (t : LoadState) : Prop where
  adds : Adds s t [o] r.toList
  allows : ∀ i ∈ r.toList, place.Allows t.tree i
  skips : r = none → ∃ d, o = .skipped d ∧ Skips s t d

theorem skip_adds (h : Warns s t) {d : Diagnostic} (hd : isSkip d = true) (place : Place) :
    Ends (do report d; return none) t fun (r : Option DeclId) u => EntryAdds place s (.skipped d) r u := by
  rw [ends_bind, ends_report, ends_pure]
  have hskips : Skips s { t with diagnostics := t.diagnostics.push d } d := by
    obtain ⟨htree, warnings, hdiags, hwarnings⟩ := h
    refine ⟨htree, ?_, warnings, ?_, hwarnings⟩
    · rw [isSkip, Bool.and_eq_true] at hd
      exact hd.1
    · rw [Array.toList_push, hdiags]
  exact ⟨h.adds.trans (.skip t hd), by simp, fun _ => ⟨d, rfl, hskips⟩⟩

theorem EntryAdds.of_allows {place : Place} {o : Outline} {id : DeclId} (h : Adds s t [o] [id])
    (ha : place.Allows t.tree id) : EntryAdds place s o (some id) t :=
  ⟨h, by simpa using ha, fun hnone => by cases hnone⟩

end Skipped

mutual

theorem loadEntry_adds (file : SourceFile) (place : Place) : (e : Entry) → (s : LoadState) →
    Ends (loadEntry file place e) s fun r t => EntryAdds place s (e.outline file place) r t
  | ⟨node, keys, var, fn, cls, iface, type, returns, body, base, implements, formals, members⟩, s => by
    unfold loadEntry
    rw [ends_bind]
    refine (checkEntryKeys_warns _).mono fun _ t ht => ?_
    split
    · next hc =>
      rw [Entry.outline_of_classify hc]
      exact skip_adds ht (isSkip_of_classify hc) place
    next kind nameNode hc =>
    have hplace := isAllowed_of_classify hc
    split
    · next he =>
      rw [Entry.outline_of_nameless hc he]
      exact skip_adds ht (isSkip_of_entryName he) place
    next text he =>
    rw [Entry.outline_of_named hc he, ends_bind]
    refine (ident_adds text _).mono fun name u ⟨hu, hname⟩ => ?_
    have hsu : Adds s u [] [] := ht.adds.followedBy hu
    cases kind with
    | var =>
      dsimp only
      rw [ends_bind]
      refine (typeOf_adds _ _ _).mono fun ty v ⟨hv, hty⟩ => ?_
      rw [ends_map]
      exact (addVariable_adds (hsu.followedBy hv) hty _ (.entry .var) rfl (hv.ext.names _ _ hname)).mono
        fun id w ⟨hw, hvar⟩ => .of_allows hw (Place.allows_variable hplace hvar)
    | fn =>
      dsimp only
      rw [ends_map]
      exact (loadFunction_adds hsu hname _ _ place).mono fun id w ⟨hw, hfun⟩ => .of_allows hw hfun
    | cls =>
      dsimp only
      rw [ends_bind]
      refine (loadEntries_adds file .inClass members u).mono fun ms v ⟨hv, _⟩ => ?_
      rw [ends_bind]
      refine (baseType_adds base).mono fun b x hx => ?_
      rw [ends_bind]
      refine (implemented_adds implements).mono fun is y hy => ?_
      rw [ends_map]
      have hvy := (hv.followedBy hx).followedBy hy
      exact (addClass_adds (hsu.trans hvy) b is _ (hvy.ext.names _ _ hname)).mono fun id w hw =>
        .of_allows hw (Place.allows_type hplace (.inl rfl) _ _)
    | iface =>
      dsimp only
      rw [ends_bind]
      refine (loadEntries_adds file .inInterface members u).mono fun ms v ⟨hv, hms⟩ => ?_
      rw [ends_map]
      exact (addInterface_adds (hsu.trans hv) hms _ (hv.ext.names _ _ hname)).mono fun id w hw =>
        .of_allows hw (Place.allows_type hplace (.inr rfl) _ _)

theorem loadEntries_adds (file : SourceFile) (place : Place) : (es : List Entry) → (s : LoadState) →
    Ends (loadEntries file place es) s fun ids t =>
      Adds s t (Entry.outlines file place es) ids ∧ ∀ i ∈ ids, place.Allows t.tree i
  | [], s => by
    unfold loadEntries
    exact ⟨.refl s, by simp⟩
  | e :: rest, s => by
    unfold loadEntries
    rw [ends_bind]
    refine (loadEntry_adds file place e s).mono fun r t ht => ?_
    rw [ends_bind]
    refine (loadEntries_adds file place rest t).mono fun ids u ⟨hu, hids⟩ => ?_
    refine ⟨ht.adds.trans hu, ?_⟩
    intro i hi
    rcases List.mem_append.mp hi with hi | hi
    · exact (ht.allows i hi).grows hu.ext.grows
    · exact hids i hi

end

/-! ## The whole file -/

omit [Text.NormalForm] in
theorem filter_isSkip_collectFrom (t : Tree) (ids : List DeclId) (g : Globals) (ds : Array Diagnostic) :
    (Globals.collectFrom t ids g ds).2.1.toList.filter isSkip = ds.toList.filter isSkip := by
  fun_induction Globals.collectFrom t ids g ds with
  | case1 => rfl
  | case2 => rfl
  | case3 _ _ _ _ _ _ _ _ ih => exact ih
  | case4 => rfl
  | case5 _ _ _ _ _ _ _ _ _ _ _ _ ih =>
    rw [ih, Array.toList_push, List.filter_append]
    exact List.append_nil _

/-- Loading a file puts what it makes of the entries on the top level. -/
theorem loadAll_adds (file : SourceFile) (entries : List Entry) : ∃ l t ids, loadAll file entries = .ok l ∧
    Adds { tree := { units := #[⟨⟨file.id, 0, file.size⟩, []⟩] } } t (Entry.outlines file .top entries) ids ∧
    l.tree = { t.tree with units := #[⟨⟨file.id, 0, file.size⟩, ids⟩] } ∧ l.unit = 1 ∧
    l.diagnostics.toList.filter isSkip = errors (Entry.outlines file .top entries) := by
  have hends : Ends (loadTop file entries) {} fun unit s => unit = 1 ∧ ∃ ids t,
      Adds { tree := { units := #[⟨⟨file.id, 0, file.size⟩, []⟩] } } t (Entry.outlines file .top entries) ids ∧
      s = { t with tree := { t.tree with units := #[⟨⟨file.id, 0, file.size⟩, ids⟩] } } := by
    unfold loadTop
    rw [ends_bind, ends_build, ends_bind]
    refine (loadEntries_adds file .top entries _).mono fun ids t ⟨ht, _⟩ => ?_
    have hpush := pushAll_units ids ht.units
    rw [List.nil_append] at hpush
    rw [ends_bind]
    unfold pushAll
    rw [ends_build]
    exact ⟨rfl, ids, t, ht, congrArg (fun tree => { t with tree }) hpush⟩
  obtain ⟨unit, s, hrun, rfl, ids, t, hadds, rfl⟩ := hends.run_eq
  have hload : loadAll file entries = .ok {
      tree := { t.tree with units := #[⟨⟨file.id, 0, file.size⟩, ids⟩] }
      unit := 1
      globals := (Globals.collectFrom { t.tree with units := #[⟨⟨file.id, 0, file.size⟩, ids⟩] } ids {} #[]).1
      diagnostics := t.diagnostics ++
        (Globals.collectFrom { t.tree with units := #[⟨⟨file.id, 0, file.size⟩, ids⟩] } ids {} #[]).2.1 } := by
    unfold loadAll
    rw [hrun]
    rfl
  refine ⟨_, t, ids, hload, hadds, rfl, rfl, ?_⟩
  obtain ⟨l, hl, hskips⟩ := hadds.reported
  rw [Array.toList_append, List.filter_append, filter_isSkip_collectFrom, hl]
  simpa using hskips

/-! ## Kept or skipped -/

/-- The steps build one declaration. Those that were there stay as they are, and those that are new besides it
lie inside others. -/
structure Builds (s t : LoadState) (id : DeclId) : Prop where
  old : ∀ i : Nat, i ≤ s.tree.decls.size → t.tree.decl? i = s.tree.decl? i
  new : s.tree.decls.size < id
  last : id = t.tree.decls.size
  loose : t.tree.parent? id = some 0
  inside : ∀ i : Nat, s.tree.decls.size < i → i < id → ∃ p : Nat, t.tree.parent? i = some p ∧ i < p ∧ p ≤ id

theorem Adds.builds {s t : LoadState} {o : Outline} {id : Nat} (h : Adds s t [o] [id]) : Builds s t id := by
  obtain ⟨hnew, hle, hloose⟩ := h.mem_new (List.mem_singleton_self id)
  have hsize := h.size
  have honly : ∀ i : Nat, s.tree.decls.size < i → i ≤ t.tree.decls.size → t.tree.parent? i = some 0 → i = id := by
    intro i hlt hle hzero
    have hmem : i ∈ [id] := by
      rw [h.loose, List.mem_filter, List.mem_range'_1, beq_iff_eq]
      exact ⟨by omega, hzero⟩
    exact List.mem_singleton.mp hmem
  have hlast : id = t.tree.decls.size := by
    obtain ⟨p, hp, hin⟩ := h.inside t.tree.decls.size (by omega) (Nat.le_refl _)
    have hzero : p = 0 := by
      by_contra hne
      have := hin hne
      omega
    exact (honly _ (by omega) (Nat.le_refl _) (hzero ▸ hp)).symm
  refine ⟨h.old, hnew, hlast, hloose, ?_⟩
  intro i hlt hid
  obtain ⟨p, hp, hin⟩ := h.inside i hlt (by omega)
  have hne : p ≠ 0 := by
    rintro rfl
    have := honly i hlt (by omega) hp
    omega
  have := hin hne
  exact ⟨p, hp, by omega, by omega⟩

/-- Declarations stand for the entries that are kept, in their order. At every depth what is kept and what is
skipped are all entries. -/
structure Listed (t : Tree) (os : List Outline) (ids : List DeclId) : Prop where
  shown : AllShown t os ids
  sorted : ids.Pairwise (· < ·)
  length_eq : ids.length + (os.filterMap error?).length = os.length
  parts : ∀ (role : Role) (text : Text) (parts : List Outline), .kept role text parts ∈ allDeep os →
    ∃ id, Shown t (.kept role text parts) id ∧
      (t.children id).length + (parts.filterMap error?).length = parts.length

theorem AllShown.listed {t : Tree} {os : List Outline} {ids : List DeclId} (h : AllShown t os ids)
    (hsorted : ids.Pairwise (· < ·)) : Listed t os ids := by
  refine ⟨h, hsorted, h.length_eq, ?_⟩
  intro role text parts hmem
  obtain ⟨id, hid⟩ := h.mem_allDeep hmem
  refine ⟨id, hid, ?_⟩
  cases hid with
  | kept hd _ _ hparts =>
    rw [Tree.children_eq hd]
    exact hparts.length_eq

theorem EntryAdds.built {place : Place} {s t : LoadState} {o : Outline} {id : DeclId}
    (h : EntryAdds place s o (some id) t) : Builds s t id ∧ o.Shown t.tree id := by
  have hshown := h.adds.shown
  rw [Option.toList_some] at hshown
  cases hshown with
  | skip hnil => cases hnil
  | keep ho _ => exact ⟨h.adds.builds, ho⟩

end Skipping

end Manifest

end DeclCheck

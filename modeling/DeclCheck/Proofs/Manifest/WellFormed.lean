import DeclCheck.Proofs.Manifest.Capacity

/-!
# Loaded trees are well-formed

Loading fails for no reason but that a node gets no number, and it leaves a forest: each declaration stands on the
top level or inside one other declaration, what a declaration refers to is there and of the right kind, and each
declaration stands in the text around its name.
-/
namespace DeclCheck

/-- The written types that a declaration refers to. -/
def Subject.types : Subject → List TypeExprId
  | .variable type => [type]
  | .class c => (if c.base = 0 then [] else [c.base]) ++ c.implements
  | .interface _ => []
  | .function f => [f.result]

/-- A tree with a top level, read from a text of `size` bytes. -/
structure Tree.WellFormed (t : Tree) (top : List DeclId) (size : Nat) : Prop where
  /-- A declaration stands on the top level, or it is listed once, and only by its parent, which has a
  larger number. -/
  placed : ∀ id d, t.decl? id = some d →
    (id ∈ top ∧ ∀ p, id ∉ t.children p) ∨
      (id ∉ top ∧ id < d.parent ∧ (t.children d.parent).count id = 1 ∧
        ∀ p, id ∈ t.children p → p = d.parent)
  top_iff : ∀ id, id ∈ top ↔ ∃ d, t.decl? id = some d ∧ d.parent = 0
  top_sorted : top.Pairwise (· < ·)
  members : ∀ id c, t.class? id = some c →
    ∀ m ∈ c.members, t.isVariable m = true ∨ (t.function? m).isSome
  methods : ∀ id ms, t.interface? id = some ms → ∀ m ∈ ms, t.isPrototype m = true
  formals : ∀ id f, t.function? id = some f → ∀ v ∈ f.formals, t.isVariable v = true
  complete : ∀ id f, t.function? id = some f →
    f.state = .complete ∧ (f.body ≠ 0 ↔ f.isPrototype = false)
  types : ∀ id d, t.decl? id = some d → ∀ type ∈ d.subject.types, (t.type? type).isSome
  arrays : ∀ id elem span, t.type? id = some (.array elem span) →
    elem < id ∧ (t.type? elem).isSome
  spans : t.Spanned size

namespace Tree

variable {t : Tree}

theorem type?_isSome_of_namedType? {id : TypeExprId} (h : (t.namedType? id).isSome) :
    (t.type? id).isSome := by
  obtain ⟨ident, hident⟩ := Option.isSome_iff_exists.mp h
  rw [type?_of_namedType? hident]
  rfl

theorem Fits.type?_isSome {s : Subject} (h : t.Fits s) :
    ∀ type ∈ s.types, (t.type? type).isSome := by
  intro type htype
  cases s with
  | «variable» ty =>
    obtain rfl := List.mem_singleton.mp htype
    exact h
  | interface ms => cases htype
  | function f =>
    obtain rfl := List.mem_singleton.mp htype
    exact h.1
  | «class» c =>
    obtain ⟨hbase, himplements, _⟩ := h
    rcases List.mem_append.mp htype with hm | hm
    · split at hm
      · cases hm
      · next hne =>
        obtain rfl := List.mem_singleton.mp hm
        exact type?_isSome_of_namedType? (hbase.resolve_left hne)
    · exact type?_isSome_of_namedType? (himplements type hm)

/-- A declaration of a forest has its place. -/
theorem Built.placed (h : t.Built 0) {id : DeclId} {d : Decl} (hd : t.decl? id = some d) :
    (id ∈ t.loose ∧ ∀ p, id ∉ t.children p) ∨
      (id ∉ t.loose ∧ id < d.parent ∧ (t.children d.parent).count id = 1 ∧
        ∀ p, id ∈ t.children p → p = d.parent) := by
  have hparent : t.parent? id = some d.parent := parent?_eq_some.mpr ⟨d, hd, rfl⟩
  have hlisted : ∀ p, id ∈ t.children p → id < p ∧ p = d.parent := by
    intro p hp
    obtain ⟨hlt, heq⟩ := h.child p id hp
    exact ⟨hlt, Option.some.inj (heq.symm.trans hparent)⟩
  by_cases hzero : d.parent = 0
  · refine .inl ⟨mem_loose.mpr (hzero ▸ hparent), fun p hp => ?_⟩
    obtain ⟨hlt, heq⟩ := hlisted p hp
    rw [heq, hzero] at hlt
    exact Nat.not_lt_zero id hlt
  · have hmem := h.parent id d.parent hparent hzero
    have hnodup : (t.children d.parent).Nodup := (h.sorted d.parent).imp fun h => Nat.ne_of_lt h
    refine .inr ⟨fun hloose => ?_, (hlisted _ hmem).1, ?_, fun p hp => (hlisted p hp).2⟩
    · exact hzero (Option.some.inj (hparent.symm.trans (mem_loose.mp hloose)))
    · exact List.count_eq_one_of_mem hnodup hmem

/-- A forest whose declarations stand in a text is well-formed. -/
theorem Built.wellFormed (h : t.Built 0) {size : Nat} (hspans : t.Spanned size) :
    t.WellFormed t.loose size where
  placed id d hd := h.placed hd
  top_iff id := by rw [mem_loose, parent?_eq_some]
  top_sorted := loose_pairwise t
  members id c hc := by
    obtain ⟨d, hd, hsub⟩ := subject_of_class? hc
    exact (h.fits hd hsub).2.2
  methods id ms hms := by
    obtain ⟨d, hd, hsub⟩ := subject_of_interface? hms
    exact h.fits hd hsub
  formals id f hf := by
    obtain ⟨d, hd, hsub⟩ := subject_of_function? hf
    exact (h.fits hd hsub).2.1
  complete id f hf := by
    obtain ⟨d, hd, hsub⟩ := subject_of_function? hf
    obtain ⟨_, _, hstate, hbody⟩ := h.fits hd hsub
    refine ⟨hstate, ?_⟩
    rw [ne_eq, hbody, Bool.not_eq_true]
  types id d hd := (h.fits hd rfl).type?_isSome
  arrays id elem span he := by
    obtain ⟨hpos, hlt⟩ := h.ordered id elem span he
    obtain ⟨e, hget⟩ := numbered?_of_le t.types hpos (hlt.le.trans (type?_le he))
    exact ⟨hlt, Option.isSome_iff_exists.mpr ⟨e, hget⟩⟩
  spans := hspans

end Tree

namespace Manifest

/-- Whatever its entries are, a file is loaded, and its tree is well-formed, if the size of the file and
the longest value in it do not make an offset wrap. With a limit for the numbers of nodes the same is loaded, as long
as it has no more nodes of a kind; there are at most as many nodes as the entries need. Otherwise loading overflows. -/
theorem loadAll_wellFormed (file : SourceFile) (entries : List Entry) (longest : Nat)
    (hfile : file.breaks = Lines.breaks file.content)
    (hlongest : ∀ n ∈ nodesOf entries, n.value.length ≤ longest)
    (hsize : file.content.length + longest + 2 < UInt32.size) :
    ∃ l top, loadAllWithin .unlimited file entries = .ok l ∧ l.tree.unit? l.unit = some top ∧
      l.tree.WellFormed top.decls file.content.length ∧ l.tree.nodes ≤ weightOf entries + 1 ∧
      ∀ c : Capacity, loadAllWithin c file entries = if l.tree.fits then .ok l else .error .overflow := by
  obtain ⟨s, hs, hunit, hload⟩ := loadAll_ok file entries
  have hwithin : AllWithin file (nodesOf entries) := by
    intro n hn
    have hvalue := hlongest n hn
    exact spanOf_within hfile (by omega)
  have hlimit := loadAllWithin_eq hload
  exact ⟨_, _, hload, hunit, hs.built.wellFormed (loadAll_spanned hwithin hload), (hlimit .unlimited).1,
    fun c => (hlimit c).2⟩

/-- A class with a method that takes an array. The name of the class is quoted and not ASCII. -/
def crateFile : SourceFile :=
  let content := Text.ofString "class: \"Krön\"\nfn: put\nformals: [items, int[]]\n"
  { content, breaks := Lines.breaks content }

def crateEntries : List Entry :=
  let word (place : Yaml.Place) (s : String) : Yaml.Node := .scalar place [] .plain (Text.ofString s)
  let items : FormalEntry :=
    { node := .sequence (.on 3 10) [] [], name := some (word (.on 3 11) "items"), type := some (word (.on 3 18) "int[]") }
  let put : Entry := { node := .mapping (.on 2 1) [] [], fn := some (word (.on 2 5) "put"), formals := [items] }
  [{ node := .mapping (.on 1 1) [] []
     cls := some (.scalar (.on 1 8) [] .doubleQuoted (Text.ofString "Krön"))
     members := [put] }]

theorem crate_wellFormed : ∃ l top, loadAllWithin .words crateFile crateEntries = .ok l ∧
    l.tree.unit? l.unit = some top ∧ l.tree.WellFormed top.decls crateFile.content.length ∧
    l.tree.nodes ≤ 7 ∧ (l.tree.decl? 3).map (·.span) = some ⟨0, 0, 14⟩ := by
  have hvalues : (nodesOf crateEntries).all (·.value.length ≤ 5) = true := by decide +kernel
  have hweight : weightOf crateEntries = 6 := by decide +kernel
  obtain ⟨l, top, hload, hunit, hwell, hnodes, hlimit⟩ := loadAll_wellFormed crateFile crateEntries 5 rfl
    (by simpa using hvalues) (by decide +kernel)
  have hspan : (loadAllWithin .unlimited crateFile crateEntries).toOption.all (fun x =>
      decide ((x.tree.decl? 3).map (·.span) = some ⟨0, 0, 14⟩)) = true := by
    decide +kernel
  rw [hload] at hspan
  rw [hweight] at hnodes
  have hfits : @Tree.fits .words l.tree = true := by
    refine @Tree.fits_of_nodes_le _ .words fun k hk => ?_
    obtain rfl := Option.some.inj hk
    exact hnodes.trans (by decide)
  refine ⟨l, top, ?_, hunit, hwell, hnodes, of_decide_eq_true hspan⟩
  rw [hlimit, if_pos hfits]

/-- A variable `x` of type `int`. -/
def xEntry : Entry :=
  { node := .mapping (.on 1 1) [] []
    var := some (.scalar (.on 1 1) [] .plain (Text.ofString "x"))
    type := some (.scalar (.on 1 1) [] .plain (Text.ofString "int")) }

theorem xEntry_kept (file : SourceFile) :
    xEntry.outline file .top = .kept (.entry .var) (Text.ofString "x") [] := by
  have hclass : classify file xEntry .top = .ok (.var, .scalar (.on 1 1) [] .plain (Text.ofString "x")) := rfl
  have htrim : Text.trim (Text.ofString "x") = Text.ofString "x" := by decide +kernel
  have hempty : Text.ofString "x" ≠ [] := by decide +kernel
  have hident : isIdentifier (Text.ofString "x") = true := by decide +kernel
  refine Entry.outline_of_named hclass ?_
  simp [entryName, Yaml.Node.isScalar, Yaml.Node.value, htrim, hempty, hident]

theorem decls_size_copies {file : SourceFile} {n : Nat} {l : Loaded}
    (h : loadAll file (List.replicate n xEntry) = .ok l) : l.tree.decls.size = n := by
  obtain ⟨l', t, ids, hload, hadds, htree, -⟩ := loadAll_adds file (List.replicate n xEntry)
  obtain rfl := Except.ok.inj (hload.symm.trans h)
  have hsources : (Outline.sources (Entry.outlines file .top (List.replicate n xEntry))).length = n := by
    clear * -
    induction n with
    | zero => rfl
    | succ n ih =>
      rw [List.replicate_succ, Entry.outlines, xEntry_kept, ← List.singleton_append, Outline.sources_append,
        List.length_append, ih]
      exact Nat.add_comm 1 n
  rw [htree, hadds.size, hsources]
  exact Nat.zero_add n

theorem length_value_copies (n : Nat) : ∀ m ∈ nodesOf (List.replicate n xEntry), m.value.length ≤ 3 := by
  have hentry : xEntry.nodes.all (·.value.length ≤ 3) = true := by decide +kernel
  induction n with
  | zero => simp [nodesOf]
  | succ n ih =>
    intro m hm
    rw [List.replicate_succ, nodesOf, List.mem_append] at hm
    rcases hm with hm | hm
    · exact of_decide_eq_true (List.all_eq_true.mp hentry m hm)
    · exact ih m hm

/-- There are finite lists of entries with more declarations than there are words. -/
theorem copies_overflow : ∃ (file : SourceFile) (entries : List Entry) (longest : Nat),
    file.breaks = Lines.breaks file.content ∧ (∀ n ∈ nodesOf entries, n.value.length ≤ longest) ∧
    file.content.length + longest + 2 < UInt32.size ∧ loadAllWithin .words file entries = .error .overflow := by
  refine ⟨{ content := [], breaks := [] }, List.replicate UInt32.size xEntry, 3, rfl, length_value_copies _,
    by decide, ?_⟩
  obtain ⟨s, -, -, hload⟩ := loadAll_ok { content := [], breaks := [] } (List.replicate UInt32.size xEntry)
  have hsize := decls_size_copies hload
  rw [(loadAllWithin_eq hload .words).2, if_neg]
  intro hfits
  have hle := ((@Tree.fits_iff _ .words).mp hfits (UInt32.size - 1) rfl).2.1
  rw [hsize] at hle
  exact absurd hle (by decide)

end Manifest

end DeclCheck

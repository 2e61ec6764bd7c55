import DeclCheck.Proofs.Text.Pieces
import DeclCheck.Proofs.Manifest.Loading
import DeclCheck.Proofs.Source.Lines

/-!
# Where declarations stand

A node is mapped into the text it was read from: to the start of a line that is there, and on from it over
characters that are there. So the span of a node ends inside the text and not before it starts, as long as
no offset wraps. The span of a declaration covers its entry and its name.
-/
namespace DeclCheck

/-! ## Offsets -/

theorem Text.leadingSize_le {t : Text} (h : t ≠ []) : leadingSize t ≤ t.length := by
  have hpos := List.length_pos_of_ne_nil h
  unfold leadingSize
  fun_cases leadingChar? t <;> simp_all

/-- What is cut at `a` is at most `a`. -/
theorem toNat_cut_le (a b : UInt32) : (if a < b then a else b).toNat ≤ a.toNat := by
  split
  · exact le_rfl
  · next h => rwa [UInt32.lt_iff_toNat_lt, not_lt] at h

namespace Lines

/-- A position is moved to one of the text. -/
theorem offset_le {t : Text} (ht : t.length < UInt32.size) (pos : LineCol) :
    (offset (breaks t) t.length.toUInt32 pos).toNat ≤ t.length := by
  have hword : UInt32.size = 4294967296 := rfl
  have hsize : t.length.toUInt32.toNat = t.length := by
    rw [Nat.toUInt32_eq, UInt32.toNat_ofNat']
    omega
  have hstop : (stop (breaks t) t.length.toUInt32 pos.line).toNat ≤ t.length := by
    unfold stop
    cases hb : (breaks t)[pos.line.toNat - 1]? with
    | none => exact hsize.le
    | some b =>
      have hlt := (mem_breaksFrom_bounds (n := 0) (by omega) (List.mem_of_getElem? hb)).2
      simp only [Option.getD_some]
      omega
  unfold offset
  split
  · simp
  · split
    · exact hsize.le
    · exact (toNat_cut_le _ _).trans hstop

end Lines

/-! ## Spans -/

namespace Span

/-- The span is one of a text of `size` bytes. -/
def Within (size : Nat) (s : Span) : Prop := s.start ≤ s.stop ∧ s.stop.toNat ≤ size

/-- The span is one of a text and holds another one. -/
def Frames (size : Nat) (s t : Span) : Prop := s.Within size ∧ s.contains t = true

/-- What covers two spans of one file holds the second. -/
theorem cover_frames {size : Nat} {s t : Span} (hfile : s.file = t.file) (hs : s.Within size)
    (ht : t.Within size) : (s.cover t).Frames size t := by
  obtain ⟨hs, hsize⟩ := hs
  obtain ⟨ht, htsize⟩ := ht
  rw [UInt32.le_iff_toNat_le] at hs ht
  have hcover : s.cover t = { s with
      start := if t.start < s.start then t.start else s.start
      stop := if s.stop < t.stop then t.stop else s.stop } := by
    simp [cover, hfile]
  have hstart := toNat_cut_le t.start s.start
  have hstop : t.stop.toNat ≤ (if s.stop < t.stop then t.stop else s.stop).toNat := by
    split
    · exact le_rfl
    · next h => rwa [UInt32.lt_iff_toNat_lt, not_lt] at h
  have hle : (if s.stop < t.stop then t.stop else s.stop).toNat ≤ size := by
    split
    · exact htsize
    · exact hsize
  rw [hcover]
  refine ⟨⟨?_, hle⟩, ?_⟩
  · rw [UInt32.le_iff_toNat_le]
    exact hstart.trans (ht.trans hstop)
  · simp only [contains, hfile, BEq.rfl, Bool.true_and, Bool.and_eq_true, decide_eq_true_eq,
      UInt32.le_iff_toNat_le]
    exact ⟨hstart, hstop⟩

end Span

namespace Manifest

open Yaml

theorem columnBytes_le (n : Nat) (t : Text) : columnBytes n t ≤ t.length := by
  induction n generalizing t with
  | zero => exact Nat.zero_le _
  | succ n ih =>
    cases t with
    | nil => exact Nat.zero_le _
    | cons b t =>
      unfold columnBytes
      dsimp only
      split
      · exact Nat.zero_le _
      · have hlead := Text.leadingSize_le (List.cons_ne_nil b t)
        have hrest := ih ((b :: t).drop (Text.leadingSize (b :: t)))
        rw [List.length_drop] at hrest
        omega

/-- The span of a node is one of the text, if nothing wraps. -/
theorem spanOf_within {file : SourceFile} (hfile : file.breaks = Lines.breaks file.content) {n : Node}
    (hn : file.content.length + n.value.length + 2 < UInt32.size) :
    (spanOf file n).Within file.content.length := by
  have hword : UInt32.size = 4294967296 := rfl
  have hsize : file.size.toNat = file.content.length := by
    rw [SourceFile.size, Nat.toUInt32_eq, UInt32.toNat_ofNat']
    omega
  rw [spanOf, if_neg (line_ne_zero n)]
  dsimp only
  generalize hline : file.offset ⟨n.place.line.toUInt32, 1⟩ = line
  have hle : line.toNat ≤ file.content.length := by
    rw [← hline, SourceFile.offset, hfile]
    exact Lines.offset_le (by omega) _
  generalize hbytes : columnBytes (n.place.column - 1) (file.content.drop line.toNat) = bytes
  have hrest : bytes ≤ file.content.length - line.toNat := by
    rw [← hbytes, ← List.length_drop]
    exact columnBytes_le _ _
  generalize hstart : line + bytes.toUInt32 = start
  have hsum : start.toNat = line.toNat + bytes := by
    rw [← hstart, UInt32.toNat_add, Nat.toUInt32_eq, UInt32.toNat_ofNat']
    omega
  -- Before it is cut at the end of the text, the end of the span is not before its start.
  generalize hstop : (if n.isScalar then
    start + n.value.length.toUInt32 + (if n.isQuoted then 2 else 0) else start) = stop
  have hafter : start.toNat ≤ stop.toNat := by
    rw [← hstop]
    split
    · have hquotes : (if n.isQuoted = true then (2 : UInt32) else 0).toNat ≤ 2 := by
        split <;> decide
      rw [UInt32.toNat_add, UInt32.toNat_add, Nat.toUInt32_eq, UInt32.toNat_ofNat']
      omega
    · exact le_rfl
  constructor
  · rw [UInt32.le_iff_toNat_le]
    dsimp only
    split
    · omega
    · exact hafter
  · exact (toNat_cut_le _ _).trans hsize.le

end Manifest

/-! ## Trees -/

namespace Tree

/-- Each declaration stands in a text of `size` bytes, and its name inside it. -/
def Spanned (size : Nat) (t : Tree) : Prop :=
  ∀ (id : Nat) (d : Decl), t.decl? id = some d → d.span.Frames size d.name.span

variable {size : Nat} {t : Tree}

theorem Spanned.modifyDecl (h : t.Spanned size) (id : DeclId) {f : Decl → Decl}
    (hname : ∀ d, (f d).name = d.name) (hspan : ∀ d, (f d).span = d.span) :
    (t.modifyDecl id f).Spanned size := by
  intro i d hd
  cases i with
  | zero => cases hd
  | succ i =>
    have hget : (t.decls.modify (id - 1) f)[i]? = some d := hd
    rw [Array.getElem?_modify] at hget
    split at hget
    · obtain ⟨e, he, rfl⟩ := Option.map_eq_some_iff.mp hget
      rw [hname, hspan]
      exact h (i + 1) e he
    · exact h (i + 1) d hget

theorem Spanned.adopt (h : t.Spanned size) (parent : DeclId) (cs : List DeclId) :
    (t.adopt parent cs).1.Spanned size := by
  induction cs generalizing t with
  | nil => exact h
  | cons c cs ih =>
    unfold Tree.adopt
    split
    · exact h
    · split
      · exact h
      · exact ih (h.modifyDecl c (fun _ => rfl) fun _ => rfl)

theorem Spanned.addDecl (h : t.Spanned size) {name : Ident} {span : Span}
    (hframes : span.Frames size name.span) (subject : Subject) :
    (t.addDecl name span subject).1.Spanned size := by
  have hpush : ({ t with decls := t.decls.push { name, span, subject } } : Tree).Spanned size := by
    intro i d hd
    have hget : numbered? (t.decls.push { name, span, subject }) i = some d := hd
    rw [numbered?_push] at hget
    split at hget
    · cases hget
      exact hframes
    · exact h i d hget
  have hadopt := hpush.adopt (t.decls.size + 1) subject.children
  unfold Tree.addDecl
  dsimp only
  split
  · next he => rwa [he] at hadopt
  · next he => rwa [he] at hadopt

theorem Spanned.addFunctionIn (h : t.Spanned size) {name : Ident} {span : Span}
    (hframes : span.Frames size name.span) (state : FunctionState) (isPrototype : Bool)
    (result : TypeExprId) (formals : List DeclId) :
    (t.addFunctionIn state isPrototype name result formals span).1.Spanned size := by
  unfold Tree.addFunctionIn
  split
  · exact h
  · split
    · exact h
    · exact h.addDecl hframes _

theorem Spanned.addVariable (h : t.Spanned size) {name : Ident} {span : Span}
    (hframes : span.Frames size name.span) (type : TypeExprId) :
    (t.addVariable name type span).1.Spanned size := by
  unfold Tree.addVariable
  split
  · exact h
  · exact h.addDecl hframes _

theorem Spanned.addInterface (h : t.Spanned size) {name : Ident} {span : Span}
    (hframes : span.Frames size name.span) (members : List DeclId) :
    (t.addInterface name members span).1.Spanned size := by
  unfold Tree.addInterface
  split
  · exact h
  · exact h.addDecl hframes _

theorem Spanned.attachBody (h : t.Spanned size) (id : DeclId) (body : BlockId) :
    (t.attachBody id body).1.Spanned size := by
  unfold Tree.attachBody
  split
  · exact h
  · split
    · exact h
    · split
      · exact h
      · exact h.modifyDecl id (fun _ => rfl) fun _ => rfl

theorem Spanned.addArray (h : t.Spanned size) (elem : TypeExprId) (span : Span) :
    (t.addArray elem span).1.Spanned size := by
  unfold Tree.addArray
  split <;> exact h

end Tree

namespace Manifest

open Yaml

/-! ## Steps of loading -/

/-- Steps of loading leave each declaration inside the text, whether they fail or not. -/
def Keeps (size : Nat) {α : Type} (x : LoadM α) : Prop :=
  ∀ s : LoadState, s.tree.Spanned size → (x.run.run s).2.tree.Spanned size

section Steps

variable {size : Nat} {α β : Type}

theorem keeps_pure (a : α) : Keeps size (pure a) := fun _ h => h

theorem keeps_throw (e : BuildError) : Keeps size (throw e : LoadM α) := fun _ h => h

theorem Keeps.bind {x : LoadM α} {f : α → LoadM β} (hx : Keeps size x)
    (hf : ∀ a, Keeps size (f a)) : Keeps size (x >>= f) := by
  intro s hs
  have h := hx s hs
  rw [run_bind]
  rcases he : x.run.run s with ⟨_ | a, t⟩
  · rwa [he] at h
  · rw [he] at h
    exact hf a t h

theorem Keeps.map {x : LoadM α} (hx : Keeps size x) (f : α → β) : Keeps size (f <$> x) := by
  rw [map_eq_pure_bind]
  exact hx.bind fun a => keeps_pure (f a)

theorem keeps_build {g : Tree → Tree × α} (hg : ∀ t : Tree, t.Spanned size → (g t).1.Spanned size) :
    Keeps size (build g) := fun s hs => hg s.tree hs

theorem keeps_tryBuild {g : Tree → Tree × Except BuildError α}
    (hg : ∀ t : Tree, t.Spanned size → (g t).1.Spanned size) : Keeps size (tryBuild g) := by
  refine (keeps_build hg).bind fun r => ?_
  cases r with
  | ok a => exact keeps_pure a
  | error e => exact keeps_throw e

theorem keeps_report (d : Diagnostic) : Keeps size (report d) := fun _ h => h

theorem keeps_nameText (ident : Ident) : Keeps size (nameText ident) := fun _ h => h

/-- A name keeps the span that it is made with. -/
theorem keeps_ident_bind {text : Text} {span : Span} {f : Ident → LoadM β}
    (hf : ∀ ident : Ident, ident.span = span → Keeps size (f ident)) :
    Keeps size (build (·.ident text span) >>= f) := by
  intro s hs
  rw [run_bind]
  exact hf _ rfl _ hs

theorem keeps_addPrimitive (prim : Primitive) (span : Span) :
    Keeps size (build (·.addPrimitive prim span)) := keeps_build fun _ h => h

theorem keeps_addNamed (ident : Ident) : Keeps size (build (·.addNamed ident)) :=
  keeps_build fun _ h => h

theorem keeps_wrapArrays (span : Span) (n : Nat) (id : TypeExprId) :
    Keeps size (wrapArrays span n id) := by
  induction n generalizing id with
  | zero => exact keeps_pure id
  | succ n ih => exact (keeps_tryBuild fun _ h => h.addArray id span).bind fun id => ih id

variable {file : SourceFile}

theorem keeps_typeOf (node : Option Node) (what : Text) (owner : Span) :
    Keeps size (typeOf file node what owner) := by
  unfold typeOf
  split
  · split
    · exact (keeps_report _).bind fun _ => keeps_addPrimitive _ _
    · dsimp only
      split
      · exact (keeps_addPrimitive _ _).bind fun id => keeps_wrapArrays _ _ id
      · split
        · exact keeps_ident_bind fun ident _ => (keeps_addNamed ident).bind fun id =>
            keeps_wrapArrays _ _ id
        · exact (keeps_report _).bind fun _ => keeps_addPrimitive _ _
  · exact (keeps_report _).bind fun _ => keeps_addPrimitive _ _

theorem keeps_namedType (clause : Text) (node : Node) : Keeps size (namedType file clause node) := by
  unfold namedType
  dsimp only
  split
  · exact keeps_ident_bind fun ident _ => keeps_addNamed ident
  · exact (keeps_report _).bind fun _ => keeps_pure 0

theorem keeps_baseType (node : Option Node) : Keeps size (baseType file node) := by
  cases node with
  | none => exact keeps_pure 0
  | some n => exact keeps_namedType _ n

theorem keeps_nameList (node : Node) : Keeps size (nameList file node) := by
  unfold nameList
  split
  · exact keeps_pure _
  · exact keeps_pure _
  · exact (keeps_report _).bind fun _ => keeps_pure []

theorem keeps_mapM {f : α → LoadM β} (hf : ∀ a, Keeps size (f a)) (xs : List α) :
    Keeps size (xs.mapM f) := by
  induction xs with
  | nil => exact keeps_pure []
  | cons x xs ih =>
    rw [List.mapM_cons]
    exact (hf x).bind fun _ => ih.bind fun _ => keeps_pure _

theorem keeps_implemented (node : Option Node) : Keeps size (implemented file node) := by
  unfold implemented
  split
  · exact keeps_pure []
  · exact (keeps_nameList _).bind fun nodes => (keeps_mapM (keeps_namedType _) nodes).bind
      fun _ => keeps_pure _

theorem keeps_resultType (name : Ident) (node : Option Node) :
    Keeps size (resultType file name node) := by
  cases node with
  | none => exact keeps_addPrimitive _ _
  | some n => exact (keeps_nameText name).bind fun _ => keeps_typeOf _ _ _

theorem keeps_addSignature {name : Ident} {whole : Span} (hw : whole.Frames size name.span)
    (body : Option Node) (result : TypeExprId) (formals : List DeclId) (place : Place) :
    Keeps size (addSignature file body name result formals whole place) := by
  have hproto : Keeps size (tryBuild (·.addPrototype name result formals whole)) :=
    keeps_tryBuild fun _ h => h.addFunctionIn hw _ _ _ _
  unfold addSignature
  split
  · exact hproto
  · split
    · exact hproto
    · split
      · exact (keeps_nameText name).bind fun _ => (keeps_report _).bind fun _ => hproto
      · refine (keeps_tryBuild fun _ h => h.addFunctionIn hw _ _ _ _).bind fun id => ?_
        refine (keeps_build fun _ h => h).bind fun block => ?_
        exact (keeps_tryBuild fun _ h => h.attachBody id block).bind fun _ => keeps_pure id

theorem keeps_checkEntryKeys (e : Entry) : Keeps size (checkEntryKeys file e) := by
  have hkeys : ∀ (kind : EntryKind) (keys : List Node), Keeps size (checkKeys file kind keys) := by
    intro kind keys
    induction keys with
    | nil => exact keeps_pure _
    | cons k ks ih =>
      unfold checkKeys
      split
      · exact (keeps_report _).bind fun _ => ih
      · exact ih
  unfold checkEntryKeys
  split
  · exact hkeys _ _
  · exact keeps_pure _

end Steps

/-! ## Entries -/

/-- The nodes of a formal. -/
def FormalEntry.nodes (f : FormalEntry) : List Node := f.node :: (f.name.toList ++ f.type.toList)

mutual

/-- The nodes of an entry with those of its formals and members. -/
def Entry.nodes : Entry → List Node
  | ⟨node, keys, var, fn, cls, iface, type, returns, body, base, implements, formals, members⟩ =>
    node :: keys ++
      [var, fn, cls, iface, type, returns, body, base, implements].filterMap id ++
      formals.flatMap FormalEntry.nodes ++ nodesOf members

/-- The nodes of a list of entries. -/
def nodesOf : List Entry → List Node
  | [] => []
  | e :: rest => e.nodes ++ nodesOf rest

end

/-- The nodes of some entries are mapped into the text. -/
def AllWithin (file : SourceFile) (nodes : List Node) : Prop :=
  ∀ n ∈ nodes, (spanOf file n).Within file.content.length

theorem kinds_of_classify {file : SourceFile} {e : Entry} {place : Place} {kind : EntryKind} {n : Node}
    (h : classify file e place = .ok (kind, n)) : e.kinds = [(kind, n)] := by
  unfold classify at h
  split at h
  · cases h
  · next heq =>
    split at h
    · cases h
      exact heq
    · cases h
  · cases h

/-- The name that an entry declares is one of its nodes. -/
theorem name_mem_nodes {file : SourceFile} {e : Entry} {place : Place} {kind : EntryKind} {n : Node}
    (h : classify file e place = .ok (kind, n)) : n ∈ e.nodes := by
  have hkinds : (kind, n) ∈ e.kinds := by simp [kinds_of_classify h]
  obtain ⟨node, keys, var, fn, cls, iface, type, returns, body, base, implements, formals, members⟩ := e
  have hname : var = some n ∨ fn = some n ∨ cls = some n ∨ iface = some n := by
    simp only [Entry.kinds, List.mem_append, List.mem_map, Option.mem_toList,
      Prod.mk.injEq] at hkinds
    rcases hkinds with ((⟨m, hm, _, rfl⟩ | ⟨m, hm, _, rfl⟩) | ⟨m, hm, _, rfl⟩) | ⟨m, hm, _, rfl⟩
    · exact .inl hm
    · exact .inr (.inl hm)
    · exact .inr (.inr (.inl hm))
    · exact .inr (.inr (.inr hm))
  unfold Entry.nodes
  simp only [List.mem_append, List.mem_filterMap, List.mem_cons]
  refine .inl (.inl (.inr ?_))
  rcases hname with h | h | h | h
  · exact ⟨var, by simp, h⟩
  · exact ⟨fn, by simp, h⟩
  · exact ⟨cls, by simp, h⟩
  · exact ⟨iface, by simp, h⟩

section Entries

variable {file : SourceFile}

/-- What is declared by a node and named by another one frames its name. -/
theorem cover_spanOf {a b : Node} (ha : (spanOf file a).Within file.content.length)
    (hb : (spanOf file b).Within file.content.length) :
    ((spanOf file a).cover (spanOf file b)).Frames file.content.length (spanOf file b) :=
  Span.cover_frames ((spanOf_file file a).trans (spanOf_file file b).symm) ha hb

theorem keeps_loadFormals (fn : Ident) (number : Nat) (entries : List FormalEntry)
    (h : AllWithin file (entries.flatMap FormalEntry.nodes)) :
    Keeps file.content.length (loadFormals file fn number entries) := by
  induction entries generalizing number with
  | nil => exact keeps_pure []
  | cons f rest ih =>
    have hrest := fun number => ih number fun n hn =>
      h n (List.mem_append_right _ hn)
    have hskip := (keeps_nameText fn).bind fun text =>
      (keeps_report (.error .missingName (spanOf file f.node)
        ("formal " ++ Text.ofNat number ++ " of '" ++ text ++ "' has no name"))).bind fun _ =>
          hrest (number + 1)
    have hnode : (spanOf file f.node).Within file.content.length :=
      h f.node (List.mem_append_left _ (List.mem_cons_self ..))
    unfold loadFormals
    cases hname : f.name with
    | none => exact hskip
    | some name =>
      have hmem : name ∈ f.nodes := by simp [FormalEntry.nodes, hname]
      have hframes := cover_spanOf hnode (h name (List.mem_append_left _ hmem))
      dsimp only
      split
      · exact hskip
      · refine keeps_ident_bind fun ident hident => ?_
        rw [← hident] at hframes
        refine (keeps_typeOf _ _ _).bind fun type => ?_
        refine (keeps_tryBuild fun _ h => h.addVariable hframes type).bind fun id => ?_
        exact (hrest (number + 1)).bind fun ids => keeps_pure _

mutual

theorem keeps_loadEntry (file : SourceFile) (place : Place) : (e : Entry) →
    AllWithin file e.nodes → Keeps file.content.length (loadEntry file place e)
  | ⟨node, keys, var, fn, cls, iface, type, returns, body, base, implements, formals, members⟩, h => by
    unfold loadEntry
    refine (keeps_checkEntryKeys _).bind fun _ => ?_
    split
    · exact (keeps_report _).bind fun _ => keeps_pure none
    next kind nameNode hc =>
    split
    · exact (keeps_report _).bind fun _ => keeps_pure none
    have hnode : (spanOf file node).Within file.content.length := h node (by simp [Entry.nodes])
    have hframes := cover_spanOf hnode (h nameNode (name_mem_nodes hc))
    have hformals : AllWithin file (formals.flatMap FormalEntry.nodes) := by
      intro n hn
      refine h n ?_
      unfold Entry.nodes
      exact List.mem_append_left _ (List.mem_append_right _ hn)
    have hmembers : AllWithin file (nodesOf members) := by
      intro n hn
      refine h n ?_
      unfold Entry.nodes
      exact List.mem_append_right _ hn
    refine keeps_ident_bind fun name hname => ?_
    rw [← hname] at hframes
    cases kind with
    | var =>
      exact (keeps_typeOf _ _ _).bind fun ty =>
        (keeps_tryBuild fun _ h => h.addVariable hframes ty).map _
    | fn =>
      refine Keeps.map ((keeps_loadFormals name 1 formals hformals).bind fun ids => ?_) _
      exact (keeps_resultType name _).bind fun result => keeps_addSignature hframes _ _ _ _
    | cls =>
      refine (keeps_loadEntries file .inClass members hmembers).bind fun ms => ?_
      refine (keeps_baseType _).bind fun b => (keeps_implemented _).bind fun is => ?_
      exact (keeps_tryBuild fun _ h => h.addDecl hframes _).map _
    | iface =>
      refine (keeps_loadEntries file .inInterface members hmembers).bind fun ms => ?_
      exact (keeps_tryBuild fun _ h => h.addInterface hframes ms).map _

theorem keeps_loadEntries (file : SourceFile) (place : Place) : (es : List Entry) →
    AllWithin file (nodesOf es) → Keeps file.content.length (loadEntries file place es)
  | [], _ => by
    unfold loadEntries
    exact keeps_pure []
  | e :: rest, h => by
    unfold nodesOf at h
    unfold loadEntries
    refine (keeps_loadEntry file place e fun n hn => h n (List.mem_append_left _ hn)).bind fun id => ?_
    refine (keeps_loadEntries file place rest fun n hn => h n (List.mem_append_right _ hn)).bind
      fun ids => keeps_pure _

end

theorem pushTop?_spanned {size : Nat} {t : Tree} (h : t.Spanned size) (unit : UnitId) (id : DeclId) :
    ((t.pushTop? unit id).getD t).Spanned size := by
  unfold Tree.pushTop?
  split
  · exact h
  · split <;> exact h

/-- The declarations of a loaded file stand in its text. -/
theorem loadAll_spanned {entries : List Entry} (h : AllWithin file (nodesOf entries)) {l : Loaded}
    (hl : loadAll file entries = .ok l) : l.tree.Spanned file.content.length := by
  have htop : Keeps file.content.length (loadTop file entries) := by
    unfold loadTop
    refine (keeps_build fun _ h => h).bind fun unit => ?_
    refine (keeps_loadEntries file .top entries h).bind fun ids => ?_
    refine Keeps.bind (keeps_build fun t ht => ?_) fun _ => keeps_pure unit
    induction ids generalizing t with
    | nil => exact ht
    | cons id ids ih => exact ih _ (pushTop?_spanned ht unit id)
  have hempty : ({} : LoadState).tree.Spanned file.content.length := by
    intro id d hd
    cases id <;> cases hd
  have hspanned := htop {} hempty
  unfold loadAll at hl
  split at hl
  · cases hl
  · next he =>
    cases hl
    rwa [he] at hspanned

end Entries

end Manifest

end DeclCheck

import DeclCheck.Manifest.Load
import DeclCheck.Proofs.Steps
import DeclCheck.Proofs.Tree.Building

/-!
# Loading

Loading never fails: whatever the entries are, each step of it keeps a forest of declarations, and what
it needs of a declaration or a type is there. What it reports is about the syntax of the file it
loads, and it makes an error type only where it reports an error.
-/
namespace DeclCheck

namespace Manifest

/-- What holds at every point of loading a file. -/
structure LoadState.Sound (f : FileId) (s : LoadState) : Prop where
  built : s.tree.Built 0
  inFile : s.tree.InFile f
  syntactic : ∀ d ∈ s.diagnostics, d.code.family? = some (Text.ofString "SYN") ∧ d.InFile f
  errorType : ∀ (id : Nat) (prim : Primitive) (span : Span),
    s.tree.type? id = some (.primitive prim span) → prim ∉ Primitive.keywords →
      ∃ d ∈ s.diagnostics, d.isError = true

/-- Steps of loading a file from one state to another, with the declarations that they leave without a
parent. -/
structure Loads (f : FileId) (s t : LoadState) (new : List DeclId) : Prop where
  sound : t.Sound f
  grows : s.tree.Grows t.tree
  loose : t.tree.loose = s.tree.loose ++ new
  units : t.tree.units = s.tree.units

theorem Loads.refl {f : FileId} {s : LoadState} (h : s.Sound f) : Loads f s s [] :=
  ⟨h, .refl _, by simp, rfl⟩

theorem Loads.trans {f : FileId} {s t u : LoadState} {a b : List DeclId} (h : Loads f s t a)
    (k : Loads f t u b) : Loads f s u (a ++ b) :=
  ⟨k.sound, h.grows.trans k.grows, by rw [k.loose, h.loose, List.append_assoc],
    k.units.trans h.units⟩

theorem ends_build {α : Type} {g : Tree → Tree × α} {s : LoadState} {post : α → LoadState → Prop} :
    Ends (build g) s post ↔ post (g s.tree).2 { s with tree := (g s.tree).1 } := Iff.rfl

theorem ends_tryBuild {α : Type} {g : Tree → Tree × Except BuildError α} {s : LoadState}
    {post : α → LoadState → Prop} {a : α} {u : Tree} (h : g s.tree = (u, .ok a)) :
    Ends (tryBuild g) s post ↔ post a { s with tree := u } := by
  unfold tryBuild
  rw [ends_bind, ends_build, h]
  exact Iff.rfl

section Steps

variable {f : FileId} {s : LoadState}

theorem report_loads (hs : s.Sound f) {d : Diagnostic}
    (hc : d.code.family? = some (Text.ofString "SYN")) (hf : d.InFile f) :
    Ends (report d) s fun _ t => Loads f s t [] ∧ (d.isError = true → ∃ e ∈ t.diagnostics, e.isError = true) := by
  unfold report
  rw [ends_modify]
  refine ⟨⟨⟨hs.built, hs.inFile, ?_, ?_⟩, .refl _, by simp, rfl⟩, ?_⟩
  · intro e he
    rcases Array.mem_push.mp he with he | rfl
    · exact hs.syntactic e he
    · exact ⟨hc, hf⟩
  · intro id prim span h hprim
    obtain ⟨e, he, herr⟩ := hs.errorType id prim span h hprim
    exact ⟨e, Array.mem_push.mpr (.inl he), herr⟩
  · intro h
    exact ⟨d, Array.mem_push.mpr (.inr rfl), h⟩

theorem ident_loads (hs : s.Sound f) (text : Text) (span : Span) :
    Ends (build (·.ident text span)) s fun i t => Loads f s t [] ∧ i.span = span := by
  rw [ends_build]
  refine ⟨⟨⟨hs.built.congr rfl rfl, ⟨hs.inFile.decls, hs.inFile.types⟩, hs.syntactic, hs.errorType⟩,
    (Tree.Grows.refl _).congr rfl rfl, ?_, rfl⟩, rfl⟩
  exact (Tree.loose_congr rfl).trans (List.append_nil _).symm

/-- A type is added; only after an error was reported it may be the error type. -/
theorem addType_loads (hs : s.Sound f) {e : TypeExpr} (hf : e.span.file = f)
    (ha : ∀ (elem : Nat) (span : Span), e = .array elem span →
      0 < elem ∧ elem ≤ s.tree.types.size)
    (herr : ∀ prim span, e = .primitive prim span → prim ∉ Primitive.keywords →
      ∃ d ∈ s.diagnostics, d.isError = true) :
    Loads f s { s with tree := (s.tree.addType e).1 } [] ∧
      (s.tree.addType e).1.type? (s.tree.addType e).2 = some e := by
  obtain ⟨hbuilt, hgrows, hget⟩ := Tree.addType_built hs.built ha
  refine ⟨⟨⟨hbuilt, ⟨hs.inFile.decls, ?_⟩, hs.syntactic, ?_⟩, hgrows, ?_, rfl⟩, ?_⟩
  · intro i o ho
    rw [hget] at ho
    split at ho
    · cases ho
      exact hf
    · exact hs.inFile.types i o ho
  · intro i prim span h
    change (s.tree.addType e).1.type? i = _ at h
    rw [hget] at h
    split at h
    · exact herr prim span (Option.some.inj h)
    · exact hs.errorType i prim span h
  · exact (Tree.loose_congr rfl).trans (List.append_nil _).symm
  · rw [hget]
    exact if_pos rfl

/-- A declaration is added; it takes its children from among those without a parent. -/
theorem Loads.of_added {t : LoadState} {u : Tree} {d : Decl} {new : List DeclId}
    (h : Loads f s t new) (hu : t.tree.Added u s.tree.loose d) (hfit : u.Fits d.subject)
    (hn : d.name.span.file = f) (hd : d.span.file = f) :
    Loads f s { t with tree := u } [t.tree.decls.size + 1] := by
  refine ⟨⟨hu.built.complete hu.decl hfit, ⟨?_, ?_⟩, h.sound.syntactic, ?_⟩,
    h.grows.trans hu.grows, hu.loose, hu.units.trans h.units⟩
  · intro i e he
    rcases hu.origin i e he with ⟨_, rfl⟩ | ⟨o, p, ho, rfl⟩
    · exact ⟨hn, hd⟩
    · exact h.sound.inFile.decls i o ho
  · intro i e he
    refine h.sound.inFile.types i e ?_
    rw [← he, Tree.type?, Tree.type?, hu.types]
  · intro i prim span he
    refine h.sound.errorType i prim span ?_
    rw [← he, Tree.type?, Tree.type?, hu.types]

/-- A declaration that fits is added without fail. -/
theorem Loads.addDecl {t : LoadState} (subject : Subject) (h : Loads f s t subject.children)
    (hfit : t.tree.Fits subject) {name : Ident} {span : Span} (hn : name.span.file = f)
    (hd : span.file = f) : ∃ u, t.tree.addDecl name span subject = (u, .ok (t.tree.decls.size + 1)) ∧
      u.decl? (t.tree.decls.size + 1) = some { name, span, subject } ∧
      Loads f s { t with tree := u } [t.tree.decls.size + 1] := by
  obtain ⟨ds, hds, hu⟩ := Tree.addDecl_built h.sound.built name span subject h.loose
  exact ⟨_, hds, hu.decl, h.of_added hu (hu.grows.fits hfit) hn hd⟩

end Steps

/-! ## Types -/

section Types

variable {file : SourceFile} {s : LoadState}

theorem line_ne_zero (n : Yaml.Node) : n.place.line ≠ 0 := n.place.above.succ_ne_zero

theorem spanOf_file (file : SourceFile) (n : Yaml.Node) : (spanOf file n).file = file.id := by
  rw [spanOf, if_neg (line_ne_zero n)]

theorem wrapArrays_loads {span : Span} (hspan : span.file = file.id) (n : Nat) {id : TypeExprId}
    (hs : s.Sound file.id) (hid : (s.tree.type? id).isSome) :
    Ends (wrapArrays span n id) s fun r t =>
      Loads file.id s t [] ∧ (t.tree.type? r).isSome := by
  induction n generalizing s id with
  | zero =>
    unfold wrapArrays
    rw [ends_pure]
    exact ⟨.refl hs, hid⟩
  | succ n ih =>
    obtain ⟨e, he⟩ := Option.isSome_iff_exists.mp hid
    have hle := numbered?_eq_some he
    have hne : id ≠ 0 := Nat.ne_of_gt hle.1
    have hadd : s.tree.addArray id span = ((s.tree.addType (.array id span)).1,
        .ok (s.tree.addType (.array id span)).2) := by
      simp only [Tree.addArray, hne, ↓reduceIte]
    unfold wrapArrays
    rw [ends_bind, ends_tryBuild hadd]
    obtain ⟨hl, hget⟩ := addType_loads hs (e := .array id span) hspan
      (by intro elem sp h; cases h; exact ⟨hle.1, hle.2.1⟩) (by intro q sp h; cases h)
    exact (ih hl.sound (by rw [hget]; rfl)).mono fun r t ⟨ht, hr⟩ => ⟨hl.trans ht, hr⟩

theorem addPrimitive_loads (hs : s.Sound file.id) {prim : Primitive} {span : Span}
    (hspan : span.file = file.id)
    (herr : prim ∉ Primitive.keywords → ∃ d ∈ s.diagnostics, d.isError = true) :
    Ends (build (·.addPrimitive prim span)) s fun r t =>
      Loads file.id s t [] ∧ (t.tree.type? r).isSome := by
  rw [ends_build]
  obtain ⟨hl, hget⟩ := addType_loads hs (e := .primitive prim span) hspan
    (by intro elem sp h; cases h) (by intro q sp h; cases h; exact herr)
  exact ⟨hl, Option.isSome_iff_exists.mpr ⟨_, hget⟩⟩

theorem addNamed_loads (hs : s.Sound file.id) {ident : Ident}
    (hspan : ident.span.file = file.id) :
    Ends (build (·.addNamed ident)) s fun r t =>
      Loads file.id s t [] ∧ t.tree.namedType? r = some ident := by
  rw [ends_build]
  obtain ⟨hl, hget⟩ := addType_loads hs (e := .named ident) hspan
    (by intro elem sp h; cases h) (by intro q sp h; cases h)
  refine ⟨hl, ?_⟩
  simp only [Tree.namedType?, Tree.addNamed, hget]

/-- A type that cannot be read is reported and becomes the error type. -/
theorem errorType_loads (hs : s.Sound file.id) {d : Diagnostic} {span : Span}
    (hc : d.code.family? = some (Text.ofString "SYN")) (hf : d.InFile file.id)
    (he : d.isError = true) (hspan : span.file = file.id) :
    Ends (do report d; build (·.addPrimitive .error span)) s fun r t =>
      Loads file.id s t [] ∧ (t.tree.type? r).isSome := by
  rw [ends_bind]
  refine (report_loads hs hc hf).mono fun _ t ⟨ht, herr⟩ => ?_
  exact (addPrimitive_loads ht.sound hspan fun _ => herr he).mono
    fun r u ⟨hu, hr⟩ => ⟨ht.trans hu, hr⟩

theorem typeOf_loads (hs : s.Sound file.id) (node : Option Yaml.Node) (what : Text)
    {owner : Span} (howner : owner.file = file.id) :
    Ends (typeOf file node what owner) s fun r t =>
      Loads file.id s t [] ∧ (t.tree.type? r).isSome := by
  have hmissing : Ends (do
      report (.error .badType owner (what ++ " has no type"))
      build (·.addPrimitive .error owner)) s fun r t =>
      Loads file.id s t [] ∧ (t.tree.type? r).isSome :=
    errorType_loads hs rfl (Diagnostic.inFile_error howner) rfl howner
  unfold typeOf
  split
  · next p tag style value =>
    split
    · exact hmissing
    · have hspan := spanOf_file file (.scalar p tag style value)
      -- Of the spans only the file matters here.
      generalize spanOf file (.scalar p tag style value) = span at hspan ⊢
      generalize TypeText.ofText value = text
      have hbase : (if span.start + text.base.length.toUInt32 ≤ span.stop then
          { span with stop := span.start + text.base.length.toUInt32 } else span).file =
            file.id := by
        split <;> exact hspan
      dsimp only
      generalize (if span.start + text.base.length.toUInt32 ≤ span.stop then
        { span with stop := span.start + text.base.length.toUInt32 } else span) = base at hbase ⊢
      split
      · next prim hprim =>
        rw [ends_bind]
        have hkey : prim ∈ Primitive.keywords := List.mem_of_find?_eq_some hprim
        refine (addPrimitive_loads hs hbase fun h => (h hkey).elim).mono fun id t ⟨ht, hid⟩ => ?_
        exact (wrapArrays_loads hspan _ ht.sound hid).mono
          fun r u ⟨hu, hr⟩ => ⟨ht.trans hu, hr⟩
      · split
        · rw [ends_bind]
          refine (ident_loads hs _ base).mono fun ident t ⟨ht, hident⟩ => ?_
          rw [ends_bind]
          refine (addNamed_loads ht.sound (by rw [hident, hbase])).mono fun id u ⟨hu, hid⟩ => ?_
          exact (wrapArrays_loads hspan _ hu.sound (by rw [Tree.type?_of_namedType? hid]; rfl)).mono
            fun r v ⟨hv, hr⟩ => ⟨(ht.trans hu).trans hv, hr⟩
        · exact errorType_loads hs rfl (Diagnostic.inFile_error hspan) rfl hspan
  · exact hmissing

/-- A clause names a type, or is reported and gives none. -/
theorem namedType_loads (hs : s.Sound file.id) (clause : Text) (node : Yaml.Node) :
    Ends (namedType file clause node) s fun r t =>
      Loads file.id s t [] ∧ (r = 0 ∨ (t.tree.namedType? r).isSome) := by
  unfold namedType
  dsimp only
  split
  · rw [ends_bind]
    refine (ident_loads hs _ _).mono fun ident t ⟨ht, hident⟩ => ?_
    refine (addNamed_loads ht.sound (by rw [hident, spanOf_file])).mono fun id u ⟨hu, hid⟩ => ?_
    exact ⟨ht.trans hu, .inr (Option.isSome_iff_exists.mpr ⟨_, hid⟩)⟩
  · rw [ends_bind]
    refine (report_loads hs rfl (Diagnostic.inFile_error (spanOf_file ..))).mono fun _ t ⟨ht, _⟩ => ?_
    exact ⟨ht, .inl rfl⟩

theorem baseType_loads (hs : s.Sound file.id) (node : Option Yaml.Node) :
    Ends (baseType file node) s fun r t =>
      Loads file.id s t [] ∧ (r = 0 ∨ (t.tree.namedType? r).isSome) := by
  cases node with
  | none => exact ⟨.refl hs, .inl rfl⟩
  | some n => exact namedType_loads hs _ n

theorem nameList_loads (hs : s.Sound file.id) (node : Yaml.Node) :
    Ends (nameList file node) s fun _ t => Loads file.id s t [] := by
  unfold nameList
  split
  · exact .refl hs
  · exact .refl hs
  · rw [ends_bind]
    exact (report_loads hs rfl (Diagnostic.inFile_error (spanOf_file ..))).mono fun _ t ⟨ht, _⟩ => ht

theorem namedTypes_loads (clause : Text) (nodes : List Yaml.Node) (hs : s.Sound file.id) :
    Ends (nodes.mapM (namedType file clause)) s fun ids t =>
      Loads file.id s t [] ∧ ∀ i ∈ ids, i = 0 ∨ (t.tree.namedType? i).isSome := by
  induction nodes generalizing s with
  | nil => exact ⟨.refl hs, by simp⟩
  | cons node nodes ih =>
    rw [List.mapM_cons, ends_bind]
    refine (namedType_loads hs clause node).mono fun i t ⟨ht, hi⟩ => ?_
    rw [ends_bind]
    refine (ih ht.sound).mono fun ids u ⟨hu, hids⟩ => ?_
    refine ⟨ht.trans hu, ?_⟩
    intro j hj
    rcases List.mem_cons.mp hj with rfl | hj
    · exact hi.imp_right hu.grows.namedType?_isSome
    · exact hids j hj

theorem implemented_loads (hs : s.Sound file.id) (node : Option Yaml.Node) :
    Ends (implemented file node) s fun ids t =>
      Loads file.id s t [] ∧ ∀ i ∈ ids, (t.tree.namedType? i).isSome := by
  unfold implemented
  split
  · exact ⟨.refl hs, by simp⟩
  · next node =>
    rw [ends_bind]
    refine (nameList_loads hs node).mono fun nodes t ht => ?_
    rw [ends_bind]
    refine (namedTypes_loads _ nodes ht.sound).mono fun ids u ⟨hu, hids⟩ => ?_
    refine ⟨ht.trans hu, ?_⟩
    intro i hi
    obtain ⟨hi, hne⟩ := List.mem_filter.mp hi
    exact (hids i hi).resolve_left (by simpa using hne)

end Types

/-! ## Functions -/

section Functions

variable {file : SourceFile} {s : LoadState}

theorem ends_nameText {ident : Ident} {post : Text → LoadState → Prop} :
    Ends (nameText ident) s post ↔ post (s.tree.names.get ident.name) s := Iff.rfl

theorem addFunctionIn_eq {t : Tree} {result : TypeExprId} {formals : List DeclId}
    (hv : ∀ v ∈ formals, t.isVariable v = true) (hr : (t.type? result).isSome)
    (state : FunctionState) (isPrototype : Bool) (name : Ident) (span : Span) :
    t.addFunctionIn state isPrototype name result formals span =
      t.addDecl name span (.function { result, formals, state, isPrototype }) := by
  have hne : result ≠ 0 := by
    rintro rfl
    cases hr
  have hfind : formals.find? (!t.isVariable ·) = none := by
    rw [List.find?_eq_none]
    intro v hv'
    simp [hv v hv']
  simp only [Tree.addFunctionIn, hne, ↓reduceIte, hfind]

theorem addVariable_loads (hs : s.Sound file.id) {name : Ident} {type : TypeExprId} {span : Span}
    (ht : (s.tree.type? type).isSome) (hn : name.span.file = file.id)
    (hspan : span.file = file.id) :
    Ends (tryBuild (·.addVariable name type span)) s fun id t =>
      Loads file.id s t [id] ∧ t.tree.isVariable id = true := by
  obtain ⟨u, hu, hd, hl⟩ := (Loads.refl hs).addDecl (.variable type) ht hn hspan
  have hne : type ≠ 0 := by
    rintro rfl
    cases ht
  have hadd : s.tree.addVariable name type span = (u, .ok (s.tree.decls.size + 1)) := by
    simp only [Tree.addVariable, hne, ↓reduceIte, hu]
  rw [ends_tryBuild hadd]
  exact ⟨hl, by simp [Tree.isVariable, Tree.variableType?, hd, Decl.variableType?]⟩

theorem loadFormals_loads (fn : Ident) (entries : List FormalEntry) (number : Nat)
    (hs : s.Sound file.id) :
    Ends (loadFormals file fn number entries) s fun ids t =>
      Loads file.id s t ids ∧ ∀ i ∈ ids, t.tree.isVariable i = true := by
  induction entries generalizing s number with
  | nil => exact ⟨.refl hs, by simp⟩
  | cons f rest ih =>
    -- A formal without a name is skipped.
    have hskip : Ends (do
        report (.error .missingName (spanOf file f.node)
          ("formal " ++ Text.ofNat number ++ " of '" ++ (← nameText fn) ++ "' has no name"))
        loadFormals file fn (number + 1) rest) s fun ids t =>
          Loads file.id s t ids ∧ ∀ i ∈ ids, t.tree.isVariable i = true := by
      rw [ends_bind, ends_nameText, ends_bind]
      refine (report_loads hs rfl (Diagnostic.inFile_error (spanOf_file ..))).mono fun _ t ⟨ht, _⟩ => ?_
      exact (ih _ ht.sound).mono fun ids u ⟨hu, hids⟩ => ⟨ht.trans hu, hids⟩
    unfold loadFormals
    cases f.name with
    | none => exact hskip
    | some name =>
      dsimp only
      split
      · exact hskip
      · rw [ends_bind]
        refine (ident_loads hs _ _).mono fun ident t ⟨ht, hident⟩ => ?_
        have hfile : ident.span.file = file.id := by rw [hident, spanOf_file]
        rw [ends_bind]
        refine (typeOf_loads ht.sound _ _ hfile).mono fun type u ⟨hu, htype⟩ => ?_
        rw [ends_bind]
        have hwhole := (Span.cover_file (spanOf file f.node) ident.span).trans (spanOf_file file f.node)
        refine (addVariable_loads hu.sound htype hfile hwhole).mono fun id v ⟨hv, hid⟩ => ?_
        rw [ends_bind]
        refine (ih _ hv.sound).mono fun ids w ⟨hw, hids⟩ => ?_
        refine ⟨((ht.trans hu).trans hv).trans hw, ?_⟩
        intro i hi
        rcases List.mem_cons.mp hi with rfl | hi
        · exact hw.grows.isVariable hid
        · exact hids i hi

/-- A prototype is added after its formals. -/
theorem addPrototype_loads {t : LoadState} {name : Ident} {result : TypeExprId}
    {formals : List DeclId} {span : Span} (h : Loads file.id s t formals)
    (hv : ∀ v ∈ formals, t.tree.isVariable v = true) (hr : (t.tree.type? result).isSome)
    (hn : name.span.file = file.id) (hspan : span.file = file.id) :
    Ends (tryBuild (·.addPrototype name result formals span)) t fun id u =>
      Loads file.id s u [id] ∧ u.tree.isPrototype id = true := by
  obtain ⟨u, hu, hd, hl⟩ := h.addDecl
    (.function { result, formals, state := .complete, isPrototype := true })
    ⟨hr, hv, rfl, by simp⟩ hn hspan
  have hadd := addFunctionIn_eq hv hr .complete true name span
  rw [ends_tryBuild (hadd.trans hu)]
  exact ⟨hl, by simp [Tree.isPrototype, Tree.function?_eq_some hd rfl]⟩

/-- A function with a body is added after its formals. -/
theorem addFunction_loads {t : LoadState} {name : Ident} {result : TypeExprId}
    {formals : List DeclId} {span : Span} (h : Loads file.id s t formals)
    (hv : ∀ v ∈ formals, t.tree.isVariable v = true) (hr : (t.tree.type? result).isSome)
    (hn : name.span.file = file.id) (hspan : span.file = file.id) (body : Span) :
    Ends (do
      let id ← tryBuild (·.addFunction name result formals span)
      let block ← build (·.addBlock body [])
      tryBuild (·.attachBody id block)
      return id) t fun id u => Loads file.id s u [id] ∧ (u.tree.function? id).isSome := by
  obtain ⟨ds, hds, hadded⟩ := Tree.addDecl_built h.sound.built name span
    (.function { result, formals }) h.loose
  have hadd := addFunctionIn_eq hv hr .signatureOnly false name span
  rw [ends_bind, ends_tryBuild (hadd.trans hds), ends_bind, ends_build, ends_bind]
  obtain ⟨es, hes, hfull⟩ := (hadded.addBlock body []).attachBody h.sound.built rfl rfl
    (Nat.succ_ne_zero _ : t.tree.blocks.size + 1 ≠ 0)
  rw [ends_tryBuild hes, ends_pure]
  refine ⟨h.of_added hfull ?_ hn hspan, ?_⟩
  · have htypes := hfull.grows.fits (s := .function
      { result, formals, body := t.tree.blocks.size + 1, state := .complete })
      ⟨hr, hv, rfl, by simp⟩
    exact htypes
  · exact Option.isSome_iff_exists.mpr ⟨_, Tree.function?_eq_some hfull.decl rfl⟩

theorem resultType_loads (hs : s.Sound file.id) {name : Ident} (hn : name.span.file = file.id)
    (node : Option Yaml.Node) :
    Ends (resultType file name node) s fun r t =>
      Loads file.id s t [] ∧ (t.tree.type? r).isSome := by
  cases node with
  | none => exact addPrimitive_loads hs hn fun h => (h (by decide)).elim
  | some n =>
    unfold resultType
    rw [ends_bind, ends_nameText]
    exact typeOf_loads hs _ _ hn

/-- A declaration that may stand in a place. -/
def Place.Allows (t : Tree) : Place → DeclId → Prop
  | top, _ => True
  | inClass, id => t.isVariable id = true ∨ (t.function? id).isSome
  | inInterface, id => t.isPrototype id = true

theorem Place.Allows.grows {t u : Tree} (hg : t.Grows u) {place : Place} {id : DeclId}
    (h : place.Allows t id) : place.Allows u id := by
  cases place with
  | top => trivial
  | inClass => exact Or.imp hg.isVariable hg.function?_isSome h
  | inInterface => exact hg.isPrototype h

theorem Place.allows_prototype {t : Tree} {id : DeclId} (h : t.isPrototype id = true)
    (place : Place) : place.Allows t id := by
  cases place with
  | top => trivial
  | inClass =>
    unfold Tree.isPrototype at h
    split at h
    · next hf => exact .inr (Option.isSome_iff_exists.mpr ⟨_, hf⟩)
    · cases h
  | inInterface => exact h

theorem addSignature_loads {t : LoadState} {name : Ident} {result : TypeExprId}
    {formals : List DeclId} {span : Span} (h : Loads file.id s t formals)
    (hv : ∀ v ∈ formals, t.tree.isVariable v = true) (hr : (t.tree.type? result).isSome)
    (hn : name.span.file = file.id) (hspan : span.file = file.id) (body : Option Yaml.Node)
    (place : Place) :
    Ends (addSignature file body name result formals span place) t fun id u =>
      Loads file.id s u [id] ∧ place.Allows u.tree id := by
  have hproto := (addPrototype_loads h hv hr hn hspan).mono fun id u ⟨hu, hp⟩ =>
    (⟨hu, place.allows_prototype hp⟩ : Loads file.id s u [id] ∧ place.Allows u.tree id)
  unfold addSignature
  split
  · exact hproto
  · split
    · exact hproto
    · split
      · rw [ends_bind, ends_nameText, ends_bind]
        refine (report_loads h.sound rfl (Diagnostic.inFile_error (spanOf_file ..))).mono fun _ u ⟨hu, _⟩ => ?_
        have hsu : Loads file.id s u formals := by simpa using h.trans hu
        have hvu : ∀ v ∈ formals, u.tree.isVariable v = true :=
          fun v hm => hu.grows.isVariable (hv v hm)
        exact (addPrototype_loads hsu hvu (hu.grows.type?_isSome hr) hn hspan).mono
          fun id w ⟨hw, hp⟩ => ⟨hw, place.allows_prototype hp⟩
      · next hplace =>
        refine (addFunction_loads h hv hr hn hspan _).mono fun id u ⟨hu, hf⟩ => ⟨hu, ?_⟩
        cases place with
        | top => trivial
        | inClass => exact .inr hf
        | inInterface => exact (hplace rfl).elim

theorem loadFunction_loads (e : Entry) {name : Ident} {whole : Span} (place : Place)
    (hs : s.Sound file.id) (hn : name.span.file = file.id) (hw : whole.file = file.id) :
    Ends (loadFunction file e name whole place) s fun id t =>
      Loads file.id s t [id] ∧ place.Allows t.tree id := by
  unfold loadFunction
  rw [ends_bind]
  refine (loadFormals_loads name e.formals 1 hs).mono fun formals t ⟨ht, hformals⟩ => ?_
  rw [ends_bind]
  refine (resultType_loads ht.sound hn e.returns).mono fun result u ⟨hu, hr⟩ => ?_
  have hsu : Loads file.id s u formals := by simpa using ht.trans hu
  exact addSignature_loads hsu (fun v hv => hu.grows.isVariable (hformals v hv)) hr hn hw _ place

theorem checkKeys_loads (kind : EntryKind) (keys : List Yaml.Node) (hs : s.Sound file.id) :
    Ends (checkKeys file kind keys) s fun _ t => Loads file.id s t [] := by
  induction keys generalizing s with
  | nil => exact .refl hs
  | cons k ks ih =>
    unfold checkKeys
    split
    · rw [ends_bind]
      refine (report_loads hs rfl ⟨spanOf_file file k, by intro n hn; cases hn⟩).mono fun _ t ⟨ht, _⟩ => ?_
      exact (ih ht.sound).mono fun _ u hu => ht.trans hu
    · exact ih hs

theorem checkEntryKeys_loads (e : Entry) (hs : s.Sound file.id) :
    Ends (checkEntryKeys file e) s fun _ t => Loads file.id s t [] := by
  unfold checkEntryKeys
  split
  · exact checkKeys_loads _ _ hs
  · exact .refl hs

end Functions

/-! ## Entries -/

theorem classify_error {file : SourceFile} {e : Entry} {place : Place} {d : Diagnostic}
    (h : classify file e place = .error d) :
    d.code.family? = some (Text.ofString "SYN") ∧ d.InFile file.id := by
  unfold classify at h
  split at h
  · cases h
    exact ⟨rfl, Diagnostic.inFile_error (spanOf_file ..)⟩
  · split at h
    · cases h
    · cases h
      exact ⟨rfl, Diagnostic.inFile_error (spanOf_file ..)⟩
  · cases h
    exact ⟨rfl, Diagnostic.inFile_error (spanOf_file ..)⟩

theorem isAllowed_of_classify {file : SourceFile} {e : Entry} {place : Place} {kind : EntryKind}
    {n : Yaml.Node} (h : classify file e place = .ok (kind, n)) : kind.isAllowed place = true := by
  unfold classify at h
  split at h
  · cases h
  · split at h
    · next ha =>
      cases h
      exact ha
    · cases h
  · cases h

theorem entryName_error {file : SourceFile} {e : Entry} {kind : EntryKind} {n : Yaml.Node}
    {d : Diagnostic} (h : entryName file e kind n = .error d) :
    d.code.family? = some (Text.ofString "SYN") ∧ d.InFile file.id := by
  unfold entryName at h
  dsimp only at h
  split at h
  · cases h
    exact ⟨rfl, Diagnostic.inFile_error (spanOf_file ..)⟩
  · split at h
    · cases h
      exact ⟨rfl, Diagnostic.inFile_error (spanOf_file ..)⟩
    · cases h

/-- An entry gives one declaration that may stand in its place, or none. -/
def EntryLoaded (file : SourceFile) (place : Place) (s : LoadState) (ids : List DeclId)
    (t : LoadState) : Prop :=
  Loads file.id s t ids ∧ ∀ i ∈ ids, place.Allows t.tree i

theorem skip_loads {file : SourceFile} {s t : LoadState} (ht : Loads file.id s t []) (place : Place)
    {d : Diagnostic} (h : d.code.family? = some (Text.ofString "SYN") ∧ d.InFile file.id) :
    Ends (do report d; return none) t fun (r : Option DeclId) u =>
      EntryLoaded file place s r.toList u := by
  rw [ends_bind]
  exact (report_loads ht.sound h.1 h.2).mono fun _ u ⟨hu, _⟩ => ⟨ht.trans hu, by simp⟩

theorem EntryLoaded.of_allows {file : SourceFile} {place : Place} {s t : LoadState} {id : DeclId}
    (h : Loads file.id s t [id]) (ha : place.Allows t.tree id) :
    EntryLoaded file place s [id] t :=
  ⟨h, by simpa using ha⟩

theorem Place.allows_variable {place : Place} {t : Tree} {id : DeclId}
    (hp : EntryKind.var.isAllowed place = true) (h : t.isVariable id = true) :
    place.Allows t id := by
  cases place with
  | top => trivial
  | inClass => exact .inl h
  | inInterface => cases hp

/-- Classes and interfaces stand at the top. -/
theorem Place.allows_type {place : Place} {kind : EntryKind} (hp : kind.isAllowed place = true)
    (hk : kind = .cls ∨ kind = .iface) (t : Tree) (id : DeclId) : place.Allows t id := by
  cases place with
  | top => trivial
  | inClass => rcases hk with rfl | rfl <;> cases hp
  | inInterface => rcases hk with rfl | rfl <;> cases hp

theorem addClass_loads {file : SourceFile} {s t : LoadState} {name : Ident} {c : ClassDecl}
    {span : Span} (h : Loads file.id s t c.members) (hfit : t.tree.Fits (.class c))
    (hn : name.span.file = file.id) (hspan : span.file = file.id) :
    Ends (tryBuild (·.addClass name c span)) t fun id u => Loads file.id s u [id] := by
  obtain ⟨u, hu, _, hl⟩ := h.addDecl (.class c) hfit hn hspan
  rw [ends_tryBuild hu]
  exact hl

theorem addInterface_loads {file : SourceFile} {s t : LoadState} {name : Ident}
    {members : List DeclId} {span : Span} (h : Loads file.id s t members)
    (hm : ∀ m ∈ members, t.tree.isPrototype m = true) (hn : name.span.file = file.id)
    (hspan : span.file = file.id) :
    Ends (tryBuild (·.addInterface name members span)) t fun id u => Loads file.id s u [id] := by
  obtain ⟨u, hu, _, hl⟩ := h.addDecl (.interface members) hm hn hspan
  have hadd : t.tree.addInterface name members span = (u, .ok (t.tree.decls.size + 1)) := by
    have hfind : members.find? (!t.tree.isPrototype ·) = none := by
      rw [List.find?_eq_none]
      intro m hm'
      simp [hm m hm']
    simp only [Tree.addInterface, hfind, hu]
  rw [ends_tryBuild hadd]
  exact hl

/-- The members of a class are there before its clauses are read. -/
theorem loadClass_loads {file : SourceFile} {s t : LoadState} {name : Ident}
    {members : List DeclId} {whole : Span} (h : EntryLoaded file .inClass s members t)
    (hn : name.span.file = file.id) (hw : whole.file = file.id)
    (base implements : Option Yaml.Node) :
    Ends (do
      let base ← baseType file base
      let implements ← implemented file implements
      tryBuild (·.addClass name { base, implements, members } whole)) t
      fun id u => Loads file.id s u [id] := by
  obtain ⟨ht, hm⟩ := h
  rw [ends_bind]
  refine (baseType_loads ht.sound base).mono fun b u ⟨hu, hb⟩ => ?_
  rw [ends_bind]
  refine (implemented_loads hu.sound implements).mono fun is v ⟨hv, his⟩ => ?_
  have hsv : Loads file.id s v members := by simpa using (ht.trans hu).trans hv
  refine addClass_loads hsv ⟨hb.imp_right hv.grows.namedType?_isSome, his, ?_⟩ hn hw
  exact fun m hm' => (hm m hm').grows (hu.grows.trans hv.grows)

mutual

theorem loadEntry_loads (file : SourceFile) (place : Place) : (e : Entry) → (s : LoadState) →
    s.Sound file.id →
    Ends (loadEntry file place e) s fun r t => EntryLoaded file place s r.toList t
  | ⟨node, keys, var, fn, cls, iface, type, returns, body, base, implements, formals, members⟩,
    s, hs => by
    unfold loadEntry
    rw [ends_bind]
    refine (checkEntryKeys_loads _ hs).mono fun _ t ht => ?_
    split
    · next hc => exact skip_loads ht place (classify_error hc)
    next kind nameNode hc =>
    have hplace := isAllowed_of_classify hc
    split
    · next he => exact skip_loads ht place (entryName_error he)
    next text _ =>
    rw [ends_bind]
    refine (ident_loads ht.sound text _).mono fun name u ⟨hu, hname⟩ => ?_
    have hsu : Loads file.id s u [] := ht.trans hu
    have hn : name.span.file = file.id := by rw [hname, spanOf_file]
    have hw := (Span.cover_file (spanOf file node) name.span).trans (spanOf_file file node)
    cases kind with
    | var =>
      dsimp only
      rw [ends_bind]
      refine (typeOf_loads hu.sound _ _ hn).mono fun ty v ⟨hv, hty⟩ => ?_
      rw [ends_map]
      exact (addVariable_loads hv.sound hty hn hw).mono fun id w ⟨hl, hvar⟩ =>
        .of_allows ((hsu.trans hv).trans hl) (Place.allows_variable hplace hvar)
    | fn =>
      dsimp only
      rw [ends_map]
      exact (loadFunction_loads _ place hu.sound hn hw).mono fun id w ⟨hl, hfun⟩ =>
        .of_allows (hsu.trans hl) hfun
    | cls =>
      dsimp only
      rw [ends_bind]
      refine (loadEntries_loads file .inClass members u hu.sound).mono fun ms v hv => ?_
      have hclass := loadClass_loads hv hn hw base implements
      simp only [ends_bind, ends_map] at hclass ⊢
      exact hclass.mono fun b x hx => hx.mono fun is y hy => hy.mono fun id w hl =>
        .of_allows (hsu.trans hl) (Place.allows_type hplace (.inl rfl) _ _)
    | iface =>
      dsimp only
      rw [ends_bind]
      refine (loadEntries_loads file .inInterface members u hu.sound).mono fun ms v ⟨hv, hms⟩ => ?_
      rw [ends_map]
      exact (addInterface_loads hv hms hn hw).mono fun id w hl =>
        .of_allows (hsu.trans hl) (Place.allows_type hplace (.inr rfl) _ _)

theorem loadEntries_loads (file : SourceFile) (place : Place) : (es : List Entry) →
    (s : LoadState) → s.Sound file.id →
    Ends (loadEntries file place es) s fun ids t => EntryLoaded file place s ids t
  | [], s, hs => by
    unfold loadEntries
    exact ⟨.refl hs, by simp⟩
  | e :: rest, s, hs => by
    unfold loadEntries
    rw [ends_bind]
    refine (loadEntry_loads file place e s hs).mono fun r t ⟨ht, hr⟩ => ?_
    rw [ends_bind]
    refine (loadEntries_loads file place rest t ht.sound).mono fun ids u ⟨hu, hids⟩ => ?_
    refine ⟨ht.trans hu, ?_⟩
    intro i hi
    rcases List.mem_append.mp hi with hi | hi
    · exact (hr i hi).grows hu.grows
    · exact hids i hi

end

/-! ## The whole file -/

/-- The declarations on the top level of a unit, in order. -/
theorem pushAll_units {t : Tree} {span : Span} (ids : List DeclId) {decls : List DeclId}
    (h : t.units = #[⟨span, decls⟩]) :
    ids.foldl (fun t id => (t.pushTop? 1 id).getD t) t =
      { t with units := #[⟨span, decls ++ ids⟩] } := by
  induction ids generalizing t decls with
  | nil =>
    obtain ⟨_, _, _, _, _⟩ := t
    subst h
    simp
  | cons id ids ih =>
    have hpush : (t.pushTop? 1 id).getD t = { t with units := #[⟨span, decls ++ [id]⟩] } := by
      simp [Tree.pushTop?, h, Array.modify, Array.modifyM]
    rw [List.foldl_cons, hpush, @ih _ (decls ++ [id]) rfl, List.append_assoc]
    rfl

theorem LoadState.Sound.start (f : FileId) (units : Array TopLevel) :
    LoadState.Sound f { tree := { units } } := by
  have hdecl : ∀ id, ({ units } : Tree).decl? id = none := by
    intro id
    cases id <;> rfl
  have htype : ∀ id, ({ units } : Tree).type? id = none := by
    intro id
    cases id <;> rfl
  refine ⟨⟨?_, ?_, ?_, ?_, ?_⟩, ⟨?_, ?_⟩, by simp, ?_⟩
  · intro id elem span h
    simp [htype] at h
  · intro id
    simp [Tree.children, hdecl]
  · intro p c h
    simp [Tree.children, hdecl] at h
  · intro c p h
    simp [Tree.parent?, hdecl] at h
  · intro id d h
    simp [hdecl] at h
  · intro id d h
    simp [hdecl] at h
  · intro id e h
    simp [htype] at h
  · intro id prim span h
    simp [htype] at h

theorem pushAll_loads {f : FileId} {t : LoadState} {span : Span} (hs : t.Sound f)
    (hu : t.tree.units = #[⟨span, []⟩]) :
    Ends (pushAll 1 t.tree.loose) t fun _ u =>
      u.Sound f ∧ u.tree.units = #[⟨span, u.tree.loose⟩] := by
  unfold pushAll
  rw [ends_build, pushAll_units t.tree.loose hu]
  refine ⟨⟨hs.built.congr rfl rfl, ⟨hs.inFile.decls, hs.inFile.types⟩, hs.syntactic,
    hs.errorType⟩, ?_⟩
  rw [Tree.loose_congr (t := t.tree) rfl]
  rfl

/-- Loading does not fail. The declarations without a parent are the top level of the unit. -/
theorem loadTop_loads (file : SourceFile) (entries : List Entry) :
    Ends (loadTop file entries) {} fun unit s => unit = 1 ∧ s.Sound file.id ∧
      s.tree.units = #[⟨⟨file.id, 0, file.size⟩, s.tree.loose⟩] := by
  unfold loadTop
  rw [ends_bind, ends_build, ends_bind]
  have hstart := LoadState.Sound.start file.id #[⟨⟨file.id, 0, file.size⟩, []⟩]
  refine (loadEntries_loads file .top entries _ hstart).mono fun ids t ⟨ht, _⟩ => ?_
  have hloose : t.tree.loose = ids := ht.loose
  subst hloose
  rw [ends_bind]
  exact (pushAll_loads ht.sound ht.units).mono fun _ u hu => ⟨rfl, hu⟩

/-- What loading gives for any entries. -/
theorem loadAll_ok (file : SourceFile) (entries : List Entry) : ∃ s : LoadState,
    s.Sound file.id ∧ s.tree.unit? 1 = some ⟨⟨file.id, 0, file.size⟩, s.tree.loose⟩ ∧
    loadAll file entries = .ok {
      tree := s.tree
      unit := 1
      globals := (Globals.collectFrom s.tree s.tree.loose {} #[]).1
      diagnostics := s.diagnostics ++ (Globals.collectFrom s.tree s.tree.loose {} #[]).2.1 } := by
  obtain ⟨unit, s, hrun, rfl, hs, hunits⟩ := (loadTop_loads file entries).run_eq
  have hunit : s.tree.unit? 1 = some ⟨⟨file.id, 0, file.size⟩, s.tree.loose⟩ := by
    simp [Tree.unit?, hunits, numbered?]
  refine ⟨s, hs, hunit, ?_⟩
  unfold loadAll
  rw [hrun]
  simp only [Globals.collect, hunit]

end Manifest

end DeclCheck

import DeclCheck.Proofs.Manifest.Identifiers
import DeclCheck.Proofs.Manifest.Loading
import DeclCheck.Proofs.Source.Numbering
import DeclCheck.Proofs.Text.Trimming
import Mathlib.Data.List.Perm.Subperm
import Mathlib.Logic.Function.Iterate

/-!
# The syntax of types

A type is spelled by a base and pairs of brackets behind it, each after blanks or none. Reading strips the
brackets from the end and puts the arrays on again from the base, so it comes to the type that is spelled, and
it reports a text exactly if it spells none. A type that is made of what can be spelled is read back from its
label.
-/
namespace DeclCheck

/-! ## Types as trees -/

/-- A written type with the texts of its names. -/
inductive TypeTree where
  | primitive (prim : Primitive)
  | named (name : Text)
  | array (elem : TypeTree)
  deriving DecidableEq, Repr

namespace TypeTree

/-- The type as it is spelled. -/
def label : TypeTree → Text
  | primitive prim => prim.label
  | named name => name
  | array elem => elem.label ++ "[]"

/-- The number of arrays around the base. -/
def depth : TypeTree → Nat
  | array elem => elem.depth + 1
  | _ => 0

/-- The type is made of built-in types that can be written and of names that are their own normal forms and
no keywords. -/
def Writable [Text.NormalForm] : TypeTree → Prop
  | primitive prim => prim ∈ Primitive.keywords
  | named name => Manifest.isIdentifier name = true ∧ name.normal = name ∧
      ∀ prim ∈ Primitive.keywords, prim.label ≠ name
  | array elem => elem.Writable

end TypeTree

namespace Tree

/-- A written type of a tree stands for a type. -/
inductive Stands (t : Tree) : TypeExprId → TypeTree → Prop
  | primitive {id : TypeExprId} {prim : Primitive} {span : Span}
      (h : t.type? id = some (.primitive prim span)) : Stands t id (.primitive prim)
  | named {id : TypeExprId} {ident : Ident} {name : Text} (h : t.type? id = some (.named ident))
      (hname : t.names.get ident.name = name) : Stands t id (.named name)
  | array {id elem : TypeExprId} {span : Span} {type : TypeTree}
      (h : t.type? id = some (.array elem span)) (helem : Stands t elem type) : Stands t id (.array type)

/-- The span of what is inside the arrays of a written type. -/
inductive BaseSpan (t : Tree) : TypeExprId → Span → Prop
  | primitive {id : TypeExprId} {prim : Primitive} {span : Span}
      (h : t.type? id = some (.primitive prim span)) : BaseSpan t id span
  | named {id : TypeExprId} {ident : Ident} (h : t.type? id = some (.named ident)) : BaseSpan t id ident.span
  | array {id elem : TypeExprId} {span base : Span}
      (h : t.type? id = some (.array elem span)) (helem : BaseSpan t elem base) : BaseSpan t id base

variable {t u : Tree} {id : TypeExprId} {type type' : TypeTree}

theorem Stands.type?_isSome (h : t.Stands id type) : (t.type? id).isSome := by
  cases h with
  | primitive h => rw [h]; rfl
  | named h _ => rw [h]; rfl
  | array h _ => rw [h]; rfl

theorem Stands.unique (h : t.Stands id type) (h' : t.Stands id type') : type = type' := by
  induction h generalizing type' with
  | primitive h =>
    cases h' with
    | primitive k => cases h.symm.trans k; rfl
    | named k _ => cases h.symm.trans k
    | array k _ => cases h.symm.trans k
  | named h hname =>
    cases h' with
    | primitive k => cases h.symm.trans k
    | named k kname =>
      cases h.symm.trans k
      rw [← hname, ← kname]
    | array k _ => cases h.symm.trans k
  | array h _ ih =>
    cases h' with
    | primitive k => cases h.symm.trans k
    | named k _ => cases h.symm.trans k
    | array k kelem =>
      cases h.symm.trans k
      rw [ih kelem]

/-- Further types do not matter. -/
theorem Stands.grows (h : t.Stands id type) (hn : u.names = t.names)
    (hg : ∀ (i : Nat) (e : TypeExpr), t.type? i = some e → u.type? i = some e) : u.Stands id type := by
  induction h with
  | primitive h => exact .primitive (hg _ _ h)
  | named h hname => exact .named (hg _ _ h) (hn ▸ hname)
  | array h _ ih => exact .array (hg _ _ h) ih

/-- A type that is added is there. -/
theorem type?_added (t : Tree) (e : TypeExpr) : (t.addType e).1.type? (t.addType e).2 = some e :=
  (type?_addType t e _).trans (if_pos rfl)

theorem stands_addPrimitive (t : Tree) (prim : Primitive) (span : Span) :
    (t.addPrimitive prim span).1.Stands (t.addPrimitive prim span).2 (.primitive prim) :=
  .primitive (t.type?_added (.primitive prim span))

theorem stands_addNamed (t : Tree) (ident : Ident) :
    (t.addNamed ident).1.Stands (t.addNamed ident).2 (.named (t.names.get ident.name)) :=
  .named (t.type?_added (.named ident)) rfl

theorem baseSpan_addPrimitive (t : Tree) (prim : Primitive) (span : Span) :
    (t.addPrimitive prim span).1.BaseSpan (t.addPrimitive prim span).2 span :=
  .primitive (t.type?_added (.primitive prim span))

theorem baseSpan_addNamed (t : Tree) (ident : Ident) :
    (t.addNamed ident).1.BaseSpan (t.addNamed ident).2 ident.span :=
  .named (t.type?_added (.named ident))

/-- The types of a tree stay where they are. -/
theorem type?_addType_of_some (e : TypeExpr) {i : Nat} {e' : TypeExpr} (h : t.type? i = some e') :
    (t.addType e).1.type? i = some e' := by
  have hle := type?_le h
  rw [type?_addType, if_neg (by omega)]
  exact h

theorem Stands.addType (h : t.Stands id type) (e : TypeExpr) : (t.addType e).1.Stands id type :=
  h.grows rfl fun _ _ hi => type?_addType_of_some e hi

theorem BaseSpan.addType {base : Span} (h : t.BaseSpan id base) (e : TypeExpr) : (t.addType e).1.BaseSpan id base := by
  induction h with
  | primitive h => exact .primitive (type?_addType_of_some e h)
  | named h => exact .named (type?_addType_of_some e h)
  | array h _ ih => exact .array (type?_addType_of_some e h) ih

/-! ## Labels -/

/-- The arrays around a base are different types of the tree. -/
theorem Stands.exists_chain (h : t.Stands id type) : ∃ ids : List TypeExprId,
    ids.length = type.depth + 1 ∧ ids.Nodup ∧
      ∀ i ∈ ids, ∃ elem, t.Stands i elem ∧ elem.depth ≤ type.depth := by
  induction h with
  | @primitive id prim span h =>
    refine ⟨[id], rfl, List.nodup_singleton id, fun i hi => ?_⟩
    rw [List.mem_singleton.mp hi]
    exact ⟨_, .primitive h, le_rfl⟩
  | @named id ident name h hname =>
    refine ⟨[id], rfl, List.nodup_singleton id, fun i hi => ?_⟩
    rw [List.mem_singleton.mp hi]
    exact ⟨_, .named h hname, le_rfl⟩
  | @array id elem span type h helem ih =>
    obtain ⟨ids, hlen, hnodup, hids⟩ := ih
    have hself : t.Stands id (.array type) := .array h helem
    have hnot : id ∉ ids := by
      intro hmem
      obtain ⟨other, hother, hle⟩ := hids id hmem
      rw [← hself.unique hother, TypeTree.depth] at hle
      omega
    refine ⟨id :: ids, by rw [List.length_cons, hlen]; rfl, List.nodup_cons.mpr ⟨hnot, hnodup⟩, ?_⟩
    intro i hi
    rcases List.mem_cons.mp hi with rfl | hi
    · exact ⟨_, hself, le_rfl⟩
    · obtain ⟨other, hother, hle⟩ := hids i hi
      exact ⟨other, hother, Nat.le_succ_of_le hle⟩

theorem Stands.depth_lt (h : t.Stands id type) : type.depth < t.types.size := by
  obtain ⟨ids, hlen, hnodup, hids⟩ := h.exists_chain
  have hsub : ids ⊆ List.range' 1 t.types.size := by
    intro i hi
    obtain ⟨elem, helem, _⟩ := hids i hi
    obtain ⟨e, he⟩ := Option.isSome_iff_exists.mp helem.type?_isSome
    have hle := numbered?_eq_some he
    rw [List.mem_range'_1]
    omega
  have hle := (hnodup.subperm hsub).length_le
  rw [List.length_range'] at hle
  omega

theorem Stands.labelWithin_eq (h : t.Stands id type) {fuel : Nat} (hf : type.depth < fuel) :
    t.labelWithin fuel id = type.label := by
  induction h generalizing fuel with
  | primitive h =>
    obtain ⟨n, rfl⟩ : ∃ n, fuel = n + 1 := ⟨fuel - 1, by omega⟩
    rw [labelWithin, h]
    rfl
  | named h hname =>
    obtain ⟨n, rfl⟩ : ∃ n, fuel = n + 1 := ⟨fuel - 1, by omega⟩
    rw [labelWithin, h]
    exact hname
  | array h _ ih =>
    rw [TypeTree.depth] at hf
    obtain ⟨n, rfl⟩ : ∃ n, fuel = n + 1 := ⟨fuel - 1, by omega⟩
    rw [labelWithin, h]
    dsimp only
    rw [ih (by omega)]
    rfl

/-- A type is labelled as it is spelled. -/
theorem Stands.typeLabel_eq (h : t.Stands id type) : t.typeLabel id = type.label :=
  h.labelWithin_eq (Nat.lt_succ_of_lt h.depth_lt)

end Tree

/-! ## Spellings -/

namespace Manifest

/-- The base of a type: a keyword, or another identifier. -/
inductive Base [Text.NormalForm] : Text → TypeTree → Prop
  | keyword {prim : Primitive} (h : prim ∈ Primitive.keywords) : Base prim.label (.primitive prim)
  | name {text : Text} (h : isIdentifier text = true)
      (hk : ∀ prim ∈ Primitive.keywords, prim.label ≠ text) : Base text (.named text.normal)

/-- A text spells a type: it is a base with any number of groups of blanks and brackets behind it. -/
inductive Spelling [Text.NormalForm] : Text → TypeTree → Prop
  | base {text : Text} {type : TypeTree} (h : Base text type) : Spelling text type
  | array {text : Text} {type : TypeTree} (h : Spelling text type) {blanks : List Char}
      (hb : ∀ c ∈ blanks, Text.isBlank c = true) :
      Spelling (text ++ Text.ofChars blanks ++ "[]") (.array type)

section Spelling

variable [Text.NormalForm] {text : Text} {type : TypeTree}

omit [Text.NormalForm] in
theorem isIdentifier_label : ∀ prim ∈ Primitive.keywords, isIdentifier prim.label = true := by
  decide +kernel

theorem Base.isIdentifier (h : Base text type) : Manifest.isIdentifier text = true := by
  cases h with
  | keyword h => exact isIdentifier_label _ h
  | name h _ => exact h

theorem Base.unique {type' : TypeTree} (h : Base text type) (h' : Base text type') : type = type' := by
  have hlabels : ∀ x ∈ Primitive.keywords, ∀ y ∈ Primitive.keywords, x.label = y.label → x = y := by
    decide +kernel
  cases h with
  | keyword h =>
    generalize htext : Primitive.label _ = label at h'
    cases h' with
    | keyword k => rw [hlabels _ h _ k htext]
    | name _ hk => exact (hk _ h htext).elim
  | name _ hk =>
    cases h' with
    | keyword k => exact (hk _ k rfl).elim
    | name _ _ => rfl

/-- What spells a type is well-formed UTF-8 without blanks at its ends. -/
theorem Spelling.exists_chars (h : Spelling text type) :
    ∃ cs, text = Text.ofChars cs ∧ Text.Trimmed (cs.map .char) ∧ cs ≠ [] := by
  induction h with
  | base h =>
    obtain ⟨c, cs, rfl, hc, hcs⟩ := isIdentifier_iff.mp h.isIdentifier
    refine ⟨c :: cs, rfl, Text.trimmed_of_forall fun x hx => ?_, List.cons_ne_nil _ _⟩
    obtain ⟨d, hd, rfl⟩ := List.mem_map.mp hx
    refine not_isBlank_of_wordPoint ?_
    rcases List.mem_cons.mp hd with rfl | hd
    · exact wordPoint_of_startPoint hc
    · exact hcs d hd
  | @array text type h blanks hb ih =>
    obtain ⟨cs, rfl, htrimmed, hne⟩ := ih
    obtain ⟨c, cs, rfl⟩ := List.exists_cons_of_ne_nil hne
    refine ⟨c :: cs ++ blanks ++ ['[', ']'], ?_, ⟨htrimmed.1, ?_⟩, by simp⟩
    · rw [Text.ofChars_append, Text.ofChars_append]
      rfl
    · intro x hx
      rw [List.map_append, List.getLast?_append] at hx
      cases hx
      rfl

omit [Text.NormalForm] in
theorem endsWith_iff {t s : Text} : t.endsWith s = true ↔ ∃ u, t = u ++ s := by
  rw [Text.endsWith, List.isSuffixOf_iff_suffix]
  exact exists_congr fun u => eq_comm

omit [Text.NormalForm] in
theorem take_brackets (u : Text) : (u ++ Text.ofString "[]").take ((u ++ Text.ofString "[]").length - 2) = u := by
  rw [List.length_append]
  exact List.take_left

/-- No bracket is a part of a base. -/
theorem Base.not_endsWith (h : Base text type) : text.endsWith "[]" = false := by
  obtain ⟨c, cs, rfl, hc, hcs⟩ := isIdentifier_iff.mp h.isIdentifier
  have hword : ∀ d ∈ c :: cs, wordPoint d.toNat = true :=
    List.forall_mem_cons.mpr ⟨wordPoint_of_startPoint hc, hcs⟩
  rw [Bool.eq_false_iff, ne_eq, endsWith_iff]
  rintro ⟨u, hu⟩
  have hmem : (93 : UInt8) ∈ Text.ofChars (c :: cs) := by
    rw [hu]
    exact List.mem_append_right _ (by decide)
  obtain ⟨d, hd, hbyte⟩ := List.mem_flatMap.mp hmem
  rcases Text.encode_cases d with ⟨hlt, hbytes⟩ | ⟨_, hbytes⟩
  · rw [hbytes, List.mem_singleton, ← UInt8.toNat_inj, Text.toNat_byte (by omega)] at hbyte
    have hpoint := hword d hd
    rw [← hbyte] at hpoint
    revert hpoint
    decide +kernel
  · exact absurd (hbytes _ hbyte) (by decide)

/-- What is left when the brackets are stripped is the base of what is spelled. -/
theorem spelling_of_strip {fuel n : Nat} {base : Text} (ht : Text.Trimmed (Text.pieces text))
    (h : stripArrays text fuel = (base, n)) (hb : Base base type) :
    Spelling text (TypeTree.array^[n] type) := by
  induction fuel generalizing text n with
  | zero =>
    cases h
    exact .base hb
  | succ fuel ih =>
    unfold stripArrays at h
    split at h
    · next hends =>
      obtain ⟨u, rfl⟩ := endsWith_iff.mp hends
      rw [take_brackets] at h
      obtain ⟨_, _, _, _, _, htrimmed⟩ := Text.pieces_trim u
      obtain ⟨blanks, hblanks, hall⟩ := Text.eq_trim_append ht.1
      cases hrest : stripArrays (Text.trim u) fuel with
      | mk base' m =>
        rw [hrest] at h
        cases h
        rw [Function.iterate_succ_apply', hblanks]
        exact .array (ih htrimmed hrest) hall
    · cases h
      exact .base hb

theorem strip_of_spelling (h : Spelling text type) {fuel : Nat} (hf : text.length ≤ fuel) :
    ∃ base n elem, stripArrays text fuel = (base, n) ∧ Base base elem ∧ type = TypeTree.array^[n] elem := by
  induction h generalizing fuel with
  | @base text type h =>
    refine ⟨text, 0, type, ?_, h, rfl⟩
    cases fuel with
    | zero => rfl
    | succ fuel => rw [stripArrays, h.not_endsWith, if_neg Bool.false_ne_true]
  | @array text type h blanks hb ih =>
    have hbrackets : (Text.ofString "[]").length = 2 := by decide
    rw [List.length_append, List.length_append, hbrackets] at hf
    obtain ⟨m, rfl⟩ : ∃ m, fuel = m + 1 := ⟨fuel - 1, by omega⟩
    have hm : text.length ≤ m := by omega
    obtain ⟨base, n, elem, hstrip, hbase, rfl⟩ := ih hm
    obtain ⟨cs, rfl, htrimmed, _⟩ := h.exists_chars
    refine ⟨base, n + 1, elem, ?_, hbase, by rw [Function.iterate_succ_apply']⟩
    rw [stripArrays, if_pos (endsWith_iff.mpr ⟨_, rfl⟩), take_brackets,
      Text.trim_ofChars_append htrimmed hb, hstrip]

/-- Taking a text apart gives the base and the arrays of what it spells. -/
theorem spelling_trim_iff (value : Text) (type : TypeTree) : Spelling (Text.trim value) type ↔
    ∃ elem, Base (TypeText.ofText value).base elem ∧
      type = TypeTree.array^[(TypeText.ofText value).depth] elem := by
  have hstrip : stripArrays (Text.trim value) (Text.trim value).length =
      ((TypeText.ofText value).base, (TypeText.ofText value).depth) := rfl
  constructor
  · intro h
    obtain ⟨base, n, elem, hrun, hbase, rfl⟩ := strip_of_spelling h (Nat.le_refl _)
    rw [hstrip] at hrun
    cases hrun
    exact ⟨elem, hbase, rfl⟩
  · rintro ⟨elem, hbase, rfl⟩
    obtain ⟨_, _, _, _, _, htrimmed⟩ := Text.pieces_trim value
    exact spelling_of_strip htrimmed hstrip hbase

/-! ## Reading -/

theorem base_of_ofKeyword? {prim : Primitive} (h : Primitive.ofKeyword? text = some prim) :
    Base text (.primitive prim) := by
  have hmem : prim ∈ Primitive.keywords := List.mem_of_find?_eq_some h
  have hlabel := List.find?_some h
  rw [← beq_iff_eq.mp hlabel]
  exact .keyword hmem

omit [Text.NormalForm] in
theorem label_ne_of_ofKeyword? (h : Primitive.ofKeyword? text = none) :
    ∀ prim ∈ Primitive.keywords, prim.label ≠ text := by
  intro prim hprim heq
  have hnot := List.find?_eq_none.mp h prim hprim
  exact hnot (beq_iff_eq.mpr heq)

variable {s : LoadState}

omit [Text.NormalForm] in
theorem wrapArrays_stands {id : TypeExprId} {base : Span} (h : s.tree.Stands id type) (hb : s.tree.BaseSpan id base)
    (span : Span) (n : Nat) :
    Ends (wrapArrays span n id) s fun r t =>
      t.diagnostics = s.diagnostics ∧ t.tree.Stands r (TypeTree.array^[n] type) ∧ t.tree.BaseSpan r base := by
  induction n generalizing s id type with
  | zero => exact ⟨rfl, h, hb⟩
  | succ n ih =>
    obtain ⟨e, he⟩ := Option.isSome_iff_exists.mp h.type?_isSome
    have hne : id ≠ 0 := Nat.ne_of_gt (numbered?_eq_some he).1
    have hadd : s.tree.addArray id span = ((s.tree.addType (.array id span)).1,
        .ok (s.tree.addType (.array id span)).2) := by
      simp only [Tree.addArray, hne, ↓reduceIte]
    unfold wrapArrays
    rw [ends_bind, ends_tryBuild hadd]
    have hadded := s.tree.type?_added (.array id span)
    exact ih (.array hadded (h.addType _)) (.array hadded (hb.addType _))

/-- The span of the base in a scalar with a given span. -/
def baseSpan (span : Span) (base : Text) : Span :=
  if span.start + base.length.toUInt32 ≤ span.stop then { span with stop := span.start + base.length.toUInt32 } else span

section Reading

variable (file : SourceFile) (place : Yaml.Place) (tag : Text) (style : Yaml.ScalarStyle) (what : Text)
  (owner : Span)

/-- A text with a base is read as what it spells, and nothing is reported. -/
theorem typeOf_of_base {value : Text} (hb : Base (TypeText.ofText value).base type) :
    Ends (typeOf file (some (.scalar place tag style value)) what owner) s fun r t =>
      t.diagnostics = s.diagnostics ∧
        t.tree.Stands r (TypeTree.array^[(TypeText.ofText value).depth] type) ∧
        t.tree.BaseSpan r (baseSpan (spanOf file (.scalar place tag style value)) (TypeText.ofText value).base) := by
  have hempty : (Text.trim value).isEmpty = false := by
    obtain ⟨cs, htrim, _, hne⟩ := ((spelling_trim_iff value _).mpr ⟨type, hb, rfl⟩).exists_chars
    have hle := Text.length_le_ofChars cs
    have hpos := List.length_pos_of_ne_nil hne
    rw [htrim, List.isEmpty_eq_false_iff]
    exact List.ne_nil_of_length_pos (by omega)
  unfold typeOf
  simp only [hempty, Bool.false_eq_true, ↓reduceIte]
  cases hkey : Primitive.ofKeyword? (TypeText.ofText value).base with
  | some prim =>
    obtain rfl := hb.unique (base_of_ofKeyword? hkey)
    dsimp only
    rw [ends_bind, ends_build]
    exact wrapArrays_stands (s.tree.stands_addPrimitive prim _) (s.tree.baseSpan_addPrimitive prim _) _ _
  | none =>
    obtain rfl := hb.unique (.name hb.isIdentifier (label_ne_of_ofKeyword? hkey))
    dsimp only
    rw [if_pos hb.isIdentifier, ends_bind, ends_build, ends_bind, ends_build]
    have hname := s.tree.names.get_intern (TypeText.ofText value).base.normal
    rw [← hname]
    exact wrapArrays_stands (Tree.stands_addNamed _ _) (Tree.baseSpan_addNamed _ _) _ _

/-- A text without a base is reported once, and read as the error type. -/
theorem typeOf_of_no_base {value : Text} (hb : ∀ type, ¬ Base (TypeText.ofText value).base type) :
    Ends (typeOf file (some (.scalar place tag style value)) what owner) s fun r t =>
      (∃ d, d.code = .badType ∧ t.diagnostics = s.diagnostics.push d) ∧
        t.tree.Stands r (.primitive .error) := by
  have hreport : ∀ (d : Diagnostic) (span : Span), d.code = .badType →
      Ends (do report d; build (·.addPrimitive .error span)) s fun r t =>
        (∃ d, d.code = .badType ∧ t.diagnostics = s.diagnostics.push d) ∧
          t.tree.Stands r (.primitive .error) := by
    intro d span hd
    rw [ends_bind, report, ends_modify, ends_build]
    exact ⟨⟨d, hd, rfl⟩, s.tree.stands_addPrimitive .error span⟩
  unfold typeOf
  dsimp only
  split
  · exact hreport _ _ rfl
  · cases hkey : Primitive.ofKeyword? (TypeText.ofText value).base with
    | some prim => exact (hb _ (base_of_ofKeyword? hkey)).elim
    | none =>
      have hname : ¬ isIdentifier (TypeText.ofText value).base = true := fun h =>
        hb _ (.name h (label_ne_of_ofKeyword? hkey))
      dsimp only
      rw [if_neg hname]
      exact hreport _ _ rfl

theorem typeOf_of_spelling {value : Text} (h : Spelling (Text.trim value) type) :
    Ends (typeOf file (some (.scalar place tag style value)) what owner) s fun r t =>
      t.diagnostics = s.diagnostics ∧ t.tree.Stands r type := by
  obtain ⟨elem, hbase, rfl⟩ := (spelling_trim_iff value type).mp h
  exact (typeOf_of_base file place tag style what owner hbase).mono fun _ _ h => ⟨h.1, h.2.1⟩

theorem typeOf_of_no_spelling {value : Text} (h : ¬ ∃ type, Spelling (Text.trim value) type) :
    Ends (typeOf file (some (.scalar place tag style value)) what owner) s fun r t =>
      (∃ d, d.code = .badType ∧ t.diagnostics = s.diagnostics.push d) ∧
        t.tree.Stands r (.primitive .error) :=
  typeOf_of_no_base file place tag style what owner fun type hbase =>
    h ⟨_, (spelling_trim_iff value _).mpr ⟨type, hbase, rfl⟩⟩

end Reading

/-- A text spells one type. -/
theorem Spelling.unique {value : Text} {type' : TypeTree} (h : Spelling (Text.trim value) type)
    (h' : Spelling (Text.trim value) type') : type = type' := by
  obtain ⟨elem, hbase, rfl⟩ := (spelling_trim_iff value type).mp h
  obtain ⟨elem', hbase', rfl⟩ := (spelling_trim_iff value type').mp h'
  rw [hbase.unique hbase']

omit [Text.NormalForm] in
theorem push_ne_self {α : Type} (xs : Array α) (x : α) : xs.push x ≠ xs := by
  intro h
  have hsize := congrArg Array.size h
  rw [Array.size_push] at hsize
  omega

/-- What can be written is spelled by its label. -/
theorem spelling_label (h : type.Writable) : Spelling type.label type := by
  induction type with
  | primitive prim => exact .base (.keyword h)
  | named name =>
    obtain ⟨hname, hnormal, hk⟩ := h
    have hbase := Base.name hname hk
    rw [hnormal] at hbase
    exact .base hbase
  | array elem ih =>
    have harray : Spelling (elem.label ++ Text.ofChars [] ++ Text.ofString "[]") (.array elem) :=
      .array (ih h) (by simp)
    rwa [Text.ofChars, List.flatMap_nil, List.append_nil] at harray

theorem Spelling.trim_eq (h : Spelling text type) : Text.trim text = text := by
  obtain ⟨cs, rfl, htrimmed, _⟩ := h.exists_chars
  have htrim : Text.trim (Text.ofChars cs ++ Text.ofChars []) = Text.ofChars cs :=
    Text.trim_ofChars_append htrimmed (by simp)
  have hnil : Text.ofChars [] = [] := rfl
  rwa [hnil, List.append_nil] at htrim

/-- Whatever was loaded before, a scalar is read without a report exactly if its text spells a type
between blanks, and then as the type that it spells; otherwise it is reported once and read as the
error type. The label of a type that can be written is read as that type again. -/
theorem type_read_iff_spelled (file : SourceFile) (place : Yaml.Place) (tag : Text)
    (style : Yaml.ScalarStyle) (what : Text) (owner : Span) (s : LoadState) :
    (∀ value, Ends (typeOf file (some (.scalar place tag style value)) what owner) s fun id t =>
      (t.diagnostics = s.diagnostics ↔ ∃ type, Spelling (Text.trim value) type) ∧
      (∀ type, Spelling (Text.trim value) type → t.tree.Stands id type) ∧
      ((¬ ∃ type, Spelling (Text.trim value) type) →
        (∃ d, d.code = .badType ∧ t.diagnostics = s.diagnostics.push d) ∧
          t.tree.Stands id (.primitive .error))) ∧
    ∀ (u : Tree) (id : TypeExprId) (type : TypeTree), u.Stands id type → type.Writable →
      Ends (typeOf file (some (.scalar place tag style (u.typeLabel id))) what owner) s fun id t =>
        t.diagnostics = s.diagnostics ∧ t.tree.Stands id type := by
  refine ⟨fun value => ?_, fun u id type hu hw => ?_⟩
  · by_cases hex : ∃ type, Spelling (Text.trim value) type
    · obtain ⟨type, h⟩ := hex
      refine (typeOf_of_spelling file place tag style what owner h).mono fun id t ⟨hdiags, hstands⟩ => ?_
      refine ⟨iff_of_true hdiags ⟨type, h⟩, fun type' h' => ?_, fun hnone => (hnone ⟨type, h⟩).elim⟩
      exact h.unique h' ▸ hstands
    · refine (typeOf_of_no_spelling file place tag style what owner hex).mono fun id t hread => ?_
      obtain ⟨⟨d, hd, hdiags⟩, hstands⟩ := hread
      refine ⟨iff_of_false (fun hsame => ?_) hex, fun type h => (hex ⟨type, h⟩).elim,
        fun _ => ⟨⟨d, hd, hdiags⟩, hstands⟩⟩
      exact push_ne_self _ _ (hdiags.symm.trans hsame)
  · rw [hu.typeLabel_eq]
    have hlabel := spelling_label hw
    exact typeOf_of_spelling file place tag style what owner (hlabel.trim_eq.symm ▸ hlabel)

end Spelling

/-- Blanks between the brackets of a type do not matter, and an array of numbers is read from its
label. -/
theorem measures_read :
    (Ends (typeOf {} (some (.scalar (.on 1 1) [] .plain " Größe\t[] []")) [] {}) {} fun id t =>
      t.diagnostics = #[] ∧ t.tree.Stands id (.array (.array (.named "Größe")))) ∧
    ∃ (u : Tree) (id : TypeExprId), u.typeLabel id = Text.ofString "int[]" ∧
      Ends (typeOf {} (some (.scalar (.on 1 1) [] .plain (u.typeLabel id))) [] {}) {} fun id t =>
        t.diagnostics = #[] ∧ t.tree.Stands id (.array (.primitive .int)) := by
  obtain ⟨hscalar, hlabel⟩ := type_read_iff_spelled {} (.on 1 1) [] .plain [] {} {}
  constructor
  · have hnormal : (Text.ofString "Größe").normal = Text.ofString "Größe" := by decide +kernel
    have hbase : Base (Text.ofString "Größe") (.named (Text.ofString "Größe").normal) :=
      .name (by decide +kernel) (by decide +kernel)
    rw [hnormal] at hbase
    have htrim : Text.trim (Text.ofString " Größe\t[] []") = Text.ofString "Größe" ++
        Text.ofChars ['\t'] ++ Text.ofString "[]" ++ Text.ofChars [' '] ++ Text.ofString "[]" := by
      decide +kernel
    have hspelling : Spelling (Text.trim (Text.ofString " Größe\t[] []"))
        (.array (.array (.named (Text.ofString "Größe")))) := by
      rw [htrim]
      exact .array (.array (.base hbase) (List.forall_mem_singleton.mpr rfl)) (List.forall_mem_singleton.mpr rfl)
    refine Ends.mono (hscalar (Text.ofString " Größe\t[] []")) ?_
    rintro id t ⟨hdiags, hstands, _⟩
    exact ⟨hdiags.mpr ⟨_, hspelling⟩, hstands _ hspelling⟩
  · obtain ⟨u, hstands, hint⟩ : ∃ u : Tree, u.Stands 2 (.array (.primitive .int)) ∧
        u.typeLabel 2 = Text.ofString "int[]" :=
      ⟨{ types := #[.primitive .int {}, .array 1 {}] }, .array rfl (.primitive rfl), by decide +kernel⟩
    have hkeyword : Primitive.int ∈ Primitive.keywords := by decide
    exact ⟨u, 2, hint, hlabel u 2 _ hstands hkeyword⟩

end Manifest

end DeclCheck

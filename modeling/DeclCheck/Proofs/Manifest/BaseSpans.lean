import DeclCheck.Proofs.Manifest.Places
import DeclCheck.Proofs.Manifest.TypeSyntax

/-!
# Where the base of a type is written

The span of a scalar starts at its first byte, which is a quote if it has quotes. The span of the base of a type
starts there too, and is as long as the base. So it covers the base if there are no quotes. Between quotes it
covers the first of them and lacks the last byte of the base.
-/
namespace DeclCheck.Manifest

open Yaml

/-! ## Brackets behind a base -/

/-- So many pairs of brackets. -/
def arrayMarks (n : Nat) : Text := (List.replicate n (Text.ofString "[]")).flatten

theorem arrayMarks_succ (n : Nat) : arrayMarks (n + 1) = arrayMarks n ++ Text.ofString "[]" := by
  rw [arrayMarks, List.replicate_succ', List.flatten_append, List.flatten_singleton, arrayMarks]

variable {base : Text} {type : TypeTree}

theorem spelling_arrayMarks (h : Base base type) (n : Nat) :
    Spelling (base ++ arrayMarks n) (TypeTree.array^[n] type) := by
  induction n with
  | zero =>
    rw [arrayMarks, List.replicate_zero, List.flatten_nil, List.append_nil]
    exact .base h
  | succ n ih =>
    have hnil : Text.ofChars [] = [] := rfl
    have harray : Spelling (base ++ arrayMarks n ++ Text.ofChars [] ++ "[]") (.array (TypeTree.array^[n] type)) :=
      .array ih fun c hc => absurd hc List.not_mem_nil
    rw [hnil, List.append_nil] at harray
    rwa [arrayMarks_succ, ← List.append_assoc, Function.iterate_succ_apply']

theorem stripArrays_arrayMarks (h : Base base type) (n : Nat) {fuel : Nat}
    (hf : (base ++ arrayMarks n).length ≤ fuel) : stripArrays (base ++ arrayMarks n) fuel = (base, n) := by
  induction n generalizing fuel with
  | zero =>
    have hnil : arrayMarks 0 = [] := rfl
    rw [hnil, List.append_nil]
    cases fuel with
    | zero => rfl
    | succ fuel => rw [stripArrays, h.not_endsWith, if_neg Bool.false_ne_true]
  | succ n ih =>
    have hlength : (Text.ofString "[]").length = 2 := by decide
    rw [arrayMarks_succ, ← List.append_assoc] at hf ⊢
    rw [List.length_append, hlength] at hf
    obtain ⟨fuel, rfl⟩ : ∃ m, fuel = m + 1 := ⟨fuel - 1, by omega⟩
    rw [stripArrays, if_pos (endsWith_iff.mpr ⟨_, rfl⟩), take_brackets, (spelling_arrayMarks h n).trim_eq,
      ih (by omega)]

/-- A base with brackets directly behind it is taken apart into the two. -/
theorem ofText_arrayMarks (h : Base base type) (n : Nat) : TypeText.ofText (base ++ arrayMarks n) = ⟨base, n⟩ := by
  unfold TypeText.ofText
  rw [(spelling_arrayMarks h n).trim_eq]
  dsimp only
  rw [stripArrays_arrayMarks h n le_rfl]

/-! ## Scalars on one line -/

/-- The quote before and behind the text of a scalar that is written on one line without escapes. -/
inductive Quotes : ScalarStyle → Text → Prop
  | plain : Quotes .plain []
  | single : Quotes .singleQuoted (Text.ofString "'")
  | double : Quotes .doubleQuoted (Text.ofString "\"")

/-- The span of `part` where it stands behind `before`. -/
def Covers (span : Span) (before part : Text) : Prop :=
  span.start.toNat = before.length ∧ span.stop.toNat = before.length + part.length

theorem Quotes.length_eq {style : ScalarStyle} {quote : Text} (h : Quotes style quote) :
    quote.length = if style = .plain then 0 else 1 := by
  cases h <;> decide

/-- A scalar covers its text with the quotes. -/
theorem covers_spanOf {file : SourceFile} (hsize : file.content.length < UInt32.size) {style : ScalarStyle}
    {quote value before after : Text} (hquote : Quotes style quote)
    (hcontent : file.content = before ++ (quote ++ value ++ quote) ++ after) {place : Yaml.Place} {tag : Text}
    (hstart : (spanOf file (.scalar place tag style value)).start.toNat = before.length) :
    Covers (spanOf file (.scalar place tag style value)) before (quote ++ value ++ quote) := by
  refine ⟨hstart, ?_⟩
  have hword : UInt32.size = 4294967296 := rfl
  have hlength := congrArg List.length hcontent
  simp only [List.length_append] at hlength ⊢
  have hfile : file.size.toNat = file.content.length := UInt32.toNat_ofNat_of_lt' hsize
  have hmarks :
      (if (Node.scalar place tag style value).isQuoted then (2 : UInt32) else 0).toNat = 2 * quote.length := by
    cases hquote <;> rfl
  rw [spanOf, if_neg (line_ne_zero _)] at hstart ⊢
  dsimp only at hstart ⊢
  generalize file.offset _ + _ = start at hstart ⊢
  generalize (if (Node.scalar place tag style value).isQuoted then (2 : UInt32) else 0) = marks at hmarks ⊢
  have hstop : (start + value.length.toUInt32 + marks).toNat = before.length + value.length + 2 * quote.length := by
    rw [UInt32.toNat_add, UInt32.toNat_add, Nat.toUInt32_eq, UInt32.toNat_ofNat']
    omega
  have hclamp : ¬ file.size < start + value.length.toUInt32 + marks := by
    rw [UInt32.lt_iff_toNat_lt]
    omega
  have hscalar : (Node.scalar place tag style value).isScalar = true := rfl
  have hvalue : (Node.scalar place tag style value).value = value := rfl
  rw [if_pos hscalar, hvalue, if_neg hclamp, hstop]
  omega

/-! ## The span of a base -/

theorem length_take_quoted (quote base : Text) : ((quote ++ base).take base.length).length = base.length := by
  rw [List.length_take, List.length_append]
  omega

/-- The span of a base starts where the scalar starts, and is as long as the base. -/
theorem covers_baseSpan {span : Span} {before quote rest : Text}
    (hspan : Covers span before (quote ++ (base ++ rest) ++ quote)) :
    Covers (baseSpan span base) before ((quote ++ base).take base.length) := by
  obtain ⟨hstart, hstop⟩ := hspan
  have hword : span.stop.toNat < 4294967296 := UInt32.toNat_lt _
  simp only [List.length_append] at hstop
  have hend : (span.start + base.length.toUInt32).toNat = before.length + base.length := by
    rw [UInt32.toNat_add, Nat.toUInt32_eq, UInt32.toNat_ofNat']
    omega
  have hfits : span.start + base.length.toUInt32 ≤ span.stop := by
    rw [UInt32.le_iff_toNat_le]
    omega
  rw [baseSpan, if_pos hfits]
  exact ⟨hstart, by rw [length_take_quoted]; exact hend⟩

theorem file_baseSpan (span : Span) (base : Text) : (baseSpan span base).file = span.file := by
  unfold baseSpan
  split <;> rfl

/-- Where a base and brackets are written as a scalar, the base is built without a report, and its span covers as
many bytes from the start of the scalar as the base has. These are the base exactly if there are no quotes. -/
theorem base_span_covers_iff {file : SourceFile} (hsize : file.content.length < UInt32.size) {style : ScalarStyle}
    {quote before after : Text} {depth : Nat} (hquote : Quotes style quote) (hbase : Base base type)
    (hcontent : file.content = before ++ (quote ++ (base ++ arrayMarks depth) ++ quote) ++ after)
    {place : Yaml.Place} {tag : Text}
    (hstart : (spanOf file (.scalar place tag style (base ++ arrayMarks depth))).start.toNat = before.length)
    (what : Text) (owner : Span) (s : LoadState) :
    Ends (typeOf file (some (.scalar place tag style (base ++ arrayMarks depth))) what owner) s fun id t =>
      t.diagnostics = s.diagnostics ∧ t.tree.Stands id (TypeTree.array^[depth] type) ∧
        ∃ span, t.tree.BaseSpan id span ∧ span.file = file.id ∧
          Covers span before ((quote ++ base).take base.length) ∧
          (Covers span (before ++ quote) base ↔ style = .plain) := by
  have hscalar := covers_spanOf hsize hquote hcontent hstart
  have hcovers := covers_baseSpan hscalar
  have hparts := ofText_arrayMarks hbase depth
  have hread := typeOf_of_base (s := s) file place tag style what owner (by rw [hparts]; exact hbase)
  rw [hparts] at hread
  refine hread.mono fun id t h => ⟨h.1, h.2.1, _, h.2.2, (file_baseSpan ..).trans (spanOf_file ..), hcovers, ?_⟩
  obtain ⟨hfrom, hto⟩ := hcovers
  have hlength := hquote.length_eq
  rw [length_take_quoted] at hto
  unfold Covers
  rw [hfrom, hto, List.length_append]
  by_cases hstyle : style = .plain
  · rw [if_pos hstyle] at hlength
    exact ⟨fun _ => hstyle, fun _ => ⟨by omega, by omega⟩⟩
  · rw [if_neg hstyle] at hlength
    exact ⟨fun h => by omega, fun h => absurd h hstyle⟩

/-- The type of the first variable of a document, if it can be read. -/
def firstType? (t : Text) : Option Node := do
  let entries ← (decode t).toOption
  (← entries.head?).type

/-- What a scalar is made of. -/
def scalarParts? : Node → Option (Yaml.Place × Text × ScalarStyle × Text)
  | .scalar place tag style value => some (place, tag, style, value)
  | _ => none

theorem eq_scalar_of_parts {n : Option Node} {place : Yaml.Place} {tag value : Text} {style : ScalarStyle}
    (h : n.bind scalarParts? = some (place, tag, style, value)) : n = some (.scalar place tag style value) := by
  obtain ⟨n, rfl, hn⟩ := Option.bind_eq_some_iff.mp h
  cases n with
  | scalar => cases hn; rfl
  | sequence => cases hn
  | mapping => cases hn
  | reference => cases hn

/-- A document with a type between quotes. -/
def quotedType : Text := "decls:\n- var: x\n  type: \"int\"\n"

/-- A document with a type without quotes, behind longer characters. -/
def bareType : Text := "decls: # Größe\n- var: x\n  type: Maß[][]"

/-- Of a name between quotes the span holds the first quote and not the last letter; of one without quotes it holds
the name, also before brackets. -/
theorem quoted_base_not_covered :
    (∃ n, firstType? quotedType = some n ∧
      Ends (typeOf (fileOf quotedType) (some n) "variable" ⟨0, 0, 0⟩) {} fun id t =>
        ∃ span, t.tree.BaseSpan id span ∧ Covers span "decls:\n- var: x\n  type: " "\"in" ∧
          ¬ Covers span "decls:\n- var: x\n  type: \"" "int") ∧
    ∃ n, firstType? bareType = some n ∧
      Ends (typeOf (fileOf bareType) (some n) "variable" ⟨0, 0, 0⟩) {} fun id t =>
        ∃ span, t.tree.BaseSpan id span ∧ Covers span "decls: # Größe\n- var: x\n  type: " "Maß" := by
  have hkey : Primitive.int ∈ Primitive.keywords := by decide
  have hint : Base "int" (.primitive .int) := Base.keyword hkey
  have hname : Base "Maß" (.named (Text.normal "Maß")) := .name (by decide +kernel) (by decide +kernel)
  have hquoted : (fileOf quotedType).content =
      "decls:\n- var: x\n  type: " ++ ("\"" ++ ("int" ++ arrayMarks 0) ++ "\"") ++ "\n" := by decide +kernel
  have hbare : (fileOf bareType).content = Text.ofString "decls: # Größe\n- var: x\n  type: " ++
      (([] : Text) ++ (Text.ofString "Maß" ++ arrayMarks 2) ++ []) ++ [] := by decide +kernel
  have hquote :
      (spanOf (fileOf quotedType) (.scalar (.on 3 9) Tag.str .doubleQuoted ("int" ++ arrayMarks 0))).start.toNat =
        (Text.ofString "decls:\n- var: x\n  type: ").length := by decide +kernel
  have hletter : (spanOf (fileOf bareType) (.scalar (.on 3 9) Tag.str .plain ("Maß" ++ arrayMarks 2))).start.toNat =
      (Text.ofString "decls: # Größe\n- var: x\n  type: ").length := by decide +kernel
  refine ⟨⟨.scalar (.on 3 9) Tag.str .doubleQuoted ("int" ++ arrayMarks 0), eq_scalar_of_parts (by decide +kernel), ?_⟩,
    .scalar (.on 3 9) Tag.str .plain ("Maß" ++ arrayMarks 2), eq_scalar_of_parts (by decide +kernel), ?_⟩
  · have hread := base_span_covers_iff (by decide +kernel) .double hint hquoted hquote "variable" ⟨0, 0, 0⟩ {}
    refine hread.mono ?_
    rintro id t ⟨_, _, span, hspan, _, hcovers, hiff⟩
    exact ⟨span, hspan, hcovers, fun h => ScalarStyle.noConfusion (hiff.mp h)⟩
  · have hread := base_span_covers_iff (by decide +kernel) .plain hname hbare hletter "variable" ⟨0, 0, 0⟩ {}
    refine hread.mono ?_
    rintro id t ⟨_, _, span, hspan, _, hcovers, _⟩
    exact ⟨span, hspan, hcovers⟩

end DeclCheck.Manifest

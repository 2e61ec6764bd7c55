import DeclCheck.Proofs.Manifest.TypeSyntax
import DeclCheck.Proofs.Text.NormalForm

/-!
# Spellings of a name

Names are numbered by their normal form, but it is the text as written that has to be an identifier. Marks are
no letters, so a name with a character that stands for a letter with marks has a spelling that is not accepted. A name
without such characters is accepted in every spelling, unless its normal form needs a joiner; the syllables of Hangul
stand for letters only, and are as good as these.
-/
namespace DeclCheck

namespace Manifest

open Text

/-! ## Letters and what they stand for -/

theorem startPoint_hangul {n : Nat} (h : 0x1100 ≤ n ∧ n < 0x11C3 ∨ isHangul n = true) :
    startPoint n = true := by
  rw [startPoint, isLetter_hangul h, Bool.or_true]

/-- What joins with the character before it is neither in a word nor a blank nor a bracket. -/
theorem second_outside {n : Nat} (h : Second n) :
    wordPoint n = false ∧ n ∉ blankPoints ∧ 0x300 ≤ n := by
  obtain ⟨c, a, hmem⟩ := h
  obtain ⟨hlow, _⟩ := tables_agree.second_whole _ hmem
  obtain ⟨hletter, hdigit⟩ := tables_agree.second_bits _ hmem
  have hblank : ∀ p ∈ canonicalPairs, (rangeBits (blankPoints.map fun n => (n, n))).testBit p.2.2 = false := by
    decide +kernel
  refine ⟨?_, fun hn => ?_, hlow⟩
  · have hunder : (n == 0x5F) = false := beq_false_of_ne (by dsimp only at hlow; omega)
    rw [wordPoint, startPoint, hunder, inRanges_eq_false hletter, inRanges_eq_false hdigit]
    rfl
  · have hbit := hblank _ hmem
    rw [testBit_rangeBits.mpr ⟨_, List.mem_map_of_mem hn, Nat.le_refl _, Nat.le_refl _⟩] at hbit
    cases hbit

/-- Code points that are letters alike, and no digits and no underscores, are alike in identifiers. -/
theorem points_of_bits {c a : Nat}
    (hletter : (rangeBits letterRanges).testBit c = (rangeBits letterRanges).testBit a)
    (hdigit : (rangeBits digitRanges).testBit c = false) (hdigit' : (rangeBits digitRanges).testBit a = false)
    (hne : c ≠ 0x5F) (hne' : a ≠ 0x5F) :
    startPoint c = startPoint a ∧ wordPoint c = startPoint c ∧ wordPoint a = startPoint a := by
  have hnot : ∀ {n}, (rangeBits digitRanges).testBit n = false → wordPoint n = startPoint n := by
    intro n hn
    rw [wordPoint, inRanges_eq_false hn, Bool.or_false]
  refine ⟨?_, hnot hdigit, hnot hdigit'⟩
  rw [startPoint, startPoint, beq_false_of_ne hne, beq_false_of_ne hne', Bool.eq_iff_iff, Bool.false_or,
    Bool.false_or, isLetter_iff, isLetter_iff, ← Bool.eq_iff_iff]
  exact hletter

theorem singleton_points {c a : Nat} (h : (c, a) ∈ canonicalSingletons) :
    startPoint c = startPoint a ∧ wordPoint c = startPoint c ∧ wordPoint a = startPoint a := by
  obtain ⟨hletter, hdigit, hdigit', hne, hne'⟩ := tables_agree.singleton_bits _ h
  exact points_of_bits hletter hdigit hdigit' hne hne'

/-- A code point whose parts may stand in an identifier may do so, and may start one if its first part
may. -/
theorem word_of_takeApart {d n : Nat} (h : ∀ m ∈ takeApart d n, wordPoint m = true) :
    wordPoint n = true ∧ ∀ m ∈ (takeApart d n).head?, startPoint m = startPoint n := by
  induction d generalizing n with
  | zero => exact ⟨h n List.mem_cons_self, fun m hm => by cases hm; rfl⟩
  | succ d ih =>
    rcases takeApart_cases d n with ⟨_, hn⟩ | ⟨hhangul, hn⟩ | ⟨a, b, hmem, hn⟩ | ⟨a, hmem, hn⟩ <;>
      rw [hn] at h ⊢
    · exact ⟨h n List.mem_cons_self, fun m hm => by cases hm; rfl⟩
    · refine ⟨wordPoint_of_startPoint (startPoint_hangul (.inr hhangul)), fun m hm => ?_⟩
      have hpart := hangulParts_mem hhangul (List.mem_of_mem_head? hm)
      rw [startPoint_hangul (.inl hpart), startPoint_hangul (.inr hhangul)]
    · have hword := h b (List.mem_append_right _ List.mem_cons_self)
      rw [(second_outside ⟨_, _, hmem⟩).1] at hword
      cases hword
    · obtain ⟨hword, hstart⟩ := ih h
      obtain ⟨hsame, hc, ha⟩ := singleton_points hmem
      exact ⟨by rw [hc, hsame, ← ha, hword], fun m hm => (hstart m hm).trans hsame.symm⟩

/-- A code point of an identifier that stands for one other, or for a syllable of Hangul, has parts that
may stand in an identifier. -/
theorem takeApart_word {d n : Nat} (hn : wordPoint n = true)
    (hone : isHangul n = true ∨ (takeApart d n).length = 1) : ∀ m ∈ takeApart d n, wordPoint m = true := by
  induction d generalizing n with
  | zero => exact List.forall_mem_singleton.mpr hn
  | succ d ih =>
    rcases takeApart_cases d n with ⟨_, h⟩ | ⟨hhangul, h⟩ | ⟨a, b, hmem, h⟩ | ⟨a, hmem, h⟩ <;>
      rw [h] at hone ⊢
    · exact List.forall_mem_singleton.mpr hn
    · exact fun m hm => wordPoint_of_startPoint (startPoint_hangul (.inl (hangulParts_mem hhangul hm)))
    · have hhangul : isHangul n = false := (tables_agree.first_notHangul _ (firstParts_of_pair hmem)).1
      have hpos := List.length_pos_of_ne_nil (takeApart_ne_nil d a)
      rw [hhangul, List.length_append, List.length_singleton] at hone
      rcases hone with hone | hone
      · cases hone
      · omega
    · obtain ⟨hsame, hc, ha⟩ := singleton_points hmem
      have hhangul : isHangul n = false := (tables_agree.first_notHangul _ (firstParts_of_singleton hmem)).1
      rw [hhangul] at hone
      exact ih (by rw [ha, ← hsame, ← hc, hn]) (.inr (hone.resolve_left Bool.false_ne_true))

/-- What stands for more than one code point, but is no syllable of Hangul, stands for a mark. -/
theorem exists_second {d n : Nat} (hn : isHangul n = false) (hmore : (takeApart d n).length ≠ 1) :
    ∃ m ∈ takeApart d n, Second m := by
  induction d generalizing n with
  | zero => exact (hmore rfl).elim
  | succ d ih =>
    rcases takeApart_cases d n with ⟨_, h⟩ | ⟨hhangul, h⟩ | ⟨a, b, hmem, h⟩ | ⟨a, hmem, h⟩ <;>
      rw [h] at hmore ⊢
    · exact (hmore rfl).elim
    · rw [hn] at hhangul
      cases hhangul
    · exact ⟨b, List.mem_append_right _ List.mem_cons_self, _, _, hmem⟩
    · exact ih (tables_agree.first_notHangul _ (firstParts_of_singleton hmem)).2.1 hmore

/-! ## Spellings of identifiers -/

/-- Is the piece a character that stands for several others, but no syllable of Hangul? -/
def isComposed : Piece → Bool
  | .char c => !isHangul c.toNat && (fullyApart c.toNat).length != 1
  | .stray _ => false

/-- A text without composed characters. -/
def Plain (t : Text) : Prop := ∀ p ∈ pieces t, isComposed p = false

instance (t : Text) : Decidable (Plain t) := inferInstanceAs (Decidable (∀ p ∈ pieces t, isComposed p = false))

theorem isComposed_char {c : Char} : isComposed (.char c) = false ↔
    isHangul c.toNat = true ∨ (fullyApart c.toNat).length = 1 := by
  rw [isComposed]
  cases isHangul c.toNat <;> simp

theorem plain_ofChars {cs : List Char} :
    Plain (ofChars cs) ↔ ∀ c ∈ cs, isHangul c.toNat = true ∨ (fullyApart c.toNat).length = 1 := by
  rw [Plain, pieces_ofChars, List.forall_mem_map]
  exact forall₂_congr fun c _ => isComposed_char

/-- The parts of a plain identifier may stand in one. -/
theorem apart_word {cs : List Char} (hword : ∀ c ∈ cs, wordPoint c.toNat = true)
    (hplain : Plain (ofChars cs)) : ∀ n ∈ apart cs, wordPoint n = true := by
  intro n hn
  obtain ⟨c, hc, hn⟩ := List.mem_flatMap.mp hn
  exact takeApart_word (hword c hc) (plain_ofChars.mp hplain c hc) n hn

theorem combiningClass_of_wordPoint {n : Nat} (h : wordPoint n = true) : combiningClass n = 0 := by
  rw [wordPoint, startPoint, Bool.or_eq_true, Bool.or_eq_true, beq_iff_eq] at h
  rcases h with (rfl | h) | h
  · rfl
  · exact combiningClass_of_inRanges (.inl h)
  · exact combiningClass_of_inRanges (.inr h)

theorem exists_head?_apart (c : Char) (cs : List Char) :
    ∃ n, (fullyApart c.toNat).head? = some n ∧ (apart (c :: cs)).head? = some n := by
  obtain ⟨n, l, hl⟩ := List.exists_cons_of_ne_nil (takeApart_ne_nil 4 c.toNat)
  have hfully : fullyApart c.toNat = n :: l := hl
  refine ⟨n, by rw [hfully]; rfl, ?_⟩
  rw [apart, List.flatMap_cons, hfully]
  rfl

/-- What is taken apart like an identifier with parts that may stand in one is an identifier. -/
theorem isIdentifier_of_apart {c : Char} {cs ds : List Char} (hc : startPoint c.toNat = true)
    (hword : ∀ n ∈ apart (c :: cs), wordPoint n = true) (h : apart ds = apart (c :: cs)) :
    isIdentifier (ofChars ds) = true := by
  have hpoint : ∀ {es : List Char}, apart es = apart (c :: cs) → ∀ e ∈ es, ∀ m ∈ fullyApart e.toNat,
      wordPoint m = true := fun hes e he m hm => hword m (hes ▸ List.mem_flatMap.mpr ⟨e, he, hm⟩)
  obtain ⟨n, hfirst, hhead⟩ := exists_head?_apart c cs
  cases ds with
  | nil =>
    rw [← h] at hhead
    cases hhead
  | cons d ds =>
    -- Both start with the same part.
    obtain ⟨m, hfirst', hhead'⟩ := exists_head?_apart d ds
    rw [h, hhead] at hhead'
    cases hhead'
    refine isIdentifier_iff.mpr ⟨d, ds, rfl, ?_, fun e he => ?_⟩
    · rw [← (word_of_takeApart (hpoint h d List.mem_cons_self)).2 n hfirst',
        (word_of_takeApart (hpoint rfl c List.mem_cons_self)).2 n hfirst, hc]
    · exact (word_of_takeApart (hpoint h e (List.mem_cons_of_mem _ he))).1

theorem word_of_isIdentifier {c : Char} {cs : List Char} (hc : startPoint c.toNat = true)
    (hcs : ∀ d ∈ cs, wordPoint d.toNat = true) : ∀ d ∈ c :: cs, wordPoint d.toNat = true :=
  List.forall_mem_cons.mpr ⟨wordPoint_of_startPoint hc, hcs⟩

theorem wordChar_of_wordPoint {c : Char} (h : wordPoint c.toNat = true) : WordChar c := by
  rw [wordPoint, startPoint, ← eq_underscore, Bool.or_eq_true, Bool.or_eq_true, beq_iff_eq] at h
  rcases h with (h | h) | h
  · exact .inr (.inr h)
  · exact .inl h
  · exact .inr (.inl h)

section Laws

variable [NormalForm] [LawfulNormalForm]

/-- A plain identifier is one in every spelling, unless a run in it is parted. -/
theorem isIdentifier_of_normal {s t : Text} (hs : isIdentifier s = true) (hplain : Plain s) (hunparted : Unparted s)
    (h : t.normal = s.normal) : isIdentifier t = true := by
  obtain ⟨c, cs, rfl, hc, hcs⟩ := isIdentifier_iff.mp hs
  have hword := apart_word (word_of_isIdentifier hc hcs) hplain
  obtain ⟨us, _, hnormal⟩ := LawfulNormalForm.chars (c :: cs)
  obtain ⟨ds, rfl⟩ := LawfulNormalForm.strays t _ (h.trans hnormal)
  refine isIdentifier_of_apart hc hword (apart_eq_of_normal hunparted ?_ ?_ h)
  · exact fun n hn => combiningClass_of_wordPoint (hword n hn)
  · intro n hn hsecond
    have hnot := hword n hn
    rw [(second_outside hsecond).1] at hnot
    cases hnot

/-- An identifier that is not plain has a spelling with a mark. -/
theorem exists_spelling {s : Text} (hs : isIdentifier s = true) (hplain : ¬ Plain s) :
    ∃ cs : List Char, (ofChars cs).normal = s.normal ∧ ∃ c ∈ cs, Second c.toNat := by
  obtain ⟨c, cs, rfl, hc, hcs⟩ := isIdentifier_iff.mp hs
  rw [plain_ofChars] at hplain
  simp only [not_forall, not_or, Bool.not_eq_true] at hplain
  obtain ⟨d, hd, hhangul, hmore⟩ := hplain
  obtain ⟨m, hm, hsecond⟩ := exists_second hhangul hmore
  have hmem : m ∈ apart (c :: cs) := List.mem_flatMap.mpr ⟨d, hd, hm⟩
  refine ⟨(apart (c :: cs)).map Char.ofNat, ?_, Char.ofNat m, List.mem_map_of_mem hmem, ?_⟩
  · exact LawfulNormalForm.letters (c :: cs) fun d hd => wordChar_of_wordPoint (word_of_isIdentifier hc hcs d hd)
  · rwa [toNat_ofNat (apart_valid hmem)]

/-! ## Places for names -/

theorem exists_base {text : Text} (h : isIdentifier text = true) :
    ∃ type, Base text type ∧ type.label = text.normal := by
  have hascii : ∀ prim ∈ Primitive.keywords, prim.label.all (· < 0x80) = true := by decide +kernel
  have hkeywords : ∀ prim ∈ Primitive.keywords, prim.label.normal = prim.label := fun prim hprim =>
    LawfulNormalForm.ascii _ (hascii prim hprim)
  by_cases hk : ∃ prim ∈ Primitive.keywords, prim.label = text
  · obtain ⟨prim, hprim, rfl⟩ := hk
    exact ⟨_, .keyword hprim, (hkeywords prim hprim).symm⟩
  · exact ⟨_, .name h fun prim hprim heq => hk ⟨prim, hprim, heq⟩, rfl⟩

theorem trim_of_isIdentifier {text : Text} (h : isIdentifier text = true) : Text.trim text = text := by
  obtain ⟨type, hbase, _⟩ := exists_base h
  exact (Spelling.base hbase).trim_eq

omit [LawfulNormalForm] in
/-- A mark is no part of the spelling of a type. -/
theorem Spelling.not_second {text : Text} {type : TypeTree} (h : Spelling text type) :
    ∀ c, .char c ∈ pieces text → ¬ Second c.toNat := by
  induction h with
  | base h =>
    intro c hc hsecond
    obtain ⟨d, ds, rfl, hd, hds⟩ := isIdentifier_iff.mp h.isIdentifier
    rw [char_mem_pieces] at hc
    have hword := word_of_isIdentifier hd hds c hc
    rw [(second_outside hsecond).1] at hword
    cases hword
  | @array text type h blanks hb ih =>
    obtain ⟨cs, rfl, _⟩ := h.exists_chars
    have hchars : ofChars cs ++ ofChars blanks ++ ofString "[]" = ofChars (cs ++ blanks ++ ['[', ']']) := by
      rw [ofChars_append, ofChars_append]
      rfl
    intro c hc hsecond
    obtain ⟨_, hblank, hlow⟩ := second_outside hsecond
    rw [hchars, char_mem_pieces, List.mem_append, List.mem_append] at hc
    rcases hc with (hc | hc) | hc
    · exact ih c (char_mem_pieces.mpr hc) hsecond
    · exact hblank (isBlank_iff.mp (hb c hc))
    · have hbracket : c.toNat < 0x300 := by
        rcases List.mem_pair.mp hc with rfl | rfl <;> decide
      omega

/-- An identifier that is not plain has a spelling that is none of a type. -/
theorem exists_unspelled {s : Text} (hs : isIdentifier s = true) (hplain : ¬ Plain s) :
    ∃ t : Text, t.normal = s.normal ∧ ¬ ∃ type, Spelling (Text.trim t) type := by
  obtain ⟨cs, hnormal, c, hc, hsecond⟩ := exists_spelling hs hplain
  refine ⟨ofChars cs, hnormal, fun ⟨type, hspelling⟩ => hspelling.not_second c ?_ hsecond⟩
  have hblank : isBlank c = false := Bool.eq_false_iff.mpr fun hblank =>
    (second_outside hsecond).2.1 (isBlank_iff.mp hblank)
  obtain ⟨xs, ys, hpieces, hxs, hys, _⟩ := pieces_trim (ofChars cs)
  have hmem := char_mem_pieces.mpr hc
  rw [hpieces, List.mem_append, List.mem_append] at hmem
  rcases hmem with hmem | hmem | hmem
  · exact absurd (hxs _ hmem) (by rw [Piece.isBlank, hblank]; decide)
  · exact hmem
  · exact absurd (hys _ hmem) (by rw [Piece.isBlank, hblank]; decide)

/-- A place where a name is asked for. -/
inductive NamePlace where
  | entry (e : Entry) (kind : EntryKind)
  | type (what : Text) (owner : Span)
  | base
  | interface (place : Yaml.Place) (tag : Text)

/-- At the place a node is taken for a name, and nothing is reported. -/
def NamePlace.Takes (file : SourceFile) (s : LoadState) (node : Yaml.Node) (name : Text) : NamePlace → Prop
  | entry e kind => ∃ text, entryName file e kind node = .ok text ∧ text.normal = name
  | type what owner => Ends (typeOf file (some node) what owner) s fun id t =>
      t.diagnostics = s.diagnostics ∧ t.tree.typeLabel id = name
  | base => Ends (baseType file (some node)) s fun id t =>
      t.diagnostics = s.diagnostics ∧ t.tree.typeLabel id = name
  | interface place tag => Ends (implemented file (some (.sequence place tag [node]))) s fun ids t =>
      t.diagnostics = s.diagnostics ∧ ids.map t.tree.typeLabel = [name]

section Places

variable (file : SourceFile) (place : Yaml.Place) (tag : Text) (style : Yaml.ScalarStyle) {s : LoadState}

omit [NormalForm] [LawfulNormalForm] in
theorem entryName_iff (e : Entry) (kind : EntryKind) {value name : Text} :
    entryName file e kind (.scalar place tag style value) = .ok name ↔
      isIdentifier (Text.trim value) = true ∧ name = Text.trim value := by
  unfold entryName
  dsimp only [Yaml.Node.value]
  split
  · next hscalar =>
    have hempty : (Text.trim value).isEmpty = true := hscalar
    rw [List.isEmpty_iff.mp hempty]
    exact iff_of_false (fun h => by cases h) fun h => by cases h.1
  split
  · next hnot =>
    have hnone : isIdentifier (Text.trim value) = false := by simpa using hnot
    rw [hnone]
    exact iff_of_false (fun h => by cases h) fun h => by cases h.1
  · next hname =>
    have hsome : isIdentifier (Text.trim value) = true := by simpa using hname
    rw [hsome]
    exact ⟨fun h => ⟨rfl, (Except.ok.inj h).symm⟩, fun h => congrArg _ h.2.symm⟩

omit [LawfulNormalForm] in
theorem namedType_of_isIdentifier (clause : Text) {value : Text} (h : isIdentifier (Text.trim value) = true) :
    Ends (namedType file clause (.scalar place tag style value)) s fun id t =>
      t.diagnostics = s.diagnostics ∧ t.tree.Stands id (.named (Text.trim value).normal) := by
  have hname : ((Yaml.Node.scalar place tag style value).isScalar &&
      isIdentifier (Text.trim (Yaml.Node.scalar place tag style value).value)) = true := h
  unfold namedType
  dsimp only
  rw [if_pos hname, ends_bind, ends_build, ends_build]
  refine ⟨rfl, ?_⟩
  rw [← s.tree.names.get_intern (Text.trim value).normal]
  exact Tree.stands_addNamed _ _

omit [LawfulNormalForm] in
theorem namedType_of_not_isIdentifier (clause : Text) {value : Text}
    (h : ¬ isIdentifier (Text.trim value) = true) :
    Ends (namedType file clause (.scalar place tag style value)) s fun _ t =>
      ∃ d, t.diagnostics = s.diagnostics.push d := by
  have hname : ¬ ((Yaml.Node.scalar place tag style value).isScalar &&
      isIdentifier (Text.trim (Yaml.Node.scalar place tag style value).value)) = true := h
  unfold namedType
  dsimp only
  rw [if_neg hname, ends_bind, report, ends_modify, ends_pure]
  exact ⟨_, rfl⟩

omit [LawfulNormalForm] in
theorem implemented_singleton (node : Yaml.Node) {post : List TypeExprId → LoadState → Prop} :
    Ends (implemented file (some (.sequence place tag [node]))) s post ↔
      Ends (namedType file "implements" node) s fun id t => post ([id].filter (· != 0)) t := by
  unfold implemented nameList
  simp only [List.mapM_cons, List.mapM_nil, ends_bind, ends_pure]

/-- An identifier is taken for a name wherever one is asked for. -/
theorem NamePlace.takes_of_isIdentifier (p : NamePlace) {value : Text} (h : isIdentifier value = true) :
    p.Takes file s (.scalar place tag style value) value.normal := by
  have htrim := trim_of_isIdentifier h
  have hnamed : ∀ clause, Ends (namedType file clause (.scalar place tag style value)) s fun id t =>
      t.diagnostics = s.diagnostics ∧ t.tree.Stands id (.named value.normal) := by
    intro clause
    have hends := namedType_of_isIdentifier file place tag style clause (htrim.symm ▸ h) (s := s)
    rwa [htrim] at hends
  cases p with
  | entry e kind => exact ⟨value, (entryName_iff file place tag style e kind).mpr (by rw [htrim]; exact ⟨h, rfl⟩), rfl⟩
  | type what owner =>
    obtain ⟨type, hbase, hlabel⟩ := exists_base h
    have hspelling : Spelling (Text.trim value) type := htrim.symm ▸ .base hbase
    refine (typeOf_of_spelling file place tag style what owner hspelling).mono fun id t ⟨hdiags, hstands⟩ => ?_
    exact ⟨hdiags, hstands.typeLabel_eq.trans hlabel⟩
  | base => exact (hnamed "extends").mono fun id t ⟨hdiags, hstands⟩ => ⟨hdiags, hstands.typeLabel_eq⟩
  | interface place tag =>
    refine (implemented_singleton file place tag _).mpr ?_
    refine (hnamed "implements").mono fun id t ⟨hdiags, hstands⟩ => ⟨hdiags, ?_⟩
    obtain ⟨e, he⟩ := Option.isSome_iff_exists.mp hstands.type?_isSome
    have hne : id ≠ 0 := Nat.ne_of_gt (numbered?_eq_some he).1
    have hfilter : [id].filter (· != 0) = [id] := by simp [hne]
    rw [hfilter, List.map_singleton, hstands.typeLabel_eq]
    rfl

/-- What is taken for a name spells a type between blanks. -/
theorem NamePlace.spelling_of_takes (p : NamePlace) {value name : Text}
    (h : p.Takes file s (.scalar place tag style value) name) : ∃ type, Spelling (Text.trim value) type := by
  by_contra hnone
  have hnot : ¬ isIdentifier (Text.trim value) = true := by
    intro hname
    obtain ⟨type, hbase, _⟩ := exists_base hname
    exact hnone ⟨type, .base hbase⟩
  have hreported : ∀ {α : Type} {x : LoadM α} {q : α → LoadState → Prop},
      Ends x s (fun _ t => ∃ d, t.diagnostics = s.diagnostics.push d) →
        ¬ Ends x s fun a t => t.diagnostics = s.diagnostics ∧ q a t := by
    intro α x q hpush hsame
    obtain ⟨_, _, _, ⟨d, hd⟩, hdiags, _⟩ := (hpush.and hsame).run_eq
    exact push_ne_self _ _ (hd.symm.trans hdiags)
  have hclause : ∀ clause, Ends (namedType file clause (.scalar place tag style value)) s fun _ t =>
      ∃ d, t.diagnostics = s.diagnostics.push d := fun clause =>
    namedType_of_not_isIdentifier file place tag style clause hnot
  cases p with
  | entry e kind =>
    obtain ⟨text, htext, _⟩ := h
    exact hnot ((entryName_iff file place tag style e kind).mp htext).1
  | type what owner =>
    refine hreported ?_ h
    refine (typeOf_of_no_spelling file place tag style what owner hnone).mono fun _ t hread => ?_
    obtain ⟨⟨d, _, hd⟩, _⟩ := hread
    exact ⟨d, hd⟩
  | base => exact hreported (hclause "extends") h
  | interface place tag => exact hreported (hclause "implements") ((implemented_singleton file place tag _).mp h)

end Places

/-- A text is numbered like another one exactly if it has the same normal form. An identifier without composed
characters whose normal form needs no joiner is an identifier in all spellings, and at every place for a name all
spellings are taken for one name; so of two such spellings both are identifiers, or none. An identifier with a composed
character has a spelling that is no identifier, and at no place it is taken for any name. -/
theorem spellings_taken_iff (s : Text) :
    (∀ (names : NameTable) (t : Text),
      (names.internIdent s).1.internIdent t = names.internIdent s ↔ t.normal = s.normal) ∧
    (Unparted s → ∀ t : Text, t.normal = s.normal → Plain s → Plain t → isIdentifier t = isIdentifier s) ∧
    (isIdentifier s = true → Plain s → Unparted s → ∀ t : Text, t.normal = s.normal → isIdentifier t = true ∧
      ∀ (file : SourceFile) (place : Yaml.Place) (tag : Text) (style : Yaml.ScalarStyle) (l : LoadState)
        (p : NamePlace), p.Takes file l (.scalar place tag style t) s.normal) ∧
    (isIdentifier s = true → ¬ Plain s → ∃ t : Text, t.normal = s.normal ∧ isIdentifier t = false ∧
      ∀ (file : SourceFile) (place : Yaml.Place) (tag : Text) (style : Yaml.ScalarStyle) (l : LoadState)
        (p : NamePlace) (name : Text), ¬ p.Takes file l (.scalar place tag style t) name) := by
  refine ⟨fun names t => names.intern_intern_iff s.normal t.normal, fun hs t h hplain hplain' => ?_, ?_, ?_⟩
  · have ht : Unparted t := by
      rw [Unparted, h]
      exact hs
    rw [Bool.eq_iff_iff]
    exact ⟨fun hname => isIdentifier_of_normal hname hplain' ht h.symm,
      fun hname => isIdentifier_of_normal hname hplain hs h⟩
  · intro hname hplain hs t h
    have ht := isIdentifier_of_normal hname hplain hs h
    refine ⟨ht, fun file place tag style l p => ?_⟩
    rw [← h]
    exact p.takes_of_isIdentifier file place tag style ht
  · intro hname hplain
    obtain ⟨t, hnormal, hnone⟩ := exists_unspelled hname hplain
    refine ⟨t, hnormal, ?_, fun file place tag style l p name h => ?_⟩
    · refine Bool.eq_false_iff.mpr fun ht => ?_
      obtain ⟨type, hbase, _⟩ := exists_base ht
      rw [trim_of_isIdentifier ht] at hnone
      exact hnone ⟨type, .base hbase⟩
    · exact hnone (p.spelling_of_takes file place tag style h)

end Laws

/-- A syllable of Hangul is taken in every spelling. An accented letter is an identifier, but not if it
is written as the letter and the accent, which has the same normal form. -/
theorem accent_not_taken :
    (∀ t : Text, t.normal = (ofString "한").normal →
      NamePlace.base.Takes {} {} (.scalar (.on 1 1) [] .plain t) (ofString "한").normal) ∧
    isIdentifier (ofString "\u00E9") = true ∧
    (ofString "e\u0301").normal = (ofString "\u00E9").normal ∧
    isIdentifier (ofString "e\u0301") = false ∧
    ∃ t : Text, t.normal = (ofString "\u00E9").normal ∧
      ∀ name, ¬ NamePlace.base.Takes {} {} (.scalar (.on 1 1) [] .plain t) name := by
  have hhangul : isIdentifier (ofString "한") = true := by decide +kernel
  have haccent : isIdentifier (ofString "\u00E9") = true := by decide +kernel
  have hcomposed : ¬ Plain (ofString "\u00E9") := by decide +kernel
  have htaken := (spellings_taken_iff (ofString "한")).2.2.1 hhangul (by decide +kernel) (by decide +kernel)
  obtain ⟨t, hnormal, _, hnot⟩ := (spellings_taken_iff (ofString "\u00E9")).2.2.2 haccent hcomposed
  exact ⟨fun t h => (htaken t h).2 {} (.on 1 1) [] .plain {} .base, haccent, by decide +kernel, by decide +kernel,
    t, hnormal, fun name => hnot {} (.on 1 1) [] .plain {} .base name⟩

/-- A syllable with thirty vowels behind it is a plain identifier, but its normal form has a joiner, and this is a
spelling that is none. -/
example : let s := ofChars ('\u1100' :: List.replicate 31 '\u1161')
    isIdentifier s = true ∧ Plain s ∧ ¬ Unparted s ∧ s.normal.normal = s.normal ∧ isIdentifier s.normal = false := by
  decide +kernel

end Manifest

end DeclCheck

import DeclCheck.Proofs.Manifest.Spans

/-!
# The places of nodes in a text

A place counts the line breaks of a document, and a document knows more of them than a text: besides the
line feed also the carriage return, alone or with a line feed, and three more characters. A node is mapped
back by the line feeds alone. So it is mapped to where it stands as long as all breaks before it are line
feeds, and only then, unless it stands at the end of the text.
-/
namespace DeclCheck

/-! ## Line starts -/

namespace Lines

/-- A line starts behind as many line feeds as there are lines before it, or it is not there and the
position is moved to the end of the text. -/
theorem offset_line {t : Text} (ht : t.length < UInt32.size) {k : Nat} (hk : k + 1 < UInt32.size) :
    (∃ u v, t = u ++ v ∧ AtLineStart u ∧ u.count Text.newline = k ∧
      (offset (breaks t) t.length.toUInt32 ⟨(k + 1).toUInt32, 1⟩).toNat = u.length) ∨
    t.count Text.newline < k ∧
      (offset (breaks t) t.length.toUInt32 ⟨(k + 1).toUInt32, 1⟩).toNat = t.length := by
  have hline : (k + 1).toUInt32.toNat = k + 1 := UInt32.toNat_ofNat_of_lt' hk
  rcases Nat.lt_or_ge (t.count Text.newline) k with hfew | hmany
  · right
    have hnone : t.count Text.newline + 1 < (k + 1).toUInt32.toNat := by omega
    rw [offset_of_no_line hnone]
    exact ⟨hfew, UInt32.toNat_ofNat_of_lt' ht⟩
  · left
    obtain ⟨u, l, v, hcut, rfl⟩ := exists_cut hmany
    have hroom : u.length + (1 : UInt32).toNat ≤ UInt32.size := by
      have := hcut.length_eq
      rw [UInt32.toNat_one]
      omega
    refine ⟨u, l ++ v, hcut.eq, hcut.atStart, rfl, ?_⟩
    have hone : (1 : UInt32) ≠ 0 := by decide
    rw [hcut.offset_eq ht hline hone hroom, UInt32.toNat_one, Nat.sub_self, Nat.zero_min, Nat.add_zero]

end Lines

/-! ## Places -/

namespace Yaml

/-- Does a character end a line of a document, if `rest` follows? A carriage return right before a line
feed does not: the two are one break. -/
def endsLine (c : Char) (rest : List Char) : Bool :=
  isBreak c && !(c == '\r' && rest.head? == some '\n')

/-- The line breaks of a part of a document that `after` follows. -/
def breakCount : List Char → List Char → Nat
  | [], _ => 0
  | c :: cs, after => (if endsLine c (cs ++ after) then 1 else 0) + breakCount cs after

/-- The characters behind the last line break of a part of a document. -/
def lineTail : List Char → List Char → List Char
  | [], _ => []
  | c :: cs, after => if breakCount (c :: cs) after = 0 then c :: cs else lineTail cs after

/-- The place between two parts of a document. -/
def placeBetween (before after : List Char) : Place :=
  .on (breakCount before after + 1) ((lineTail before after).length + 1)

theorem endsLine_newline (rest : List Char) : endsLine '\n' rest = true := rfl

/-- Each line feed is a break. -/
theorem count_newline_le (before after : List Char) : before.count '\n' ≤ breakCount before after := by
  induction before with
  | nil => exact Nat.le_refl 0
  | cons c cs ih =>
    unfold breakCount
    by_cases hc : c = '\n'
    · subst hc
      rw [List.count_cons_self, endsLine_newline, if_pos rfl]
      omega
    · rw [List.count_cons_of_ne hc]
      omega

/-- A part of a document whose breaks are line feeds is a part that ends where a line starts, and the
characters behind it. -/
theorem eq_append_lineTail {before after : List Char}
    (h : breakCount before after = before.count '\n') :
    ∃ lines, before = lines ++ lineTail before after ∧ '\n' ∉ lineTail before after ∧
      (lines = [] ∨ ∃ l, lines = l ++ ['\n']) := by
  induction before with
  | nil => exact ⟨[], rfl, List.not_mem_nil, .inl rfl⟩
  | cons c cs ih =>
    by_cases hzero : breakCount (c :: cs) after = 0
    · rw [lineTail, if_pos hzero]
      exact ⟨[], rfl, List.count_eq_zero.mp (h.symm.trans hzero), .inl rfl⟩
    · rw [lineTail, if_neg hzero]
      have hle := count_newline_le cs after
      rw [breakCount] at h hzero
      by_cases hc : c = '\n'
      · subst hc
        rw [endsLine_newline, if_pos rfl, List.count_cons_self] at h
        obtain ⟨lines, heq, hnot, hlines⟩ := ih (by omega)
        refine ⟨'\n' :: lines, congrArg _ heq, hnot, .inr ?_⟩
        rcases hlines with rfl | ⟨l, rfl⟩
        · exact ⟨[], rfl⟩
        · exact ⟨'\n' :: l, rfl⟩
      · -- The character is no break, so one follows.
        rw [List.count_cons_of_ne hc] at h
        have hends : ¬ endsLine c (cs ++ after) = true := by
          intro hends
          rw [if_pos hends] at h
          omega
        rw [if_neg hends] at h hzero
        obtain ⟨lines, heq, hnot, hlines⟩ := ih (by omega)
        refine ⟨c :: lines, congrArg _ heq, hnot, .inr ?_⟩
        rcases hlines with rfl | ⟨l, rfl⟩
        · rw [List.nil_append] at heq
          rw [← heq] at hnot
          rw [List.count_eq_zero.mpr hnot] at h
          omega
        · exact ⟨c :: l, rfl⟩

/-- Each break is a character before the last line. -/
theorem breakCount_add_le (before after : List Char) :
    breakCount before after + (lineTail before after).length ≤ before.length := by
  induction before with
  | nil => exact Nat.le_refl 0
  | cons c cs ih =>
    by_cases hzero : breakCount (c :: cs) after = 0
    · rw [lineTail, if_pos hzero, hzero, Nat.zero_add]
    · rw [lineTail, if_neg hzero, breakCount, List.length_cons]
      split <;> omega

end Yaml

/-! ## Characters and bytes -/

namespace Text

/-- A line feed is the only character with a line feed among its bytes. -/
theorem count_newline_encode (c : Char) :
    (String.utf8EncodeChar c).count newline = if c = '\n' then 1 else 0 := by
  split
  · next h =>
    subst h
    rfl
  · next h =>
    rw [List.count_eq_zero]
    rcases encode_cases c with ⟨hc, hbytes⟩ | ⟨_, hbytes⟩
    · rw [hbytes, List.mem_singleton, ← UInt8.toNat_inj, toNat_byte (by omega)]
      intro heq
      exact h (Char.toNat_inj.mp heq.symm)
    · intro hmem
      exact absurd (hbytes _ hmem) (by decide)

theorem count_newline_ofChars (cs : List Char) : (ofChars cs).count newline = cs.count '\n' := by
  induction cs with
  | nil => rfl
  | cons c cs ih =>
    rw [ofChars, List.flatMap_cons, List.count_append, count_newline_encode]
    rw [ofChars] at ih
    rw [ih, List.count_cons]
    simp only [beq_iff_eq]
    omega

end Text

namespace Manifest

open Yaml

/-- Columns are counted over whole characters. -/
theorem columnBytes_ofChars {cs : List Char} (h : '\n' ∉ cs) (t : Text) :
    columnBytes cs.length (Text.ofChars cs ++ t) = (Text.ofChars cs).length := by
  induction cs with
  | nil => rfl
  | cons c cs ih =>
    rw [List.mem_cons, not_or] at h
    obtain ⟨hc, hcs⟩ := h
    have hne : Text.newline ∉ String.utf8EncodeChar c := by
      rw [← List.count_eq_zero, Text.count_newline_encode, if_neg (Ne.symm hc)]
    have hsize := Text.leadingSize_encode c (Text.ofChars cs ++ t)
    rw [Text.ofChars, List.flatMap_cons, List.append_assoc, List.length_append, List.length_cons]
    cases hbytes : String.utf8EncodeChar c with
    | nil => simp at hbytes
    | cons b bs =>
      rw [hbytes, List.mem_cons, not_or] at hne
      rw [hbytes] at hsize
      rw [List.cons_append, columnBytes, if_neg (Ne.symm hne.1)]
      dsimp only
      rw [← List.cons_append, ← Text.ofChars, hsize, List.drop_left, ih hcs]

theorem start_spanOf {file : SourceFile} (hfile : file.breaks = Lines.breaks file.content)
    (hsize : file.content.length < UInt32.size) (n : Node) {line : Nat}
    (hline : (Lines.offset (Lines.breaks file.content) file.content.length.toUInt32
      ⟨n.place.line.toUInt32, 1⟩).toNat = line) :
    (spanOf file n).start.toNat =
      line + columnBytes (n.place.column - 1) (file.content.drop line) := by
  have hword : UInt32.size = 4294967296 := rfl
  have hle := Lines.offset_le hsize ⟨n.place.line.toUInt32, 1⟩
  have hbytes := columnBytes_le (n.place.column - 1) (file.content.drop line)
  rw [List.length_drop] at hbytes
  rw [spanOf, if_neg (line_ne_zero n)]
  dsimp only
  rw [SourceFile.offset, hfile, SourceFile.size, UInt32.toNat_add, hline, Nat.toUInt32_eq,
    UInt32.toNat_ofNat_of_lt' (by omega)]
  exact Nat.mod_eq_of_lt (by omega)

section

variable {file : SourceFile} {before after : List Char} {n : Node}

/-- A node is mapped to the line of its place, and on from there by the characters of that line. -/
theorem start_spanOf_place (hfile : file.breaks = Lines.breaks file.content)
    (htext : file.content = Text.ofChars before ++ Text.ofChars after)
    (hsize : file.content.length < UInt32.size) (hplace : n.place = placeBetween before after)
    (line : Nat)
    (hline : (Lines.offset (Lines.breaks file.content) file.content.length.toUInt32
      ⟨(breakCount before after + 1).toUInt32, 1⟩).toNat = line) :
    (spanOf file n).start.toNat = line + columnBytes (lineTail before after).length
      ((Text.ofChars before ++ Text.ofChars after).drop line) := by
  have hnode : n.place.line = breakCount before after + 1 := by
    rw [hplace]
    rfl
  have hcolumn : n.place.column - 1 = (lineTail before after).length := by
    rw [hplace]
    rfl
  rw [← hnode] at hline
  rw [start_spanOf hfile hsize n hline, hcolumn, htext]

/-- Behind line feeds alone, a node is mapped to where it stands. -/
theorem start_spanOf_of_lineFeeds (hfile : file.breaks = Lines.breaks file.content)
    (htext : file.content = Text.ofChars before ++ Text.ofChars after)
    (hsize : file.content.length < UInt32.size) (hplace : n.place = placeBetween before after)
    (hwrap : breakCount before after + 1 < UInt32.size)
    (hfeeds : breakCount before after = before.count '\n') :
    (spanOf file n).start.toNat = (Text.ofChars before).length := by
  have hstart := start_spanOf_place hfile htext hsize hplace
  obtain ⟨lines, hlines, hnot, hend⟩ := eq_append_lineTail hfeeds
  generalize lineTail before after = tail at hlines hnot hstart
  rw [htext] at hsize hstart
  subst hlines
  rw [Text.ofChars_append, List.append_assoc] at *
  have hcount : (Text.ofChars lines).count Text.newline = breakCount (lines ++ tail) after := by
    rw [Text.count_newline_ofChars, hfeeds, List.count_append, List.count_eq_zero.mpr hnot,
      Nat.add_zero]
  have hatStart : Lines.AtLineStart (Text.ofChars lines) := by
    rcases hend with rfl | ⟨l, rfl⟩
    · exact .inl rfl
    · exact .inr ⟨Text.ofChars l, Text.ofChars_append l _⟩
  have hprefix := List.prefix_append (Text.ofChars lines) (Text.ofChars tail ++ Text.ofChars after)
  rcases Lines.offset_line hsize hwrap with ⟨u, v, heq, hu, hk, hoff⟩ | ⟨hfew, -⟩
  · have huprefix : u <+: Text.ofChars lines ++ (Text.ofChars tail ++ Text.ofChars after) := ⟨v, heq.symm⟩
    have hlen : u.length = (Text.ofChars lines).length :=
      le_antisymm (hu.length_le huprefix hprefix (hk.trans hcount.symm))
        (hatStart.length_le hprefix huprefix (hcount.trans hk.symm))
    rw [hstart _ hoff, hlen, List.drop_left, columnBytes_ofChars hnot, List.length_append]
  · rw [List.count_append, hcount] at hfew
    omega

/-- Behind another break, a node is mapped to a place behind its own, or to the end of the text. -/
theorem start_spanOf_of_breaks (hfile : file.breaks = Lines.breaks file.content)
    (htext : file.content = Text.ofChars before ++ Text.ofChars after)
    (hsize : file.content.length < UInt32.size) (hplace : n.place = placeBetween before after)
    (hwrap : breakCount before after + 1 < UInt32.size)
    (hbreaks : before.count '\n' < breakCount before after) :
    (spanOf file n).start.toNat = (Text.ofChars before).length ↔ after = [] := by
  have hstart := start_spanOf_place hfile htext hsize hplace
  have hlen := congrArg List.length htext
  rw [List.length_append] at hlen
  have hafter : after = [] ↔ (Text.ofChars after).length = 0 := by
    have hle := Text.length_le_ofChars after
    constructor
    · rintro rfl
      rfl
    · intro h
      exact List.eq_nil_of_length_eq_zero (by omega)
  rw [hafter]
  rcases Lines.offset_line hsize hwrap with ⟨u, v, heq, -, hk, hoff⟩ | ⟨-, hoff⟩
  · have hlong : (Text.ofChars before).length < u.length := by
      by_contra hle
      have hu : u <+: Text.ofChars before :=
        List.prefix_of_prefix_length_le ⟨v, heq.symm⟩ ⟨_, htext.symm⟩ (by omega)
      have hcount := hu.sublist.count_le Text.newline
      rw [Text.count_newline_ofChars] at hcount
      omega
    have hend := congrArg List.length heq
    rw [List.length_append] at hend
    rw [hstart _ hoff]
    omega
  · have hnone : columnBytes (lineTail before after).length [] = 0 := by
      cases (lineTail before after).length <;> rfl
    rw [hstart _ hoff, ← htext, List.drop_length, hnone]
    omega

/-- A text with too many breaks is nothing but breaks, and the last line of it has the number zero. -/
theorem start_spanOf_of_wrap (hfile : file.breaks = Lines.breaks file.content)
    (htext : file.content = Text.ofChars before ++ Text.ofChars after)
    (hsize : file.content.length < UInt32.size) (hplace : n.place = placeBetween before after)
    (hwrap : ¬ breakCount before after + 1 < UInt32.size) :
    (spanOf file n).start.toNat < (Text.ofChars before).length := by
  have hword : UInt32.size = 4294967296 := rfl
  have hstart := start_spanOf_place hfile htext hsize hplace
  have hlen := breakCount_add_le before after
  have hbytes := Text.length_le_ofChars before
  rw [htext, List.length_append] at hsize
  have htail : (lineTail before after).length = 0 := by omega
  have hzero : (breakCount before after + 1).toUInt32 = 0 := by
    have hall : breakCount before after + 1 = UInt32.size := by omega
    rw [hall]
    rfl
  rw [htail, hzero] at hstart
  rw [hstart 0 rfl, columnBytes]
  omega

end

/-- A node at a place of a UTF-8 text is mapped to that place exactly if its line has a number and all breaks
before it are line feeds, or it stands at the end. -/
theorem span_starts_at_place_iff {file : SourceFile} (hfile : file.breaks = Lines.breaks file.content)
    (hsize : file.content.length < UInt32.size) {before after : List Char}
    (htext : file.content = Text.ofChars (before ++ after)) {n : Node}
    (hplace : n.place = placeBetween before after) :
    (spanOf file n).start.toNat = (Text.ofChars before).length ↔
      breakCount before after + 1 < UInt32.size ∧
        (after = [] ∨ breakCount before after = before.count '\n') := by
  rw [Text.ofChars_append] at htext
  by_cases hwrap : breakCount before after + 1 < UInt32.size
  · rcases (count_newline_le before after).eq_or_lt with hfeeds | hbreaks
    · have hstart := start_spanOf_of_lineFeeds hfile htext hsize hplace hwrap hfeeds.symm
      exact ⟨fun _ => ⟨hwrap, .inr hfeeds.symm⟩, fun _ => hstart⟩
    · rw [start_spanOf_of_breaks hfile htext hsize hplace hwrap hbreaks]
      have hne : ¬ breakCount before after = before.count '\n' := by omega
      simp only [hwrap, hne, or_false, true_and]
  · have hlt := start_spanOf_of_wrap hfile htext hsize hplace hwrap
    constructor
    · intro heq
      omega
    · intro h
      exact absurd h.1 hwrap

/-- A file with a given content. -/
def fileOf (t : Text) : SourceFile := { content := t, breaks := Lines.breaks t }

/-- The name of the first variable of a document, if it can be read. -/
def firstVar? (t : Text) : Option Node := do
  let entries ← (decode t).toOption
  (← entries.head?).var

/-- Behind carriage returns the name of a variable is moved from byte 14 to the end of the text; behind line
feeds it is not, for all the longer characters before it. -/
theorem name_behind_returns_moved :
    (∃ n, firstVar? "decls:\r- var: x\r  type: int\r" = some n ∧
      n.place = placeBetween "decls:\r- var: ".toList "x\r  type: int\r".toList ∧
      (spanOf (fileOf "decls:\r- var: x\r  type: int\r") n).start.toNat ≠ 14) ∧
    ∃ n, firstVar? "decls: # Größe\n- type: 'Maß'\n  var: x" = some n ∧
      n.place = placeBetween "decls: # Größe\n- type: 'Maß'\n  var: ".toList "x".toList ∧
      (spanOf (fileOf "decls: # Größe\n- type: 'Maß'\n  var: x") n).start.toNat = 39 := by
  have hreturns : (firstVar? "decls:\r- var: x\r  type: int\r").any (fun n => decide
      (n.place = placeBetween "decls:\r- var: ".toList "x\r  type: int\r".toList)) = true := by
    decide +kernel
  have hfeeds : (firstVar? "decls: # Größe\n- type: 'Maß'\n  var: x").any (fun n => decide
      (n.place = placeBetween "decls: # Größe\n- type: 'Maß'\n  var: ".toList "x".toList)) = true := by
    decide +kernel
  obtain ⟨n, hn, hplace⟩ := (Option.any_eq_true _ _).mp hreturns
  obtain ⟨m, hm, hplace'⟩ := (Option.any_eq_true _ _).mp hfeeds
  refine ⟨⟨n, hn, of_decide_eq_true hplace, ?_⟩, m, hm, of_decide_eq_true hplace', ?_⟩
  · refine mt (span_starts_at_place_iff rfl (by decide +kernel) (by decide +kernel)
      (of_decide_eq_true hplace)).mp ?_
    decide +kernel
  · exact (span_starts_at_place_iff rfl (by decide +kernel) (by decide +kernel)
      (of_decide_eq_true hplace')).mpr (by decide +kernel)

end Manifest

end DeclCheck

import DeclCheck.Proofs.Text.Joining
import DeclCheck.Proofs.Text.Pieces

/-!
# Spellings with one normal form

A normal form takes characters apart, puts marks in order and joins what can be joined. Where it parts long runs is
left open here. A text and what its letters are taken apart into have one normal form. The other way round, a text is
taken apart in one way if nothing in it joins with what stands before it, but for the parts of Hangul: as long as no
run is parted, every text with its normal form is taken apart into the same code points. The composed form is such
a normal form.
-/
namespace DeclCheck.Text

/-! ## Normal forms of characters -/

/-- The code points that characters are taken apart into. -/
def apart (cs : List Char) : List Nat := cs.flatMap fun c => fullyApart c.toNat

/-- Code points put in order and joined. -/
def joined (ns : List Nat) : List Nat := joinAll (orderMarks ns)

def ofPoints (ns : List Nat) : Text := ofChars (ns.map Char.ofNat)

theorem normalRun_eq (cs : List Char) :
    normalRun cs = ofPoints (joined (partRuns 0 (cs.map fun c => fullyApart c.toNat))) := rfl

theorem normalRun_parted (cs : List Char) : Parted (apart cs) (partRuns 0 (cs.map fun c => fullyApart c.toNat)) :=
  partRuns_parted 0 _

theorem whole_of_mem_apart {cs : List Char} {n : Nat} (h : n ∈ apart cs) : Whole n := by
  obtain ⟨c, _, hn⟩ := List.mem_flatMap.mp h
  exact whole_of_mem_fullyApart hn

theorem apart_valid {cs : List Char} {n : Nat} (h : n ∈ apart cs) : n.isValidChar := by
  obtain ⟨c, _, hn⟩ := List.mem_flatMap.mp h
  exact takeApart_valid c.valid n hn

theorem composite?_valid {a b c : Nat} (h : composite? a b = some c) : c.isValidChar := by
  rcases composite?_cases h with h | h
  · have hc := isHangul_iff.mp (hangulJoin?_apart h).1
    left
    omega
  · exact (tables_agree.first_valid _ (firstParts_of_pair h)).1

/-- What holds of parts, of the joiner and of what parts join into holds of all that is joined. -/
theorem joined_forall {P : Nat → Prop} (hP : ∀ {a b c}, composite? a b = some c → P a → P b → P c)
    (hjoiner : P runJoiner) {l us : List Nat} (hparted : Parted l us) (h : ∀ n ∈ l, P n) : ∀ n ∈ joined us, P n :=
  joinAll_forall hP fun n hn => hparted.forall_mem hjoiner h n ((orderMarks_perm us).mem_iff.mp hn)

theorem joined_valid {cs : List Char} {us : List Nat} (h : Parted (apart cs) us) : ∀ n ∈ joined us, n.isValidChar :=
  joined_forall (fun h _ _ => composite?_valid h) (by decide) h fun _ => apart_valid

theorem joined_ne_nil {us : List Nat} (h : us ≠ []) : joined us ≠ [] := by
  obtain ⟨n, hn⟩ := List.exists_mem_of_ne_nil us h
  exact joinAll_ne_nil (List.ne_nil_of_mem ((orderMarks_perm us).mem_iff.mpr hn))

theorem map_toNat_ofNat {l : List Nat} (h : ∀ n ∈ l, n.isValidChar) :
    (l.map Char.ofNat).map Char.toNat = l := by
  rw [List.map_map]
  exact (List.map_congr_left fun n hn => toNat_ofNat (h n hn)).trans (List.map_id _)

theorem ofPoints_inj {ns ms : List Nat} (hns : ∀ n ∈ ns, n.isValidChar) (hms : ∀ n ∈ ms, n.isValidChar)
    (h : ofPoints ns = ofPoints ms) : ns = ms := by
  have hchars := congrArg (List.map Char.toNat) (ofChars_inj h)
  rwa [map_toNat_ofNat hns, map_toNat_ofNat hms] at hchars

theorem map_fullyApart_apart (cs : List Char) :
    ((apart cs).map Char.ofNat).map (fun c => fullyApart c.toNat) = (apart cs).map ([·]) := by
  rw [List.map_map]
  refine List.map_congr_left fun n hn => ?_
  have hone : fullyApart n = [n] := (whole_of_mem_apart hn).takeApart 4
  rw [Function.comp_apply, toNat_ofNat (apart_valid hn), hone]

theorem Second.notHangul {n : Nat} (h : Second n) : isHangul n = false := h.whole.notHangul

/-- Code points of class zero that join with nothing but Hangul stand for nothing else when they are
joined. -/
theorem depth_joinAll {l : List Nat} (h : ∀ n ∈ l, Whole n) (hsecond : ∀ n ∈ l, ¬ Second n) :
    ∀ n ∈ joinAll l, depth n = 0 := by
  have hall : ∀ n ∈ joinAll l, depth n = 0 ∧ ¬ Second n := by
    refine joinAll_forall ?_ fun n hn => ⟨(h n hn).depth_eq, hsecond n hn⟩
    intro a b c hcomp _ hb
    rcases composite?_cases hcomp with hjoin | hpair
    · have hc := (hangulJoin?_apart hjoin).1
      refine ⟨depth_of_hangul (.inr hc), fun hsnd => ?_⟩
      rw [hsnd.notHangul] at hc
      cases hc
    · exact (hb.2 ⟨_, _, hpair⟩).elim
  exact fun n hn => (hall n hn).1

/-- Whole code points that are no marks and join with nothing before them are found again in what they are joined
into. -/
theorem eq_of_joined {ns ms : List Nat} (hns : ∀ n ∈ ns, Whole n) (hms : ∀ n ∈ ms, Whole n)
    (hclass : ∀ n ∈ ns, combiningClass n = 0) (hsecond : ∀ n ∈ ns, ¬ Second n) (h : joined ms = joined ns) :
    ms = ns := by
  rw [joined, joined, orderMarks_of_starters hclass] at h
  have hdepth := depth_joinAll hns hsecond
  have hwhole : ∀ n ∈ orderMarks ms, Whole n := fun n hn => hms n ((orderMarks_perm ms).mem_iff.mp hn)
  have hordered : orderMarks ms = ns := by
    rw [← flatMap_joinAll hwhole (h ▸ hdepth), h]
    exact flatMap_joinAll hns hdepth
  have hclass' : ∀ n ∈ ms, combiningClass n = 0 := by
    intro n hn
    exact hclass n (hordered ▸ (orderMarks_perm ms).mem_iff.mpr hn)
  rwa [orderMarks_of_starters hclass'] at hordered

/-! ## Letters taken apart -/

theorem length_takeApart_le (d n : Nat) : (takeApart d n).length ≤ d + 3 := by
  induction d generalizing n with
  | zero => exact Nat.le_add_left 1 2
  | succ d ih =>
    rcases takeApart_cases d n with ⟨_, h⟩ | ⟨_, h⟩ | ⟨a, b, _, h⟩ | ⟨a, _, h⟩ <;> rw [h]
    · exact Nat.le_add_left 1 (d + 3)
    · rw [hangulParts_eq]
      split <;> exact Nat.le_add_left _ _
    · rw [List.length_append, List.length_singleton]
      exact Nat.add_le_add_right (ih a) 1
    · exact (ih a).trans (by omega)

/-- A letter that is not made to go on with a run. -/
structure StartsRun (n : Nat) : Prop where
  letter : (rangeBits letterRanges).testBit n = true
  apart : (rangeBits runRanges).testBit n = false

theorem StartsRun.goesOn_eq {n : Nat} (h : StartsRun n) : goesOn n = false := by
  rw [goesOn, combiningClass_of_inRanges (.inl (isLetter_iff.mpr h.letter)), inRanges_eq_false h.apart]
  rfl

theorem StartsRun.of_first {e : Nat × Nat} (he : e ∈ firstParts) (h : (rangeBits letterRanges).testBit e.1 = true) :
    StartsRun e.2 := by
  refine ⟨?_, tables_agree.first_run e he⟩
  rcases List.mem_append.mp he with hmem | hmem
  · obtain ⟨p, hp, rfl⟩ := List.mem_map.mp hmem
    rw [← (tables_agree.pair_bits p hp).1]
    exact h
  · rw [← (tables_agree.singleton_bits e hmem).1]
    exact h

theorem goesOn_hangulParts {n : Nat} (h : isHangul n = true) : ∀ m ∈ (hangulParts n).head?, goesOn m = false := by
  have hleads : ∀ i < 19, goesOn (0x1100 + i) = false := by decide +kernel
  have hn := isHangul_iff.mp h
  intro m hm
  have hlead : m = 0x1100 + (n - 0xAC00) / 588 := by
    rw [hangulParts_eq] at hm
    split at hm <;> exact (Option.some.inj hm).symm
  rw [hlead]
  exact hleads _ (by omega)

/-- A letter that does not go on with a run is taken apart into one that does not, and more. -/
theorem StartsRun.head {d n : Nat} (h : StartsRun n) : ∀ m ∈ (takeApart d n).head?, goesOn m = false := by
  induction d generalizing n with
  | zero =>
    intro m hm
    cases hm
    exact h.goesOn_eq
  | succ d ih =>
    rcases takeApart_cases d n with ⟨_, hn⟩ | ⟨hhangul, hn⟩ | ⟨a, b, hmem, hn⟩ | ⟨a, hmem, hn⟩ <;> rw [hn]
    · intro m hm
      cases hm
      exact h.goesOn_eq
    · exact goesOn_hangulParts hhangul
    · rw [List.head?_append_of_ne_nil _ (takeApart_ne_nil d a)]
      exact ih (.of_first (firstParts_of_pair hmem) h.letter)
    · exact ih (.of_first (firstParts_of_singleton hmem) h.letter)

/-- A letter, a digit or an underscore. -/
def WordChar (c : Char) : Prop := isLetter c = true ∨ isDigit c = true ∨ c = '_'

/-- What stands for others and may stand in a word is a letter. -/
theorem WordChar.letter {c : Char} (h : WordChar c) {a : Nat} (ha : (c.toNat, a) ∈ firstParts) :
    (rangeBits letterRanges).testBit c.toNat = true := by
  have hbits : (rangeBits digitRanges).testBit c.toNat = false ∧ c.toNat ≠ 0x5F := by
    rcases List.mem_append.mp ha with hmem | hmem
    · obtain ⟨p, hp, heq⟩ := List.mem_map.mp hmem
      have hc : p.1 = c.toNat := congrArg Prod.fst heq
      rw [← hc]
      exact ⟨(tables_agree.pair_bits p hp).2.1, (tables_agree.pair_bits p hp).2.2.2.1⟩
    · exact ⟨(tables_agree.singleton_bits _ hmem).2.1, (tables_agree.singleton_bits _ hmem).2.2.2.1⟩
  rcases h with h | h | rfl
  · exact isLetter_iff.mp h
  · rw [isDigit, inRanges_eq_false hbits.1] at h
    cases h
  · exact (hbits.2 rfl).elim

theorem WordChar.fullyApart {c : Char} (h : WordChar c) : fullyApart c.toNat = [c.toNat] ∨
    ∀ m ∈ (Text.fullyApart c.toNat).head?, goesOn m = false := by
  unfold Text.fullyApart
  rcases takeApart_cases 3 c.toNat with ⟨_, hn⟩ | ⟨hhangul, hn⟩ | ⟨a, b, hmem, hn⟩ | ⟨a, hmem, hn⟩ <;> rw [hn]
  · exact .inl rfl
  · exact .inr (goesOn_hangulParts hhangul)
  · have hfirst := firstParts_of_pair hmem
    rw [List.head?_append_of_ne_nil _ (takeApart_ne_nil 3 a)]
    exact .inr (StartsRun.of_first hfirst (h.letter hfirst)).head
  · have hfirst := firstParts_of_singleton hmem
    exact .inr (StartsRun.of_first hfirst (h.letter hfirst)).head

/-- Letters taken apart have the normal form of the letters. -/
theorem normalRun_apart {cs : List Char} (h : ∀ c ∈ cs, WordChar c) :
    normalRun ((apart cs).map Char.ofNat) = normalRun cs := by
  have hflatten : apart cs = (cs.map fun c => fullyApart c.toNat).flatten := rfl
  rw [normalRun_eq, normalRun_eq, map_fullyApart_apart, hflatten, partRuns_flatten]
  intro ns hns
  obtain ⟨c, hc, rfl⟩ := List.mem_map.mp hns
  rcases (h c hc).fullyApart with hone | hhead
  · exact .inl ⟨_, hone⟩
  · obtain ⟨n, more, hmore⟩ := List.exists_cons_of_ne_nil (takeApart_ne_nil 4 c.toNat)
    have hlength : (n :: more).length ≤ 4 + 3 := hmore ▸ length_takeApart_le 4 c.toNat
    have hparts : fullyApart c.toNat = n :: more := hmore
    rw [List.length_cons] at hlength
    exact .inr ⟨n, more, hparts, hhead n (by rw [hparts]; rfl), by omega⟩

/-! ## Normal forms of texts -/

theorem joinAll_low {l : List Nat} (h : ∀ n ∈ l, n < 0xC0) : joinAll l = l := by
  have hlow : ∀ n ∈ joinAll l, n < 0xC0 := by
    refine joinAll_forall ?_ h
    intro a b c hcomp _ hb
    rcases composite?_cases hcomp with hjoin | hpair
    · have hpart := (hangulJoin?_apart hjoin).2.2.2
      omega
    · have hsecond : 0x300 ≤ b := (tables_agree.second_whole _ hpair).1
      omega
  rw [← flatMap_hangulApart fun n hn => (whole_low (hlow n hn)).notHangul]
  exact flatMap_joinAll (fun n hn => whole_low (h n hn)) fun n hn => (whole_low (hlow n hn)).depth_eq

/-- Characters below the first that stands for others are their own normal form. -/
theorem normalRun_low {cs : List Char} (h : ∀ c ∈ cs, c.toNat < 0xC0) : normalRun cs = ofChars cs := by
  have hlow : ∀ n ∈ cs.map Char.toNat, n < 0xC0 := by
    intro n hn
    obtain ⟨c, hc, rfl⟩ := List.mem_map.mp hn
    exact h c hc
  have hclass : ∀ n ∈ cs.map Char.toNat, combiningClass n = 0 := by
    intro n hn
    have := hlow n hn
    rw [combiningClass, if_pos (by omega)]
  have hstarts : ∀ n < 0xC0, goesOn n = false := by decide +kernel
  have hparts : partRuns 0 (cs.map fun c => fullyApart c.toNat) = cs.map Char.toNat := by
    generalize 0 = seen
    induction cs generalizing seen with
    | nil => rfl
    | cons c cs ih =>
      obtain ⟨hc, hcs⟩ := List.forall_mem_cons.mp h
      have hone : fullyApart c.toNat = [c.toNat] := (whole_low hc).takeApart 4
      obtain ⟨_, hlow⟩ := List.forall_mem_cons.mp hlow
      obtain ⟨_, hclass⟩ := List.forall_mem_cons.mp hclass
      rw [List.map_cons, List.map_cons, hone, (partRuns_start (hstarts _ hc) (by decide) seen _).1,
        ih hcs hlow hclass]
      rfl
  rw [normalRun_eq, joined, hparts, orderMarks_of_starters hclass, joinAll_low hlow, ofPoints, List.map_map]
  congr 1
  exact (List.map_congr_left fun c _ => Char.ofNat_toNat c).trans (List.map_id _)

theorem normalPieces_chars (run cs : List Char) :
    normalPieces run (cs.map .char) = normalRun (run.reverse ++ cs) := by
  induction cs generalizing run with
  | nil => rw [List.map_nil, normalPieces, List.append_nil]
  | cons c cs ih => rw [List.map_cons, normalPieces, ih, List.reverse_cons, List.append_assoc]; rfl

theorem composed_ofChars (cs : List Char) : composed (ofChars cs) = normalRun cs := by
  rw [composed]
  split
  · next hascii =>
    refine (normalRun_low fun c hc => ?_).symm
    obtain ⟨b, bs, hbytes, _⟩ := encode_eq_cons c
    have hb : b ∈ String.utf8EncodeChar c := hbytes ▸ List.mem_cons_self
    have hlow := of_decide_eq_true (List.all_eq_true.mp hascii b (List.mem_flatMap.mpr ⟨c, hc, hb⟩))
    rcases encode_cases c with ⟨h, _⟩ | ⟨_, hhigh⟩
    · omega
    · have hbyte : b.toNat < 128 := UInt8.lt_iff_toNat_lt.mp hlow
      have := hhigh b hb
      omega
  · rw [pieces_ofChars, normalPieces_chars]
    rfl

/-- The normal form of a character and more starts with a byte that starts a character. -/
theorem normalRun_cons (c : Char) (cs : List Char) : ∃ b bs, normalRun (c :: cs) = b :: bs ∧ ¬ IsTail b := by
  obtain ⟨m, hm⟩ := List.exists_mem_of_ne_nil _ (takeApart_ne_nil 4 c.toNat)
  have hmem : m ∈ apart (c :: cs) := List.mem_flatMap.mpr ⟨c, List.mem_cons_self, hm⟩
  have hne := joined_ne_nil (List.ne_nil_of_mem ((normalRun_parted (c :: cs)).mem hmem))
  obtain ⟨n, l, hl⟩ := List.exists_cons_of_ne_nil hne
  obtain ⟨b, bs, hbytes, hb, _⟩ := encode_eq_cons (Char.ofNat n)
  refine ⟨b, bs ++ ofPoints l, ?_, hb⟩
  rw [normalRun_eq, hl, ofPoints, List.map_cons, ofChars, List.flatMap_cons, hbytes]
  rfl

theorem normalPieces_run (run : List Char) (c : Char) (ps : List Piece) :
    ∃ b bs, normalPieces (run ++ [c]) ps = b :: bs ∧ ¬ IsTail b := by
  have hrun : ∀ run : List Char, ∃ b bs, normalRun (run ++ [c]).reverse = b :: bs ∧ ¬ IsTail b := by
    intro run
    rw [List.reverse_append]
    exact normalRun_cons c run.reverse
  induction ps generalizing run with
  | nil => exact hrun run
  | cons p ps ih =>
    cases p with
    | char d => exact ih (d :: run)
    | stray x =>
      obtain ⟨b, bs, hbytes, hb⟩ := hrun run
      rw [normalPieces, hbytes]
      exact ⟨b, _, rfl, hb⟩

/-- Bytes that go on with a character stand at the front of a normal form only if they stand there in
the text. -/
theorem append_of_normalPieces {t ks v : Text} (hks : ∀ k ∈ ks, IsTail k)
    (h : normalPieces [] (pieces t) = ks ++ v) : ∃ u, t = ks ++ u := by
  induction ks generalizing t with
  | nil => exact ⟨t, rfl⟩
  | cons k ks ih =>
    obtain ⟨hk, htails⟩ := List.forall_mem_cons.mp hks
    induction t using pieces_induction with
    | nil => cases h
    | char c t _ =>
      rw [pieces_char, normalPieces] at h
      obtain ⟨b, bs, hbytes, hb⟩ := normalPieces_run [] c (pieces t)
      rw [List.nil_append, h] at hbytes
      exact (hb ((List.cons.inj hbytes).1 ▸ hk)).elim
    | stray b t hnone _ =>
      rw [pieces_stray hnone, normalPieces] at h
      obtain ⟨rfl, hrest⟩ := List.cons.inj h
      obtain ⟨u, rfl⟩ := ih htails hrest
      exact ⟨u, rfl⟩

theorem exists_chars_of_normalPieces {t : Text} {run cs : List Char}
    (h : normalPieces run (pieces t) = ofChars cs) : ∃ ds, t = ofChars ds := by
  induction t using pieces_induction generalizing run cs with
  | nil => exact ⟨[], rfl⟩
  | char c t ih =>
    rw [pieces_char, normalPieces] at h
    obtain ⟨ds, rfl⟩ := ih h
    exact ⟨c :: ds, rfl⟩
  | stray b t hnone ih =>
    rw [pieces_stray hnone, normalPieces, normalRun_eq, ofPoints] at h
    have hpieces := congrArg pieces h
    rw [pieces_ofChars_append, pieces_ofChars] at hpieces
    cases hlead : leadingChar? (b :: normalPieces [] (pieces t)) with
    | none =>
      rw [pieces_stray hlead] at hpieces
      have hmem : Piece.stray b ∈ cs.map Piece.char := hpieces ▸ List.mem_append_right _ List.mem_cons_self
      obtain ⟨c, _, hc⟩ := List.mem_map.mp hmem
      cases hc
    | some found =>
      obtain ⟨rest, hrest, _⟩ := eq_of_leadingChar? hlead
      obtain ⟨x, xs, hbytes, _, htails⟩ := encode_eq_cons found.1
      rw [hbytes] at hrest
      obtain ⟨hx, hxs⟩ := List.cons.inj hrest
      obtain ⟨u, rfl⟩ := append_of_normalPieces htails hxs
      have hchar := leadingChar?_encode found.1 u
      rw [hbytes, ← hx, List.cons_append, hnone] at hchar
      cases hchar

theorem exists_chars_of_composed {t : Text} {cs : List Char} (h : composed t = ofChars cs) : ∃ ds, t = ofChars ds := by
  rw [composed] at h
  split at h
  · exact ⟨cs, h⟩
  · exact exists_chars_of_normalPieces h

/-! ## Laws -/

/-- What is asked of a normal form. -/
class LawfulNormalForm [NormalForm] : Prop where
  /-- ASCII texts are their own normal form. -/
  ascii : ∀ t : Text, t.all (· < 0x80) = true → t.normal = t
  /-- Characters are taken apart, perhaps with joiners in long runs, and put in order and joined. -/
  chars : ∀ cs, ∃ us, Parted (apart cs) us ∧ (ofChars cs).normal = ofPoints (joined us)
  /-- Letters may be taken apart before. -/
  letters : ∀ cs : List Char, (∀ c ∈ cs, WordChar c) → (ofPoints (apart cs)).normal = (ofChars cs).normal
  /-- Only a text of characters has a normal form of characters. -/
  strays : ∀ (t : Text) (cs : List Char), t.normal = ofChars cs → ∃ ds, t = ofChars ds

instance : LawfulNormalForm where
  ascii _ h := if_pos h
  chars cs := ⟨_, normalRun_parted cs, (composed_ofChars cs).trans (normalRun_eq cs)⟩
  letters cs h := (composed_ofChars _).trans ((normalRun_apart h).trans (composed_ofChars cs).symm)
  strays _ _ h := exists_chars_of_composed h

/-- No joiner is in the normal form. -/
def Unparted [NormalForm] (t : Text) : Prop := .char (Char.ofNat runJoiner) ∉ pieces t.normal

instance [NormalForm] (t : Text) : Decidable (Unparted t) :=
  inferInstanceAs (Decidable (_ ∉ pieces t.normal))

section Laws

variable [NormalForm] [LawfulNormalForm]

theorem normal_eq_nil_iff {t : Text} : t.normal = [] ↔ t = [] := by
  constructor
  · intro h
    obtain ⟨ds, rfl⟩ := LawfulNormalForm.strays t [] h
    obtain ⟨us, hparted, hnormal⟩ := LawfulNormalForm.chars ds
    cases ds with
    | nil => rfl
    | cons c cs =>
      obtain ⟨m, hm⟩ := List.exists_mem_of_ne_nil _ (takeApart_ne_nil 4 c.toNat)
      have hmem : m ∈ apart (c :: cs) := List.mem_flatMap.mpr ⟨c, List.mem_cons_self, hm⟩
      have hpoints : joined us = [] := by
        have hchars : ofChars ((joined us).map Char.ofNat) = ofChars [] := hnormal.symm.trans h
        exact List.map_eq_nil_iff.mp (ofChars_inj hchars)
      exact (joined_ne_nil (List.ne_nil_of_mem (hparted.mem hmem)) hpoints).elim
  · rintro rfl
    exact LawfulNormalForm.ascii [] rfl

/-- Characters whose normal form has no joiner are joined as they are taken apart. -/
theorem normal_of_unparted {cs : List Char} (h : Unparted (ofChars cs)) :
    (ofChars cs).normal = ofPoints (joined (apart cs)) := by
  obtain ⟨us, hparted, hnormal⟩ := LawfulNormalForm.chars cs
  rw [Unparted, hnormal, ofPoints, pieces_ofChars] at h
  have hjoiner : runJoiner ∉ us := by
    intro hmem
    have hjoined : runJoiner ∈ joined us := joiner_mem_joinAll ((orderMarks_perm us).mem_iff.mpr hmem)
    exact h (List.mem_map_of_mem (List.mem_map_of_mem hjoined))
  rw [hnormal, hparted.eq_of_not_mem hjoiner]

/-- Characters whose parts are no marks and join with nothing before them are taken apart like all characters with
their normal form, unless a run is parted. -/
theorem apart_eq_of_normal {cs ds : List Char} (hcs : Unparted (ofChars cs))
    (hclass : ∀ n ∈ apart cs, combiningClass n = 0) (hsecond : ∀ n ∈ apart cs, ¬ Second n)
    (h : (ofChars ds).normal = (ofChars cs).normal) : apart ds = apart cs := by
  have hds : Unparted (ofChars ds) := by
    rw [Unparted, h]
    exact hcs
  rw [normal_of_unparted hcs, normal_of_unparted hds] at h
  have hvalid : ∀ es : List Char, ∀ n ∈ joined (apart es), n.isValidChar := fun es => joined_valid (.refl _)
  exact eq_of_joined (fun n => whole_of_mem_apart) (fun n => whole_of_mem_apart) hclass hsecond
    (ofPoints_inj (hvalid ds) (hvalid cs) h)

end Laws

end DeclCheck.Text

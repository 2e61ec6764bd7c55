import DeclCheck.Text.Utf8

/-!
# Reading characters

Reading a text as UTF-8 undoes writing it: a text starts with a character exactly if it starts with the bytes
that are written for the character. So a text is its pieces written one after the other, the pieces of what is
written for characters are these characters, and a part of the pieces are the pieces of a part.
-/
namespace DeclCheck.Text

/-! ## Sequences of bytes -/

theorem within_iff {lo hi b : UInt8} :
    within lo hi b = true ↔ lo.toNat ≤ b.toNat ∧ b.toNat ≤ hi.toNat := by
  simp [within, UInt8.le_iff_toNat_le]

/-- A byte that goes on with a character. -/
def IsTail (b : UInt8) : Prop := 128 ≤ b.toNat ∧ b.toNat ≤ 191

theorem within_tail {b : UInt8} : within 0x80 0xBF b = true ↔ IsTail b := within_iff

theorem within_secondOfThree {a b : UInt8} :
    within (secondOfThree a).1 (secondOfThree a).2 b = true ↔
      IsTail b ∧ (a.toNat = 224 → 160 ≤ b.toNat) ∧ (a.toNat = 237 → b.toNat ≤ 159) := by
  have hlow : a = 0xE0 ↔ a.toNat = 224 := UInt8.toNat_inj.symm
  have hhigh : a = 0xED ↔ a.toNat = 237 := UInt8.toNat_inj.symm
  simp only [within_iff, secondOfThree, hlow, hhigh, IsTail]
  split
  · simp; omega
  · split <;> simp <;> omega

theorem within_secondOfFour {a b : UInt8} :
    within (secondOfFour a).1 (secondOfFour a).2 b = true ↔
      IsTail b ∧ (a.toNat = 240 → 144 ≤ b.toNat) ∧ (a.toNat = 244 → b.toNat ≤ 143) := by
  have hlow : a = 0xF0 ↔ a.toNat = 240 := UInt8.toNat_inj.symm
  have hhigh : a = 0xF4 ↔ a.toNat = 244 := UInt8.toNat_inj.symm
  simp only [within_iff, secondOfFour, hlow, hhigh, IsTail]
  split
  · simp; omega
  · split <;> simp <;> omega

/-- The code point of a well-formed sequence of bytes. -/
inductive Spells : Text → Nat → Prop
  | one {a : UInt8} (ha : a.toNat < 128) : Spells [a] a.toNat
  | two {a b : UInt8} (ha : 194 ≤ a.toNat ∧ a.toNat ≤ 223) (hb : IsTail b) :
      Spells [a, b] (a.toNat % 32 * 64 + b.toNat % 64)
  | three {a b c : UInt8} (ha : 224 ≤ a.toNat ∧ a.toNat ≤ 239)
      (hb : IsTail b ∧ (a.toNat = 224 → 160 ≤ b.toNat) ∧ (a.toNat = 237 → b.toNat ≤ 159))
      (hc : IsTail c) : Spells [a, b, c] ((a.toNat % 16 * 64 + b.toNat % 64) * 64 + c.toNat % 64)
  | four {a b c d : UInt8} (ha : 240 ≤ a.toNat ∧ a.toNat ≤ 244)
      (hb : IsTail b ∧ (a.toNat = 240 → 144 ≤ b.toNat) ∧ (a.toNat = 244 → b.toNat ≤ 143))
      (hc : IsTail c) (hd : IsTail d) : Spells [a, b, c, d]
        (((a.toNat % 8 * 64 + b.toNat % 64) * 64 + c.toNat % 64) * 64 + d.toNat % 64)

theorem spells_of_leadingChar? {t : Text} {c : Char} {n : Nat} (h : leadingChar? t = some (c, n)) :
    ∃ s rest v, t = s ++ rest ∧ Spells s v ∧ c = Char.ofNat v ∧ n = s.length := by
  revert h
  fun_cases leadingChar? t with
  | case2 a rest ha =>
    rintro ⟨⟩
    exact ⟨[a], rest, _, rfl, .one (UInt8.lt_iff_toNat_lt.mp ha), rfl, rfl⟩
  | case3 a _ ha b rest hb =>
    rintro ⟨⟩
    exact ⟨[a, b], rest, _, rfl, .two (within_iff.mp ha) (within_tail.mp hb), rfl, rfl⟩
  | case6 a _ _ ha b c rest lo hi hsecond hb =>
    rintro ⟨⟩
    have hlo : lo = (secondOfThree a).1 := by rw [hsecond]
    have hhi : hi = (secondOfThree a).2 := by rw [hsecond]
    rw [hlo, hhi, Bool.and_eq_true, within_secondOfThree, within_tail] at hb
    exact ⟨[a, b, c], rest, _, rfl, .three (within_iff.mp ha) hb.1 hb.2, rfl, rfl⟩
  | case9 a _ _ _ ha b c d rest lo hi hsecond hb =>
    rintro ⟨⟩
    have hlo : lo = (secondOfFour a).1 := by rw [hsecond]
    have hhi : hi = (secondOfFour a).2 := by rw [hsecond]
    rw [hlo, hhi, Bool.and_eq_true, Bool.and_eq_true, within_secondOfFour, within_tail, within_tail] at hb
    exact ⟨[a, b, c, d], rest, _, rfl, .four (within_iff.mp ha) hb.1.1 hb.1.2 hb.2, rfl, rfl⟩
  | _ => rintro ⟨⟩

theorem Spells.leadingChar? {s : Text} {v : Nat} (h : Spells s v) (t : Text) :
    leadingChar? (s ++ t) = some (Char.ofNat v, s.length) := by
  have hascii : ∀ a : UInt8, a < 0x80 ↔ a.toNat < 128 := fun a => UInt8.lt_iff_toNat_lt
  have htwo : ∀ a : UInt8, within 0xC2 0xDF a = true ↔ 194 ≤ a.toNat ∧ a.toNat ≤ 223 :=
    fun a => within_iff
  have hthree : ∀ a : UInt8, within 0xE0 0xEF a = true ↔ 224 ≤ a.toNat ∧ a.toNat ≤ 239 :=
    fun a => within_iff
  have hfour : ∀ a : UInt8, within 0xF0 0xF4 a = true ↔ 240 ≤ a.toNat ∧ a.toNat ≤ 244 :=
    fun a => within_iff
  cases h with
  | @one a ha =>
    have h1 := (hascii a).mpr ha
    simp only [List.cons_append, Text.leadingChar?, if_pos h1]
    rfl
  | @two a b ha hb =>
    have h1 : ¬ a < 0x80 := by rw [hascii]; omega
    have h2 := (htwo a).mpr ha
    have hb := within_tail.mpr hb
    simp only [List.cons_append, Text.leadingChar?, if_neg h1, if_pos h2, if_pos hb]
    rfl
  | @three a b c ha hb hc =>
    have h1 : ¬ a < 0x80 := by rw [hascii]; omega
    have h2 : ¬ within 0xC2 0xDF a = true := by rw [htwo]; omega
    have h3 := (hthree a).mpr ha
    have hbc : (within (secondOfThree a).1 (secondOfThree a).2 b && within 0x80 0xBF c) = true := by
      rw [Bool.and_eq_true, within_secondOfThree, within_tail]
      exact ⟨hb, hc⟩
    simp only [List.cons_append, Text.leadingChar?, if_neg h1, if_neg h2, if_pos h3, if_pos hbc]
    rfl
  | @four a b c d ha hb hc hd =>
    have h1 : ¬ a < 0x80 := by rw [hascii]; omega
    have h2 : ¬ within 0xC2 0xDF a = true := by rw [htwo]; omega
    have h3 : ¬ within 0xE0 0xEF a = true := by rw [hthree]; omega
    have h4 := (hfour a).mpr ha
    have hbcd : (within (secondOfFour a).1 (secondOfFour a).2 b && within 0x80 0xBF c &&
        within 0x80 0xBF d) = true := by
      rw [Bool.and_eq_true, Bool.and_eq_true, within_secondOfFour, within_tail, within_tail]
      exact ⟨⟨hb, hc⟩, hd⟩
    simp only [List.cons_append, Text.leadingChar?, if_neg h1, if_neg h2, if_neg h3, if_pos h4,
      if_pos hbcd]
    rfl

theorem toNat_byte {n : Nat} (h : n < 256) : (UInt8.ofNat n).toNat = n := by
  rw [UInt8.toNat_ofNat']
  exact Nat.mod_eq_of_lt h

theorem toNat_tail (n : Nat) : (UInt8.ofNat (n % 64 + 128)).toNat = n % 64 + 128 := toNat_byte (by omega)

theorem isTail_ofNat (n : Nat) : IsTail (UInt8.ofNat (n % 64 + 128)) := by
  rw [IsTail, toNat_tail]
  omega

/-- What is written for a character spells it. -/
theorem spells_encode (c : Char) : Spells (String.utf8EncodeChar c) c.toNat := by
  have hvalid : c.toNat < 0xD800 ∨ 0xDFFF < c.toNat ∧ c.toNat < 0x110000 := c.valid
  change Spells (String.utf8EncodeChar c) c.val.toNat
  rw [String.utf8EncodeChar.eq_1]
  change c.val.toNat < 0xD800 ∨ 0xDFFF < c.val.toNat ∧ c.val.toNat < 0x110000 at hvalid
  generalize c.val.toNat = v at hvalid
  split
  · next h1 =>
    have ha : (UInt8.ofNat v).toNat = v := toNat_byte (by omega)
    have hs : Spells [UInt8.ofNat v] (UInt8.ofNat v).toNat := .one (by omega)
    rwa [ha] at hs
  split
  · next h1 h2 =>
    have ha : (UInt8.ofNat (v / 64 % 32 + 192)).toNat = v / 64 % 32 + 192 := toNat_byte (by omega)
    have hs := Spells.two (a := UInt8.ofNat (v / 64 % 32 + 192)) (by omega) (isTail_ofNat v)
    rw [ha, toNat_tail] at hs
    have hv : (v / 64 % 32 + 192) % 32 * 64 + (v % 64 + 128) % 64 = v := by omega
    rwa [hv] at hs
  split
  · next h1 h2 h3 =>
    have ha : (UInt8.ofNat (v / 4096 % 16 + 224)).toNat = v / 4096 % 16 + 224 := toNat_byte (by omega)
    have hs := Spells.three (a := UInt8.ofNat (v / 4096 % 16 + 224)) (by omega)
      ⟨isTail_ofNat (v / 64), by rw [ha, toNat_tail]; omega, by rw [ha, toNat_tail]; omega⟩ (isTail_ofNat v)
    rw [ha, toNat_tail, toNat_tail] at hs
    have hv : ((v / 4096 % 16 + 224) % 16 * 64 + (v / 64 % 64 + 128) % 64) * 64 + (v % 64 + 128) % 64 = v := by
      omega
    rwa [hv] at hs
  · next h1 h2 h3 =>
    have ha : (UInt8.ofNat (v / 262144 % 8 + 240)).toNat = v / 262144 % 8 + 240 := toNat_byte (by omega)
    have hs := Spells.four (a := UInt8.ofNat (v / 262144 % 8 + 240)) (by omega)
      ⟨isTail_ofNat (v / 4096), by rw [ha, toNat_tail]; omega, by rw [ha, toNat_tail]; omega⟩
      (isTail_ofNat (v / 64)) (isTail_ofNat v)
    rw [ha, toNat_tail, toNat_tail, toNat_tail] at hs
    have hv : (((v / 262144 % 8 + 240) % 8 * 64 + (v / 4096 % 64 + 128) % 64) * 64 +
        (v / 64 % 64 + 128) % 64) * 64 + (v % 64 + 128) % 64 = v := by
      omega
    rwa [hv] at hs

theorem Spells.valid {s : Text} {v : Nat} (h : Spells s v) : v.isValidChar := by
  cases h with
  | one ha => left; omega
  | two ha hb => left; obtain ⟨hb, hb'⟩ := hb; omega
  | three ha hb hc =>
    obtain ⟨⟨_, _⟩, _, _⟩ := hb
    unfold Nat.isValidChar
    omega
  | four ha hb hc hd =>
    obtain ⟨⟨_, _⟩, _, _⟩ := hb
    unfold Nat.isValidChar
    omega

theorem eq_ofNat (a : UInt8) {n : Nat} (h : a.toNat = n) : a = UInt8.ofNat n := by
  rw [← h, UInt8.ofNat_toNat]

theorem toNat_ofNat {v : Nat} (h : v.isValidChar) : (Char.ofNat v).toNat = v := by
  rw [Char.ofNat, dif_pos h]
  rfl

/-- A code point is spelled in one way. -/
theorem Spells.eq_encode {s : Text} {v : Nat} (h : Spells s v) :
    s = String.utf8EncodeChar (Char.ofNat v) := by
  have hv : (Char.ofNat v).val.toNat = v := toNat_ofNat h.valid
  rw [String.utf8EncodeChar.eq_1, hv]
  cases h with
  | one ha => rw [if_pos (by omega), UInt8.ofNat_toNat]
  | @two a b ha hb =>
    obtain ⟨hb, hb'⟩ := hb
    rw [if_neg (by omega), if_pos (by omega), ← eq_ofNat a (by omega), ← eq_ofNat b (by omega)]
  | @three a b c ha hb hc =>
    obtain ⟨⟨hb, hb'⟩, hlow, _⟩ := hb
    obtain ⟨hc, hc'⟩ := hc
    rw [if_neg (by omega), if_neg (by omega), if_pos (by omega), ← eq_ofNat a (by omega),
      ← eq_ofNat b (by omega), ← eq_ofNat c (by omega)]
  | @four a b c d ha hb hc hd =>
    obtain ⟨⟨hb, hb'⟩, hlow, _⟩ := hb
    obtain ⟨hc, hc'⟩ := hc
    obtain ⟨hd, hd'⟩ := hd
    rw [if_neg (by omega), if_neg (by omega), if_neg (by omega), ← eq_ofNat a (by omega),
      ← eq_ofNat b (by omega), ← eq_ofNat c (by omega), ← eq_ofNat d (by omega)]

/-- A character of ASCII is one byte, and no byte of another character is one of ASCII. -/
theorem encode_cases (c : Char) :
    c.toNat < 128 ∧ String.utf8EncodeChar c = [UInt8.ofNat c.toNat] ∨
      128 ≤ c.toNat ∧ ∀ b ∈ String.utf8EncodeChar c, 128 ≤ b.toNat := by
  have h := spells_encode c
  generalize String.utf8EncodeChar c = s at h ⊢
  generalize c.toNat = v at h ⊢
  cases h with
  | @one a ha => exact .inl ⟨ha, by rw [UInt8.ofNat_toNat]⟩
  | @two a b ha hb =>
    obtain ⟨hb, hb'⟩ := hb
    right
    simp only [List.mem_cons, List.not_mem_nil, or_false, forall_eq_or_imp, forall_eq]
    omega
  | @three a b c ha hb hc =>
    obtain ⟨⟨hb, hb'⟩, hlow, _⟩ := hb
    obtain ⟨hc, hc'⟩ := hc
    right
    simp only [List.mem_cons, List.not_mem_nil, or_false, forall_eq_or_imp, forall_eq]
    omega
  | @four a b c d ha hb hc hd =>
    obtain ⟨⟨hb, hb'⟩, hlow, _⟩ := hb
    obtain ⟨hc, hc'⟩ := hc
    obtain ⟨hd, hd'⟩ := hd
    right
    simp only [List.mem_cons, List.not_mem_nil, or_false, forall_eq_or_imp, forall_eq]
    omega

/-- What is written for a character is one byte that starts it and bytes that go on with it. -/
theorem encode_eq_cons (c : Char) :
    ∃ b bs, String.utf8EncodeChar c = b :: bs ∧ ¬ IsTail b ∧ ∀ x ∈ bs, IsTail x := by
  have h := spells_encode c
  generalize String.utf8EncodeChar c = s at h ⊢
  generalize c.toNat = v at h
  cases h with
  | @one a ha => exact ⟨a, [], rfl, fun h => absurd h.1 (by omega), by simp⟩
  | @two a b ha hb => exact ⟨a, [b], rfl, fun h => absurd h.2 (by omega), by simp [hb]⟩
  | @three a b c ha hb hc => exact ⟨a, [b, c], rfl, fun h => absurd h.2 (by omega), by simp [hb.1, hc]⟩
  | @four a b c d ha hb hc hd =>
    exact ⟨a, [b, c, d], rfl, fun h => absurd h.2 (by omega), by simp [hb.1, hc, hd]⟩

theorem leadingChar?_encode (c : Char) (t : Text) :
    leadingChar? (String.utf8EncodeChar c ++ t) = some (c, (String.utf8EncodeChar c).length) := by
  rw [(spells_encode c).leadingChar?, Char.ofNat_toNat]

theorem eq_of_leadingChar? {t : Text} {c : Char} {n : Nat} (h : leadingChar? t = some (c, n)) :
    ∃ rest, t = String.utf8EncodeChar c ++ rest ∧ n = (String.utf8EncodeChar c).length := by
  obtain ⟨s, rest, v, rfl, hs, rfl, rfl⟩ := spells_of_leadingChar? h
  rw [← hs.eq_encode]
  exact ⟨rest, rfl, rfl⟩

theorem leadingSize_encode (c : Char) (t : Text) :
    leadingSize (String.utf8EncodeChar c ++ t) = (String.utf8EncodeChar c).length := by
  rw [leadingSize, leadingChar?_encode]

/-- What starts no character starts none if less follows. -/
theorem leadingChar?_of_append {s t : Text} (h : leadingChar? (s ++ t) = none) :
    leadingChar? s = none := by
  cases hlead : leadingChar? s with
  | none => rfl
  | some p =>
    obtain ⟨c, n⟩ := p
    obtain ⟨rest, rfl, _⟩ := eq_of_leadingChar? hlead
    rw [List.append_assoc, leadingChar?_encode] at h
    cases h

/-! ## Pieces -/

theorem piecesFrom_eq (n : Nat) (t : Text) : piecesFrom n t = pieces (t.drop n) := by
  induction n generalizing t with
  | zero => rfl
  | succ n ih =>
    cases t with
    | nil => rfl
    | cons b t => exact ih t

theorem pieces_char (c : Char) (t : Text) :
    pieces (String.utf8EncodeChar c ++ t) = .char c :: pieces t := by
  have hlead := leadingChar?_encode c t
  cases hbytes : String.utf8EncodeChar c with
  | nil => simp at hbytes
  | cons b bs =>
    rw [hbytes, List.cons_append] at hlead
    rw [List.cons_append, pieces, piecesFrom, hlead]
    dsimp only
    rw [piecesFrom_eq, List.length_cons, Nat.add_sub_cancel, List.drop_left]

theorem pieces_stray {b : UInt8} {t : Text} (h : leadingChar? (b :: t) = none) :
    pieces (b :: t) = .stray b :: pieces t := by
  rw [pieces, piecesFrom, h]
  rfl

/-- A text is empty, or starts with a character, or starts with a stray byte. -/
theorem pieces_induction {motive : Text → Prop} (nil : motive [])
    (char : ∀ c t, motive t → motive (String.utf8EncodeChar c ++ t))
    (stray : ∀ b t, leadingChar? (b :: t) = none → motive t → motive (b :: t)) (t : Text) :
    motive t := by
  induction hn : t.length using Nat.strongRecOn generalizing t with
  | ind n ih =>
    subst hn
    cases t with
    | nil => exact nil
    | cons b t =>
      cases hlead : leadingChar? (b :: t) with
      | none => exact stray b t hlead (ih t.length (by simp) t rfl)
      | some p =>
        obtain ⟨c, n⟩ := p
        obtain ⟨rest, ht, _⟩ := eq_of_leadingChar? hlead
        have hpos := c.utf8Size_pos
        have hlen : rest.length < (b :: t).length := by
          rw [ht, List.length_append, String.length_utf8EncodeChar]
          omega
        rw [ht]
        exact char c rest (ih rest.length hlen rest rfl)

theorem flatMap_bytes_pieces (t : Text) : (pieces t).flatMap Piece.bytes = t := by
  induction t using pieces_induction with
  | nil => rfl
  | char c t ih =>
    rw [pieces_char, List.flatMap_cons, ih]
    rfl
  | stray b t h ih =>
    rw [pieces_stray h, List.flatMap_cons, ih]
    rfl

/-! ## Written characters -/

theorem length_le_ofChars (cs : List Char) : cs.length ≤ (ofChars cs).length := by
  induction cs with
  | nil => exact Nat.le_refl 0
  | cons c cs ih =>
    have hpos := c.utf8Size_pos
    rw [ofChars, List.flatMap_cons, List.length_append, List.length_cons, ← ofChars,
      String.length_utf8EncodeChar]
    omega

theorem ofChars_append (cs ds : List Char) : ofChars (cs ++ ds) = ofChars cs ++ ofChars ds :=
  List.flatMap_append

theorem pieces_ofChars_append (cs : List Char) (t : Text) :
    pieces (ofChars cs ++ t) = cs.map .char ++ pieces t := by
  induction cs with
  | nil => rfl
  | cons c cs ih =>
    rw [ofChars, List.flatMap_cons, List.append_assoc, pieces_char, List.map_cons, List.cons_append]
    exact congrArg _ ih

theorem pieces_ofChars (cs : List Char) : pieces (ofChars cs) = cs.map .char := by
  have h := pieces_ofChars_append cs []
  rw [List.append_nil] at h
  exact h.trans (List.append_nil _)

theorem char_mem_pieces {c : Char} {cs : List Char} : .char c ∈ pieces (ofChars cs) ↔ c ∈ cs := by
  rw [pieces_ofChars]
  constructor
  · intro h
    obtain ⟨d, hd, hc⟩ := List.mem_map.mp h
    exact Piece.char.inj hc ▸ hd
  · exact List.mem_map_of_mem

theorem ofChars_inj {cs ds : List Char} (h : ofChars cs = ofChars ds) : cs = ds := by
  have hpieces := congrArg pieces h
  rw [pieces_ofChars, pieces_ofChars] at hpieces
  exact (List.map_inj_right fun _ _ => Piece.char.inj).mp hpieces

/-- A front part and the rest of the pieces are pieces of their own. -/
theorem pieces_of_append {t : Text} {xs ys : List Piece} (h : pieces t = xs ++ ys) :
    pieces (xs.flatMap Piece.bytes) = xs ∧ pieces (ys.flatMap Piece.bytes) = ys := by
  induction t using pieces_induction generalizing xs with
  | nil =>
    obtain ⟨rfl, rfl⟩ := List.append_eq_nil_iff.mp h.symm
    exact ⟨rfl, rfl⟩
  | char c t ih =>
    rw [pieces_char] at h
    cases xs with
    | nil =>
      rw [List.nil_append] at h
      subst h
      refine ⟨rfl, ?_⟩
      rw [List.flatMap_cons, flatMap_bytes_pieces]
      exact pieces_char c t
    | cons x xs =>
      obtain ⟨rfl, hrest⟩ := List.cons.inj h
      obtain ⟨hx, hy⟩ := ih hrest
      refine ⟨?_, hy⟩
      rw [List.flatMap_cons]
      exact (pieces_char c _).trans (by rw [hx])
  | stray b t hb ih =>
    rw [pieces_stray hb] at h
    cases xs with
    | nil =>
      rw [List.nil_append] at h
      subst h
      refine ⟨rfl, ?_⟩
      rw [List.flatMap_cons, flatMap_bytes_pieces]
      exact pieces_stray hb
    | cons x xs =>
      obtain ⟨rfl, hrest⟩ := List.cons.inj h
      obtain ⟨hx, hy⟩ := ih hrest
      refine ⟨?_, hy⟩
      have hsplit : b :: t = (b :: xs.flatMap Piece.bytes) ++ ys.flatMap Piece.bytes := by
        rw [← flatMap_bytes_pieces t, hrest]
        exact congrArg _ List.flatMap_append
      rw [hsplit] at hb
      exact (pieces_stray (leadingChar?_of_append hb)).trans (by rw [hx])

end DeclCheck.Text

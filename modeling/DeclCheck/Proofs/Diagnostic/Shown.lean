import DeclCheck.Diagnostic.Bag
import DeclCheck.Proofs.Text.Pieces

/-!
# What is shown of a diagnostic

Numbers are shown in decimal digits, a code as the letters of its family and its number, and a place as three
numbers with a colon and a dash between them. No separator is a digit or a letter, so what was shown can be
told from the text, the codes without a family apart.
-/
namespace DeclCheck

namespace Text

theorem ofNat_inj {m n : Nat} (h : ofNat m = ofNat n) : m = n := by
  have hdigits : Nat.toDigits 10 m = Nat.toDigits 10 n := ofChars_inj h
  calc
    m = Nat.ofDigitChars 10 (Nat.toDigits 10 m) 0 := Nat.ofDigitChars_ten_toDigits.symm
    _ = Nat.ofDigitChars 10 (Nat.toDigits 10 n) 0 := by rw [hdigits]
    _ = n := Nat.ofDigitChars_ten_toDigits

theorem isDigitByte_of_mem_ofNat {b : UInt8} {n : Nat} (h : b ∈ ofNat n) : isDigitByte b = true := by
  obtain ⟨c, hc, hb⟩ := List.mem_flatMap.mp h
  have hdigit := Nat.isDigit_of_mem_toDigits (by decide) (by decide) hc
  simp only [Char.isDigit, Bool.and_eq_true, decide_eq_true_eq, ge_iff_le, UInt32.le_iff_toNat_le] at hdigit
  have hlow : 48 ≤ c.toNat := hdigit.1
  have hhigh : c.toNat ≤ 57 := hdigit.2
  rcases encode_cases c with ⟨_, henc⟩ | ⟨hlarge, _⟩
  · rw [henc, List.mem_singleton] at hb
    have hvalue : b.toNat = c.toNat := by rw [hb, UInt8.toNat_ofNat_of_lt' (Nat.lt_of_le_of_lt hhigh (by decide))]
    simp only [isDigitByte, Bool.and_eq_true, decide_eq_true_eq, UInt8.le_iff_toNat_le, hvalue]
    exact ⟨hlow, hhigh⟩
  · omega

theorem append_cons_inj {b : UInt8} {s s' t t' : Text} (hs : b ∉ s) (hs' : b ∉ s')
    (h : s ++ b :: t = s' ++ b :: t') : s = s' ∧ t = t' := by
  induction s generalizing s' with
  | nil =>
    cases s' with
    | nil => exact ⟨rfl, (List.cons.inj h).2⟩
    | cons c s' => exact absurd (List.cons.inj h).1 (fun hb => hs' (hb ▸ List.mem_cons_self))
  | cons c s ih =>
    cases s' with
    | nil => exact absurd (List.cons.inj h).1 (fun hb => hs (hb ▸ List.mem_cons_self))
    | cons c' s' =>
      obtain ⟨rfl, hrest⟩ := List.cons.inj h
      obtain ⟨rfl, rfl⟩ := ih (mt (List.mem_cons_of_mem c) hs) (mt (List.mem_cons_of_mem c) hs') hrest
      exact ⟨rfl, rfl⟩

end Text

namespace Code

/-- The numbers that have a family: those from 2000 to 4999 and from 6000 to 6999. -/
def HasFamily (c : Code) : Prop :=
  2000 ≤ c.number.toNat ∧ c.number.toNat < 5000 ∨ 6000 ≤ c.number.toNat ∧ c.number.toNat < 7000

instance : DecidablePred HasFamily := fun c =>
  inferInstanceAs (Decidable (2000 ≤ c.number.toNat ∧ c.number.toNat < 5000 ∨
    6000 ≤ c.number.toNat ∧ c.number.toNat < 7000))

/-- The letters of the families. -/
def families : List Text := ["SYN", "SEM", "IO", "OBS"]

theorem mem_families {c : Code} {family : Text} (h : c.family? = some family) :
    family ∈ families := by
  unfold family? at h
  unfold families
  grind

theorem isSome_family?_iff {c : Code} : c.family?.isSome = true ↔ c.HasFamily := by
  unfold family? HasFamily
  grind

/-- A code is shown in capital letters and digits. -/
theorem letter_or_digit_of_mem_id {c : Code} {b : UInt8} (h : b ∈ c.id) :
    65 ≤ b ∨ Text.isDigitByte b = true := by
  unfold id at h
  split at h
  · next family hfamily =>
    have hletters : ∀ f ∈ families, f.all (65 ≤ ·) = true := by decide
    rcases List.mem_append.mp h with h | h
    · have hletter := List.all_eq_true.mp (hletters family (mem_families hfamily)) b h
      exact .inl (of_decide_eq_true hletter)
    · exact .inr (Text.isDigitByte_of_mem_ofNat h)
  · have hall : (Text.ofString "E0000").all (fun b => 65 ≤ b || Text.isDigitByte b) = true := by decide
    simpa using List.all_eq_true.mp hall b h

/-- The digits of a shown code are its number. -/
theorem filter_id {c : Code} (h : c.HasFamily) : c.id.filter Text.isDigitByte = Text.ofNat c.number.toNat := by
  obtain ⟨family, hfamily⟩ := Option.isSome_iff_exists.mp (isSome_family?_iff.mpr h)
  have hletters : ∀ f ∈ families, f.filter Text.isDigitByte = [] := by decide
  have hdigits : (Text.ofNat c.number.toNat).filter Text.isDigitByte = Text.ofNat c.number.toNat :=
    List.filter_eq_self.mpr fun _ hb => Text.isDigitByte_of_mem_ofNat hb
  simp only [id, hfamily, List.filter_append, hletters family (mem_families hfamily), hdigits, List.nil_append]

theorem id_inj {c e : Code} (hc : c.HasFamily) (he : e.HasFamily) (h : c.id = e.id) : c = e := by
  have hnumber : Text.ofNat c.number.toNat = Text.ofNat e.number.toNat := by
    rw [← filter_id hc, ← filter_id he, h]
  cases c
  cases e
  exact congrArg mk (UInt16.toNat_inj.mp (Text.ofNat_inj hnumber))

end Code

theorem Span.render_inj {s t : Span} (h : s.render = t.render) : s = t := by
  have hcolon : ∀ n, (58 : UInt8) ∉ Text.ofNat n := by
    intro n hmem
    exact absurd (Text.isDigitByte_of_mem_ofNat hmem) (by decide)
  have hdash : ∀ n, (45 : UInt8) ∉ Text.ofNat n := by
    intro n hmem
    exact absurd (Text.isDigitByte_of_mem_ofNat hmem) (by decide)
  have hparts : ∀ s : Span, s.render =
      Text.ofNat s.file ++ 58 :: (Text.ofNat s.start.toNat ++ 45 :: Text.ofNat s.stop.toNat) := by
    intro s
    simp only [render, List.append_assoc]
    rfl
  rw [hparts, hparts] at h
  obtain ⟨hfile, hrest⟩ := Text.append_cons_inj (hcolon _) (hcolon _) h
  obtain ⟨hstart, hstop⟩ := Text.append_cons_inj (hdash _) (hdash _) hrest
  cases s
  cases t
  simp only [Span.mk.injEq]
  exact ⟨Text.ofNat_inj hfile, UInt32.toNat_inj.mp (Text.ofNat_inj hstart),
    UInt32.toNat_inj.mp (Text.ofNat_inj hstop)⟩

/-- Where the codes have families, what is shown tells codes and places apart. -/
theorem Bag.shownPlace_inj {d e : Diagnostic} (hd : d.code.HasFamily) (he : e.code.HasFamily) :
    shownPlace d = shownPlace e ↔ d.code = e.code ∧ d.primary = e.primary := by
  constructor
  · intro h
    have hcolon : ∀ c : Code, (58 : UInt8) ∉ c.id := by
      intro c hmem
      exact absurd (Code.letter_or_digit_of_mem_id hmem) (by decide)
    have hparts : ∀ d, shownPlace d = d.code.id ++ 58 :: d.primary.render := by
      intro d
      simp only [shownPlace, List.append_assoc]
      rfl
    rw [hparts, hparts] at h
    obtain ⟨hid, hspan⟩ := Text.append_cons_inj (hcolon _) (hcolon _) h
    exact ⟨Code.id_inj hd he hid, Span.render_inj hspan⟩
  · rintro ⟨hcode, hspan⟩
    rw [shownPlace, shownPlace, hcode, hspan]

end DeclCheck

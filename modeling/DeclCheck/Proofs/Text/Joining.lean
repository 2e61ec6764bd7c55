import DeclCheck.Proofs.Text.Tables

/-!
# Taking apart and joining

Code points are taken apart until nothing is left that stands for others. Long runs of marks may be parted by joiners,
marks change places, and some neighbours are joined. What holds of all parts and of what they join into holds in the
end, a joiner stays, and where only parts of Hangul were joined, taking these apart undoes it.
-/
namespace DeclCheck.Text

/-! ## Taking apart -/

section Lookup

variable {α : Type} {n : Nat}

theorem lookup_eq_none_of_lt {ps : List (Nat × α)} (h : ∀ p ∈ ps, n < p.1) : ps.lookup n = none :=
  List.lookup_eq_none_iff.mpr fun p hp => bne_iff_ne.mpr (Nat.ne_of_lt (h p hp))

theorem mem_of_lookup {ps : List (Nat × α)} {a : α} (h : ps.lookup n = some a) : (n, a) ∈ ps := by
  obtain ⟨front, back, rfl, _⟩ := List.lookup_eq_some_iff.mp h
  exact List.mem_append_right _ List.mem_cons_self

theorem pairOf?_eq_lookup {ps : List (Nat × Nat × Nat)} (hps : (ps.map Prod.fst).Pairwise (· < ·)) :
    pairOf? ps n = ps.lookup n := by
  induction ps with
  | nil => rfl
  | cons p ps ih =>
    obtain ⟨hp, hrest⟩ := List.pairwise_cons.mp hps
    rw [List.forall_mem_map] at hp
    rw [pairOf?]
    split
    · next hlt =>
      exact (lookup_eq_none_of_lt (List.forall_mem_cons.mpr ⟨hlt, fun q hq => hlt.trans (hp q hq)⟩)).symm
    split
    · next heq => rw [List.lookup_cons, beq_iff_eq.mpr heq]
    · next hne => rw [List.lookup_cons, beq_false_of_ne hne, ih hrest]

theorem singletonOf?_eq_lookup {ps : List (Nat × Nat)} (hps : (ps.map Prod.fst).Pairwise (· < ·)) :
    singletonOf? ps n = ps.lookup n := by
  induction ps with
  | nil => rfl
  | cons p ps ih =>
    obtain ⟨hp, hrest⟩ := List.pairwise_cons.mp hps
    rw [List.forall_mem_map] at hp
    rw [singletonOf?]
    split
    · next hlt =>
      exact (lookup_eq_none_of_lt (List.forall_mem_cons.mpr ⟨hlt, fun q hq => hlt.trans (hp q hq)⟩)).symm
    split
    · next heq => rw [List.lookup_cons, beq_iff_eq.mpr heq]
    · next hne => rw [List.lookup_cons, beq_false_of_ne hne, ih hrest]

theorem mem_of_pairOf? {p : Nat × Nat} (h : pairOf? canonicalPairs n = some p) : (n, p) ∈ canonicalPairs :=
  mem_of_lookup (pairOf?_eq_lookup canonicalPairs_increasing ▸ h)

theorem mem_of_singletonOf? {a : Nat} (h : singletonOf? canonicalSingletons n = some a) :
    (n, a) ∈ canonicalSingletons :=
  mem_of_lookup (singletonOf?_eq_lookup canonicalSingletons_increasing ▸ h)

end Lookup

theorem firstParts_of_pair {c a b : Nat} (h : (c, a, b) ∈ canonicalPairs) : (c, a) ∈ firstParts :=
  List.mem_append_left _ (List.mem_map_of_mem h)

theorem firstParts_of_singleton {c a : Nat} (h : (c, a) ∈ canonicalSingletons) : (c, a) ∈ firstParts :=
  List.mem_append_right _ h

/-- A code point that stands for no others. -/
structure Whole (n : Nat) : Prop where
  depth_eq : depth n = 0
  notHangul : isHangul n = false

/-- A code point that joins with the one before it. -/
def Second (n : Nat) : Prop := ∃ c a, (c, a, n) ∈ canonicalPairs

theorem Second.whole {n : Nat} (h : Second n) : Whole n := by
  obtain ⟨c, a, hmem⟩ := h
  obtain ⟨_, _, hhangul, hstanding⟩ := tables_agree.second_whole _ hmem
  exact ⟨depth_eq_zero hstanding, hhangul⟩

theorem Whole.takeApart {n : Nat} (h : Whole n) (d : Nat) : takeApart d n = [n] := by
  cases d with
  | zero => rfl
  | succ d =>
    have hnone : ∀ a, (n, a) ∉ firstParts := by
      intro a ha
      have hlt := depth_firstParts ha
      rw [h.depth_eq] at hlt
      exact Nat.not_lt_zero _ hlt
    rw [Text.takeApart, h.notHangul]
    split
    · rfl
    rw [if_neg Bool.false_ne_true]
    split
    · next a b hpair => exact (hnone a (firstParts_of_pair (mem_of_pairOf? hpair))).elim
    split
    · next a hsingle => exact (hnone a (firstParts_of_singleton (mem_of_singletonOf? hsingle))).elim
    · rfl

theorem isHangul_iff {n : Nat} : isHangul n = true ↔ 0xAC00 ≤ n ∧ n < 0xD7A4 := by
  rw [isHangul, Bool.and_eq_true, decide_eq_true_iff, decide_eq_true_iff]
  rfl

theorem hangulParts_eq (n : Nat) : hangulParts n = if (n - 0xAC00) % 28 = 0
    then [0x1100 + (n - 0xAC00) / 588, 0x1161 + (n - 0xAC00) % 588 / 28]
    else [0x1100 + (n - 0xAC00) / 588, 0x1161 + (n - 0xAC00) % 588 / 28, 0x11A7 + (n - 0xAC00) % 28] := rfl

theorem hangulParts_mem {n m : Nat} (hn : isHangul n = true) (hm : m ∈ hangulParts n) :
    0x1100 ≤ m ∧ m < 0x11C3 := by
  rw [isHangul_iff] at hn
  rw [hangulParts_eq] at hm
  split at hm <;> simp only [List.mem_cons, List.not_mem_nil, or_false] at hm <;> omega

theorem depth_of_hangul {n : Nat} (h : 0x1100 ≤ n ∧ n < 0x11C3 ∨ isHangul n = true) : depth n = 0 := by
  refine depth_eq_zero_of_forall ?_
  rintro e he rfl
  obtain ⟨hhangul, _, hpart⟩ := tables_agree.first_notHangul e he
  rw [hhangul] at h
  rcases h with h | h
  · omega
  · cases h

theorem whole_hangulPart {n : Nat} (h : 0x1100 ≤ n ∧ n < 0x11C3) : Whole n := by
  refine ⟨depth_of_hangul (.inl h), Bool.eq_false_iff.mpr fun hhangul => ?_⟩
  rw [isHangul_iff] at hhangul
  omega

theorem whole_low {n : Nat} (h : n < 0xC0) : Whole n := by
  refine ⟨depth_eq_zero_of_forall ?_, Bool.eq_false_iff.mpr fun hhangul => ?_⟩
  · rintro e he rfl
    have hhead := (tables_agree.first_notHangul e he).2.2
    omega
  · rw [isHangul_iff] at hhangul
    omega

theorem depth_of_none {n : Nat} (hpair : pairOf? canonicalPairs n = none)
    (hsingle : singletonOf? canonicalSingletons n = none) : depth n = 0 := by
  rw [pairOf?_eq_lookup canonicalPairs_increasing, List.lookup_eq_none_iff] at hpair
  rw [singletonOf?_eq_lookup canonicalSingletons_increasing, List.lookup_eq_none_iff] at hsingle
  refine depth_eq_zero_of_forall ?_
  rintro e he rfl
  rcases List.mem_append.mp he with he | he
  · obtain ⟨p, hp, rfl⟩ := List.mem_map.mp he
    exact bne_iff_ne.mp (hpair p hp) rfl
  · exact bne_iff_ne.mp (hsingle e he) rfl

/-- A code point stands for itself, for the parts of a syllable, for a pair, or for one other. -/
theorem takeApart_cases (d n : Nat) :
    Whole n ∧ takeApart (d + 1) n = [n] ∨
    isHangul n = true ∧ takeApart (d + 1) n = hangulParts n ∨
    (∃ a b, (n, a, b) ∈ canonicalPairs ∧ takeApart (d + 1) n = takeApart d a ++ [b]) ∨
    ∃ a, (n, a) ∈ canonicalSingletons ∧ takeApart (d + 1) n = takeApart d a := by
  rw [takeApart]
  split
  · next hlow => exact .inl ⟨whole_low hlow, rfl⟩
  split
  · next hhangul => exact .inr (.inl ⟨hhangul, rfl⟩)
  · next hhangul =>
    split
    · next a b hpair =>
      have hmem := mem_of_pairOf? hpair
      have hsecond : Second b := ⟨n, a, hmem⟩
      exact .inr (.inr (.inl ⟨a, b, hmem, by rw [hsecond.whole.takeApart]⟩))
    · next hpair =>
      split
      · next a hsingle => exact .inr (.inr (.inr ⟨a, mem_of_singletonOf? hsingle, rfl⟩))
      · next hsingle => exact .inl ⟨⟨depth_of_none hpair hsingle, Bool.eq_false_iff.mpr hhangul⟩, rfl⟩

theorem takeApart_whole {d n : Nat} (hd : depth n ≤ d) (hn : isHangul n = false ∨ 0 < d) :
    ∀ m ∈ takeApart d n, Whole m := by
  induction d generalizing n with
  | zero =>
    intro m hm
    rw [takeApart, List.mem_singleton] at hm
    subst hm
    exact ⟨by omega, hn.resolve_right (Nat.lt_irrefl 0)⟩
  | succ d ih =>
    have hpart : ∀ {a}, (n, a) ∈ firstParts → ∀ m ∈ takeApart d a, Whole m := by
      intro a ha
      have hlt : depth a < depth n := depth_firstParts ha
      exact ih (by omega) (.inl (tables_agree.first_notHangul _ ha).2.1)
    rcases takeApart_cases d n with ⟨hwhole, h⟩ | ⟨hhangul, h⟩ | ⟨a, b, hmem, h⟩ | ⟨a, hmem, h⟩ <;> rw [h]
    · exact List.forall_mem_singleton.mpr hwhole
    · exact fun m hm => whole_hangulPart (hangulParts_mem hhangul hm)
    · exact List.forall_mem_append.mpr ⟨hpart (firstParts_of_pair hmem),
        List.forall_mem_singleton.mpr (Second.whole ⟨_, _, hmem⟩)⟩
    · exact hpart (firstParts_of_singleton hmem)

theorem whole_of_mem_fullyApart {n m : Nat} (h : m ∈ fullyApart n) : Whole m :=
  takeApart_whole (Nat.le_succ_of_le (depth_le n)) (.inr (by decide)) m h

theorem takeApart_valid {d n : Nat} (hn : n.isValidChar) : ∀ m ∈ takeApart d n, m.isValidChar := by
  induction d generalizing n with
  | zero => exact List.forall_mem_singleton.mpr hn
  | succ d ih =>
    rcases takeApart_cases d n with ⟨_, h⟩ | ⟨hhangul, h⟩ | ⟨a, b, hmem, h⟩ | ⟨a, hmem, h⟩ <;> rw [h]
    · exact List.forall_mem_singleton.mpr hn
    · intro m hm
      have hbound := hangulParts_mem hhangul hm
      left
      omega
    · exact List.forall_mem_append.mpr ⟨ih (tables_agree.first_valid _ (firstParts_of_pair hmem)).2,
        List.forall_mem_singleton.mpr (tables_agree.second_whole _ hmem).2.1⟩
    · exact ih (tables_agree.first_valid _ (firstParts_of_singleton hmem)).2

theorem takeApart_ne_nil (d n : Nat) : takeApart d n ≠ [] := by
  induction d generalizing n with
  | zero => exact List.cons_ne_nil _ _
  | succ d ih =>
    rcases takeApart_cases d n with ⟨_, h⟩ | ⟨_, h⟩ | ⟨a, b, _, h⟩ | ⟨a, _, h⟩ <;> rw [h]
    · exact List.cons_ne_nil _ _
    · rw [hangulParts_eq]
      split <;> exact List.cons_ne_nil _ _
    · exact List.append_ne_nil_of_left_ne_nil (ih a) _
    · exact ih a

/-! ## Runs of marks -/

/-- Code points, and the same code points with joiners put in between. -/
inductive Parted : List Nat → List Nat → Prop
  | nil : Parted [] []
  | cons {l us : List Nat} (n : Nat) : Parted l us → Parted (n :: l) (n :: us)
  | joiner {l us : List Nat} : Parted l us → Parted l (runJoiner :: us)

namespace Parted

variable {l us : List Nat}

theorem append_left (ns : List Nat) (h : Parted l us) : Parted (ns ++ l) (ns ++ us) := by
  induction ns with
  | nil => exact h
  | cons n ns ih => exact .cons n ih

theorem refl (l : List Nat) : Parted l l := by
  induction l with
  | nil => exact .nil
  | cons n l ih => exact .cons n ih

theorem mem (h : Parted l us) {n : Nat} (hn : n ∈ l) : n ∈ us := by
  induction h with
  | nil => exact hn
  | cons m _ ih => exact List.mem_cons.mpr ((List.mem_cons.mp hn).imp_right ih)
  | joiner _ ih => exact List.mem_cons_of_mem _ (ih hn)

theorem forall_mem (h : Parted l us) {P : Nat → Prop} (hjoiner : P runJoiner) (hl : ∀ n ∈ l, P n) :
    ∀ n ∈ us, P n := by
  induction h with
  | nil => exact hl
  | cons m _ ih =>
    obtain ⟨hm, hl⟩ := List.forall_mem_cons.mp hl
    exact List.forall_mem_cons.mpr ⟨hm, ih hl⟩
  | joiner _ ih => exact List.forall_mem_cons.mpr ⟨hjoiner, ih hl⟩

theorem eq_of_not_mem (h : Parted l us) (hjoiner : runJoiner ∉ us) : us = l := by
  induction h with
  | nil => rfl
  | cons m _ ih => rw [ih (mt (List.mem_cons_of_mem _) hjoiner)]
  | joiner _ _ => exact (hjoiner List.mem_cons_self).elim

end Parted

theorem partRuns_parted (seen : Nat) (ps : List (List Nat)) : Parted ps.flatten (partRuns seen ps) := by
  induction ps generalizing seen with
  | nil => exact .nil
  | cons ns ps ih =>
    rw [partRuns, List.flatten_cons]
    split
    · exact (ih _).append_left ns
    · exact .joiner ((ih _).append_left ns)

theorem ownMarks_le (n : Nat) : ownMarks n ≤ 2 := by
  unfold ownMarks
  split
  · exact Nat.le_refl _
  · split <;> omega

theorem runAfter_cons (seen n : Nat) (ns : List Nat) :
    runAfter seen (n :: ns) = runAfter (if goesOn n then seen + 1 else ownMarks n) ns := rfl

theorem runAfter_le (seen : Nat) (ns : List Nat) : runAfter seen ns ≤ max seen 2 + ns.length := by
  induction ns generalizing seen with
  | nil => exact Nat.le_max_left seen 2
  | cons n ns ih =>
    have hown := ownMarks_le n
    rw [runAfter_cons, List.length_cons]
    refine (ih _).trans ?_
    split <;> omega

/-- Code points that cannot make the run too long are not parted. -/
theorem partRuns_singles {seen : Nat} {ns : List Nat} (h : max seen 2 + ns.length ≤ longestRun)
    (ps : List (List Nat)) : partRuns seen (ns.map ([·]) ++ ps) = ns ++ partRuns (runAfter seen ns) ps := by
  induction ns generalizing seen with
  | nil => rfl
  | cons n ns ih =>
    have hstep : runAfter seen [n] ≤ max seen 2 + 1 := runAfter_le seen [n]
    rw [List.length_cons] at h
    rw [List.map_cons, List.cons_append, partRuns, if_pos (by omega), ih (by omega)]
    rfl

section Start

variable {n : Nat} (hn : goesOn n = false) {more : List Nat} (hmore : more.length < 20)
include hn

theorem runAfter_start (seen : Nat) : runAfter seen (n :: more) = runAfter (ownMarks n) more := by
  rw [runAfter_cons, hn]
  rfl

include hmore

/-- Where a character does not go on with a run, it makes no difference how long the run was, and whether the
character is taken apart before. -/
theorem partRuns_start (seen : Nat) (ps : List (List Nat)) :
    partRuns seen ((n :: more) :: ps) = n :: (more ++ partRuns (runAfter (ownMarks n) more) ps) ∧
    partRuns seen ((n :: more).map ([·]) ++ ps) = n :: (more ++ partRuns (runAfter (ownMarks n) more) ps) := by
  have hown := ownMarks_le n
  have hlong : longestRun = 30 := rfl
  constructor
  · have hle := runAfter_le (ownMarks n) more
    rw [partRuns, runAfter_start hn, if_pos (by omega)]
    rfl
  · have hone : runAfter seen [n] = ownMarks n := runAfter_start hn seen
    rw [List.map_cons, List.cons_append, partRuns, hone, if_pos (by omega), partRuns_singles (by omega)]
    rfl

end Start

/-- Characters may be taken apart before, unless one of more parts than one goes on with a run. -/
theorem partRuns_flatten {ps : List (List Nat)}
    (h : ∀ ns ∈ ps, (∃ n, ns = [n]) ∨ ∃ n more, ns = n :: more ∧ goesOn n = false ∧ more.length < 20)
    (seen : Nat) : partRuns seen (ps.flatten.map ([·])) = partRuns seen ps := by
  induction ps generalizing seen with
  | nil => rfl
  | cons ns ps ih =>
    obtain ⟨hns, hps⟩ := List.forall_mem_cons.mp h
    rw [List.flatten_cons, List.map_append]
    rcases hns with ⟨n, rfl⟩ | ⟨n, more, rfl, hn, hmore⟩
    · rw [List.map_singleton, List.singleton_append, partRuns, partRuns, ih hps, ih hps]
    · rw [(partRuns_start hn hmore seen _).1, (partRuns_start hn hmore seen _).2, ih hps]

theorem sinkMark_perm (n : Nat) (l : List Nat) : (sinkMark n l).Perm (n :: l) := by
  induction l with
  | nil => exact .refl _
  | cons m l ih =>
    rw [sinkMark]
    split
    · exact (ih.cons m).trans (.swap n m l)
    · exact .refl _

theorem orderMarks_perm (l : List Nat) : (orderMarks l).Perm l := by
  induction l with
  | nil => exact .refl _
  | cons n l ih =>
    rw [orderMarks]
    split
    · exact ih.cons n
    · exact (sinkMark_perm n _).trans (ih.cons n)

theorem orderMarks_of_starters {l : List Nat} (h : ∀ n ∈ l, combiningClass n = 0) :
    orderMarks l = l := by
  induction l with
  | nil => rfl
  | cons m l ih =>
    obtain ⟨hm, hl⟩ := List.forall_mem_cons.mp h
    rw [orderMarks, if_pos hm, ih hl]

/-! ## Joining -/

theorem composite?_cases {a b c : Nat} (h : composite? a b = some c) :
    hangulJoin? a b = some c ∨ (c, a, b) ∈ canonicalPairs := by
  rw [composite?] at h
  split at h
  · next hjoin => exact .inl (hjoin.trans h)
  · dsimp only at h
    split at h
    · next d x y hfind =>
      have hpair := List.find?_some hfind
      have hmem := List.mem_of_find?_eq_some hfind
      simp only [Bool.and_eq_true, beq_iff_eq] at hpair
      obtain ⟨⟨rfl, rfl⟩, _⟩ := hpair
      cases h
      exact .inr hmem
    · cases h

theorem isLetter_hangul {n : Nat} (h : 0x1100 ≤ n ∧ n < 0x11C3 ∨ isHangul n = true) :
    inRanges letterRanges n = true := by
  have hmem : (0x10FC, 0x1248) ∈ letterRanges ∧ (0xAC00, 0xD7A3) ∈ letterRanges := by decide +kernel
  rw [isHangul_iff] at h
  rcases h with h | h
  · exact inRanges_of_mem tables_agree.letters_increasing hmem.1 (by omega) (by omega)
  · exact inRanges_of_mem tables_agree.letters_increasing hmem.2 h.1 (by omega)

theorem combiningClass_hangulPart {n : Nat} (h : 0x1100 ≤ n ∧ n < 0x11C3) : combiningClass n = 0 :=
  combiningClass_of_inRanges (.inl (isLetter_hangul (.inl h)))

theorem some_of_ite {α : Type} {p : Prop} [Decidable p] {x : Option α} {a : α}
    (h : (if p then x else none) = some a) : p ∧ x = some a := by
  split at h
  · next hp => exact ⟨hp, h⟩
  · cases h

theorem joinFrom_forall {P : Nat → Prop}
    (hP : ∀ {a b c}, composite? a b = some c → P a → P b → P c) {starter : Nat} {marks rest : List Nat}
    (hs : P starter) (hm : ∀ m ∈ marks, P m) (hr : ∀ n ∈ rest, P n) :
    ∀ n ∈ joinFrom starter marks rest, P n := by
  fun_induction joinFrom starter marks rest with
  | case1 starter marks =>
    refine List.forall_mem_cons.mpr ⟨hs, fun n hn => hm n (List.mem_reverse.mp hn)⟩
  | case2 starter marks n rest cls reaches c hjoin ih =>
    obtain ⟨hn, hrest⟩ := List.forall_mem_cons.mp hr
    exact ih (hP (some_of_ite hjoin).2 hs hn) hm hrest
  | case3 starter marks n rest cls reaches _ hcls ih =>
    obtain ⟨hn, hrest⟩ := List.forall_mem_cons.mp hr
    refine List.forall_mem_cons.mpr ⟨hs, List.forall_mem_append.mpr ⟨fun m hm' => ?_, ?_⟩⟩
    · exact hm m (List.mem_reverse.mp hm')
    · exact ih hn (by simp) hrest
  | case4 starter marks n rest cls reaches _ hcls ih =>
    obtain ⟨hn, hrest⟩ := List.forall_mem_cons.mp hr
    exact ih hs (List.forall_mem_cons.mpr ⟨hn, hm⟩) hrest

/-- What holds of parts and of what they join into holds of all that is joined. -/
theorem joinAll_forall {P : Nat → Prop}
    (hP : ∀ {a b c}, composite? a b = some c → P a → P b → P c) {l : List Nat} (h : ∀ n ∈ l, P n) :
    ∀ n ∈ joinAll l, P n := by
  induction l with
  | nil => exact h
  | cons n l ih =>
    obtain ⟨hn, hl⟩ := List.forall_mem_cons.mp h
    rw [joinAll]
    split
    · exact joinFrom_forall hP hn (by simp) hl
    · exact List.forall_mem_cons.mpr ⟨hn, ih hl⟩

/-- A syllable of Hangul taken apart. -/
def hangulApart (n : Nat) : List Nat := if isHangul n then hangulParts n else [n]

theorem hangulJoin?_apart {a b c : Nat} (h : hangulJoin? a b = some c) : isHangul c = true ∧
    hangulApart c = hangulApart a ++ [b] ∧ (0x1100 ≤ a ∧ a < 0x11C3 ∨ isHangul a = true) ∧
      0x1100 ≤ b ∧ b < 0x11C3 := by
  have hbase : hangulBase = 0xAC00 := rfl
  rw [hangulJoin?] at h
  split at h
  · next hparts =>
    simp only [Bool.and_eq_true, decide_eq_true_iff] at hparts
    have hc := Option.some.inj h
    rw [hbase] at hc
    have hhangul : isHangul c = true := isHangul_iff.mpr (by omega)
    have ha : ¬ isHangul a = true := by rw [isHangul_iff]; omega
    refine ⟨hhangul, ?_, .inl (by omega), by omega, by omega⟩
    have hlead : 0x1100 + (c - 0xAC00) / 588 = a := by omega
    have hvowel : 0x1161 + (c - 0xAC00) % 588 / 28 = b := by omega
    rw [hangulApart, if_pos hhangul, hangulApart, if_neg ha, hangulParts_eq, if_pos (by omega), hlead, hvowel]
    rfl
  split at h
  · next hparts =>
    simp only [Bool.and_eq_true, decide_eq_true_iff, beq_iff_eq] at hparts
    obtain ⟨⟨⟨ha, hopen⟩, hlow⟩, hhigh⟩ := hparts
    have hbound := isHangul_iff.mp ha
    have hc := Option.some.inj h
    rw [hbase] at hopen
    have hhangul : isHangul c = true := isHangul_iff.mpr (by omega)
    refine ⟨hhangul, ?_, .inr ha, by omega, by omega⟩
    have hlead : (c - 0xAC00) / 588 = (a - 0xAC00) / 588 := by omega
    have hvowel : (c - 0xAC00) % 588 / 28 = (a - 0xAC00) % 588 / 28 := by omega
    have htail : 0x11A7 + (c - 0xAC00) % 28 = b := by omega
    rw [hangulApart, if_pos hhangul, hangulApart, if_pos ha, hangulParts_eq, if_neg (by omega),
      hangulParts_eq, if_pos (by omega), hlead, hvowel, htail]
    rfl
  · cases h

theorem composite?_depth {a b c : Nat} (h : composite? a b = some c) (ha : depth a ≠ 0) :
    depth c ≠ 0 := by
  rcases composite?_cases h with h | h
  · exact (ha (depth_of_hangul (hangulJoin?_apart h).2.2.1)).elim
  · have hlt : depth a < depth c := depth_firstParts (firstParts_of_pair h)
    omega

/-- What stands for others stays so when more joins it. -/
theorem exists_depth_joinFrom {starter : Nat} (marks rest : List Nat) (h : depth starter ≠ 0) :
    ∃ n ∈ joinFrom starter marks rest, depth n ≠ 0 := by
  fun_induction joinFrom starter marks rest with
  | case1 starter marks => exact ⟨starter, List.mem_cons_self, h⟩
  | case2 starter marks n rest cls reaches c hjoin ih => exact ih (composite?_depth (some_of_ite hjoin).2 h)
  | case3 starter marks n rest cls reaches _ hcls ih => exact ⟨starter, List.mem_cons_self, h⟩
  | case4 starter marks n rest cls reaches _ hcls ih => exact ih h

theorem Whole.hangulApart {n : Nat} (h : Whole n) : hangulApart n = [n] := by
  rw [Text.hangulApart, h.notHangul]
  rfl

theorem flatMap_hangulApart {l : List Nat} (h : ∀ n ∈ l, isHangul n = false) :
    l.flatMap hangulApart = l := by
  induction l with
  | nil => rfl
  | cons n l ih =>
    obtain ⟨hn, hl⟩ := List.forall_mem_cons.mp h
    rw [List.flatMap_cons, ih hl, hangulApart, hn]
    rfl

theorem flatMap_joinFrom {starter : Nat} {marks rest : List Nat} (hm : ∀ m ∈ marks, Whole m)
    (hr : ∀ n ∈ rest, Whole n) (hout : ∀ n ∈ joinFrom starter marks rest, depth n = 0) :
    (joinFrom starter marks rest).flatMap hangulApart = hangulApart starter ++ (marks.reverse ++ rest) := by
  have hmarks : ∀ {l : List Nat}, (∀ m ∈ l, Whole m) → l.reverse.flatMap hangulApart = l.reverse :=
    fun hl => flatMap_hangulApart fun m hm => (hl m (List.mem_reverse.mp hm)).notHangul
  fun_induction joinFrom starter marks rest with
  | case1 starter marks => rw [List.flatMap_cons, hmarks hm, List.append_nil]
  | case2 starter marks n rest cls reaches c hjoin ih =>
    obtain ⟨hn, hrest⟩ := List.forall_mem_cons.mp hr
    obtain ⟨hreach, hcomp⟩ := some_of_ite hjoin
    rw [ih hm hrest hout]
    rcases composite?_cases hcomp with hhangul | hpair
    · obtain ⟨_, hapart, _, hpart⟩ := hangulJoin?_apart hhangul
      -- A part of Hangul is no mark, so no marks stand between it and what it joins.
      have hnil : marks = [] := by
        cases marks with
        | nil => rfl
        | cons m ms =>
          have hlt : combiningClass m < combiningClass n := of_decide_eq_true hreach
          rw [combiningClass_hangulPart hpart] at hlt
          exact (Nat.not_lt_zero _ hlt).elim
      rw [hnil, hapart, List.append_assoc]
      rfl
    · have hlt : depth starter < depth c := depth_firstParts (firstParts_of_pair hpair)
      have hc : depth c ≠ 0 := by omega
      obtain ⟨x, hx, hdepth⟩ := exists_depth_joinFrom marks rest hc
      exact (hdepth (hout x hx)).elim
  | case3 starter marks n rest cls reaches _ hcls ih =>
    obtain ⟨hn, hrest⟩ := List.forall_mem_cons.mp hr
    obtain ⟨_, hlast⟩ := List.forall_mem_append.mp (List.forall_mem_cons.mp hout).2
    rw [List.flatMap_cons, List.flatMap_append, hmarks hm, ih (by simp) hrest hlast, hn.hangulApart]
    rfl
  | case4 starter marks n rest cls reaches _ hcls ih =>
    obtain ⟨hn, hrest⟩ := List.forall_mem_cons.mp hr
    rw [ih (List.forall_mem_cons.mpr ⟨hn, hm⟩) hrest hout, List.reverse_cons, List.append_assoc]
    rfl

/-- Where only parts of Hangul were joined, taking these apart undoes it. -/
theorem flatMap_joinAll {l : List Nat} (h : ∀ n ∈ l, Whole n) (hout : ∀ n ∈ joinAll l, depth n = 0) :
    (joinAll l).flatMap hangulApart = l := by
  induction l with
  | nil => rfl
  | cons n l ih =>
    obtain ⟨hn, hl⟩ := List.forall_mem_cons.mp h
    rw [joinAll] at hout ⊢
    split at hout
    · next hcls =>
      rw [if_pos hcls, flatMap_joinFrom (by simp) hl hout, hn.hangulApart]
      rfl
    · next hcls =>
      rw [if_neg hcls, List.flatMap_cons, hn.hangulApart, ih hl (List.forall_mem_cons.mp hout).2]
      rfl

theorem joinFrom_ne_nil (starter : Nat) (marks rest : List Nat) : joinFrom starter marks rest ≠ [] := by
  fun_induction joinFrom starter marks rest with
  | case1 => exact List.cons_ne_nil _ _
  | case2 starter marks n rest cls reaches c hjoin ih => exact ih
  | case3 => exact List.cons_ne_nil _ _
  | case4 starter marks n rest cls reaches _ hcls ih => exact ih

theorem joinAll_ne_nil {l : List Nat} (h : l ≠ []) : joinAll l ≠ [] := by
  cases l with
  | nil => exact (h rfl).elim
  | cons n l =>
    rw [joinAll]
    split
    · exact joinFrom_ne_nil n [] l
    · exact List.cons_ne_nil _ _

theorem composite?_not_joiner {a b c : Nat} (h : composite? a b = some c) : a ≠ runJoiner ∧ b ≠ runJoiner := by
  rcases composite?_cases h with hjoin | hpair
  · obtain ⟨_, _, ha, hb⟩ := hangulJoin?_apart hjoin
    rw [isHangul_iff] at ha
    have hjoiner : runJoiner = 0x34F := rfl
    omega
  · exact tables_agree.joiner_alone _ hpair

theorem joiner_mem_joinFrom {starter : Nat} {marks rest : List Nat}
    (h : starter = runJoiner ∨ runJoiner ∈ marks ∨ runJoiner ∈ rest) : runJoiner ∈ joinFrom starter marks rest := by
  fun_induction joinFrom starter marks rest with
  | case1 starter marks =>
    rcases h with rfl | h | h
    · exact List.mem_cons_self
    · exact List.mem_cons_of_mem _ (List.mem_reverse.mpr h)
    · cases h
  | case2 starter marks n rest cls reaches c hjoin ih =>
    obtain ⟨hstarter, hn⟩ := composite?_not_joiner (some_of_ite hjoin).2
    refine ih (.inr ?_)
    rcases h with h | h | h
    · exact (hstarter h).elim
    · exact .inl h
    · exact .inr ((List.mem_cons.mp h).resolve_left hn.symm)
  | case3 starter marks n rest cls reaches _ hcls ih =>
    rw [List.mem_cons, List.mem_append, List.mem_reverse]
    rcases h with h | h | h
    · exact .inl h.symm
    · exact .inr (.inl h)
    · exact .inr (.inr (ih ((List.mem_cons.mp h).imp Eq.symm .inr)))
  | case4 starter marks n rest cls reaches _ hcls ih =>
    refine ih (h.imp_right fun h => ?_)
    rw [List.mem_cons] at h ⊢
    rcases h with h | h | h
    · exact .inl (.inr h)
    · exact .inl (.inl h)
    · exact .inr h

/-- A joiner joins with nothing. -/
theorem joiner_mem_joinAll {l : List Nat} (h : runJoiner ∈ l) : runJoiner ∈ joinAll l := by
  induction l with
  | nil => exact h
  | cons n l ih =>
    rw [joinAll]
    split
    · exact joiner_mem_joinFrom ((List.mem_cons.mp h).imp Eq.symm .inr)
    · exact List.mem_cons.mpr ((List.mem_cons.mp h).imp_right ih)

end DeclCheck.Text

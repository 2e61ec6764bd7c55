import DeclCheck.Render.Pretty
import DeclCheck.Proofs.Text.Pieces

/-!
# Columns of plain text

A text is plain if it has printable characters of ASCII and tabs only. Each character is a cluster of its own
and takes one column, and a tab is shown as four spaces.
-/
namespace DeclCheck.Text

/-- Is the byte a printable character of ASCII? -/
def isPrintableByte (b : UInt8) : Bool := 0x20 ≤ b && b ≤ 0x7E

/-- Is the byte a printable character of ASCII or a tab? -/
def isPlain (b : UInt8) : Bool := isPrintableByte b || b = tab

/-- How many columns a text takes if a tab takes four of them and any other byte one. -/
def columns (t : Text) : Nat := t.length + 3 * t.count tab

theorem isPrintableByte_iff {b : UInt8} : isPrintableByte b = true ↔ 0x20 ≤ b.toNat ∧ b.toNat < 0x7F := by
  rw [isPrintableByte, Bool.and_eq_true, decide_eq_true_iff, decide_eq_true_iff, UInt8.le_iff_toNat_le,
    UInt8.le_iff_toNat_le]
  exact and_congr_right fun _ => Nat.lt_succ_iff.symm

section Printable

variable {b : UInt8} (hb : isPrintableByte b = true)
include hb

theorem clusterStep?_printable (t : Text) : clusterStep? (b :: t) = some (.other, 1) := by
  obtain ⟨hlow, hhigh⟩ := isPrintableByte_iff.mp hb
  have hsize : announcedSize b = 1 := by
    rw [announcedSize, if_pos]
    rw [UInt8.lt_iff_toNat_lt]
    exact Nat.lt_trans hhigh (by decide)
  have hbyte : ¬ (0x80 : UInt8) ≤ b := by
    rw [UInt8.le_iff_toNat_le]
    exact Nat.not_le.mpr (Nat.lt_trans hhigh (by decide))
  have hclass : clusterClass b.toNat = .other := by
    rw [clusterClass, if_neg (by omega), if_neg (by omega), if_pos (by simp [hlow, hhigh])]
  simp [clusterStep?, hsize, hbyte, hclass]

theorem clusterWidth_printable : clusterWidth [b] = 1 := by
  obtain ⟨hlow, hhigh⟩ := isPrintableByte_iff.mp hb
  have hbyte : b < 0x80 := UInt8.lt_iff_toNat_lt.mpr (Nat.lt_trans hhigh (by decide))
  have hpieces : pieces [b] = [.char (Char.ofNat b.toNat)] := by
    simp [pieces, piecesFrom, leadingChar?, hbyte]
  have hwidth : codeWidth b.toNat = 1 := by
    rw [codeWidth, if_neg (by omega), if_neg (by simp; omega), if_pos (by omega)]
  have hcode : (Char.ofNat b.toNat).toNat = b.toNat := toNat_ofNat (.inl (by omega))
  simp [clusterWidth, hpieces, Piece.width, hcode, hwidth]

end Printable

theorem clusterSize_printable {b : UInt8} {t : Text} (h : ∀ c ∈ b :: t, isPrintableByte c = true) :
    clusterSize (b :: t) = 1 := by
  -- Whatever stands behind it, a printable character does not go on with the cluster.
  have hrest : ∀ fuel, clusterRest fuel { last := .other } t = 0 := by
    intro fuel
    cases fuel with
    | zero => rfl
    | succ fuel =>
      cases t with
      | nil => rfl
      | cons c t =>
        have hstep := clusterStep?_printable (h c (by simp)) t
        simp [clusterRest, hstep, ClusterState.look, ClusterState.continues, ClusterClass.isControl]
  simp [clusterSize, clusterStep?_printable (h b (by simp)), hrest]

theorem clusters_printable {t : Text} (h : ∀ b ∈ t, isPrintableByte b = true) : clusters t = t.map ([·]) := by
  unfold clusters
  induction t with
  | nil => rfl
  | cons b t ih =>
    have hsize := clusterSize_printable h
    simp [clustersWithin, hsize, ih fun c hc => h c (List.mem_cons_of_mem b hc)]

theorem width_printable {t : Text} (h : ∀ b ∈ t, isPrintableByte b = true) : width t = t.length := by
  have hfold : ∀ w, (t.map ([·])).foldl (fun w c => w + clusterWidth c) w = w + t.length := by
    induction t with
    | nil => exact fun _ => rfl
    | cons b t ih =>
      intro w
      rw [List.map_cons, List.foldl_cons, ih fun c hc => h c (List.mem_cons_of_mem b hc),
        clusterWidth_printable (h b List.mem_cons_self), List.length_cons]
      omega
  rw [width, clusters_printable h, hfold, Nat.zero_add]

theorem width_expandTabs {t : Text} (h : ∀ b ∈ t, isPlain b = true) : width (Pretty.expandTabs t) = columns t := by
  have hshown : ∀ b ∈ Pretty.expandTabs t, isPrintableByte b = true := by
    intro b hb
    obtain ⟨c, hc, hb⟩ := List.mem_flatMap.mp hb
    split at hb
    · rw [List.eq_of_mem_replicate hb]
      rfl
    · next htab =>
      have hplain := h c hc
      rw [isPlain, Bool.or_eq_true, decide_eq_true_iff] at hplain
      rw [List.mem_singleton.mp hb]
      exact hplain.resolve_right htab
  rw [width_printable hshown, columns, Pretty.expandTabs, replaceByte]
  clear h hshown
  induction t with
  | nil => rfl
  | cons c t ih =>
    rw [List.flatMap_cons, List.length_append, ih, List.length_cons]
    by_cases htab : c = tab
    · rw [if_pos htab, htab, List.count_cons_self, spaces, List.length_replicate]
      omega
    · rw [if_neg htab, List.count_cons_of_ne htab, List.length_singleton]
      omega

end DeclCheck.Text

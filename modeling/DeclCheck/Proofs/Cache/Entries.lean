import DeclCheck.Proofs.Disk.Changes
import DeclCheck.Proofs.Run.Checking

/-!
# The entries of a cache

On a tidy disk a cache gives back what was stored last under a key, and storing under one key leaves
the others alone. Where storing fails, all entries stay as they were.
-/
namespace DeclCheck

namespace Text

theorem hexDigit_inj {m n : Nat} (hm : m < 16) (hn : n < 16) (h : hexDigit m = hexDigit n) :
    m = n := by
  have hall : ∀ i < 16, ∀ j < 16, hexDigit i = hexDigit j → i = j := by decide
  exact hall m hm n hn h

theorem hex_inj {s t : Text} (h : hex s = hex t) : s = t := by
  induction s generalizing t with
  | nil =>
    cases t with
    | nil => rfl
    | cons c t => simp [hex] at h
  | cons b s ih =>
    cases t with
    | nil => simp [hex] at h
    | cons c t =>
      simp only [hex, List.flatMap_cons, List.cons_append, List.nil_append, List.cons.injEq] at h
      obtain ⟨hhigh, hlow, hrest⟩ := h
      have hb : b.toNat < 256 := b.toNat_lt
      have hc : c.toNat < 256 := c.toNat_lt
      have hdiv := hexDigit_inj (by omega) (by omega) hhigh
      have hmod := hexDigit_inj (by omega) (by omega) hlow
      have hbyte : b = c := UInt8.toNat_inj.mp (by omega)
      rw [hbyte, ih hrest]

/-- Neither the slash nor the first letter of a name that is aside is a hexadecimal digit. -/
theorem not_mem_hex {c : UInt8} (hc : c = Path.slash ∨ c = 116) (t : Text) : c ∉ hex t := by
  have hall : ∀ n < 16, hexDigit n ≠ Path.slash ∧ hexDigit n ≠ 116 := by decide
  intro h
  obtain ⟨b, _, hb⟩ := List.mem_flatMap.mp h
  have hlt : b.toNat < 256 := b.toNat_lt
  obtain ⟨n, hn, rfl⟩ : ∃ n, n < 16 ∧ c = hexDigit n := by
    rcases List.mem_cons.mp hb with rfl | hb
    · exact ⟨b.toNat / 16, by omega, rfl⟩
    · exact ⟨b.toNat % 16, by omega, List.mem_singleton.mp hb⟩
  rcases hc with hc | hc
  · exact (hall n hn).1 hc
  · exact (hall n hn).2 hc

end Text

/-- The record of a hit. -/
def CacheAnswer.record? : CacheAnswer → Option CacheRecord
  | .hit record => some record
  | _ => none

namespace Cache

variable {d e : Disk} {key : Text}

/-- The name of the file of a key. -/
def entryName (key : Text) : Text := Text.hex key ++ ".mp"

/-- The name under which an entry is written before it is moved into its place. -/
def asideName (key : Text) : Text := "tmp-" ++ entryName key

theorem entryName_inj {other : Text} (h : entryName other = entryName key) : other = key :=
  Text.hex_inj (List.append_cancel_right h)

theorem entryName_isName (key : Text) : Path.IsName (entryName key) := by
  have hlength : 3 ≤ (entryName key).length := by
    rw [entryName, List.length_append]
    exact Nat.le_add_left 3 _
  refine ⟨?_, ?_, ?_, ?_⟩
  · intro h
    rw [h] at hlength
    exact absurd hlength (by decide)
  · intro h
    rw [h] at hlength
    exact absurd hlength (by decide)
  · intro h
    rw [h] at hlength
    exact absurd hlength (by decide)
  · intro h
    rcases List.mem_append.mp h with h | h
    · exact Text.not_mem_hex (.inl rfl) key h
    · exact absurd h (by decide)

theorem asideName_isName (key : Text) : Path.IsName (asideName key) := by
  have hhead : (asideName key).head? = some 116 := rfl
  refine ⟨?_, ?_, ?_, ?_⟩
  · intro h
    rw [h] at hhead
    cases hhead
  · intro h
    rw [h] at hhead
    exact absurd hhead (by decide)
  · intro h
    rw [h] at hhead
    exact absurd hhead (by decide)
  · intro h
    rcases List.mem_append.mp h with h | h
    · exact absurd h (by decide)
    · exact (entryName_isName key).2.2.2 h

theorem entryName_ne_asideName (key other : Text) : entryName other ≠ asideName key := by
  intro h
  have hmem : (116 : UInt8) ∈ entryName other := h ▸ List.mem_cons_self ..
  rcases List.mem_append.mp hmem with hmem | hmem
  · exact Text.not_mem_hex (.inr rfl) other hmem
  · exact absurd hmem (by decide)

/-- The entry of a key is a clean path that ends in its name. -/
theorem entryPath_eq (c : Cache) (key : Text) : ∃ rooted pre,
    c.entryPath key = Path.ofParts rooted (pre ++ [entryName key]) ∧
      Path.CleanParts rooted (pre ++ [entryName key]) :=
  Path.join_append_name [c.dir, "files", (Text.hex key).take 2] (entryName_isName key)

/-- What is known about a key, if it can be read. -/
def record? (c : Cache) (d : Disk) (key : Text) : Option CacheRecord := (c.answer d key).record?

theorem record?_eq (c : Cache) (d : Disk) (key : Text) :
    c.record? d key = (d.readBytes (c.entryPath key)).toOption.bind
      fun bytes => (answerOf bytes).record? := by
  rw [record?, (c.get_run key d).2, ← (Files.read_run (c.entryPath key) d).2]
  cases d.read (c.entryPath key) with
  | ok bytes => rfl
  | error e =>
    show CacheAnswer.record? (if e.fault = .notFound then .miss else .unreadable e.message) = none
    split <;> rfl

/-- Nothing is known where no file has the name of the entry. -/
theorem record?_eq_none (c : Cache) (hfiles : ∀ q, d.fileAt? (q ++ [entryName key]) = none) :
    c.record? d key = none := by
  obtain ⟨rooted, pre, hpath, hclean⟩ := c.entryPath_eq key
  obtain ⟨q, hplace⟩ := Disk.placeOf_append_name d.cwd rooted pre (entryName_isName key)
  rw [record?_eq]
  cases hread : d.readBytes (c.entryPath key) with
  | error fault => rfl
  | ok bytes =>
    rw [hpath] at hread
    obtain ⟨place, hlocate, hfile⟩ := Disk.readBytes_eq_ok.mp hread
    rw [Disk.placeOf_of_locate hclean (by simp) hlocate, hplace, hfiles] at hfile
    cases hfile

theorem record?_congr (c : Cache) (hd : d.Tidy) (he : e.Tidy) (hcwd : e.cwd = d.cwd)
    (hfiles : ∀ q, e.fileAt? (q ++ [entryName key]) = d.fileAt? (q ++ [entryName key])) :
    c.record? e key = c.record? d key := by
  obtain ⟨rooted, pre, hpath, hclean⟩ := c.entryPath_eq key
  obtain ⟨q, hplace⟩ := Disk.placeOf_append_name d.cwd rooted pre (entryName_isName key)
  rw [record?_eq, record?_eq, hpath, hd.readBytes_congr he hcwd hclean (by simp)]
  rw [hplace]
  exact hfiles q

/-- Storing bytes under a key on the disk `d` has come to the disk `e`. -/
structure Stored (c : Cache) (key bytes : Text) (d : Disk) (done : Bool) (e : Disk) : Prop where
  tidy : e.Tidy
  others : ∀ other, other ≠ key → c.record? e other = c.record? d other
  own : c.record? e key = if done then (answerOf bytes).record? else c.record? d key

theorem Stored.unchanged {c : Cache} {bytes : Text} (h : Stored c key bytes d false e)
    (other : Text) : c.record? e other = c.record? d other := by
  by_cases hkey : other = key
  · rw [hkey]
    exact h.own
  · exact h.others other hkey

theorem Stored.written {c : Cache} {bytes : Text} (h : Stored c key bytes d true e) :
    c.record? e key = (answerOf bytes).record? := h.own

/-- What changes at most under a name that is aside stores nothing. -/
theorem Stored.undone (c : Cache) {bytes : Text} (hd : d.Tidy) (he : e.Tidy) (hcwd : e.cwd = d.cwd)
    (hfiles : ∀ q part, part ≠ asideName key → e.fileAt? (q ++ [part]) = d.fileAt? (q ++ [part])) :
    Stored c key bytes d false e := by
  refine ⟨he, fun other _ => ?_, ?_⟩
  · exact c.record?_congr hd he hcwd fun q => hfiles q _ (entryName_ne_asideName key other)
  · exact c.record?_congr hd he hcwd fun q => hfiles q _ (entryName_ne_asideName key key)

theorem asidePath_eq (c : Cache) (key : Text) : ∃ rooted pre,
    Path.join [Path.dir (c.entryPath key), "tmp-" ++ Path.base (c.entryPath key)] =
      Path.ofParts rooted (pre ++ [asideName key]) ∧
        Path.CleanParts rooted (pre ++ [asideName key]) := by
  obtain ⟨_, _, hpath, _⟩ := c.entryPath_eq key
  have hbase : Path.base (c.entryPath key) = entryName key := by
    rw [hpath]
    exact Path.base_ofParts (entryName_isName key)
  rw [hbase]
  exact Path.join_append_name [Path.dir (c.entryPath key)] (asideName_isName key)

/-- The entry that was written aside is in its place. -/
theorem Stored.moved (c : Cache) {bytes : Text} {x : Disk} {aside : List Text} (hd : d.Tidy)
    (hx : x.Tidy) (hcwd : x.cwd = d.cwd)
    (hfiles : ∀ q part, part ≠ asideName key → x.fileAt? (q ++ [part]) = d.fileAt? (q ++ [part]))
    {old : Text} (hold : x.locate old = .ok aside) (hfile : x.node? aside = some (.file bytes))
    {q : List Text} (haside : aside = q ++ [asideName key])
    (hmove : x.move old (c.entryPath key) = .ok e) : Stored c key bytes d true e := by
  obtain ⟨target, htarget, he, hecwd, hefiles⟩ := hx.move hold hfile hmove
  obtain ⟨rooted, pre, hpath, hclean⟩ := c.entryPath_eq key
  rw [hpath] at htarget
  obtain ⟨r, hr⟩ := Disk.placeOf_append_name x.cwd rooted pre (entryName_isName key)
  rw [← Disk.placeOf_of_locate hclean (by simp) htarget] at hr
  refine ⟨he, fun other hother => ?_, ?_⟩
  · refine c.record?_congr hd he (hecwd.trans hcwd) fun p => ?_
    have hnotTarget : p ++ [entryName other] ≠ target := by
      intro heq
      have hlast := (List.append_inj' (heq.trans hr) rfl).2
      exact hother (entryName_inj (List.cons.inj hlast).1)
    have hnotAside : p ++ [entryName other] ≠ aside := by
      intro heq
      have hlast := (List.append_inj' (heq.trans haside) rfl).2
      exact entryName_ne_asideName key other (List.cons.inj hlast).1
    rw [hefiles, if_neg hnotTarget, if_neg hnotAside]
    exact hfiles p _ (entryName_ne_asideName key other)
  · have hcontent : e.fileAt? target = some bytes := by rw [hefiles, if_pos rfl]
    have hnode : e.node? target ≠ none := by simp [Disk.fileAt?_eq_some.mp hcontent]
    have hread : e.readBytes (c.entryPath key) = .ok bytes := by
      rw [hpath]
      exact Disk.readBytes_eq_ok.mpr
        ⟨target, he.locate_congr hclean (by simp) hecwd htarget hnode, hcontent⟩
    rw [record?_eq, hread]
    rfl

theorem put_leaves (h : d.Tidy) (c : Cache) (key : Text) (record : CacheRecord) :
    Disk.Leaves (c.put key record) d fun res e => Stored c key
      (CacheRecord.encode { record with version := CacheRecord.currentVersion }) d res.isOk e := by
  refine .bind ((h.makeDirsWithin _ _).mono fun made x hx => ?_)
  cases made with
  | error error => exact .pure (.undone c h hx.tidy hx.cwd fun q part _ => hx.files _)
  | ok _ =>
    obtain ⟨rooted, pre, haside, hclean⟩ := c.asidePath_eq key
    dsimp only
    rw [haside]
    refine .bind (Disk.leaves_write (fun y hwrite => ?_) fun error => ?_)
    · obtain ⟨aside, hlocate, hy, hsets⟩ := hx.tidy.writeBytes hwrite
      obtain ⟨r, hr⟩ := Disk.placeOf_append_name x.cwd rooted pre (asideName_isName key)
      rw [← Disk.placeOf_of_locate hclean (by simp) hlocate] at hr
      have hfile := (hsets.node aside).trans (if_pos rfl)
      have hold := hy.locate_congr hclean (by simp) hsets.cwd hlocate (by simp [hfile])
      have hycwd : y.cwd = d.cwd := hsets.cwd.trans hx.cwd
      have hapart : ∀ q part, part ≠ asideName key → q ++ [part] ≠ aside := by
        intro q part hpart heq
        exact hpart (List.cons.inj (List.append_inj' (heq.trans hr) rfl).2).1
      have hyfiles : ∀ q part, part ≠ asideName key →
          y.fileAt? (q ++ [part]) = d.fileAt? (q ++ [part]) := by
        intro q part hpart
        rw [hsets.fileAt?, if_neg (hapart q part hpart), hx.files]
      refine .bind (Disk.leaves_move (fun e hmove => ?_) fun error => ?_)
      · exact .pure (.moved c h hy hycwd hyfiles hold hfile hr hmove)
      · have hremove : y.removeAll (Path.ofParts rooted (pre ++ [asideName key])) =
            .ok (y.clear aside) := by
          simp only [Disk.removeAll, hold]
        have hdir : y.node? aside ≠ some .directory := by simp [hfile]
        refine .bind (Disk.leaves_change (fun e he => ?_) fun fault hfault => ?_)
        · cases hremove.symm.trans he
          refine .pure (.undone c h (hy.clear hdir) hycwd fun q part hpart => ?_)
          have hcleared := (hy.clear_sets hdir).fileAt? (q ++ [part])
          rw [if_neg (hapart q part hpart)] at hcleared
          exact hcleared.trans (hyfiles q part hpart)
        · cases hremove.symm.trans hfault
    · exact .pure (.undone c h hx.tidy hx.cwd fun q part _ => hx.files _)

theorem Stored.of_put {c : Cache} {record : CacheRecord} {res : Except FileError Unit} (h : d.Tidy)
    (hput : (c.put key record : StateM Disk _).run d = (res, e)) : Stored c key
      (CacheRecord.encode { record with version := CacheRecord.currentVersion }) d res.isOk e := by
  have hleaves := put_leaves h c key record
  rwa [Disk.Leaves, hput] at hleaves

end Cache

end DeclCheck

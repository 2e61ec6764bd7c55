import DeclCheck.Proofs.Trace.Nesting
import Mathlib.Data.List.DropRight

/-!
# What a ring still holds

The head of a ring cuts its slots in two. While slots are free, all entries stand before the head. From then
on the newer entries stand before it and the older ones behind it, so that reading from the head on and then
from the start gives the last entries in the order in which they came. Every entry of a tracer has a greater
number than the one before it, and a ring does not change that.

So what a tracer has written and what its ring shows can be said of the events that it was told: these are the
lines behind those that were there, and the last entries of the ring.
-/
namespace DeclCheck.Trace

namespace Ring

variable {α : Type} {r : Ring α} {xs : List α}

/-- The slots of a ring into which `xs` was put, cut at the head. -/
inductive Holds (r : Ring α) (xs : List α) : Prop
  | filling (free : List α) (hslots : r.slots.toList = xs ++ free) (hhead : r.head = xs.length)
      (hfull : r.full = false) : Holds r xs
  | wrapped (gone older newer : List α) (hslots : r.slots.toList = newer ++ older)
      (hhead : r.head = newer.length) (hfull : r.full = true) (hxs : xs = gone ++ (older ++ newer)) : Holds r xs

theorem holds_empty [Inhabited α] (asked : Int) : (empty asked : Ring α).Holds [] :=
  .filling _ rfl rfl rfl

theorem size_push (r : Ring α) (a : α) : (r.push a).slots.size = r.slots.size :=
  Array.size_set r.head_lt

/-- The head always stands before some slot. -/
theorem exists_slot {before behind : List α} (hslots : r.slots.toList = before ++ behind)
    (hhead : r.head = before.length) : ∃ x rest, behind = x :: rest := by
  have hlt := r.head_lt
  rw [← Array.length_toList, hslots, hhead, List.length_append] at hlt
  exact List.exists_cons_of_ne_nil (List.ne_nil_of_length_pos (by omega))

/-- An entry goes into the slot at the head. The head moves on, or back to the start behind the last slot. -/
theorem push_slots {before rest : List α} {x : α} (a : α) (hslots : r.slots.toList = before ++ x :: rest)
    (hhead : r.head = before.length) :
    (r.push a).slots.toList = before ++ a :: rest ∧
      (rest = [] → (r.push a).head = 0 ∧ (r.push a).full = true) ∧
      (rest ≠ [] → (r.push a).head = before.length + 1 ∧ (r.push a).full = r.full) := by
  have hsize : r.slots.size = before.length + 1 + rest.length := by
    rw [← Array.length_toList, hslots, List.length_append, List.length_cons]
    omega
  refine ⟨?_, ?_, ?_⟩
  · simp [push, hslots, hhead]
  · rintro rfl
    simp [push, hsize, hhead]
  · intro hrest
    have hpos := List.length_pos_of_ne_nil hrest
    have hmod : (before.length + 1) % (before.length + 1 + rest.length) = before.length + 1 :=
      Nat.mod_eq_of_lt (by omega)
    simp [push, hsize, hhead, hmod]

theorem Holds.push (h : r.Holds xs) (a : α) : (r.push a).Holds (xs ++ [a]) := by
  cases h with
  | filling free hslots hhead hfull =>
    obtain ⟨x, rest, rfl⟩ := exists_slot hslots hhead
    obtain ⟨hset, hlast, hmore⟩ := push_slots a hslots hhead
    cases rest with
    | nil =>
      -- The last free slot is taken: what was put in is all behind the head, and nothing is gone.
      obtain ⟨hzero, hfull'⟩ := hlast rfl
      exact .wrapped [] (xs ++ [a]) [] hset hzero hfull' (by simp)
    | cons y rest =>
      obtain ⟨hnext, hfull'⟩ := hmore (List.cons_ne_nil y rest)
      exact .filling (y :: rest) (by simp [hset]) (by simp [hnext]) (hfull'.trans hfull)
  | wrapped gone older newer hslots hhead hfull hxs =>
    obtain ⟨x, rest, rfl⟩ := exists_slot hslots hhead
    obtain ⟨hset, hlast, hmore⟩ := push_slots a hslots hhead
    cases rest with
    | nil =>
      obtain ⟨hzero, hfull'⟩ := hlast rfl
      exact .wrapped (gone ++ [x]) (newer ++ [a]) [] hset hzero hfull' (by simp [hxs])
    | cons y rest =>
      obtain ⟨hnext, hfull'⟩ := hmore (List.cons_ne_nil y rest)
      exact .wrapped (gone ++ [x]) (y :: rest) (newer ++ [a]) (by simp [hset]) (by simp [hnext])
        (hfull'.trans hfull) (by simp [hxs])

/-- A ring gives back the last entries, as many as it has slots. -/
theorem Holds.toList (h : r.Holds xs) :
    r.toList <:+ xs ∧ r.toList.length = min xs.length r.slots.size := by
  have hlt := r.head_lt
  cases h with
  | filling free hslots hhead hfull =>
    have hall : r.toList = xs := by simp [Ring.toList, hfull, hslots, hhead]
    rw [hall]
    refine ⟨List.suffix_rfl, ?_⟩
    omega
  | wrapped gone older newer hslots hhead hfull hxs =>
    have hlast : r.toList = older ++ newer := by simp [Ring.toList, hfull, hslots, hhead]
    have hsize : r.slots.size = newer.length + older.length := by
      rw [← Array.length_toList, hslots, List.length_append]
    rw [hlast, hxs]
    refine ⟨List.suffix_append gone _, ?_⟩
    simp only [List.length_append]
    omega

theorem holds_toList (r : Ring α) : r.Holds r.toList := by
  have hcut : r.slots.toList = r.slots.toList.take r.head ++ r.slots.toList.drop r.head :=
    (List.take_append_drop ..).symm
  have hhead : r.head = (r.slots.toList.take r.head).length := by
    have hlt := r.head_lt
    simp only [List.length_take, Array.length_toList]
    omega
  unfold Ring.toList
  cases hfull : r.full with
  | false => exact .filling _ hcut hhead hfull
  | true => exact .wrapped [] _ _ hcut hhead hfull rfl

/-- After some entries were put in, a ring gives back the last of those that it gave back before and these. -/
theorem toList_foldl_push (r : Ring α) (xs : List α) :
    (xs.foldl push r).toList = (r.toList ++ xs).rtake r.slots.size := by
  have hpush : ∀ (xs : List α) {r : Ring α} {ys : List α}, r.Holds ys →
      (xs.foldl push r).Holds (ys ++ xs) ∧ (xs.foldl push r).slots.size = r.slots.size := by
    intro xs
    induction xs with
    | nil =>
      intro r ys hr
      rw [List.append_nil]
      exact ⟨hr, rfl⟩
    | cons x xs ih =>
      intro r ys hr
      obtain ⟨hholds, hsize⟩ := ih (hr.push x)
      rw [List.append_assoc] at hholds
      exact ⟨hholds, hsize.trans (r.size_push x)⟩
  obtain ⟨hholds, hsize⟩ := hpush xs r.holds_toList
  obtain ⟨hlast, hlength⟩ := hholds.toList
  rw [List.rtake, List.suffix_iff_eq_drop.mp hlast, hlength, hsize]
  congr 1
  omega

end Ring

/-- An event without its number. -/
def Event.unnumbered (e : Event) : Event := { e with seq := 0 }

/-- Events with numbers from `n` on, `step` apart. -/
def Event.numbered (step : Nat) : Nat → List Event → List Event
  | _, [] => []
  | n, e :: es => { e with seq := n } :: numbered step (n + step) es

/-- Kept events with numbers from `n` on, `step` apart. -/
def Kept.numbered (step : Nat) : Nat → List Kept → List Kept
  | _, [] => []
  | n, k :: ks => { k with event := { k.event with seq := n } } :: numbered step (n + step) ks

/-- A kept event without its number. -/
def Kept.unnumbered (k : Kept) : Kept := { k with event := k.event.unnumbered }

/-- Kept events with ascending numbers, none above `n`. -/
structure Numbered (n : Nat) (ks : List Kept) : Prop where
  ascending : ks.Pairwise (·.event.seq < ·.event.seq)
  bound : ∀ k ∈ ks, k.event.seq ≤ n

theorem Numbered.mono {m n : Nat} {ks : List Kept} (h : Numbered m ks) (hle : m ≤ n) : Numbered n ks :=
  ⟨h.ascending, fun k hk => Nat.le_trans (h.bound k hk) hle⟩

theorem Numbered.append {n : Nat} {ks : List Kept} (h : Numbered n ks) {k : Kept} (hk : n < k.event.seq) :
    Numbered k.event.seq (ks ++ [k]) := by
  refine ⟨List.pairwise_append.mpr ⟨h.ascending, List.pairwise_singleton _ k, ?_⟩, ?_⟩
  · intro x hx y hy
    rw [List.mem_singleton.mp hy]
    exact Nat.lt_of_le_of_lt (h.bound x hx) hk
  · intro x hx
    rcases List.mem_append.mp hx with hx | hx
    · exact Nat.le_of_lt (Nat.lt_of_le_of_lt (h.bound x hx) hk)
    · obtain rfl := List.mem_singleton.mp hx
      exact Nat.le_refl _

/-- A call that tells an event. All tracers number their events from one counter, so that others may take
numbers before it. -/
structure Emission where
  kept : Kept
  others : Nat := 0
  deriving Repr

/-- Is the event of a call told at a level? -/
def Emission.passes (level : Level) (c : Emission) : Bool :=
  level.admits c.kept.event.scope || c.kept.event.kind = .heartbeat

namespace Tracer

variable {t : Tracer}

/-- A kept event as it is read: the end of a span has the facts of the span. -/
def read (t : Tracer) (k : Kept) : Event :=
  (k.endOf.bind (t.spans[·]?)).elim k.event fun s => { k.event with extra := s.facts }

theorem snapshot?_eq (t : Tracer) : t.snapshot? = t.ring.map fun r => r.toList.map t.read := by
  unfold snapshot?
  congr
  funext r
  congr
  funext k
  unfold read
  cases k.endOf.bind (t.spans[·]?) <;> rfl

theorem read_seq (t : Tracer) (k : Kept) : (t.read k).seq = k.event.seq := by
  unfold read
  cases k.endOf.bind (t.spans[·]?) <;> rfl

theorem unnumbered_read (t : Tracer) (k : Kept) : (t.read k).unnumbered = t.read k.unnumbered := by
  unfold read Kept.unnumbered
  dsimp only
  cases k.endOf.bind (t.spans[·]?) <;> rfl

/-! ## What a tracer has written and keeps -/

/-- In how many places a tracer puts an event; it has a number of its own in each. -/
def places (t : Tracer) : Nat := (if t.output.isSome then 1 else 0) + (if t.ring.isSome then 1 else 0)

theorem emit_of_told {e : Event} (h : t.isTold e = true) (endOf : Option Nat) :
    t.emit e endOf =
      { t with
        seq := t.seq + t.places
        output := t.output.map fun out => out ++ Event.line t.format { e with seq := t.seq + 1 }
        ring := t.ring.map fun r => r.push { event := { e with seq := t.seq + t.places }, endOf } } := by
  unfold emit
  rw [if_pos h]
  obtain ⟨level, format, output, ring, seq, spanCount, spans⟩ := t
  cases output <;> cases ring <;> rfl

theorem telling_eq (hadmits : ∀ scope, t.level.admits scope = true) (ks : List Kept) :
    t.telling ks =
      { t with
        seq := t.seq + t.places * ks.length
        output := t.output.map fun out =>
          out ++ (Event.numbered t.places (t.seq + 1) (ks.map (·.event))).flatMap (Event.line t.format)
        ring := t.ring.map fun r => (Kept.numbered t.places (t.seq + t.places) ks).foldl Ring.push r } := by
  induction ks generalizing t with
  | nil =>
    obtain ⟨level, format, output, ring, seq, spanCount, spans⟩ := t
    cases output <;> cases ring <;> simp [telling, Event.numbered, Kept.numbered]
  | cons k ks ih =>
    have htold : t.isTold k.event = true := by simp [isTold, hadmits]
    have hplaces : (t.emit k.event k.endOf).places = t.places := by
      rw [emit_of_told htold]
      simp [places]
    have hstep : t.telling (k :: ks) = (t.emit k.event k.endOf).telling ks := rfl
    rw [hstep, ih fun scope => (emit_level t _ _).symm ▸ hadmits scope, hplaces, emit_of_told htold]
    simp only [List.map_cons, Event.numbered, Kept.numbered, List.flatMap_cons, List.foldl_cons, List.length_cons,
      Option.map_map, Function.comp_def, List.append_assoc, Nat.mul_add, Nat.mul_one]
    congr 1
    · congr 1
      funext out
      rw [Nat.add_right_comm]
    · omega

theorem map_read_numbered {ks : List Kept} (h : ∀ k ∈ ks, ∀ place, k.endOf = some place →
      ∃ s, t.spans[place]? = some s ∧ s.facts = k.event.extra) (step n : Nat) :
    (Kept.numbered step n ks).map t.read = Event.numbered step n (ks.map (·.event)) := by
  induction ks generalizing n with
  | nil => rfl
  | cons k ks ih =>
    obtain ⟨hk, hks⟩ := List.forall_mem_cons.mp h
    rw [Kept.numbered, List.map_cons, ih hks, List.map_cons, Event.numbered]
    congr 1
    unfold read
    cases hend : k.endOf with
    | none => rfl
    | some place =>
      obtain ⟨s, hs, hfacts⟩ := hk place hend
      simp [hs, hfacts]

/-- From `t` a tracer comes to `u` by some events: their lines stand behind those that were written, and its ring shows
them behind what it showed, as far as it has slots. -/
structure Adds (t u : Tracer) (es : List Event) : Prop where
  written : u.output = t.output.map fun out =>
    out ++ (Event.numbered t.places (t.seq + 1) es).flatMap (Event.line t.format)
  kept : u.snapshot? = t.ring.map fun r =>
    (r.toList.map u.read ++ Event.numbered t.places (t.seq + t.places) es).rtake r.slots.size

theorem Emitted.adds {outer : Nat} {u : Tracer} {opened : List (EventScope × Text)} {ks : List Kept}
    (h : Emitted outer t u opened ks) (hadmits : ∀ scope, t.level.admits scope = true) :
    Adds t u (ks.map (·.event)) := by
  have hshown := h.shown
  rw [telling_eq (t := t.shown) hadmits] at hshown
  have hread : ∀ n, (Kept.numbered t.places n ks).map u.read = Event.numbered t.places n (ks.map (·.event)) :=
    map_read_numbered (fun k hk place hplace => (h.facts k hk place hplace).2) t.places
  refine ⟨congrArg (·.output) hshown, ?_⟩
  have hring : u.ring = t.ring.map fun r => (Kept.numbered t.places (t.seq + t.places) ks).foldl Ring.push r :=
    congrArg (·.ring) hshown
  rw [snapshot?_eq, hring, Option.map_map]
  congr 1
  funext r
  rw [Function.comp_apply, Ring.toList_foldl_push, List.rtake, List.map_drop, List.map_append, hread, List.rtake]
  simp only [List.length_append, List.length_map, ← hread]

/-! ## What a ring shows -/

/-- The tracer after a call. -/
def tell (t : Tracer) (c : Emission) : Tracer :=
  { t with seq := t.seq + c.others }.emit c.kept.event c.kept.endOf

/-- The tracer after calls. -/
def tellAll (t : Tracer) (calls : List Emission) : Tracer := calls.foldl tell t

theorem tell_level (t : Tracer) (c : Emission) : (t.tell c).level = t.level := emit_level ..

theorem tell_spans (t : Tracer) (c : Emission) : (t.tell c).spans = t.spans := emit_spans ..

/-- A call that is not told takes no number. -/
theorem tell_of_not_passes {c : Emission} (h : c.passes t.level = false) :
    t.tell c = { t with seq := t.seq + c.others } := by
  have htold : isTold { t with seq := t.seq + c.others } c.kept.event = false := h
  unfold tell emit
  rw [if_neg (by rw [htold]; exact Bool.false_ne_true)]

/-- A call that is told puts its event into the ring under a new number. -/
theorem tell_of_passes {c : Emission} (h : c.passes t.level = true) {r : Ring Kept} (hr : t.ring = some r) :
    ∃ k : Kept, (t.tell c).ring = some (r.push k) ∧ k.unnumbered = c.kept.unnumbered ∧
      t.seq < k.event.seq ∧ (t.tell c).seq = k.event.seq := by
  have htold : isTold { t with seq := t.seq + c.others } c.kept.event = true := h
  unfold tell emit
  rw [if_pos htold]
  obtain ⟨level, format, output, ring, seq, spanCount, spans⟩ := t
  cases hr
  cases output with
  | none => exact ⟨_, rfl, rfl, Nat.lt_succ_of_le (Nat.le_add_right seq c.others), rfl⟩
  | some out => exact ⟨_, rfl, rfl, Nat.lt_succ_of_lt (Nat.lt_succ_of_le (Nat.le_add_right seq c.others)), rfl⟩

/-- What a tracer at a level has kept of some calls: its ring holds their events, numbered in order. -/
structure Records (level : Level) (capacity : Nat) (calls : List Emission) (t : Tracer) : Prop where
  level_eq : t.level = level
  kept : ∃ r ks, t.ring = some r ∧ r.slots.size = capacity ∧ r.Holds ks ∧ Numbered t.seq ks ∧
    ks.map Kept.unnumbered = (calls.filter (·.passes level)).map (·.kept.unnumbered)

theorem Records.tell {level : Level} {capacity : Nat} {calls : List Emission}
    (h : Records level capacity calls t) (c : Emission) : Records level capacity (calls ++ [c]) (t.tell c) := by
  obtain ⟨hlevel, r, ks, hr, hsize, hholds, hnum, hks⟩ := h
  refine ⟨(tell_level t c).trans hlevel, ?_⟩
  rw [List.filter_append, List.map_append, ← hks, ← hlevel]
  cases hpass : c.passes t.level with
  | true =>
    obtain ⟨k, hring, hsame, hlt, hseq⟩ := tell_of_passes hpass hr
    refine ⟨r.push k, ks ++ [k], hring, (r.size_push k).trans hsize, hholds.push k, ?_, ?_⟩
    · exact hseq ▸ hnum.append hlt
    · simp [hpass, hsame]
  | false =>
    rw [tell_of_not_passes hpass]
    exact ⟨r, ks, hr, hsize, hholds, hnum.mono (Nat.le_add_right ..), by simp [hpass]⟩

theorem Records.tellAll {level : Level} {capacity : Nat} {done : List Emission} (h : Records level capacity done t)
    (calls : List Emission) : Records level capacity (done ++ calls) (t.tellAll calls) := by
  induction calls generalizing t done with
  | nil => rwa [List.append_nil]
  | cons c calls ih =>
    have hrest := ih (h.tell c)
    rwa [List.append_assoc] at hrest

theorem records_empty (t : Tracer) (asked : Int) :
    Records t.level (Ring.capacityFor asked) [] { t with ring := some (.empty asked) } :=
  ⟨rfl, .empty asked, [], rfl, Array.size_replicate, Ring.holds_empty asked, ⟨.nil, by simp⟩, rfl⟩

theorem tellAll_spans (t : Tracer) (calls : List Emission) : (t.tellAll calls).spans = t.spans := by
  induction calls generalizing t with
  | nil => rfl
  | cons c calls ih => exact (ih (t.tell c)).trans (tell_spans t c)

/-- Some events are the last `n` of those that were told, or all if there are not so many, with ascending numbers
but otherwise as they were told. -/
structure ShowsLast (n : Int) (told shown : List Event) : Prop where
  last : shown.map Event.unnumbered <:+ told.map Event.unnumbered
  length : (shown.length : Int) = min (told.length : Int) n
  ascending : shown.Pairwise (·.seq < ·.seq)

theorem Records.shows {level : Level} {capacity : Nat} {calls : List Emission} (h : Records level capacity calls t) :
    ∃ shown, t.snapshot? = some shown ∧
      ShowsLast capacity ((calls.filter (·.passes level)).map fun c => t.read c.kept) shown := by
  obtain ⟨-, r, ks, hr, rfl, hholds, hnum, hks⟩ := h
  obtain ⟨hlast, hlength⟩ := hholds.toList
  have hread : (ks.map t.read).map Event.unnumbered = (ks.map Kept.unnumbered).map t.read := by
    simp only [List.map_map]
    exact List.map_congr_left fun k _ => t.unnumbered_read k
  refine ⟨r.toList.map t.read, by rw [snapshot?_eq, hr]; rfl, ?_, ?_, ?_⟩
  · have htold : ((calls.filter (·.passes level)).map fun c => t.read c.kept).map Event.unnumbered =
        (ks.map t.read).map Event.unnumbered := by
      rw [hread, hks, List.map_map, List.map_map]
      exact List.map_congr_left fun c _ => t.unnumbered_read c.kept
    rw [htold]
    exact (hlast.map t.read).map Event.unnumbered
  · have hcount := congrArg List.length hks
    simp only [List.length_map] at hcount ⊢
    omega
  · rw [List.pairwise_map]
    simp only [read_seq]
    exact hnum.ascending.sublist hlast.sublist

/-- Whatever a tracer did before it got a ring, and whichever numbers others take in between, the ring shows the last
of the events that were told since. A ring that was not asked for a positive number of events shows up to 4096. -/
theorem ring_shows_last_told (t : Tracer) (asked : Int) (calls : List Emission) :
    ∃ shown, ({ t with ring := some (.empty asked) }.tellAll calls).snapshot? = some shown ∧
      ShowsLast (if asked ≤ 0 then 4096 else asked)
        ((calls.filter (·.passes t.level)).map fun c => t.read c.kept) shown := by
  obtain ⟨shown, hshown, hlast⟩ := ((records_empty t asked).tellAll calls).shows
  have hcapacity : (Ring.capacityFor asked : Int) = if asked ≤ 0 then 4096 else asked := by
    unfold Ring.capacityFor Ring.defaultCapacity
    split <;> omega
  have hread : ({ t with ring := some (.empty asked) }.tellAll calls).read = t.read := by
    unfold read
    rw [tellAll_spans]
  rw [hcapacity, hread] at hlast
  exact ⟨shown, hshown, hlast⟩

/-- A ring that was asked for no events still shows one that is told. -/
theorem ring_of_none_shows_event : ¬ ∀ (t : Tracer) (asked : Int) (calls : List Emission),
    ∃ shown, ({ t with ring := some (.empty asked) }.tellAll calls).snapshot? = some shown ∧
      ShowsLast asked ((calls.filter (·.passes t.level)).map fun c => t.read c.kept) shown := by
  intro h
  let calls : List Emission := [{ kept := { event := { name := "tick" } } }]
  obtain ⟨shown, hshown, hlast⟩ := h { level := .debug } 0 calls
  obtain ⟨shown', hshown', hlast'⟩ := ((records_empty { level := .debug } 0).tellAll calls).shows
  cases hshown.symm.trans hshown'
  have hnone := hlast.length
  have hone := hlast'.length
  rw [hnone] at hone
  revert hone
  decide

end Tracer

end DeclCheck.Trace

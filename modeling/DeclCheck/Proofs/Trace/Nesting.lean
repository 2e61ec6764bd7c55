import DeclCheck.Trace.Tracer
import Mathlib.Data.List.Perm.Basic

/-!
# Spans in the manner of brackets

A running phase begins spans, ends each of them itself and tells points, and for each beginning and each point it
says in which span that is. If it keeps to the span that it is in, as with brackets, and a tracer admits all of its
moments, then the events are nested: the event that ends a span is about the innermost one that is open, and each
beginning and each point has that span as its parent. Every span has a number that was not used before.
-/
namespace DeclCheck.Trace

/-! ## Nested events -/

/-- Events inside the span `outer`: points, and spans around further events. -/
inductive Nested : Nat → List Event → Prop
  | nil {outer : Nat} : Nested outer []
  | point {outer : Nat} {e : Event} {rest : List Event} (hkind : e.kind = .point) (hparent : e.parent = outer)
      (hrest : Nested outer rest) : Nested outer (e :: rest)
  | span {outer : Nat} {b e : Event} {inner rest : List Event} (hbegins : b.kind = .begins)
      (hparent : b.parent = outer) (hinner : Nested b.span inner) (hends : e.kind = .ends)
      (hsame : (e.span, e.name, e.parent) = (b.span, b.name, b.parent)) (hrest : Nested outer rest) :
      Nested outer (b :: (inner ++ e :: rest))

def begun (es : List Event) : List Event := es.filter (·.kind == .begins)

def ended (es : List Event) : List Event := es.filter (·.kind == .ends)

/-- What the two events of a span have in common. -/
def Event.identity (e : Event) : Nat × Text × Nat := (e.span, e.name, e.parent)

theorem begun_append (es ds : List Event) : begun (es ++ ds) = begun es ++ begun ds := List.filter_append ..

theorem Nested.append {outer : Nat} {es ds : List Event} (h : Nested outer es) (k : Nested outer ds) :
    Nested outer (es ++ ds) := by
  induction h with
  | nil => exact k
  | point hkind hparent _ ih => exact .point hkind hparent (ih k)
  | span hbegins hparent hinner hends hsame _ _ ih =>
    rw [List.cons_append, List.append_assoc, List.cons_append]
    exact .span hbegins hparent hinner hends hsame (ih k)

/-- The spans that end are those that begin. -/
theorem Nested.ended_perm {outer : Nat} {es : List Event} (h : Nested outer es) :
    ((ended es).map Event.identity).Perm ((begun es).map Event.identity) := by
  induction h with
  | nil => exact .nil
  | @point _ e rest hkind _ _ ih =>
    simpa [ended, begun, hkind, EventKind.point, EventKind.begins, EventKind.ends] using ih
  | @span _ b e inner rest hbegins _ _ hends hsame _ hinner hrest =>
    have hidentity : e.identity = b.identity := hsame
    have hended : ended (b :: (inner ++ e :: rest)) = ended inner ++ e :: ended rest := by
      simp [ended, hbegins, hends, EventKind.begins, EventKind.ends]
    have hbegun : begun (b :: (inner ++ e :: rest)) = b :: (begun inner ++ begun rest) := by
      simp [begun, hbegins, hends, EventKind.begins, EventKind.ends]
    rw [hended, hbegun, List.map_append, List.map_cons, List.map_cons, List.map_append, hidentity]
    exact List.perm_middle.trans ((hinner.append hrest).cons _)

/-! ## Balanced moments -/

/-- Moments inside the span `parent`: points, and spans around further moments, about which facts are noted before
they end. Before them `first` spans were begun, and after them `last`. -/
inductive Balanced : (parent first : Nat) → List Moment → (last : Nat) → Prop
  | nil {parent first : Nat} : Balanced parent first [] first
  | point {parent first last : Nat} {scope : EventScope} {name detail : Text} {rest : List Moment}
      (hrest : Balanced parent first rest last) :
      Balanced parent first (.point scope name detail parent :: rest) last
  | span {parent first middle last : Nat} {scope : EventScope} {name detail : Text} {facts : Facts}
      {inner rest : List Moment} (hinner : Balanced (first + 1) (first + 1) inner middle)
      (hrest : Balanced parent middle rest last) :
      Balanced parent first (.begins scope name parent :: (inner ++
        (facts.map (fun fact => .notes (first + 1) fact.1 fact.2) ++ .ends (first + 1) detail :: rest))) last

/-- The scopes and names of the spans that are begun, in order. -/
def openings (ms : List Moment) : List (EventScope × Text) :=
  ms.filterMap fun
    | .begins scope name _ => some (scope, name)
    | _ => none

theorem openings_span (scope : EventScope) (name detail : Text) (parent span : Nat) (facts : Facts)
    (inner rest : List Moment) :
    openings (.begins scope name parent :: (inner ++
      (facts.map (fun fact => .notes span fact.1 fact.2) ++ .ends span detail :: rest))) =
      (scope, name) :: (openings inner ++ openings rest) := by
  simp [openings]

@[simp] theorem Moment.within_zero (m : Moment) : m.within 0 0 = m := by
  have hplace : ∀ k, within.place 0 0 k = k := fun k => by cases k <;> simp [within.place]
  cases m <;> simp [within, hplace]

theorem openings_within (begun around : Nat) (ms : List Moment) :
    openings (ms.map (·.within begun around)) = openings ms := by
  rw [openings, List.filterMap_map]
  refine List.filterMap_congr fun m _ => ?_
  cases m <;> rfl

/-- Balanced moments of a phase are balanced as part of a longer one. -/
theorem Balanced.within {parent first last : Nat} {ms : List Moment} (h : Balanced parent first ms last)
    (begun around : Nat) :
    Balanced (Moment.within.place begun around parent) (begun + first) (ms.map (·.within begun around))
      (begun + last) := by
  induction h with
  | nil => exact .nil
  | point _ ih => exact .point ih
  | @span parent first middle last scope name detail facts inner rest _ _ hinner hrest =>
    have hnotes : (facts.map fun fact => Moment.notes (first + 1) fact.1 fact.2).map (·.within begun around) =
        facts.map fun fact => .notes (begun + first + 1) fact.1 fact.2 := by
      rw [List.map_map]
      rfl
    rw [List.map_cons, List.map_append, List.map_append, hnotes]
    exact .span hinner hrest

namespace Tracer

/-! ## What can be seen of a tracer -/

/-- A tracer without its account of spans: what it has written and kept. -/
def shown (t : Tracer) : Tracer := { t with spanCount := 0, spans := #[] }

/-- A tracer after it has told some events. -/
def telling (t : Tracer) (ks : List Kept) : Tracer := ks.foldl (fun t k => t.emit k.event k.endOf) t

section Emit

variable (t : Tracer) (e : Event) (endOf : Option Nat)

theorem emit_fields : (t.emit e endOf).level = t.level ∧ (t.emit e endOf).spanCount = t.spanCount ∧
    (t.emit e endOf).spans = t.spans := by
  obtain ⟨level, format, output, ring, seq, spanCount, spans⟩ := t
  unfold emit
  split
  · cases output <;> cases ring <;> exact ⟨rfl, rfl, rfl⟩
  · exact ⟨rfl, rfl, rfl⟩

@[simp] theorem emit_level : (t.emit e endOf).level = t.level := (emit_fields t e endOf).1

@[simp] theorem emit_spanCount : (t.emit e endOf).spanCount = t.spanCount := (emit_fields t e endOf).2.1

@[simp] theorem emit_spans : (t.emit e endOf).spans = t.spans := (emit_fields t e endOf).2.2

@[simp] theorem shown_emit : (t.emit e endOf).shown = t.shown.emit e endOf := by
  obtain ⟨level, format, output, ring, seq, spanCount, spans⟩ := t
  unfold emit
  have htold : isTold (shown ⟨level, format, output, ring, seq, spanCount, spans⟩) e =
      isTold ⟨level, format, output, ring, seq, spanCount, spans⟩ e := rfl
  rw [htold]
  split
  · cases output <;> cases ring <;> rfl
  · rfl

end Emit

/-! ## Single moments -/

/-- From `t` a tracer comes to `t'` by telling the events of `ks`, all of them inside the span `outer`. They begin the
spans `opened` with new numbers, and the records of older spans are left as they were. The facts that an end was
told with are still those of its span. -/
structure Emitted (outer : Nat) (t t' : Tracer) (opened : List (EventScope × Text)) (ks : List Kept) : Prop where
  shown : t'.shown = t.shown.telling ks
  nested : Nested outer (ks.map (·.event))
  fresh : (begun (ks.map (·.event))).map (·.span) = List.range' (t.spanCount + 1) opened.length
  names : (begun (ks.map (·.event))).map (fun e => (e.scope, e.name)) = opened
  count : t'.spanCount = t.spanCount + opened.length
  level : t'.level = t.level
  size : t.spans.size ≤ t'.spans.size
  records : ∀ i < t.spans.size, t'.spans[i]? = t.spans[i]?
  facts : ∀ k ∈ ks, ∀ place, k.endOf = some place →
    t.spans.size ≤ place ∧ ∃ s, t'.spans[place]? = some s ∧ s.facts = k.event.extra

theorem Emitted.refl (outer : Nat) (t : Tracer) : Emitted outer t t [] [] :=
  ⟨rfl, .nil, rfl, rfl, rfl, rfl, Nat.le_refl _, fun _ _ => rfl, by simp⟩

theorem Emitted.trans {outer : Nat} {t t' t'' : Tracer} {xs ys : List (EventScope × Text)} {ks ls : List Kept}
    (h : Emitted outer t t' xs ks) (k : Emitted outer t' t'' ys ls) : Emitted outer t t'' (xs ++ ys) (ks ++ ls) where
  shown := by rw [k.shown, h.shown, telling, telling, telling, List.foldl_append]
  nested := by
    rw [List.map_append]
    exact h.nested.append k.nested
  fresh := by
    rw [List.map_append, begun_append, List.map_append, h.fresh, k.fresh, h.count, List.length_append,
      ← List.range'_append_1]
    congr 2
    omega
  names := by rw [List.map_append, begun_append, List.map_append, h.names, k.names]
  count := by rw [k.count, h.count, List.length_append, Nat.add_assoc]
  level := k.level.trans h.level
  size := Nat.le_trans h.size k.size
  records i hi := (k.records i (Nat.lt_of_lt_of_le hi h.size)).trans (h.records i hi)
  facts x hx place hplace := by
    rcases List.mem_append.mp hx with hx | hx
    · obtain ⟨hle, s, hs, hfacts⟩ := h.facts x hx place hplace
      have hlt : place < t'.spans.size := (Array.getElem?_eq_some_iff.mp hs).1
      exact ⟨hle, s, (k.records place hlt).trans hs, hfacts⟩
    · obtain ⟨hle, hfacts⟩ := k.facts x hx place hplace
      exact ⟨Nat.le_trans h.size hle, hfacts⟩

section Moments

variable {t : Tracer} {scope : EventScope}

theorem emitted_point (hadmits : t.level.admits scope = true) (now : Int) (name detail : Text) (parent : Nat) :
    ∃ k, Emitted parent t (t.point now scope name detail parent) [] [k] := by
  unfold point
  rw [if_pos hadmits]
  refine ⟨⟨{ micros := now / 1000, kind := .point, scope, name, detail, parent }, none⟩, ?_, .point rfl rfl .nil, rfl,
    rfl, ?_, ?_, ?_, ?_, ?_⟩
  · exact shown_emit _ _ _
  all_goals simp

/-- A span begins with the next number. -/
theorem begin_admitted (hadmits : t.level.admits scope = true) (now : Int) (name : Text) (parent : Nat) :
    ∃ u b, t.begin now scope name parent = (u, t.spans.size) ∧ u.level = t.level ∧
      u.spanCount = t.spanCount + 1 ∧
      u.spans = t.spans.push { id := t.spanCount + 1, parent, scope, name, started := now } ∧
      u.shown = t.shown.emit b none ∧ b.kind = .begins ∧ b.scope = scope ∧
      b.identity = (t.spanCount + 1, name, parent) := by
  unfold begin
  rw [if_pos hadmits]
  exact ⟨_, _, rfl, by simp, by simp, by simp, shown_emit _ _ _, rfl, rfl, rfl⟩

/-- Facts were noted about the span at a place, and all else is left. -/
structure Noted (place : Nat) (t u : Tracer) : Prop where
  shown : u.shown = t.shown
  level : u.level = t.level
  count : u.spanCount = t.spanCount
  size : u.spans.size = t.spans.size
  others : ∀ i, i ≠ place → u.spans[i]? = t.spans[i]?
  own : ∀ s, t.spans[place]? = some s → ∃ facts, u.spans[place]? = some { s with facts }

theorem noted_addFact (t : Tracer) (place : Nat) (key value : Text) : Noted place t (t.addFact place key value) := by
  unfold addFact
  split
  · exact ⟨rfl, rfl, rfl, rfl, fun _ _ => rfl, fun s hs => ⟨s.facts, hs⟩⟩
  · refine ⟨rfl, rfl, rfl, Array.size_modify, fun i hi => ?_, fun s hs => ?_⟩
    · simp [Array.getElem?_modify, Ne.symm hi]
    · exact ⟨s.facts.insert key value, by simp [Array.getElem?_modify, hs]⟩

theorem noted_addFacts (t : Tracer) (place : Nat) (extra : Facts) :
    Noted place t (extra.foldl (fun t fact => t.addFact place fact.1 fact.2) t) := by
  induction extra generalizing t with
  | nil => exact ⟨rfl, rfl, rfl, rfl, fun _ _ => rfl, fun s hs => ⟨s.facts, hs⟩⟩
  | cons fact extra ih =>
    have hone := noted_addFact t place fact.1 fact.2
    have hrest := ih (t.addFact place fact.1 fact.2)
    refine ⟨hrest.shown.trans hone.shown, hrest.level.trans hone.level, hrest.count.trans hone.count,
      hrest.size.trans hone.size, fun i hi => (hrest.others i hi).trans (hone.others i hi), fun s hs => ?_⟩
    obtain ⟨facts, hfacts⟩ := hone.own s hs
    obtain ⟨facts', hfacts'⟩ := hrest.own _ hfacts
    exact ⟨facts', hfacts'⟩

theorem finish_eq {place : Nat} {s : SpanRecord} (hs : t.spans[place]? = some s) (hid : s.id ≠ 0) (now : Int)
    (detail : Text) : ∃ e endOf, t.finish now place detail = t.emit e endOf ∧ e.kind = .ends ∧
      e.identity = (s.id, s.name, s.parent) ∧ e.extra = s.facts ∧ ∀ i, endOf = some i → i = place := by
  simp only [finish, hs, hid, if_false]
  refine ⟨_, _, rfl, rfl, rfl, rfl, fun i hi => ?_⟩
  split at hi
  · cases hi
  · exact (Option.some.inj hi).symm

/-- A span around what is told inside it. -/
theorem Emitted.around {now : Int} {name : Text} {parent : Nat} {u v : Tracer} {opened : List (EventScope × Text)}
    {ks : List Kept} (hadmits : t.level.admits scope = true)
    (hu : t.begin now scope name parent = (u, t.spans.size)) (h : Emitted (t.spanCount + 1) u v opened ks)
    (extra : Facts) (later : Int) (detail : Text) :
    ∃ ls, Emitted parent t ((extra.foldl (fun v fact => v.addFact t.spans.size fact.1 fact.2) v).finish
      later t.spans.size detail) ((scope, name) :: opened) ls := by
  obtain ⟨u', b, hbegin, hlevel, hcount, hspans, hshown, hbkind, hbscope, hbid⟩ :=
    begin_admitted hadmits now name parent
  obtain rfl : u = u' := (Prod.mk.inj (hu.symm.trans hbegin)).1
  have hnoted := noted_addFacts v t.spans.size extra
  generalize extra.foldl (fun v fact => v.addFact t.spans.size fact.1 fact.2) v = w at hnoted ⊢
  -- The record of the span is still there when it ends.
  have hsize : u.spans.size = t.spans.size + 1 := by rw [hspans, Array.size_push]
  have hrecord : u.spans[t.spans.size]? =
      some { id := t.spanCount + 1, parent, scope, name, started := now } := by rw [hspans, Array.getElem?_push_size]
  obtain ⟨facts, hfacts⟩ := hnoted.own _ ((h.records _ (by omega)).trans hrecord)
  obtain ⟨e, endOf, hfinish, hekind, heid, heextra, hplaces⟩ :=
    finish_eq hfacts (Nat.succ_ne_zero _) later detail
  have hsame : e.identity = b.identity := heid.trans hbid.symm
  obtain ⟨hspan, hname, hparent⟩ : b.span = t.spanCount + 1 ∧ b.name = name ∧ b.parent = parent := by
    simpa [Event.identity] using hbid
  have hevents : (⟨b, none⟩ :: (ks ++ [⟨e, endOf⟩]) : List Kept).map (·.event) =
      b :: (ks.map (·.event) ++ e :: []) := by simp
  have hbegun : begun (b :: (ks.map (·.event) ++ e :: [])) = b :: begun (ks.map (·.event)) := by
    simp [begun, hbkind, hekind, EventKind.begins, EventKind.ends]
  rw [hfinish]
  refine ⟨⟨b, none⟩ :: (ks ++ [⟨e, endOf⟩]), ?_, ?_, ?_, ?_, ?_, ?_, ?_, ?_, ?_⟩
  · rw [shown_emit, hnoted.shown, h.shown, hshown]
    simp [telling]
  · rw [hevents]
    exact .span hbkind hparent (hspan ▸ h.nested) hekind hsame .nil
  · rw [hevents, hbegun, List.map_cons, h.fresh, hcount, hspan, List.length_cons, List.range'_succ]
  · rw [hevents, hbegun, List.map_cons, h.names, hbscope, hname]
  · rw [emit_spanCount, hnoted.count, h.count, hcount, List.length_cons]
    omega
  · rw [emit_level, hnoted.level, h.level, hlevel]
  · have hgrown := h.size
    rw [emit_spans, hnoted.size]
    omega
  · intro i hi
    rw [emit_spans, hnoted.others i (by omega), h.records i (by omega), hspans, Array.getElem?_push_lt hi,
      Array.getElem?_eq_getElem hi]
  · intro k hk place hplace
    rw [emit_spans]
    simp only [List.mem_cons, List.mem_append, List.not_mem_nil, or_false] at hk
    rcases hk with rfl | hk | rfl
    · cases hplace
    · obtain ⟨hle, hfacts⟩ := h.facts k hk place hplace
      rw [hnoted.others place (by omega)]
      exact ⟨by omega, hfacts⟩
    · obtain rfl := hplaces place hplace
      exact ⟨Nat.le_refl _, _, hfacts, heextra.symm⟩

end Moments

/-! ## Runs of moments -/

/-- Tells moments, given the spans that were begun; `moments` does so from none. -/
def run (surroundings : Nat) (t : Tracer) (begun : Array Begun) (ms : List (Int × Moment)) : Tracer × Array Begun :=
  ms.foldl (fun x m => moment surroundings x.1 x.2 m.1 m.2) (t, begun)

theorem moments_eq_run (surroundings : Nat) (t : Tracer) (ms : List (Int × Moment)) :
    t.moments surroundings ms = (run surroundings t #[] ms).1 := rfl

theorem run_cons (surroundings : Nat) (t : Tracer) (begun : Array Begun) (m : Int × Moment)
    (ms : List (Int × Moment)) : run surroundings t begun (m :: ms) =
      run surroundings (moment surroundings t begun m.1 m.2).1 (moment surroundings t begun m.1 m.2).2 ms := rfl

theorem run_append (surroundings : Nat) (t : Tracer) (begun : Array Begun) (ms ns : List (Int × Moment)) :
    run surroundings t begun (ms ++ ns) =
      run surroundings (run surroundings t begun ms).1 (run surroundings t begun ms).2 ns := by
  rw [run, List.foldl_append]
  rfl

theorem begun?_append {begun : Array Begun} {span : Nat} (h : span ≤ begun.size) (more : Array Begun) :
    begun? (begun ++ more) span = begun? begun span := by
  cases span with
  | zero => rfl
  | succ k => exact Array.getElem?_append_left h

theorem run_notes {surroundings span : Nat} {begun : Array Begun} {b : Begun} (hb : begun? begun span = some b)
    (facts : Facts) {timed : List (Int × Moment)}
    (htimed : timed.map (·.2) = facts.map fun fact => .notes span fact.1 fact.2) (t : Tracer) :
    run surroundings t begun timed = (facts.foldl (fun t fact => t.addFact b.place fact.1 fact.2) t, begun) := by
  induction facts generalizing t timed with
  | nil =>
    obtain rfl := List.map_eq_nil_iff.mp htimed
    rfl
  | cons fact facts ih =>
    obtain ⟨m, timed, rfl, hm, hrest⟩ := List.map_eq_cons_iff.mp htimed
    have hnotes : moment surroundings t begun m.1 m.2 = (t.addFact b.place fact.1 fact.2, begun) := by
      rw [hm, moment, hb]
    rw [run_cons, hnotes, ih hrest, List.foldl_cons]

/-- The events of balanced moments are nested in the span where these are told to be. -/
theorem run_balanced {parent first last : Nat} {ms : List Moment} (h : Balanced parent first ms last)
    (hparent : parent ≤ first) (surroundings : Nat) {t : Tracer} (hadmits : ∀ scope, t.level.admits scope = true)
    {begun : Array Begun} (hsize : begun.size = first) {timed : List (Int × Moment)}
    (htimed : timed.map (·.2) = ms) :
    ∃ u more ks, run surroundings t begun timed = (u, begun ++ more) ∧ (begun ++ more).size = last ∧
      Emitted (currentOf surroundings begun parent) t u (openings ms) ks := by
  induction h generalizing t begun timed with
  | nil =>
    obtain rfl := List.map_eq_nil_iff.mp htimed
    exact ⟨t, #[], [], by simp [run], by simpa using hsize, .refl _ t⟩
  | @point parent first last scope name detail rest _ ih =>
    obtain ⟨m, timed, rfl, hm, hrest⟩ := List.map_eq_cons_iff.mp htimed
    obtain ⟨k, hpoint⟩ := emitted_point (hadmits scope) m.1 name detail (currentOf surroundings begun parent)
    obtain ⟨u, more, ks, hrun, hlast, hemitted⟩ :=
      ih hparent (fun scope => hpoint.level ▸ hadmits scope) hsize hrest
    refine ⟨u, more, k :: ks, ?_, hlast, hpoint.trans hemitted⟩
    rw [← hrun, run_cons, hm]
    rfl
  | @span parent first middle last scope name detail facts inner rest _ _ ihinner ihrest =>
    obtain ⟨m, timed, rfl, hm, hbody⟩ := List.map_eq_cons_iff.mp htimed
    obtain ⟨inside, after, rfl, hinside, hafter⟩ := List.map_eq_append_iff.mp hbody
    obtain ⟨notes, after, rfl, hnotes, hafter⟩ := List.map_eq_append_iff.mp hafter
    obtain ⟨m', timed, rfl, hm', hrest⟩ := List.map_eq_cons_iff.mp hafter
    obtain ⟨u, _, hbegin, hlevel, hcount, hspans, _⟩ :=
      begin_admitted (hadmits scope) m.1 name (currentOf surroundings begun parent)
    -- The phase knows the span as the next one, and the tracer has given it the next number.
    let b : Begun := ⟨t.spans.size, t.spanCount + 1⟩
    have hid : u.spanId t.spans.size = t.spanCount + 1 := by simp [spanId, hspans]
    have hbegins : moment surroundings t begun m.1 m.2 = (u, begun.push b) := by
      rw [hm]
      simp [moment, hbegin, hid, b]
    have hpushed : (begun.push b).size = first + 1 := by rw [Array.size_push, hsize]
    have hknown : begun? (begun.push b) (first + 1) = some b := by simp [begun?, ← hsize]
    obtain ⟨v, more, ks, hinner, hmiddle, hemitted⟩ := ihinner (Nat.le_refl _) (fun scope => hlevel ▸ hadmits scope)
      hpushed hinside
    have hcurrent : currentOf surroundings (begun.push b) (first + 1) = t.spanCount + 1 := by
      rw [currentOf, hknown]
      rfl
    rw [hcurrent] at hemitted
    obtain ⟨ls, haround⟩ := Emitted.around (hadmits scope) hbegin hemitted facts m'.1 detail
    -- It is still known when it ends, and so is the parent afterwards.
    have hstill : begun? (begun.push b ++ more) (first + 1) = some b :=
      (begun?_append (Nat.le_of_eq hpushed.symm) more).trans hknown
    have hgrown : begun.push b ++ more = begun ++ (#[b] ++ more) := by
      rw [Array.push_eq_append, Array.append_assoc]
    have hsame : currentOf surroundings (begun.push b ++ more) parent = currentOf surroundings begun parent := by
      rw [hgrown, currentOf, begun?_append (by omega), ← currentOf]
    have hle : parent ≤ middle := by
      rw [← hmiddle, Array.size_append, hpushed]
      omega
    obtain ⟨w, more', ks', hrun, hlast, hafter⟩ :=
      ihrest hle (fun scope => haround.level ▸ hadmits scope) hmiddle hrest
    rw [hsame] at hafter
    have hends : ∀ x : Tracer, moment surroundings x (begun.push b ++ more) m'.1 m'.2 =
        (x.finish m'.1 t.spans.size detail, begun.push b ++ more) := by
      intro x
      rw [hm', moment, hstill]
    refine ⟨w, #[b] ++ more ++ more', ls ++ ks', ?_, ?_, ?_⟩
    · rw [run_cons, hbegins, run_append, hinner, run_append, run_notes hstill facts hnotes, run_cons, hends]
      rw [← Array.append_assoc, ← hgrown]
      exact hrun
    · rw [← Array.append_assoc, ← hgrown]
      exact hlast
    · rw [openings_span]
      exact haround.trans hafter

end Tracer

end DeclCheck.Trace

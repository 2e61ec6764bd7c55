import DeclCheck.Progress.View
import DeclCheck.Proofs.Run.Events
import DeclCheck.Proofs.Run.Interleaving

/-!
# The progress view comes to rest

Files that are checked at the same time tell progress in some common order. In the view, the line of a file
follows the events with its name alone, and these are in every order the events that the check of the file has
told. So each line ends as the result of its file says.
-/
namespace DeclCheck

/-! ## Common orders -/

/-- A common order of some streams: each of them keeps its own. -/
inductive Interleaves {α : Type} : List (List α) → List α → Prop
  | nil {streams : List (List α)} (h : ∀ s ∈ streams, s = []) : Interleaves streams []
  | cons {streams : List (List α)} {i : Nat} {x : α} {rest merged : List α}
      (hi : streams[i]? = some (x :: rest)) (h : Interleaves (streams.set i rest) merged) :
      Interleaves streams (x :: merged)

namespace Interleaves

variable {α : Type} {streams : List (List α)} {merged : List α}

/-- A stream is found again in every common order, if a test tells it from the others. -/
theorem filter_eq (h : Interleaves streams merged) {test : α → Bool} {k : Nat} {own : List α}
    (hk : streams[k]? = some own) (hown : ∀ x ∈ own, test x = true)
    (hothers : ∀ i s, i ≠ k → streams[i]? = some s → ∀ x ∈ s, test x = false) :
    merged.filter test = own := by
  -- The first of the order is of the stream itself, which is shorter then, or of another that the test refuses.
  induction h generalizing own with
  | nil h => rw [h own (List.mem_of_getElem? hk), List.filter_nil]
  | @cons streams i x rest merged hi _ ih =>
    have hlt : i < streams.length := (List.getElem?_eq_some_iff.mp hi).1
    by_cases hik : i = k
    · subst hik
      obtain rfl : x :: rest = own := Option.some.inj (hi.symm.trans hk)
      rw [List.forall_mem_cons] at hown
      rw [List.filter_cons_of_pos hown.1]
      refine congrArg _ (ih (List.getElem?_set_self hlt) hown.2 fun j s hj hs => ?_)
      rw [List.getElem?_set_ne (Ne.symm hj)] at hs
      exact hothers j s hj hs
    · have hx := hothers i _ hik hi
      rw [List.forall_mem_cons] at hx
      rw [List.filter_cons_of_neg (by simp [hx.1])]
      refine ih ((List.getElem?_set_ne hik).trans hk) hown fun j s hj hs => ?_
      by_cases hij : i = j
      · subst hij
        rw [List.getElem?_set_self hlt] at hs
        cases hs
        exact hx.2
      · rw [List.getElem?_set_ne hij] at hs
        exact hothers j s hj hs

theorem mem_iff (h : Interleaves streams merged) {x : α} : x ∈ merged ↔ ∃ s ∈ streams, x ∈ s := by
  induction h with
  | nil h =>
    constructor
    · intro hx
      cases hx
    · rintro ⟨s, hs, hx⟩
      rwa [h s hs] at hx
  | @cons streams i y rest merged hi _ ih =>
    have hlt : i < streams.length := (List.getElem?_eq_some_iff.mp hi).1
    rw [List.mem_cons, ih]
    constructor
    · rintro (rfl | ⟨s, hs, hx⟩)
      · exact ⟨_, List.mem_of_getElem? hi, List.mem_cons_self⟩
      · rcases List.mem_or_eq_of_mem_set hs with hs | rfl
        · exact ⟨s, hs, hx⟩
        · exact ⟨_, List.mem_of_getElem? hi, List.mem_cons_of_mem y hx⟩
    · rintro ⟨s, hs, hx⟩
      obtain ⟨j, hj⟩ := List.mem_iff_getElem?.mp hs
      by_cases hij : i = j
      · subst hij
        obtain rfl : y :: rest = s := Option.some.inj (hi.symm.trans hj)
        refine (List.mem_cons.mp hx).imp_right fun hx => ⟨rest, ?_, hx⟩
        exact List.mem_of_getElem? (List.getElem?_set_self hlt)
      · exact .inr ⟨s, List.mem_of_getElem? ((List.getElem?_set_ne hij).trans hj), hx⟩

theorem cons_nil (h : Interleaves streams merged) : Interleaves ([] :: streams) merged := by
  induction h with
  | nil h => exact .nil (List.forall_mem_cons.mpr ⟨rfl, h⟩)
  | @cons streams i x rest merged hi _ ih => exact .cons (i := i + 1) hi ih

/-- One after the other, streams are in a common order. -/
theorem flatten (streams : List (List α)) : Interleaves streams streams.flatten := by
  induction streams with
  | nil => exact .nil (by simp)
  | cons s streams ih =>
    induction s with
    | nil => exact ih.cons_nil
    | cons x s ihs => exact .cons (i := 0) rfl ihs

end Interleaves

/-! ## The lines of the view -/

namespace Progress

theorem Item.apply_path (i : Item) (e : Event) : (i.apply e).path = i.path := by
  unfold apply
  dsimp only
  split <;> split <;> rfl

theorem Item.foldl_apply_path (events : List Event) (i : Item) : (events.foldl apply i).path = i.path := by
  induction events generalizing i with
  | nil => rfl
  | cons e events ih => rw [List.foldl_cons, ih, apply_path]

/-- What the view says of a file with a result. -/
def outcomeLabel (r : Run.FileResult) : Text :=
  if r.cached then "cached" else if r.hasErrors then "error" else "done"

/-- An event about the whole file that tells how it ended finishes its line. -/
theorem Item.apply_final (i : Item) {e : Event} {r : Run.FileResult} (hstage : e.stage = .whole)
    (hstatus : e.status = Run.finalStatus r) :
    (i.apply e).finished = true ∧ (i.apply e).status = outcomeLabel r := by
  unfold apply Run.finalStatus outcomeLabel at *
  rw [hstage, hstatus]
  cases r.cached with
  | true => exact ⟨rfl, rfl⟩
  | false => cases r.hasErrors <;> exact ⟨rfl, rfl⟩

namespace View

theorem updateLast_map {names : List Text} (hnames : names.Nodup) {line : Text → Item}
    (hline : ∀ n, (line n).path = n) (file : Text) (f : Item → Item) :
    updateLast (·.path == file) f (names.map line) =
      names.map fun n => if n = file then f (line n) else line n := by
  induction names with
  | nil => rfl
  | cons n names ih =>
    obtain ⟨hfresh, hnodup⟩ := List.nodup_cons.mp hnames
    rw [List.map_cons, List.map_cons, updateLast, hline]
    by_cases hn : n = file
    · subst hn
      have hrest : ∀ m ∈ names, m ≠ n := fun m hm heq => hfresh (heq ▸ hm)
      have hnone : (names.map line).any (·.path == n) = false := by
        simp only [List.any_map, List.any_eq_false, Function.comp, hline, beq_iff_eq]
        exact hrest
      rw [hnone, if_pos (by simp), if_pos rfl]
      exact congrArg _ (List.map_congr_left fun m hm => (if_neg (hrest m hm)).symm)
    · rw [if_neg (by simp [hn]), if_neg hn, ih hnodup]

/-- With distinct names, each line follows the events with its name alone. -/
theorem items_foldl_apply {names : List Text} (hnames : names.Nodup) (events : List Event) {v : View}
    {line : Text → Item} (hline : ∀ n, (line n).path = n) (hv : v.items = names.map line) :
    (events.foldl apply v).items =
      names.map fun n => (events.filter (·.file == n)).foldl Item.apply (line n) := by
  -- `line` is what the lines have become so far; it keeps their names.
  induction events generalizing v line with
  | nil => exact hv
  | cons e events ih =>
    have hstep : (v.apply e).items = names.map fun n => if n = e.file then (line n).apply e else line n := by
      rw [← updateLast_map hnames hline e.file (·.apply e), ← hv]
      rfl
    have hpath : ∀ n, (if n = e.file then (line n).apply e else line n).path = n := by
      intro n
      split
      · rw [Item.apply_path, hline]
      · exact hline n
    rw [List.foldl_cons, ih hpath hstep]
    refine List.map_congr_left fun n _ => ?_
    by_cases hn : n = e.file
    · rw [if_pos hn, List.filter_cons_of_pos (by simp [hn])]
      rfl
    · rw [if_neg hn, List.filter_cons_of_neg (by simpa using Ne.symm hn)]

theorem items_ofFiles {names : List Text} (hnames : names.Nodup) (title : Text) (events : List Event) :
    (events.foldl apply (ofFiles title names)).items =
      names.map fun n => (events.filter (·.file == n)).foldl Item.apply { path := n } :=
  items_foldl_apply hnames events (fun _ => rfl) rfl

end View

end Progress

/-! ## Files that are checked at the same time -/

namespace Run

open Progress

/-- A call that checks a file, or only its first `reached` declarations. Others act on the disk meanwhile, so
its requests are answered in any way. -/
structure Call where
  path : Text
  reached : Option Nat := none
  answers : Answers

namespace Call

variable (cwd : Text) (o : Options)

def outcome (c : Call) : Except Failure FileResult × Log :=
  (((checkFile cwd o c.reached c.path : RunM Thread _).run {}).answered c.answers).1

def events (c : Call) : List Event := (c.outcome cwd o).2.events.toList

theorem completes {c : Call} (h : c.answers.Reads c.path) :
    Completes (shownAs cwd o c.path) (c.outcome cwd o).1 (c.events cwd o) := by
  obtain ⟨told, hlog, _, hcompletes⟩ := emits_checkFile [c.path] cwd o c.reached c.path {} c.answers (by simpa using h)
  rw [events, outcome, hlog]
  exact hcompletes List.mem_cons_self

theorem isAbout (c : Call) : About (shownAs cwd o c.path) (c.events cwd o) := by
  obtain ⟨told, hlog, habout, _⟩ := emits_checkFile [] cwd o c.reached c.path {} c.answers (by simp)
  rwa [events, outcome, hlog]

end Call

variable {cwd : Text} {o : Options} {calls : List Call}

/-- In every common order, the events with the name of a file are those that its check told. -/
theorem events_of_call (hreads : ∀ c ∈ calls, c.answers.Reads c.path)
    (hnames : (calls.map fun c => shownAs cwd o c.path).Nodup) {told : List Event}
    (htold : Interleaves (calls.map (·.events cwd o)) told) {c : Call} (hc : c ∈ calls) :
    told.filter (·.file == shownAs cwd o c.path) = c.events cwd o := by
  have habout : ∀ c ∈ calls, ∀ e ∈ c.events cwd o, e.file = shownAs cwd o c.path := by
    intro c hc
    obtain ⟨_, _, hcloses⟩ := c.completes cwd o (hreads c hc)
    exact hcloses.about
  obtain ⟨k, hk⟩ := List.mem_iff_getElem?.mp hc
  refine htold.filter_eq (k := k) (by rw [List.getElem?_map, hk]; rfl) (fun e he => ?_) ?_
  · exact beq_iff_eq.mpr (habout c hc e he)
  · intro i s hik hs e he
    obtain ⟨d, hd, rfl⟩ := Option.map_eq_some_iff.mp (List.getElem?_map .. ▸ hs)
    rw [habout d (List.mem_of_getElem? hd) e he]
    -- Two places with one name would be one place.
    refine beq_eq_false_iff_ne.mpr fun hsame => hik ?_
    refine (List.getElem?_inj ?_ hnames).mp ?_
    · rw [List.length_map]
      exact (List.getElem?_eq_some_iff.mp hd).1
    · rw [List.getElem?_map, List.getElem?_map, hd, hk, Option.map_some, Option.map_some, hsame]

/-- The line of a file, from the events with its name, says how the file ended. -/
theorem line_of_call (hreads : ∀ c ∈ calls, c.answers.Reads c.path)
    (hnames : (calls.map fun c => shownAs cwd o c.path).Nodup) {told : List Event}
    (htold : Interleaves (calls.map (·.events cwd o)) told) (before : List Event) {c : Call}
    (hc : c ∈ calls) (i : Item) :
    ∃ r line, (c.outcome cwd o).1 = .ok r ∧
      ((before ++ told).filter (·.file == shownAs cwd o c.path)).foldl Item.apply i = line ∧
      line.finished = true ∧ line.status = outcomeLabel r := by
  obtain ⟨r, hr, hcloses⟩ := c.completes cwd o (hreads c hc)
  obtain ⟨front, e, hevents, hstage, hstatus⟩ := hcloses.last
  refine ⟨r, _, hr, rfl, ?_⟩
  rw [List.filter_append, events_of_call hreads hnames htold hc, hevents, ← List.append_assoc,
    List.foldl_append]
  exact Item.apply_final _ hstage hstatus

/-- The answers of a disk on which both files lie, and in the cache what is given. -/
def trayAnswers (entry : Except FileFault Text) : Answers := fun n r =>
  match r with
  | .now => (n : Int)
  | .readBytes path => if path ∈ trayInputs.map (·.path) then .ok trayContent else entry
  | .kindOf _ => .error .notFound
  | .listDir _ => .error .notFound
  | .makeDir _ | .writeBytes _ _ | .move _ _ | .removeAll _ => .ok ()

/-- The second file is looked up after the report about the first was stored. -/
def trayCalls : List Call :=
  [{ path := "a.yaml", answers := trayAnswers (.error .notFound) },
    { path := "b.yaml", answers := trayAnswers (.ok (trayRecord "a.yaml").encode) }]

def trayLines : List (Text × Text) := [("b.yaml", "cached"), ("a.yaml", "error")]

end Run

end DeclCheck

import DeclCheck.Proofs.Run.Checking
import DeclCheck.Run.Files

/-!
# Threads on one disk

A computation on files can be run request by request, and between its requests others may change the disk.
A thread gives way before it asks for the time and before it reads a file, so each lookup in a cache and
each storing of an entry is done in one turn. Threads that check files stand in the order of the files;
with a number of jobs, a thread waits while that many before it are not done.
-/
namespace DeclCheck

/-! ## Requests -/

/-- What a computation asks of a file system. -/
inductive Request where
  | now
  | kindOf (path : Text)
  | readBytes (path : Text)
  | listDir (path : Text)
  | makeDir (path : Text)
  | writeBytes (path bytes : Text)
  | move (old new : Text)
  | removeAll (path : Text)

namespace Request

@[reducible]
def Answer : Request → Type
  | now => Int
  | kindOf _ => Except FileFault FileKind
  | readBytes _ => Except FileFault Text
  | listDir _ => Except FileFault (List (Text × FileKind))
  | makeDir _ | writeBytes _ _ | move _ _ | removeAll _ => Except FileFault Unit

/-- The answer of a disk, and the disk after it. -/
def perform : (r : Request) → StateM Disk r.Answer
  | now => MonadFiles.now
  | kindOf path => MonadFiles.kindOf path
  | readBytes path => MonadFiles.readBytes path
  | listDir path => MonadFiles.listDir path
  | makeDir path => MonadFiles.makeDir path
  | writeBytes path bytes => MonadFiles.writeBytes path bytes
  | move old new => MonadFiles.move old new
  | removeAll path => MonadFiles.removeAll path

/-- Does a thread give way before this request? -/
def givesWay : Request → Bool
  | now | readBytes _ => true
  | _ => false

end Request

/-! ## Threads -/

/-- A computation that is done, or that asks for something and goes on with the answer. -/
inductive Thread (α : Type) where
  | done (a : α)
  | ask (r : Request) (next : r.Answer → Thread α)

namespace Thread

variable {α β : Type}

protected def bind : Thread α → (α → Thread β) → Thread β
  | done a, f => f a
  | ask r next, f => ask r fun answer => (next answer).bind f

instance : Monad Thread where
  pure := done
  bind := Thread.bind

instance : MonadFiles Thread where
  now := ask .now done
  kindOf path := ask (.kindOf path) done
  readBytes path := ask (.readBytes path) done
  listDir path := ask (.listDir path) done
  makeDir path := ask (.makeDir path) done
  writeBytes path bytes := ask (.writeBytes path bytes) done
  move old new := ask (.move old new) done
  removeAll path := ask (.removeAll path) done

def isDone : Thread α → Bool
  | done _ => true
  | ask _ _ => false

/-- Goes on until the thread gives way. -/
def advance : Thread α → Disk → Thread α × Disk
  | done a, d => (done a, d)
  | ask r next, d =>
    if r.givesWay then (ask r next, d)
    else (next (r.perform.run d).1).advance (r.perform.run d).2

/-- One turn: the next request, and what follows until the thread gives way. -/
def turn : Thread α → Disk → Thread α × Disk
  | done a, d => (done a, d)
  | ask r next, d => (next (r.perform.run d).1).advance (r.perform.run d).2

/-- The whole thread without a pause. -/
def exec : Thread α → Disk → α × Disk
  | done a, d => (a, d)
  | ask r next, d => (next (r.perform.run d).1).exec (r.perform.run d).2

theorem exec_bind (t : Thread α) (f : α → Thread β) (d : Disk) :
    (t >>= f).exec d = (f (t.exec d).1).exec (t.exec d).2 := by
  induction t generalizing d with
  | done a => rfl
  | ask r next ih => exact ih _ _

/-- Some turns in a row. -/
def turns : Nat → Thread α → Disk → Thread α × Disk
  | 0, t, d => (t, d)
  | n + 1, t, d => turns n (t.turn d).1 (t.turn d).2

/-- A thread that is never interrupted comes to its end. -/
theorem exists_turns (t : Thread α) (d : Disk) :
    (∃ n, t.turns n d = (done (t.exec d).1, (t.exec d).2)) ∧
    ∃ n, (t.advance d).1.turns n (t.advance d).2 = (done (t.exec d).1, (t.exec d).2) := by
  induction t generalizing d with
  | done a => exact ⟨⟨0, rfl⟩, 0, rfl⟩
  | ask r next ih =>
    obtain ⟨n, hn⟩ := (ih (r.perform.run d).1 (r.perform.run d).2).2
    have hturns : ∃ n, (ask r next).turns n d =
        (done ((ask r next).exec d).1, ((ask r next).exec d).2) := ⟨n + 1, hn⟩
    refine ⟨hturns, ?_⟩
    by_cases hway : r.givesWay = true
    · simpa only [advance, hway, if_true] using hturns
    · refine ⟨n, ?_⟩
      simp only [advance, if_neg hway]
      exact hn

end Thread

/-! ## What a thread relies on and keeps -/

namespace Thread

variable {α β : Type} {keep rely : Disk → Prop}

/-- From the disk `d` in the middle of a turn: whenever the thread gives way, the disk has what it is to
`keep`; if each turn begins on a disk that has been kept so and on which it can `rely`, the thread ends as
`post` says. -/
def Meets (keep rely : Disk → Prop) : Thread α → Disk → (α → Disk → Prop) → Prop
  | done a, d, post => post a d
  | ask r next, d, post =>
    if r.givesWay then
      keep d ∧ ∀ e, keep e → rely e → (next (r.perform.run e).1).Meets keep rely (r.perform.run e).2 post
    else (next (r.perform.run d).1).Meets keep rely (r.perform.run d).2 post

theorem Meets.mono {t : Thread α} {d : Disk} {post post' : α → Disk → Prop}
    (h : t.Meets keep rely d post) (himp : ∀ a e, post a e → post' a e) :
    t.Meets keep rely d post' := by
  induction t generalizing d with
  | done a => exact himp a d h
  | ask r next ih =>
    unfold Meets at h ⊢
    split
    · next hway =>
      rw [if_pos hway] at h
      exact ⟨h.1, fun e hkeep hrely => ih _ (h.2 e hkeep hrely)⟩
    · next hway =>
      rw [if_neg hway] at h
      exact ih _ h

theorem Meets.bind {t : Thread α} {f : α → Thread β} {d : Disk} {post : β → Disk → Prop}
    (h : t.Meets keep rely d fun a e => (f a).Meets keep rely e post) :
    (t >>= f).Meets keep rely d post := by
  change (t.bind f).Meets keep rely d post
  induction t generalizing d with
  | done a => exact h
  | ask r next ih =>
    unfold Meets at h
    unfold Thread.bind Meets
    split
    · next hway =>
      rw [if_pos hway] at h
      exact ⟨h.1, fun e hkeep hrely => ih _ (h.2 e hkeep hrely)⟩
    · next hway =>
      rw [if_neg hway] at h
      exact ih _ h

theorem meets_pause {r : Request} {next : r.Answer → Thread α} {d : Disk} {post : α → Disk → Prop}
    (hway : r.givesWay = true) (hd : keep d)
    (h : ∀ e, keep e → rely e →
      (next (r.perform.run e).1).Meets keep rely (r.perform.run e).2 post) :
    (ask r next).Meets keep rely d post := by
  unfold Meets
  rw [if_pos hway]
  exact ⟨hd, h⟩

/-- A thread that has its turn before it. -/
def Awaits (keep rely : Disk → Prop) (post : α → Prop) : Thread α → Prop
  | done a => post a
  | ask r next => ∀ e, keep e → rely e → (next (r.perform.run e).1).Meets keep rely
      (r.perform.run e).2 fun a x => keep x ∧ post a

theorem Meets.advance {t : Thread α} {d : Disk} {post : α → Prop}
    (h : t.Meets keep rely d fun a e => keep e ∧ post a) :
    keep (t.advance d).2 ∧ (t.advance d).1.Awaits keep rely post := by
  induction t generalizing d with
  | done a => exact h
  | ask r next ih =>
    unfold Meets at h
    unfold Thread.advance
    split
    · next hway =>
      rw [if_pos hway] at h
      exact h
    · next hway =>
      rw [if_neg hway] at h
      exact ih _ h

theorem Awaits.turn {t : Thread α} {d : Disk} {post : α → Prop} (h : t.Awaits keep rely post)
    (hkeep : keep d) (hrely : rely d) :
    keep (t.turn d).2 ∧ (t.turn d).1.Awaits keep rely post := by
  cases t with
  | done a => exact ⟨hkeep, h⟩
  | ask r next => exact (h d hkeep hrely).advance

/-- A thread that may never give way ends as if it were run alone. -/
theorem Meets.exec_of_never {t : Thread α} {d : Disk} {post : α → Disk → Prop}
    (h : t.Meets (fun _ => False) rely d post) : post (t.exec d).1 (t.exec d).2 := by
  induction t generalizing d with
  | done a => exact h
  | ask r next ih =>
    unfold Meets at h
    split at h
    · exact h.1.elim
    · exact ih _ h

/-- A thread that keeps the disk as it is ends as if it were run alone. -/
theorem Meets.exec_of_same {t : Thread α} {d : Disk} {post : α → Prop} (hrely : rely d)
    (h : t.Meets (· = d) rely d fun a e => e = d ∧ post a) : post (t.exec d).1 := by
  suffices hany : ∀ (t : Thread α) (e : Disk), t.Meets (· = d) rely e (fun a x => x = d ∧ post a) →
      post (t.exec e).1 from hany t d h
  intro t
  induction t with
  | done a => exact fun _ h => h.2
  | ask r next ih =>
    intro e h
    unfold Meets at h
    split at h
    · obtain ⟨rfl, h⟩ := h
      exact ih _ _ (h e rfl hrely)
    · exact ih _ _ h

end Thread

/-! ## Pools -/

/-- Threads in order, on one disk. -/
structure Pool (α : Type) where
  threads : List (Thread α)
  disk : Disk

namespace Pool

variable {α : Type}

/-- May a thread have a turn? With a number of jobs, it waits for those before it. -/
def admits (jobs : Nat) (p : Pool α) (i : Nat) : Bool :=
  (p.threads.take i).countP (!·.isDone) < jobs

/-- A turn of a thread. One that may not have it is passed over. -/
def step (jobs : Nat) (p : Pool α) (i : Nat) : Pool α :=
  match p.threads[i]? with
  | none => p
  | some t =>
    if p.admits jobs i then ⟨p.threads.set i (t.turn p.disk).1, (t.turn p.disk).2⟩ else p

/-- The turns of a schedule. -/
def run (jobs : Nat) (schedule : List Nat) (p : Pool α) : Pool α := schedule.foldl (step jobs) p

def isDone (p : Pool α) : Bool := p.threads.all Thread.isDone

variable {p : Pool α}

theorem run_append (jobs : Nat) (first rest : List Nat) :
    p.run jobs (first ++ rest) = (p.run jobs first).run jobs rest := List.foldl_append

theorem step_of_admits {jobs i : Nat} {t : Thread α} (ht : p.threads[i]? = some t)
    (hadmits : p.admits jobs i = true) :
    p.step jobs i = ⟨p.threads.set i (t.turn p.disk).1, (t.turn p.disk).2⟩ := by
  simp only [step, ht, hadmits, if_true]

theorem length_run (jobs : Nat) (schedule : List Nat) :
    (p.run jobs schedule).threads.length = p.threads.length := by
  induction schedule generalizing p with
  | nil => rfl
  | cons i rest ih =>
    refine (ih (p := p.step jobs i)).trans ?_
    unfold step
    split
    · rfl
    · split
      · exact List.length_set
      · rfl

/-! ## Every pool can be brought to its end -/

theorem admits_set (jobs : Nat) (i : Nat) (t : Thread α) (d : Disk) :
    admits jobs ⟨p.threads.set i t, d⟩ i = p.admits jobs i := by
  simp only [admits, List.take_set_of_le le_rfl]

theorem run_replicate {jobs i : Nat} {t : Thread α} (ht : p.threads[i]? = some t)
    (hadmits : p.admits jobs i = true) (n : Nat) :
    p.run jobs (List.replicate n i) =
      ⟨p.threads.set i (t.turns n p.disk).1, (t.turns n p.disk).2⟩ := by
  induction n generalizing p t with
  | zero =>
    have hset : p.threads.set i t = p.threads := by
      obtain ⟨hi, rfl⟩ := List.getElem?_eq_some_iff.mp ht
      exact List.set_getElem_self hi
    rw [Thread.turns, hset]
    rfl
  | succ n ih =>
    have hi : i < p.threads.length := (List.getElem?_eq_some_iff.mp ht).1
    have hrun : p.run jobs (List.replicate (n + 1) i) = (p.step jobs i).run jobs (List.replicate n i) :=
      rfl
    rw [hrun, step_of_admits ht hadmits, ih (List.getElem?_set_self hi)
      ((admits_set jobs i _ _).trans hadmits)]
    simp only [List.set_set, Thread.turns]

/-- The threads in front can be brought to their ends one by one. -/
theorem exists_front_done {jobs : Nat} (hjobs : 0 < jobs) (k : Nat) :
    ∃ schedule, ∀ t ∈ (p.run jobs schedule).threads.take k, t.isDone = true := by
  induction k with
  | zero => exact ⟨[], by simp⟩
  | succ k ih =>
    obtain ⟨schedule, hfront⟩ := ih
    generalize hq : p.run jobs schedule = q at hfront
    cases ht : q.threads[k]? with
    | none =>
      refine ⟨schedule, ?_⟩
      rw [hq, List.take_add_one, ht, Option.toList_none, List.append_nil]
      exact hfront
    | some t =>
      have hadmits : q.admits jobs k = true := by
        have hnone : (q.threads.take k).countP (!·.isDone) = 0 :=
          List.countP_eq_zero.mpr fun t ht => by simp [hfront t ht]
        simpa [admits, hnone] using hjobs
      obtain ⟨n, hn⟩ := (t.exists_turns q.disk).1
      refine ⟨schedule ++ List.replicate n k, ?_⟩
      rw [run_append, hq, run_replicate ht hadmits, hn]
      intro u hu
      have hk : k < q.threads.length := (List.getElem?_eq_some_iff.mp ht).1
      rw [List.take_add_one, List.getElem?_set_self hk, List.take_set_of_le le_rfl] at hu
      rcases List.mem_append.mp hu with hu | hu
      · exact hfront u hu
      · rw [List.mem_singleton.mp hu]
        rfl

theorem exists_value (hdone : p.isDone = true) {i : Nat} (hi : i < p.threads.length) :
    ∃ a, p.threads[i]? = some (.done a) := by
  have ht := List.getElem?_eq_getElem hi
  have hend := List.all_eq_true.mp hdone _ (List.getElem_mem hi)
  generalize p.threads[i] = t at ht hend
  cases t with
  | done a => exact ⟨a, ht⟩
  | ask r next => cases hend

theorem exists_done {jobs : Nat} (hjobs : 0 < jobs) (p : Pool α) :
    ∃ schedule, (p.run jobs schedule).isDone = true := by
  obtain ⟨schedule, hfront⟩ := exists_front_done (p := p) hjobs p.threads.length
  refine ⟨schedule, List.all_eq_true.mpr ?_⟩
  rwa [← length_run jobs schedule, List.take_length] at hfront

/-! ## What the threads of a pool come to -/

/-- The threads of a pool await their turns, each for what is wanted of it. -/
structure Awaits {ι : Type} (keep rely : Disk → Prop) (post : ι → α → Prop) (wanted : List ι)
    (p : Pool α) : Prop where
  disk : keep p.disk
  length : p.threads.length = wanted.length
  thread : ∀ (i : Nat) (w : ι) (t : Thread α), wanted[i]? = some w → p.threads[i]? = some t →
    t.Awaits keep rely (post w)

section Awaits

variable {ι : Type} {keep rely : Disk → Prop} {post : ι → α → Prop} {wanted : List ι}

theorem Awaits.step (h : p.Awaits keep rely post wanted) (hrely : rely p.disk) (jobs i : Nat) :
    (p.step jobs i).Awaits keep rely post wanted := by
  unfold Pool.step
  cases ht : p.threads[i]? with
  | none => exact h
  | some t =>
    dsimp only
    split
    · have hi : i < p.threads.length := (List.getElem?_eq_some_iff.mp ht).1
      obtain ⟨w, hw⟩ : ∃ w, wanted[i]? = some w :=
        ⟨_, List.getElem?_eq_getElem (h.length ▸ hi)⟩
      obtain ⟨hdisk, hturn⟩ := (h.thread i w t hw ht).turn h.disk hrely
      refine ⟨hdisk, List.length_set.trans h.length, fun j v u hv hu => ?_⟩
      by_cases hij : i = j
      · subst hij
        rw [List.getElem?_set_self hi] at hu
        cases hu
        cases hw.symm.trans hv
        exact hturn
      · rw [List.getElem?_set_ne hij] at hu
        exact h.thread j v u hv hu
    · exact h

/-- If the threads can rely on the disk before each turn, any schedule leaves them on their way. -/
theorem Awaits.run (h : p.Awaits keep rely post wanted) (jobs : Nat) (schedule : List Nat)
    (hrely : ∀ n, rely (p.run jobs (schedule.take n)).disk) :
    (p.run jobs schedule).Awaits keep rely post wanted := by
  induction schedule generalizing p with
  | nil => exact h
  | cons i rest ih => exact ih (h.step (hrely 0) jobs i) fun n => hrely (n + 1)

end Awaits

end Pool

end DeclCheck

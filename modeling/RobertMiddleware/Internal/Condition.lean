import Mathlib.Logic.Function.Basic
import RobertMiddleware.Internal.Transition

/-!
# Waiting on a condition variable

An object, a mutex and a condition variable. One thread waits until a predicate holds of the
object: it tests the predicate under the mutex, and when the test fails it gives the mutex up and
goes to sleep in one step. It may wake up for no reason, and it tests again whenever it wakes. Any
number of other threads run straight-line programs that may take the mutex, change the object and
notify.

A wake-up is lost when the predicate holds, the waiting thread is asleep, and nobody who has changed
the object has still to notify. A change and its notification that both fall between a failed test
and the sleep are lost. Under the mutex no change can fall there.

## Main definitions

* `Condition.Instr`, `Condition.Client` — the programs of the other threads
* `Condition.step` — one step of one of the threads
* `Condition.Lost` — a wake-up is lost
* `Condition.Honest` — the waiting thread does not go to sleep on a test that is out of date
* `Condition.Guarded` — what a program changes it changes under the mutex

## Main results

* `Condition.lost_step_iff`, `Lost.step` — a wake-up is lost by a dishonest step, and only so
* `Condition.not_lost_reaches` — no wake-up is lost in an honest run
* `Condition.not_lost_of_guarded` — no wake-up is lost by guarded programs
-/

open Transition

namespace Condition

/-! ### Programs -/

/-- One instruction of a thread with local variables of type `ρ`. -/
inductive Instr (σ ρ : Type)
  | lock
  | unlock
  /-- An atomic access to the object and the local variables. -/
  | access (f : ρ → σ → ρ × σ)
  | notifyOne
  | notifyAll

/-- A thread: its local variables, and the rest of its program. -/
structure Thread (σ ρ : Type) where
  vars : ρ
  code : List (Instr σ ρ)

/-- The predicate, what the waiting thread does with the object before it leaves, and the calls that
the other threads make. -/
structure Client (σ ρ κ : Type) where
  ready : σ → Bool
  leave : σ → σ
  call : κ → Thread σ ρ

/-- Where the waiting thread stands. -/
inductive WaiterPc
  | away
  /-- Asking for the mutex. -/
  | entering
  | testing
  /-- The test has failed, and the mutex is still held. -/
  | dozing
  | asleep
  /-- The test has succeeded, and the mutex is still held. -/
  | leaving
deriving DecidableEq

/-- The waiting thread holds the mutex. -/
def WaiterPc.inside : WaiterPc → Bool
  | .testing | .dozing | .leaving => true
  | .away | .entering | .asleep => false

/-- Where it stands after a notification. One thread waits, so both kinds wake it. -/
def WaiterPc.notified : WaiterPc → WaiterPc
  | .asleep => .entering
  | pc => pc

/-- Who holds the mutex. -/
inductive Holder (ι : Type)
  | waiter
  | thread (i : ι)
deriving DecidableEq

/-- The object and the threads. -/
structure Room (ι σ ρ : Type) where
  data : σ
  holder : Option (Holder ι)
  waiter : WaiterPc
  threads : ι → Thread σ ρ

inductive Label (ι κ : Type)
  /-- A thread that has no program left begins a call. -/
  | call (i : ι) (op : κ)
  /-- Its next instruction. -/
  | thread (i : ι)
  /-- The waiting thread begins to wait. -/
  | enter
  | waiter
  /-- It wakes up for no reason. -/
  | spurious

variable {ι σ ρ κ : Type} [DecidableEq ι]

/-- The thread `i` goes on with `th`. -/
def Room.setThread (r : Room ι σ ρ) (i : ι) (th : Thread σ ρ) : Room ι σ ρ :=
  { r with threads := Function.update r.threads i th }

@[simp] theorem Room.holder_setThread (r : Room ι σ ρ) (i : ι) (th : Thread σ ρ) :
    (r.setThread i th).holder = r.holder := rfl

@[simp] theorem Room.waiter_setThread (r : Room ι σ ρ) (i : ι) (th : Thread σ ρ) :
    (r.setThread i th).waiter = r.waiter := rfl

/-- The next instruction of the thread `i`. -/
def threadStep (r : Room ι σ ρ) (i : ι) : Option (Room ι σ ρ) :=
  let th := r.threads i
  match th.code with
  | [] => none
  | .lock :: rest =>
    if r.holder = none then
      some { r.setThread i { th with code := rest } with holder := some (.thread i) }
    else none
  | .unlock :: rest =>
    if r.holder = some (.thread i) then
      some { r.setThread i { th with code := rest } with holder := none }
    else none
  | .access f :: rest =>
    some { r.setThread i ⟨(f th.vars r.data).1, rest⟩ with data := (f th.vars r.data).2 }
  | .notifyOne :: rest | .notifyAll :: rest =>
    some { r.setThread i { th with code := rest } with waiter := r.waiter.notified }

/-- The next step of the waiting thread. -/
def waiterStep (C : Client σ ρ κ) (r : Room ι σ ρ) : Option (Room ι σ ρ) :=
  match r.waiter with
  | .away | .asleep => none
  | .entering =>
    if r.holder = none then some { r with holder := some .waiter, waiter := .testing } else none
  | .testing => some { r with waiter := if C.ready r.data then .leaving else .dozing }
  | .dozing => some { r with holder := none, waiter := .asleep }
  | .leaving => some { r with data := C.leave r.data, holder := none, waiter := .away }

/-- One step of one of the threads. -/
def step (C : Client σ ρ κ) (r : Room ι σ ρ) : Label ι κ → Option (Room ι σ ρ)
  | .call i op => if (r.threads i).code.isEmpty then some (r.setThread i (C.call op)) else none
  | .thread i => threadStep r i
  | .enter => if r.waiter = .away then some { r with waiter := .entering } else none
  | .waiter => waiterStep C r
  | .spurious => if r.waiter = .asleep then some { r with waiter := .entering } else none

/-! ### Lost wake-ups -/

/-- A thread that has changed what it has to change has still to notify. -/
def owes : List (Instr σ ρ) → Bool
  | .notifyOne :: _ | .notifyAll :: _ => true
  | .lock :: rest | .unlock :: rest => owes rest
  | .access _ :: _ | [] => false

/-- A wake-up is lost. -/
def Lost (C : Client σ ρ κ) (r : Room ι σ ρ) : Prop :=
  r.waiter = .asleep ∧ C.ready r.data = true ∧ ∀ i, owes (r.threads i).code = false

/-- The waiting thread goes to sleep only when the predicate is false, or somebody has still to
notify it. -/
def Honest (C : Client σ ρ κ) (r : Room ι σ ρ) : Label ι κ → Prop
  | .waiter => r.waiter = .dozing → C.ready r.data = true → ∃ i, owes (r.threads i).code = true
  | _ => True

/-- The access does not make the predicate true. -/
def Quiet (ready : σ → Bool) (f : ρ → σ → ρ × σ) : Prop :=
  ∀ v a, ready (f v a).2 = true → ready a = true

/-- An access that may make the predicate true is announced. -/
def Announced (ready : σ → Bool) : List (Instr σ ρ) → Prop
  | [] => True
  | .access f :: rest => (Quiet ready f ∨ owes rest = true) ∧ Announced ready rest
  | _ :: rest => Announced ready rest

/-! ### What a step can do -/

variable {C : Client σ ρ κ} {r r' : Room ι σ ρ} {l : Label ι κ}

inductive Move (C : Client σ ρ κ) (r : Room ι σ ρ) : Label ι κ → Room ι σ ρ → Prop
  | call (i : ι) (op : κ) (hcode : (r.threads i).code = []) :
      Move C r (.call i op) (r.setThread i (C.call op))
  | lock (i : ι) (v : ρ) (rest : List (Instr σ ρ)) (hthread : r.threads i = ⟨v, .lock :: rest⟩)
      (hfree : r.holder = none) :
      Move C r (.thread i) { r.setThread i ⟨v, rest⟩ with holder := some (.thread i) }
  | unlock (i : ι) (v : ρ) (rest : List (Instr σ ρ))
      (hthread : r.threads i = ⟨v, .unlock :: rest⟩) (hheld : r.holder = some (.thread i)) :
      Move C r (.thread i) { r.setThread i ⟨v, rest⟩ with holder := none }
  | access (i : ι) (v : ρ) (f : ρ → σ → ρ × σ) (rest : List (Instr σ ρ))
      (hthread : r.threads i = ⟨v, .access f :: rest⟩) :
      Move C r (.thread i)
        { r.setThread i ⟨(f v r.data).1, rest⟩ with data := (f v r.data).2 }
  | notify (i : ι) (v : ρ) (instr : Instr σ ρ) (rest : List (Instr σ ρ))
      (hinstr : instr = .notifyOne ∨ instr = .notifyAll)
      (hthread : r.threads i = ⟨v, instr :: rest⟩) :
      Move C r (.thread i) { r.setThread i ⟨v, rest⟩ with waiter := r.waiter.notified }
  | enter (haway : r.waiter = .away) : Move C r .enter { r with waiter := .entering }
  | take (hentering : r.waiter = .entering) (hfree : r.holder = none) :
      Move C r .waiter { r with holder := some .waiter, waiter := .testing }
  | test (htesting : r.waiter = .testing) :
      Move C r .waiter { r with waiter := if C.ready r.data then .leaving else .dozing }
  | sleep (hdozing : r.waiter = .dozing) :
      Move C r .waiter { r with holder := none, waiter := .asleep }
  | leave (hleaving : r.waiter = .leaving) :
      Move C r .waiter { r with data := C.leave r.data, holder := none, waiter := .away }
  | spurious (hasleep : r.waiter = .asleep) : Move C r .spurious { r with waiter := .entering }

theorem threadStep_move {i : ι} (h : threadStep r i = some r') : Move C r (.thread i) r' := by
  cases hthread : r.threads i with
  | mk v code =>
    rw [threadStep, hthread] at h
    match code, h with
    | .lock :: rest, h =>
      obtain ⟨hfree, h⟩ := Option.ite_none_right_eq_some.mp h
      obtain rfl := Option.some.inj h
      exact .lock i v rest hthread hfree
    | .unlock :: rest, h =>
      obtain ⟨hheld, h⟩ := Option.ite_none_right_eq_some.mp h
      obtain rfl := Option.some.inj h
      exact .unlock i v rest hthread hheld
    | .access f :: rest, h =>
      obtain rfl := Option.some.inj h
      exact .access i v f rest hthread
    | .notifyOne :: rest, h =>
      obtain rfl := Option.some.inj h
      exact .notify i v .notifyOne rest (.inl rfl) hthread
    | .notifyAll :: rest, h =>
      obtain rfl := Option.some.inj h
      exact .notify i v .notifyAll rest (.inr rfl) hthread

theorem waiterStep_move (h : waiterStep C r = some r') : Move C r .waiter r' := by
  cases hpc : r.waiter <;> rw [waiterStep, hpc] at h
  case away => cases h
  case asleep => cases h
  case entering =>
    obtain ⟨hfree, h⟩ := Option.ite_none_right_eq_some.mp h
    obtain rfl := Option.some.inj h
    exact .take hpc hfree
  case testing =>
    obtain rfl := Option.some.inj h
    exact .test hpc
  case dozing =>
    obtain rfl := Option.some.inj h
    exact .sleep hpc
  case leaving =>
    obtain rfl := Option.some.inj h
    exact .leave hpc

theorem step_move (h : step C r l = some r') : Move C r l r' := by
  cases l with
  | call i op =>
    obtain ⟨hcode, h⟩ := Option.ite_none_right_eq_some.mp h
    obtain rfl := Option.some.inj h
    exact .call i op (List.isEmpty_iff.mp hcode)
  | thread i => exact threadStep_move h
  | enter =>
    obtain ⟨haway, h⟩ := Option.ite_none_right_eq_some.mp h
    obtain rfl := Option.some.inj h
    exact .enter haway
  | waiter => exact waiterStep_move h
  | spurious =>
    obtain ⟨hasleep, h⟩ := Option.ite_none_right_eq_some.mp h
    obtain rfl := Option.some.inj h
    exact .spurious hasleep

/-- Every thread runs the rest of a call. -/
def Room.Calls (C : Client σ ρ κ) (r : Room ι σ ρ) : Prop :=
  ∀ i, (r.threads i).code = [] ∨ ∃ op, (r.threads i).code <:+ (C.call op).code

theorem Room.Calls.setThread (hr : r.Calls C) {i : ι} {th : Thread σ ρ}
    (hth : ∃ op, th.code <:+ (C.call op).code) : (r.setThread i th).Calls C :=
  (Function.forall_update_iff r.threads fun _ th =>
    th.code = [] ∨ ∃ op, th.code <:+ (C.call op).code).mpr ⟨.inr hth, fun j _ => hr j⟩

omit [DecidableEq ι] in
/-- The next instruction is one of a call. -/
theorem Room.Calls.cons (hr : r.Calls C) {i : ι} {v : ρ} {instr : Instr σ ρ}
    {rest : List (Instr σ ρ)} (hthread : r.threads i = ⟨v, instr :: rest⟩) :
    ∃ op, instr :: rest <:+ (C.call op).code := by
  have hi := hr i
  rw [hthread] at hi
  exact hi.resolve_left (List.cons_ne_nil _ _)

theorem Room.Calls.step (hr : r.Calls C) (h : Condition.step C r l = some r') : r'.Calls C := by
  have hrest : ∀ {i v v' instr rest}, r.threads i = ⟨v, instr :: rest⟩ →
      (r.setThread i ⟨v', rest⟩).Calls C := by
    intro i v v' instr rest hthread
    obtain ⟨op, hop⟩ := hr.cons hthread
    exact hr.setThread ⟨op, (List.suffix_cons instr rest).trans hop⟩
  cases step_move h with
  | call i op => exact hr.setThread ⟨op, List.suffix_refl _⟩
  | lock i v rest hthread => exact hrest hthread
  | unlock i v rest hthread => exact hrest hthread
  | access i v f rest hthread => exact hrest hthread
  | notify i v instr rest _ hthread => exact hrest hthread
  | _ => exact hr

/-- The rest of an announced program is announced. -/
theorem Announced.of_suffix {ready : σ → Bool} {code rest : List (Instr σ ρ)}
    (h : Announced ready code) (hrest : rest <:+ code) : Announced ready rest := by
  obtain ⟨done, rfl⟩ := hrest
  induction done with
  | nil => exact h
  | cons instr done ih =>
    refine ih ?_
    cases instr with
    | access f => exact h.2
    | _ => exact h

/-- A room in which nothing has begun. -/
structure Room.Idle (r : Room ι σ ρ) : Prop where
  free : r.holder = none
  away : r.waiter = .away
  code : ∀ i, (r.threads i).code = []

omit [DecidableEq ι] in
theorem Room.Idle.calls (hr : r.Idle) : r.Calls C := fun i => .inl (hr.code i)

/-! ### Honest runs -/

/-- A thread that goes on does not come to owe a notification. -/
theorem owes_of_setThread {i : ι} {th : Thread σ ρ}
    (h : ∀ j, owes ((r.setThread i th).threads j).code = false)
    (hi : owes th.code = false → owes (r.threads i).code = false) :
    ∀ j, owes (r.threads j).code = false := by
  obtain ⟨hth, hothers⟩ :=
    (Function.forall_update_iff r.threads fun _ th => owes th.code = false).mp h
  intro j
  rcases eq_or_ne j i with rfl | hne
  · exact hi hth
  · exact hothers j hne

/-- A wake-up that is lost after a thread has gone on was lost before, unless the thread has made
the predicate true or owed a notification. -/
theorem Lost.of_setThread {i : ι} {th : Thread σ ρ} (h : Lost C r')
    (hwaiter : r'.waiter = r.waiter) (hthreads : r'.threads = (r.setThread i th).threads)
    (hready : C.ready r'.data = true → C.ready r.data = true)
    (hi : owes th.code = false → owes (r.threads i).code = false) : Lost C r := by
  obtain ⟨hasleep, hready', howes⟩ := h
  rw [hthreads] at howes
  exact ⟨hwaiter ▸ hasleep, hready hready', owes_of_setThread howes hi⟩

theorem WaiterPc.notified_ne_asleep (pc : WaiterPc) : pc.notified ≠ .asleep := by
  cases pc <;> simp [notified]

/-- **How a wake-up is lost.** -/
theorem lost_step_iff (hcall : ∀ op, Announced C.ready (C.call op).code) (hr : r.Calls C)
    (hnot : ¬ Lost C r) (h : step C r l = some r') : Lost C r' ↔ ¬ Honest C r l := by
  -- every step but the last is honest, and the waiting thread is not asleep after it, or was before
  have hawake : l = .waiter → r.waiter ≠ .dozing → Honest C r l := by
    rintro rfl hpc hdozing
    exact absurd hdozing hpc
  cases step_move h with
  | call i op hcode =>
    refine iff_of_false (fun hlost => hnot ?_) (not_not_intro trivial)
    refine hlost.of_setThread rfl rfl id fun _ => ?_
    rw [hcode]
    rfl
  | lock i v rest hthread =>
    refine iff_of_false (fun hlost => hnot ?_) (not_not_intro trivial)
    refine hlost.of_setThread rfl rfl id fun hrest => ?_
    rw [hthread]
    exact hrest
  | unlock i v rest hthread =>
    refine iff_of_false (fun hlost => hnot ?_) (not_not_intro trivial)
    refine hlost.of_setThread rfl rfl id fun hrest => ?_
    rw [hthread]
    exact hrest
  | access i v f rest hthread =>
    refine iff_of_false (fun hlost => hnot ?_) (not_not_intro trivial)
    have hrest : owes rest = false := by simpa [Room.setThread] using hlost.2.2 i
    obtain ⟨op, hop⟩ := hr.cons hthread
    have hquiet := ((hcall op).of_suffix hop).1.resolve_right (by simp [hrest])
    refine hlost.of_setThread rfl rfl (hquiet _ _) fun _ => ?_
    rw [hthread]
    rfl
  | notify i v instr rest =>
    exact iff_of_false (fun hlost => r.waiter.notified_ne_asleep hlost.1) (not_not_intro trivial)
  | enter => exact iff_of_false (fun hlost => by cases hlost.1) (not_not_intro trivial)
  | take hentering =>
    refine iff_of_false (fun hlost => by cases hlost.1) (not_not_intro (hawake rfl ?_))
    simp [hentering]
  | test htesting =>
    refine iff_of_false (fun hlost => ?_) (not_not_intro (hawake rfl (by simp [htesting])))
    have hasleep := hlost.1
    dsimp only at hasleep
    split at hasleep <;> cases hasleep
  | sleep hdozing => simp [Lost, Honest, hdozing]
  | leave hleaving =>
    refine iff_of_false (fun hlost => by cases hlost.1) (not_not_intro (hawake rfl ?_))
    simp [hleaving]
  | spurious => exact iff_of_false (fun hlost => by cases hlost.1) (not_not_intro trivial)

/-- **There is no way out** but a new call, or a wake-up for no reason. -/
theorem Lost.step (hr : Lost C r) (hidle : ∀ i, (r.threads i).code = [])
    (h : Condition.step C r l = some r') : l = .spurious ∨ ∃ i op, l = .call i op := by
  have hasleep := hr.1
  have hthread : ∀ {i v instr rest}, r.threads i ≠ ⟨v, instr :: rest⟩ := by
    intro i v instr rest hthread
    have hi := hidle i
    rw [hthread] at hi
    cases hi
  cases step_move h with
  | call i op => exact .inr ⟨i, op, rfl⟩
  | lock i v rest hcode => exact absurd hcode hthread
  | unlock i v rest hcode => exact absurd hcode hthread
  | access i v f rest hcode => exact absurd hcode hthread
  | notify i v instr rest _ hcode => exact absurd hcode hthread
  | spurious => exact .inl rfl
  | enter hpc | take hpc | test hpc | sleep hpc | leave hpc =>
    rw [hasleep] at hpc
    cases hpc

/-- **Honest runs.** No wake-up is lost. -/
theorem not_lost_reaches (hcall : ∀ op, Announced C.ready (C.call op).code) (hr : r.Idle)
    (h : Reaches (step C) (Honest C) r r') : ¬ Lost C r' := by
  refine (h.invariant (I := fun t => t.Calls C ∧ ¬ Lost C t) ⟨hr.calls, ?_⟩ ?_).2
  · rintro ⟨hasleep, -⟩
    rw [hr.away] at hasleep
    cases hasleep
  · rintro t l t' ⟨ht, hnot⟩ hhonest hstep
    exact ⟨ht.step hstep, fun hlost => (lost_step_iff hcall ht hnot hstep).mp hlost hhonest⟩

/-! ### Changes under the mutex -/

/-- A program that holds the mutex or not, gives it back, and makes the predicate true only under
the mutex and with a notification to follow. -/
def Guarded (ready : σ → Bool) : Bool → List (Instr σ ρ) → Prop
  | held, [] => held = false
  | held, .lock :: rest => held = false ∧ Guarded ready true rest
  | held, .unlock :: rest => held = true ∧ Guarded ready false rest
  | held, .access f :: rest =>
    (Quiet ready f ∨ held = true ∧ owes rest = true) ∧ Guarded ready held rest
  | held, .notifyOne :: rest | held, .notifyAll :: rest => Guarded ready held rest

theorem Guarded.announced {ready : σ → Bool} {held : Bool} {code : List (Instr σ ρ)}
    (h : Guarded ready held code) : Announced ready code := by
  induction code generalizing held with
  | nil => trivial
  | cons instr rest ih =>
    cases instr with
    | lock => exact ih h.2
    | unlock => exact ih h.2
    | access f => exact ⟨h.1.imp_right And.right, ih h.2⟩
    | notifyOne => exact ih h
    | notifyAll => exact ih h

/-- The thread `i` is the holder. -/
def holds (holder : Option (Holder ι)) (i : ι) : Bool := decide (holder = some (.thread i))

@[simp] theorem holds_none (i : ι) : holds none i = false := rfl

@[simp] theorem holds_waiter (i : ι) : holds (some .waiter) i = false := by simp [holds]

@[simp] theorem holds_self (i : ι) : holds (some (.thread i)) i = true := by simp [holds]

theorem holds_of_ne {i j : ι} (hne : j ≠ i) : holds (some (.thread i)) j = false := by
  simp [holds, hne.symm]

/-- The mutex is with the thread that is inside, and a failed test stays true. -/
structure Orderly (C : Client σ ρ κ) (r : Room ι σ ρ) : Prop where
  waiter : r.waiter.inside = true ↔ r.holder = some .waiter
  threads : ∀ i, Guarded C.ready (holds r.holder i) (r.threads i).code
  dozing : r.waiter = .dozing → C.ready r.data = false

theorem Room.Idle.orderly (hr : r.Idle) : Orderly C r where
  waiter := by simp [hr.away, hr.free, WaiterPc.inside]
  threads := by
    intro i
    rw [hr.code i, hr.free]
    rfl
  dozing := by
    intro hdozing
    rw [hr.away] at hdozing
    cases hdozing

/-- Under the mutex there is nothing new behind the back of the waiting thread. -/
theorem Orderly.honest (hr : Orderly C r) (l : Label ι κ) : Honest C r l := by
  cases l with
  | waiter =>
    intro hdozing hready
    rw [hr.dozing hdozing] at hready
    cases hready
  | _ => trivial

/-- One thread has gone on, and the mutex has not passed from or to another one. -/
theorem Orderly.setThread (hr : Orderly C r) {i : ι} {th : Thread σ ρ}
    {holder : Option (Holder ι)} (hothers : ∀ j, j ≠ i → holds holder j = holds r.holder j)
    (hth : Guarded C.ready (holds holder i) th.code) :
    ∀ j, Guarded C.ready (holds holder j) ((r.setThread i th).threads j).code := by
  refine (Function.forall_update_iff r.threads
    fun j th => Guarded C.ready (holds holder j) th.code).mpr ⟨hth, fun j hne => ?_⟩
  rw [hothers j hne]
  exact hr.threads j

/-- The mutex was with nobody or with the waiting thread, and is so again. -/
theorem Orderly.threads_of_free (hr : Orderly C r) {holder : Option (Holder ι)}
    (hfree : r.holder = none ∨ r.holder = some .waiter)
    (hfree' : holder = none ∨ holder = some .waiter) (i : ι) :
    Guarded C.ready (holds holder i) (r.threads i).code := by
  have hi := hr.threads i
  rcases hfree with hfree | hfree <;> rcases hfree' with rfl | rfl <;> rw [hfree] at hi <;>
    simpa using hi

/-- **Step lemma.** -/
theorem Orderly.step (hcall : ∀ op, Guarded C.ready false (C.call op).code) (hr : Orderly C r)
    (h : step C r l = some r') : Orderly C r' := by
  cases step_move h with
  | call i op hcode =>
    refine ⟨hr.waiter, hr.setThread (fun _ _ => rfl) ?_, hr.dozing⟩
    have hi := hr.threads i
    rw [hcode] at hi
    have hheld : holds r.holder i = false := hi
    rw [Room.holder_setThread, hheld]
    exact hcall op
  | lock i v rest hthread hfree =>
    have hi := hr.threads i
    rw [hthread] at hi
    have hwaiter := hr.waiter
    rw [hfree] at hwaiter
    refine ⟨?_, hr.setThread (fun j hne => ?_) ?_, hr.dozing⟩
    · simpa using hwaiter
    · rw [hfree, holds_of_ne hne, holds_none]
    · rw [holds_self]
      exact hi.2
  | unlock i v rest hthread hheld =>
    have hi := hr.threads i
    rw [hthread] at hi
    have hwaiter := hr.waiter
    rw [hheld] at hwaiter
    refine ⟨?_, hr.setThread (fun j hne => ?_) ?_, hr.dozing⟩
    · simpa using hwaiter
    · rw [hheld, holds_of_ne hne, holds_none]
    · exact hi.2
  | access i v f rest hthread =>
    have hi := hr.threads i
    rw [hthread] at hi
    refine ⟨hr.waiter, hr.setThread (fun _ _ => rfl) hi.2, fun hdozing => ?_⟩
    -- the waiting thread holds the mutex, so the access is not made under it
    have hholder := hr.waiter.mp (by rw [show r.waiter = .dozing from hdozing]; rfl)
    rw [hholder] at hi
    have hquiet := hi.1.resolve_right (by simp)
    by_contra hready
    have hbefore := hquiet v r.data (by simpa using hready)
    rw [hr.dozing hdozing] at hbefore
    cases hbefore
  | notify i v instr rest hinstr hthread =>
    have hi := hr.threads i
    rw [hthread] at hi
    have hrest : Guarded C.ready (holds r.holder i) rest := by
      rcases hinstr with rfl | rfl <;> exact hi
    refine ⟨?_, hr.setThread (fun _ _ => rfl) hrest, ?_⟩
    · have hinside : r.waiter.notified.inside = r.waiter.inside := by cases r.waiter <;> rfl
      rw [hinside]
      exact hr.waiter
    · intro hdozing
      refine hr.dozing ?_
      revert hdozing
      cases r.waiter <;> simp [WaiterPc.notified]
  | enter haway =>
    have hwaiter := hr.waiter
    rw [haway] at hwaiter
    exact ⟨hwaiter, hr.threads, fun hdozing => by cases hdozing⟩
  | take hentering hfree =>
    refine ⟨by simp [WaiterPc.inside], hr.threads_of_free (.inl hfree) (.inr rfl), ?_⟩
    intro hdozing
    cases hdozing
  | test htesting =>
    have hwaiter := hr.waiter
    rw [htesting] at hwaiter
    refine ⟨?_, hr.threads, fun hdozing => ?_⟩
    · dsimp only
      split <;> exact hwaiter
    · by_contra hready
      rw [Bool.not_eq_false] at hready
      simp [hready] at hdozing
  | sleep hdozing =>
    have hholder := hr.waiter.mp (by rw [hdozing]; rfl)
    refine ⟨by simp [WaiterPc.inside], hr.threads_of_free (.inr hholder) (.inl rfl), ?_⟩
    intro hdozing'
    cases hdozing'
  | leave hleaving =>
    have hholder := hr.waiter.mp (by rw [hleaving]; rfl)
    refine ⟨by simp [WaiterPc.inside], hr.threads_of_free (.inr hholder) (.inl rfl), ?_⟩
    intro hdozing
    cases hdozing
  | spurious hasleep =>
    have hwaiter := hr.waiter
    rw [hasleep] at hwaiter
    exact ⟨hwaiter, hr.threads, fun hdozing => by cases hdozing⟩

/-- **Guarded programs.** No wake-up is lost: every run of theirs is honest. -/
theorem not_lost_of_guarded (hcall : ∀ op, Guarded C.ready false (C.call op).code) (hr : r.Idle)
    (h : Reaches (step C) always r r') : ¬ Lost C r' :=
  not_lost_reaches (fun op => (hcall op).announced) hr
    (h.restrict hr.orderly (fun _ _ _ ht _ hstep => ht.step hcall hstep)
      fun _ l ht _ => ht.honest l)

end Condition

import Mathlib.Data.Int.Notation
import Mathlib.Data.Nat.Notation
import RobertMiddleware.Internal.Condition

/-!
# The main program

`src/main.cpp`, from the installation of the signal handlers. `main` starts the server and waits for
`g_shutdown_requested`. `signal_handler` may be invoked at any time once it is installed, any number
of times, and one invocation may come in the middle of another.

The handler does not take `g_wait_mutex`. So a signal may come when `main` has found the flag unset
and is not asleep yet. When the handler has notified by the time `main` goes to sleep, nobody wakes
it, and it stays there until there is another signal.

## Main definitions

* `MainState.step` — the thread of `main`, and the invocations of the handler
* `MainState.Prompt` — `main` does not go to sleep on a test that is out of date

## Main results

* `MainState.lost_step_iff` — the condition is exact
* `MainState.wait_reaches` — in a run that keeps it no shutdown request is lost
* `MainState.wait_fails` — a request that is lost
-/

namespace RobertMiddleware

open Condition Transition

/-- The signals that are handled. -/
inductive Signal
  | sigint
  | sigterm
deriving DecidableEq

/-- `signal_handler`. -/
def signalHandler : List (Instr Bool Unit) := [.access fun v _ => (v, true), .notifyAll]

/-- `main` waits for the flag, and the handlers set it. -/
def shutdownClient : Client Bool Unit Signal where
  ready requested := requested
  leave requested := requested
  call _ := ⟨(), signalHandler⟩

/-- Where `main` stands. -/
inductive MainPc
  /-- At `std::signal`. -/
  | installing (signum : Signal)
  /-- At `sock_comm::initialize`. -/
  | initializing
  /-- At the constructor of `Server`. -/
  | constructing
  /-- At `server.start`. -/
  | starting
  /-- In the block with the wait. -/
  | waiting
  /-- At `server.stop`. -/
  | stopping
  /-- At `sock_comm::cleanup`. -/
  | cleaning
  | returned (status : ℤ)
  /-- An exception has left `main`. -/
  | terminated
deriving DecidableEq

/-- The handler of a signal is installed. -/
def MainPc.installed (signum : Signal) : MainPc → Bool
  | .installing .sigint => false
  | .installing .sigterm => signum = .sigint
  | .returned _ | .terminated => false
  | _ => true

structure MainState where
  pc : MainPc := .installing .sigint
  /-- `g_shutdown_requested`, `g_wait_mutex` and `g_wait_cv`, with the calls of the handler. -/
  room : Room ℕ Bool Unit := ⟨false, none, .away, fun _ => ⟨(), []⟩⟩

namespace MainState

inductive Label
  /-- The next step of `main`. -/
  | advance
  /-- `initialize` returns false, or the constructor of `Server` throws. -/
  | fail
  /-- A signal is delivered. -/
  | signal (i : ℕ) (signum : Signal)
  /-- The next instruction of an invocation of the handler. -/
  | handler (i : ℕ)
  /-- `main` wakes up for no reason. -/
  | spurious

/-- A step on the flag, the mutex and the condition variable. -/
def act (m : MainState) (l : Condition.Label ℕ Signal) : Option MainState :=
  (Condition.step shutdownClient m.room l).map fun room => { m with room }

/-- One step of `main` or of an invocation. -/
def step (m : MainState) : Label → Option MainState
  | .advance =>
    match m.pc with
    | .installing .sigint => some { m with pc := .installing .sigterm }
    | .installing .sigterm => some { m with pc := .initializing }
    | .initializing => some { m with pc := .constructing }
    | .constructing => some { m with pc := .starting }
    | .starting => (m.act .enter).map fun m' => { m' with pc := .waiting }
    | .waiting =>
      (m.act .waiter).map fun m' =>
        -- the lock is released at the end of the block
        if m'.room.waiter = .away then { m' with pc := .stopping } else m'
    | .stopping => some { m with pc := .cleaning }
    | .cleaning => some { m with pc := .returned 0 }
    | .returned _ | .terminated => none
  | .fail =>
    match m.pc with
    | .initializing => some { m with pc := .returned 1 }
    | .constructing => some { m with pc := .terminated }
    | _ => none
  | .signal i signum => if m.pc.installed signum then m.act (.call i signum) else none
  | .handler i => m.act (.thread i)
  | .spurious => m.act .spurious

/-- At the beginning of `main`. -/
def initial : MainState := {}

/-- When `main` goes to sleep, there has been no signal, or a handler that has set the flag has
still to notify. -/
def Prompt (m : MainState) : Label → Prop
  | .advance =>
    m.pc = .waiting → m.room.waiter = .dozing → m.room.data = true →
      ∃ i, owes (m.room.threads i).code = true
  | _ => True

/-- A request is lost: the flag is set, `main` is asleep, and no handler that has set it has still
to notify. -/
def Lost (m : MainState) : Prop := Condition.Lost shutdownClient m.room

variable {m m' : MainState} {l : Label}

theorem act_eq_some_iff {l : Condition.Label ℕ Signal} :
    m.act l = some m' ↔
      Condition.step shutdownClient m.room l = some m'.room ∧ m'.pc = m.pc := by
  rw [act, Option.map_eq_some_iff]
  constructor
  · rintro ⟨room, hstep, rfl⟩
    exact ⟨hstep, rfl⟩
  · rintro ⟨hstep, hpc⟩
    refine ⟨m'.room, hstep, ?_⟩
    rw [← hpc]

/-- What a step is on the flag, the mutex and the condition variable, if it is anything. -/
def roomLabel (m : MainState) : Label → Option (Condition.Label ℕ Signal)
  | .advance =>
    match m.pc with
    | .starting => some .enter
    | .waiting => some .waiter
    | _ => none
  | .fail => none
  | .signal i signum => some (.call i signum)
  | .handler i => some (.thread i)
  | .spurious => some .spurious

theorem room_step (h : m.step l = some m') :
    m.roomLabel l = none ∧ m'.room = m.room ∨
      ∃ l', m.roomLabel l = some l' ∧
        Condition.step shutdownClient m.room l' = some m'.room := by
  cases l with
  | advance =>
    rw [step] at h
    split at h
    case h_5 hpc =>
      obtain ⟨t, ht, rfl⟩ := Option.map_eq_some_iff.mp h
      exact .inr ⟨.enter, by rw [roomLabel, hpc], (act_eq_some_iff.mp ht).1⟩
    case h_6 hpc =>
      obtain ⟨t, ht, rfl⟩ := Option.map_eq_some_iff.mp h
      have hroom : (if t.room.waiter = .away then { t with pc := .stopping } else t).room =
          t.room := by split <;> rfl
      refine .inr ⟨.waiter, by rw [roomLabel, hpc], ?_⟩
      rw [hroom]
      exact (act_eq_some_iff.mp ht).1
    all_goals
      first
      | contradiction
      | obtain rfl := Option.some.inj h
        exact .inl ⟨by simp [roomLabel, *], rfl⟩
  | fail =>
    rw [step] at h
    split at h
    · obtain rfl := Option.some.inj h
      exact .inl ⟨rfl, rfl⟩
    · obtain rfl := Option.some.inj h
      exact .inl ⟨rfl, rfl⟩
    · cases h
  | signal i signum =>
    rw [step, Option.ite_none_right_eq_some] at h
    exact .inr ⟨_, rfl, (act_eq_some_iff.mp h.2).1⟩
  | handler i => exact .inr ⟨_, rfl, (act_eq_some_iff.mp h).1⟩
  | spurious => exact .inr ⟨_, rfl, (act_eq_some_iff.mp h).1⟩

theorem prompt_iff : Prompt m l ↔ ∀ l' ∈ m.roomLabel l, Honest shutdownClient m.room l' := by
  cases l with
  | advance =>
    by_cases hpc : m.pc = .waiting
    · simp [Prompt, roomLabel, hpc, Honest, shutdownClient]
    · refine iff_of_true (fun hwaiting => absurd hwaiting hpc) fun l' hl' => ?_
      rw [roomLabel] at hl'
      split at hl'
      · obtain rfl := Option.some.inj hl'
        trivial
      · contradiction
      · cases hl'
  | _ => simp [Prompt, roomLabel, Honest]

/-- The handler announces what it does. -/
theorem announced_call (signum : Signal) :
    Announced shutdownClient.ready (shutdownClient.call signum).code :=
  ⟨.inr rfl, trivial⟩

theorem calls_step (hm : m.room.Calls shutdownClient) (h : m.step l = some m') :
    m'.room.Calls shutdownClient := by
  rcases room_step h with ⟨-, hroom⟩ | ⟨l', -, hstep⟩
  · rw [hroom]
    exact hm
  · exact hm.step hstep

/-- **The condition is exact.** A request is lost by a step that breaks it, and only so. -/
theorem lost_step_iff (hm : m.room.Calls shutdownClient) (hnot : ¬ m.Lost)
    (h : m.step l = some m') : m'.Lost ↔ ¬ Prompt m l := by
  rw [prompt_iff]
  rcases room_step h with ⟨hl, hroom⟩ | ⟨l', hl, hstep⟩
  · rw [Lost, hroom]
    exact iff_of_false hnot (by simp [hl])
  · rw [Lost, Condition.lost_step_iff announced_call hm hnot hstep]
    simp [hl]

/-- **There is no way out** but another signal, or a wake-up for no reason. -/
theorem Lost.step (hm : m.Lost) (hidle : ∀ i, (m.room.threads i).code = [])
    (h : m.step l = some m') :
    m'.room = m.room ∨ l = .spurious ∨ ∃ i signum, l = .signal i signum := by
  rcases room_step h with ⟨-, hroom⟩ | ⟨l', hl, hstep⟩
  · exact .inl hroom
  · right
    have hout := Condition.Lost.step hm hidle hstep
    cases l with
    | spurious => exact .inl rfl
    | signal i signum => exact .inr ⟨i, signum, rfl⟩
    | handler i =>
      obtain rfl := Option.some.inj hl
      simp at hout
    | fail => cases hl
    | advance =>
      rw [roomLabel] at hl
      split at hl
      · obtain rfl := Option.some.inj hl
        simp at hout
      · obtain rfl := Option.some.inj hl
        simp at hout
      · cases hl

/-- **No shutdown request is lost.** In every run in which `main` does not go to sleep on a test
that is out of date: when the flag is set and `main` is asleep in the wait, some handler that has
set the flag has still to notify. -/
theorem wait_reaches (h : Reaches step Prompt initial m) :
    ¬ (m.room.data = true ∧ (∀ i, owes (m.room.threads i).code = false) ∧
      m.room.waiter = .asleep) := by
  have hinv : m.room.Calls shutdownClient ∧ ¬ m.Lost := by
    refine h.invariant (I := fun t => t.room.Calls shutdownClient ∧ ¬ t.Lost) ⟨?_, ?_⟩ ?_
    · intro i
      exact .inl rfl
    · rintro ⟨hasleep, -⟩
      cases hasleep
    · rintro t l t' ⟨ht, hnot⟩ hprompt hstep
      exact ⟨calls_step ht hstep, fun hlost => (lost_step_iff ht hnot hstep).mp hlost hprompt⟩
  rintro ⟨hrequested, howes, hasleep⟩
  exact hinv.2 ⟨hasleep, hrequested, howes⟩

/-! ### Two runs -/

/-- `main` goes to sleep before there is a signal, and the handler has still to notify. -/
def pendingLabels : List Label := List.replicate 8 .advance ++ [.signal 0 .sigterm, .handler 0]

theorem wait_reaches_pending :
    ∃ m, Reaches step Prompt initial m ∧ m.room.data = true ∧ m.room.waiter = .asleep ∧
      ∃ i, owes (m.room.threads i).code = true := by
  have hrun : ∃ m, runLabels step (fun m _ => ¬ (m.room.waiter = .dozing ∧ m.room.data = true))
      initial pendingLabels = some m ∧ m.room.data = true ∧ m.room.waiter = .asleep :=
    ⟨_, rfl, rfl, rfl⟩
  obtain ⟨m, hm, hrequested, hasleep⟩ := hrun
  have hreach : Reaches step Prompt initial m := by
    refine (Reaches.of_runLabels hm).mono fun t l hfresh => ?_
    cases l with
    | advance => exact fun _ hdozing hrequested => absurd ⟨hdozing, hrequested⟩ hfresh
    | _ => trivial
  refine ⟨m, hreach, hrequested, hasleep, ?_⟩
  by_contra hnone
  refine wait_reaches hreach ⟨hrequested, fun i => ?_, hasleep⟩
  exact Bool.eq_false_iff.mpr fun howes => hnone ⟨i, howes⟩

/-- The signal comes when `main` has found the flag unset, and the handler is done before `main` is
asleep. -/
def lateLabels : List Label :=
  List.replicate 7 .advance ++ [.signal 0 .sigterm, .handler 0, .handler 0, .advance]

/-- **A request that is lost.** -/
theorem wait_fails :
    ∃ m, Reaches step always initial m ∧ m.room.data = true ∧
      (∀ i, (m.room.threads i).code = []) ∧ m.room.waiter = .asleep := by
  have hrun : ∃ m, runLabels step always initial lateLabels = some m ∧ m.room.data = true ∧
      (∀ i, (m.room.threads i).code = []) ∧ m.room.waiter = .asleep := by
    refine ⟨_, rfl, rfl, fun i => ?_, rfl⟩
    cases i <;> rfl
  obtain ⟨m, hm, hlost⟩ := hrun
  exact ⟨m, .of_runLabels hm, hlost⟩

end MainState

end RobertMiddleware

import RobertMiddleware.Server.LockOwnership
import RobertMiddleware.Server.WorkQueue

/-!
# Exclusive control when a request is executed

`handle_robot_command` accepts a task only from the holder of the lock, but the robot gets the
request later, through two queues, and nobody looks at the lock again. So the lock may have changed
hands when the request is written. It has not when nobody takes the lock while another session's
tasks are still on their way.

## Main definitions

* `System.Controlled` — nobody holds the lock but the creators of unwritten tasks
* `System.TakesOver` — a step takes the free lock only when no other session's task is unwritten

## Main results

* `System.exclusive_reaches` — then a request is only written when no other session has the lock
* `System.exclusive_fails` — a run in which `bob` holds the lock and `alice`'s request is written
-/

namespace RobertMiddleware

open Effects Transition

namespace System

/-- Every unwritten task has one creator, and nobody else holds the lock. -/
def Controlled (s : System) : Prop :=
  ∀ id, s.Unwritten id →
    ∃ creator, s.shared.CreatedBy id creator ∧ s.shared.sessions.OnlyHolder creator

/-- If the step is an `acquire_lock` that finds the lock free, every task that is not written yet
was created by the session that takes it. -/
def TakesOver (s : System) (l : Label) : Prop :=
  match l, s.server with
  | .server (.call _), .serving _ (.call (.acquireLock token) _) =>
    s.shared.sessions.currentLock = none →
      ∀ e ∈ s.shared.history.created, s.Unwritten e.1 → e.2 = token
  | _, _ => True

instance (s : System) (l : Label) : Decidable (TakesOver s l) :=
  decidable_of_iff
    ((match l, s.server with
      | .server (.call _), .serving _ (.call (.acquireLock token) _) =>
        decide (s.shared.sessions.currentLock = none →
          ∀ e ∈ s.shared.history.created, s.Unwritten e.1 → e.2 = token)
      | _, _ => true) = true)
    (by
      unfold TakesOver
      split
      · exact decide_eq_true_iff
      · exact iff_of_true rfl trivial)

theorem onlyHolder_execCall {s : Shared} {op : ServerCall} (uuid : Bytes) {creator : Bytes}
    (hs : s.sessions.OnlyHolder creator)
    (hacquire : ∀ token, op = .acquireLock token → s.sessions.currentLock = none →
      token = creator) : (execCall uuid op s).2.sessions.OnlyHolder creator := by
  intro holder hholder
  cases op with
  | login username password =>
    simp only [execCall, SessionManager.login] at hholder
    split at hholder
    · exact hs holder hholder
    · split at hholder <;> exact hs holder hholder
  | touchSession token =>
    simp only [execCall, SessionManager.touchSession] at hholder
    split at hholder <;> exact hs holder hholder
  | acquireLock token =>
    simp only [execCall, SessionManager.acquireLock] at hholder
    split at hholder
    · exact hs holder hholder
    · rename_i hfree
      rw [← Option.some.inj hholder]
      exact hacquire token rfl hfree
  | releaseLock token =>
    simp only [execCall, SessionManager.currentLock_releaseLock] at hholder
    split at hholder
    · cases hholder
    · exact hs holder hholder
  | _ => exact hs holder hholder

theorem createdBy_execCall {s : Shared} {op : ServerCall} (uuid : Bytes) {id : TaskId}
    {creator : Bytes} (hs : s.CreatedBy id creator) (hsound : SoundCall op s) :
    (execCall uuid op s).2.CreatedBy id creator := by
  cases op with
  | emplaceTask new request token =>
    -- an id that has a creator is not new
    have hne : id ≠ new := by
      rintro rfl
      exact hsound.2.1 creator ((hs creator).mpr rfl)
    intro t
    rw [← hs t]
    simp [execCall, hne]
  | _ => exact hs

theorem controlled_step {P : Platform} {s s' : System} {l : Label} (hs : Controlled s)
    (hpromises : PromisesOk s) (hhandler : HandlerOk s) (htakes : TakesOver s l)
    (h : step P s l = some s') : Controlled s' := by
  intro id hid
  have hway := unwritten_step hpromises h hid
  rcases shared_step h with ⟨uuid, req, op, k, rfl, hpc, hshared⟩ | ⟨hcall, hinter⟩
  · rw [hshared]
    have hsound := hhandler.sound hpc
    rcases hway with hold | ⟨uuid', req', k', -, hpc'⟩
    · obtain ⟨creator, hcreated, honly⟩ := hs id hold
      refine ⟨creator, createdBy_execCall uuid hcreated hsound, onlyHolder_execCall uuid honly ?_⟩
      rintro token rfl hfree
      simp only [TakesOver, hpc] at htakes
      exact (htakes hfree (id, creator) ((hcreated creator).mpr rfl) hold).symm
    · rw [hpc] at hpc'
      cases hpc'
      exact hsound.2.2
  · have hold : s.Unwritten id := by
      refine hway.resolve_right ?_
      rintro ⟨uuid, -, -, hl, -⟩
      exact hcall uuid hl
    obtain ⟨creator, hcreated, honly⟩ := hs id hold
    refine ⟨creator, fun t => ?_, honly.of_interference hinter⟩
    rw [hinter.created]
    exact hcreated t

/-- **Exclusive control.** In every run in which the free lock is only taken by a session while
every task not yet written in full is its own, whenever bytes of a task's request are written to
the robot's socket, no session but the one whose request created the task holds the lock. -/
theorem exclusive_reaches {P : Platform} {users : List UserInfo} {s : System} {l : Label}
    {id : TaskId} (h : Reaches (step P) TakesOver (initial users) s) (hwrites : s.Writes l id) :
    ∃ creator, s.shared.CreatedBy id creator ∧ s.shared.sessions.OnlyHolder creator := by
  have hinv : Controlled s ∧ PromisesOk s ∧ HandlerOk s := by
    refine h.invariant (I := fun t => Controlled t ∧ PromisesOk t ∧ HandlerOk t) ?_ ?_
    · refine ⟨fun id hid => ?_, promisesOk_initial users, handlerOk_initial users⟩
      cases hid <;> contradiction
    · rintro t l t' ⟨hcontrolled, hpromises, hhandler⟩ htakes hstep
      exact ⟨controlled_step hcontrolled hpromises hhandler htakes hstep, hpromises.step hstep,
        hhandler.step hstep⟩
  exact hinv.1 id hwrites.unwritten

/-! ### Two runs -/

def robotRequest (cmdType : RapidCommandType) (token : String) : DecodedRequest where
  cmdType
  sessionToken := some (ascii token)

/-- The robot is connected. -/
def connectLabels : List Label :=
  [.robotWorker .advance, .robotWorker .advance, .robotWorker .connected]

/-- A queued task comes to the socket. -/
def executeLabels : List Label :=
  List.replicate 7 (.taskWorker .advance) ++ [.robotWorker .advance, .robotWorker .advance]

/-- `alice` acquires the lock and asks for the status of the robot. -/
def statusLabels : List Label :=
  acquireLabels ++ connectLabels ++ SessionManager.serve (robotRequest .getStatus "t") "u" 9

theorem exclusive_reaches_status :
    ∃ s, Reaches (step Platform.linux) TakesOver (initial SessionManager.aliceOnly) s ∧
      s.Writes (.robotWorker (.sent 188)) 1 ∧
      ∃ creator, s.shared.CreatedBy 1 creator ∧ s.shared.sessions.OnlyHolder creator := by
  have hrun : ∃ s, runLabels (step Platform.linux) TakesOver (initial SessionManager.aliceOnly)
      (statusLabels ++ executeLabels) = some s ∧ s.Writes (.robotWorker (.sent 188)) 1 :=
    ⟨_, rfl, 188, _, 0, 0, rfl, rfl, rfl, by decide⟩
  obtain ⟨s, hs, hwrites⟩ := hrun
  exact ⟨s, .of_runLabels hs, hwrites, exclusive_reaches (.of_runLabels hs) hwrites⟩

def releaseRequest (token : String) : DecodedRequest where
  cmdType := .release
  sessionToken := some (ascii token)

/-- The configuration of the second run. -/
def aliceAndBob : List UserInfo :=
  [⟨ascii "alice", ascii "secret"⟩, ⟨ascii "bob", ascii "hidden"⟩]

/-- After her request is accepted `alice` releases the lock, `bob` acquires it, and then the
request comes to the socket. -/
def handoverLabels : List Label :=
  statusLabels ++ SessionManager.serve (releaseRequest "t") "u" 5 ++
    SessionManager.serve (SessionManager.loginRequest "bob" "hidden") "b" 2 ++
    SessionManager.serve (acquireRequest "b") "u" 5 ++ executeLabels

/-- **Somebody else's robot.** The request of the task that `t` created is written while `b` holds
the lock. -/
theorem exclusive_fails :
    ∃ s, Reaches (step Platform.linux) always (initial aliceAndBob) s ∧
      s.Writes (.robotWorker (.sent 188)) 1 ∧ s.shared.CreatedBy 1 (ascii "t") ∧
      s.shared.sessions.currentLock = some (ascii "b") ∧
      ¬ ∃ creator, s.shared.CreatedBy 1 creator ∧ s.shared.sessions.OnlyHolder creator := by
  have hrun : ∃ s, runLabels (step Platform.linux) always (initial aliceAndBob)
      handoverLabels = some s ∧ s.Writes (.robotWorker (.sent 188)) 1 ∧
      s.shared.history.created = [(1, ascii "t")] ∧
      s.shared.sessions.currentLock = some (ascii "b") :=
    ⟨_, rfl, ⟨188, _, 0, 0, rfl, rfl, rfl, by decide⟩, by decide, by decide⟩
  obtain ⟨s, hs, hwrites, hcreated, hlock⟩ := hrun
  have hby : s.shared.CreatedBy 1 (ascii "t") := fun t => by simp [hcreated]
  refine ⟨s, .of_runLabels hs, hwrites, hby, hlock, ?_⟩
  rintro ⟨creator, hcreator, honly⟩
  obtain rfl := (hby creator).mp ((hcreator creator).mpr rfl)
  exact absurd (honly _ hlock) (by decide)

end System

end RobertMiddleware

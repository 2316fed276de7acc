import Mathlib.Data.List.Nodup
import RobertMiddleware.Internal.Transition
import RobertMiddleware.Robot.Promises

/-!
# Sessions of the robot connection

`start_session` and `stop_session` called by one thread, `queue_request` by another, and the worker
thread between them. The worker leaves its loop as soon as it sees that the session has ended, with
whatever is in the queue left there, and `queue_request` tests `running_` long before it pushes.
What is left in the queue is found by the worker of the next session.

`stop_session` keeps its promise in the runs in which neither happens. The condition is about the
steps that leave items to nobody; it is exact, since inside `stop_session` nobody else takes items
from the queue.

## Main definitions

* `RobotSessions.step` — the two callers and the worker thread
* `RobotSessions.Abandoned` — there are items in the queue, and no worker inside `stop_session`
* `RobotSessions.Drained` — a step does not leave items to nobody
* `Robot.Accounted` — every promise made is outstanding or has one value

## Main results

* `RobotSessions.step_move` — the five kinds of step
* `RobotSessions.abandoned_step_iff`, `Abandoned.step` — the condition is exact
* `RobotSessions.stop_reaches` — what holds when `stop_session` returns
* `RobotSessions.stop_fails` — a request of the last session, written in the next
-/

namespace RobertMiddleware

open Transition

/-! ### Promises made and values set -/

/-- Every promise made so far is outstanding, or has a value, and only one. -/
def Robot.Accounted (r : Robot) : Prop :=
  (r.responses.map Prod.fst ++ r.outstanding).Perm (List.range r.nextPromise)

namespace Robot

variable {r r' : Robot}

theorem Accounted.of_outstanding (hr : r.Accounted) (hout : r'.outstanding = r.outstanding)
    (hnext : r'.nextPromise = r.nextPromise) (hresponses : r'.responses = r.responses) :
    r'.Accounted := by
  rw [Accounted, hout, hnext, hresponses]
  exact hr

theorem Accounted.answer {item : RobotWorkItem} {value : Bytes} (hr : r.Accounted)
    (hqueue : r'.requestQueue = r.requestQueue) (hnext : r'.nextPromise = r.nextPromise)
    (hresponses : r'.responses = (r.setValue item value).responses)
    (hworker : r.worker.item = some item) (hworker' : r'.worker.item = none) : r'.Accounted := by
  have hout := outstanding_of_item_some hworker
  have hout' := outstanding_of_item_none hworker'
  rw [hqueue] at hout'
  cases hp : item.responsePromise with
  | none =>
    rw [hp] at hout
    exact hr.of_outstanding (hout'.trans hout.symm) hnext (by simp [hresponses, setValue, hp])
  | some p =>
    rw [hp] at hout
    have happ : r'.responses = r.responses ++ [(p, value)] := by simp [hresponses, setValue, hp]
    have hmoved : r'.responses.map Prod.fst ++ r'.outstanding =
        r.responses.map Prod.fst ++ r.outstanding := by
      rw [happ, hout, hout', List.map_append, List.append_assoc]
      rfl
    rw [Accounted, hmoved, hnext]
    exact hr

theorem Accounted.workerStep {e : WorkerEvent} (hr : r.Accounted)
    (h : r.workerStep e = some r') : r'.Accounted := by
  cases workerStep_effect h with
  | keep hqueue hnext hresponses hitem _ =>
    refine hr.of_outstanding ?_ hnext hresponses
    rw [outstanding, outstanding, items, items, hitem, hqueue]
  | take item hqueue hnext hresponses hworker hworker' =>
    refine hr.of_outstanding ?_ hnext hresponses
    rw [outstanding_of_item_none hworker, outstanding, items, hworker', hqueue]
    rfl
  | beat item hqueue hnext hresponses hworker hworker' hbeat =>
    refine hr.of_outstanding ?_ hnext hresponses
    have hhand : r'.worker.item = some item := by rw [hworker']; rfl
    rw [outstanding_of_item_none hworker, outstanding_of_item_some hhand, hbeat, hqueue]
    rfl
  | answer item value hqueue hnext hresponses hworker hworker' =>
    exact hr.answer hqueue hnext hresponses hworker hworker'

theorem Accounted.pushRequest (hr : r.Accounted) (request : RapidRequest) :
    (r.pushRequest request).2.Accounted := by
  have hout : (r.pushRequest request).2.outstanding = r.outstanding ++ [r.nextPromise] := by
    simp [Robot.pushRequest, outstanding, items]
  rw [Accounted, hout, ← List.append_assoc]
  change List.Perm _ (List.range (r.nextPromise + 1))
  rw [List.range_succ]
  exact hr.append_right _

theorem Accounted.quiet (hr : r.Accounted) (h : r.Quiet r')
    (hitem : r'.worker.item = r.worker.item) : r'.Accounted := by
  refine hr.of_outstanding ?_ h.nextPromise h.responses
  rw [outstanding, outstanding, items, items, hitem, h.requestQueue]

/-- When nothing is outstanding, every promise has one value. -/
theorem Accounted.count_eq_one (hr : r.Accounted) (hout : r.outstanding = []) {p : ℕ}
    (hp : p < r.nextPromise) : (r.responses.map Prod.fst).count p = 1 := by
  rw [Accounted, hout, List.append_nil] at hr
  rw [hr.count_eq]
  exact List.count_eq_one_of_mem List.nodup_range (List.mem_range.mpr hp)

/-- The worker thread leaves its loop in two places, when the session has ended. -/
theorem stopped_workerStep {e : WorkerEvent} (h : r.workerStep e = some r')
    (hstopped : r'.worker = .stopped) :
    e = .advance ∧ (r.worker = .loopTest ∨ r.worker = .queueWait) ∧ r.running = false ∧
      r'.requestQueue = r.requestQueue := by
  revert h
  fun_cases workerStep r e
  all_goals intro h
  all_goals try contradiction
  all_goals obtain rfl := Option.some.inj h
  case case1 hpc =>
    refine ⟨rfl, .inl hpc, ?_, rfl⟩
    by_contra hrunning
    rw [Bool.not_eq_false] at hrunning
    simp [hrunning] at hstopped
  case case8 hpc hended => exact ⟨rfl, .inr hpc, Bool.eq_false_iff.mpr hended, rfl⟩
  all_goals
    first
    | cases hstopped
    | dsimp only at hstopped
      split at hstopped <;> cases hstopped

/-- What happens at the end of the loop. -/
theorem workerStep_exit (hpc : r.worker = .loopTest ∨ r.worker = .queueWait)
    (hended : r.running = false) : r.workerStep .advance = some { r with worker := .stopped } := by
  rcases hpc with hpc | hpc <;> rw [workerStep, hpc, hended] <;> rfl

theorem workerStep_stopped (hpc : r.worker = .stopped) (e : WorkerEvent) :
    r.workerStep e = none := by
  cases e <;> simp [workerStep, hpc]

end Robot

/-! ### The two callers -/

structure RobotSessions where
  robot : Robot := {}
  /-- The owner is in `stop_session`, joining the worker thread. -/
  stopping : Bool := false
  /-- The other thread is in `queue_request`, after its test of `running_`. -/
  pushing : Option RapidRequest := none

namespace RobotSessions

inductive Label
  /-- The owner calls `start_session`. -/
  | start
  /-- The owner calls `stop_session`, which clears `running_`. -/
  | stop
  /-- The worker thread is joined, and `stop_session` returns. -/
  | join
  /-- The other thread calls `queue_request`. -/
  | queue (request : RapidRequest)
  /-- `queue_request` pushes the item and returns the future. -/
  | push
  | worker (e : WorkerEvent)

/-- One step of one of the threads. A call of `queue_request` without a session throws. -/
def step (s : RobotSessions) : Label → Option RobotSessions
  | .start => if s.stopping then none else some { s with robot := s.robot.startSession }
  | .stop =>
    if s.stopping then none else some { s with robot := s.robot.clearRunning, stopping := true }
  | .join =>
    if s.stopping ∧ s.robot.worker = .stopped then
      some { s with robot := s.robot.closeSession, stopping := false }
    else none
  | .queue request =>
    match s.pushing with
    | some _ => none
    | none => some (if s.robot.running then { s with pushing := some request } else s)
  | .push =>
    match s.pushing with
    | some request => some { s with robot := (s.robot.pushRequest request).2, pushing := none }
    | none => none
  | .worker e => (s.robot.workerStep e).map fun robot => { s with robot }

/-- The request that is queued. -/
def pushEvents (s : RobotSessions) : Label → List RapidRequest
  | .push => s.pushing.toList
  | _ => []

/-- After the constructor of `Robot`. -/
def initial : RobotSessions := {}

/-- In `stop_session` there is no worker thread any more, but there are items in the queue. -/
def Abandoned (s : RobotSessions) : Prop :=
  s.stopping = true ∧ s.robot.worker = .stopped ∧ s.robot.requestQueue ≠ []

/-- The worker thread leaves its loop with an empty queue; `queue_request` does not push to the
queue of a worker that has left, before `stop_session` has returned; and `stop_session` is not
called for a queue without a worker. -/
def Drained (s : RobotSessions) : Label → Prop
  | .worker .advance =>
    s.robot.worker = .loopTest ∨ s.robot.worker = .queueWait → s.robot.running = false →
      s.robot.requestQueue = []
  | .push => s.stopping = true → s.robot.worker ≠ .stopped
  | .stop => s.robot.worker = .stopped → s.robot.requestQueue = []
  | _ => True

instance (s : RobotSessions) : ∀ l, Decidable (Drained s l)
  | .worker .advance => inferInstanceAs (Decidable (_ → _ → _))
  | .push => inferInstanceAs (Decidable (_ → _))
  | .stop => inferInstanceAs (Decidable (_ → _))
  | .start | .join | .queue _ => .isTrue trivial
  | .worker .connected | .worker .connectFailed | .worker (.heartbeat _) | .worker (.sent _)
  | .worker .sendFailed | .worker (.received _) | .worker .receiveFailed => .isTrue trivial

/-! ### What a step can do -/

/-- The steps, with what they need. -/
inductive Move (s : RobotSessions) : Label → RobotSessions → Prop
  | start (hidle : ¬ s.stopping = true) : Move s .start { s with robot := s.robot.startSession }
  | stop (hidle : ¬ s.stopping = true) :
      Move s .stop { s with robot := s.robot.clearRunning, stopping := true }
  | join (hstopping : s.stopping = true) (hstopped : s.robot.worker = .stopped) :
      Move s .join { s with robot := s.robot.closeSession, stopping := false }
  | accept (request : RapidRequest) : Move s (.queue request) { s with pushing := some request }
  | refuse (request : RapidRequest) : Move s (.queue request) s
  | push (request : RapidRequest) :
      Move s .push { s with robot := (s.robot.pushRequest request).2, pushing := none }
  | worker (e : WorkerEvent) (r : Robot) (hmove : s.robot.workerStep e = some r) :
      Move s (.worker e) { s with robot := r }

theorem step_move {s s' : RobotSessions} {l : Label} (h : s.step l = some s') : s.Move l s' := by
  cases l with
  | start =>
    rw [step, Option.ite_none_left_eq_some] at h
    obtain rfl := Option.some.inj h.2
    exact .start h.1
  | stop =>
    rw [step, Option.ite_none_left_eq_some] at h
    obtain rfl := Option.some.inj h.2
    exact .stop h.1
  | join =>
    rw [step, Option.ite_none_right_eq_some] at h
    obtain rfl := Option.some.inj h.2
    exact .join h.1.1 h.1.2
  | queue request =>
    rw [step] at h
    split at h
    · cases h
    · obtain rfl := Option.some.inj h
      split
      · exact .accept request
      · exact .refuse request
  | push =>
    rw [step] at h
    split at h
    · obtain rfl := Option.some.inj h
      exact .push _
    · cases h
  | worker e =>
    obtain ⟨r, hmove, rfl⟩ := Option.map_eq_some_iff.mp h
    exact .worker e r hmove

/-- Without a session there is no worker thread, but for the one that is being joined. -/
structure Ok (s : RobotSessions) : Prop where
  accounted : s.robot.Accounted
  worker : s.robot.running = false → s.stopping = false → s.robot.worker = .stopped
  ended : s.stopping = true → s.robot.running = false

theorem ok_initial : initial.Ok where
  accounted := List.Perm.refl _
  worker _ _ := rfl
  ended := nofun

variable {s s' : RobotSessions} {l : Label}

theorem Ok.step (hs : s.Ok) (h : s.step l = some s') : s'.Ok := by
  cases step_move h with
  | start hidle =>
    by_cases hrunning : s.robot.running = true
    · rw [Robot.startSession, if_pos hrunning]
      exact hs
    · have hstopped := hs.worker (Bool.eq_false_iff.mpr hrunning) (Bool.eq_false_iff.mpr hidle)
      rw [Robot.startSession, if_neg hrunning]
      refine ⟨hs.accounted.of_outstanding ?_ rfl rfl, (fun hended => by cases hended),
        fun hended => absurd hended hidle⟩
      rw [Robot.outstanding, Robot.outstanding, Robot.items, Robot.items, hstopped]
      rfl
  | stop => exact ⟨hs.accounted.quiet (.clearRunning _) rfl, (fun _ h => by cases h), fun _ => rfl⟩
  | join _ hstopped =>
    exact ⟨hs.accounted.quiet (.closeSession _) rfl, fun _ _ => hstopped, fun h => by cases h⟩
  | accept => exact ⟨hs.accounted, hs.worker, hs.ended⟩
  | refuse => exact hs
  | push => exact ⟨hs.accounted.pushRequest _, hs.worker, hs.ended⟩
  | worker e r hmove =>
    have hrunning := Robot.running_workerStep hmove
    refine ⟨hs.accounted.workerStep hmove, fun hended hidle => ?_,
      fun hended => hrunning.trans (hs.ended hended)⟩
    have hstopped := hs.worker (hrunning.symm.trans hended) hidle
    rw [Robot.workerStep_stopped hstopped] at hmove
    cases hmove

/-- **The condition is exact.** A step of a thread leaves items to nobody when it breaks the
condition, and only then. -/
theorem abandoned_step_iff (hs : s.Ok) (hnot : ¬ s.Abandoned) (h : s.step l = some s') :
    s'.Abandoned ↔ ¬ s.Drained l := by
  cases step_move h with
  | start hidle => exact iff_of_false (fun hleft => hidle hleft.1) (not_not_intro trivial)
  | stop => simp [Abandoned, Drained, Robot.clearRunning]
  | join => exact iff_of_false (fun hleft => Bool.noConfusion hleft.1) (not_not_intro trivial)
  | accept => exact iff_of_false hnot (not_not_intro trivial)
  | refuse => exact iff_of_false hnot (not_not_intro trivial)
  | push => simp [Abandoned, Drained, Robot.pushRequest]
  | worker e r hmove =>
    constructor
    · rintro ⟨hstopping, hstopped, hleft⟩ hdrained
      obtain ⟨rfl, hpc, hended, hqueue⟩ := Robot.stopped_workerStep hmove hstopped
      exact hleft (hqueue.trans (hdrained hpc hended))
    · intro hleaves
      cases e with
      | advance =>
        obtain ⟨hpc, hleaves⟩ := Classical.not_imp.mp hleaves
        obtain ⟨hended, hleft⟩ := Classical.not_imp.mp hleaves
        rw [Robot.workerStep_exit hpc hended] at hmove
        obtain rfl := Option.some.inj hmove
        refine ⟨?_, rfl, hleft⟩
        by_contra hidle
        rw [hs.worker hended (Bool.eq_false_iff.mpr hidle)] at hpc
        rcases hpc with hpc | hpc <;> cases hpc
      | _ => exact absurd trivial hleaves

/-- **There is no way out.** Nobody takes the items before `stop_session` returns. -/
theorem Abandoned.step (hs : s.Abandoned) (h : s.step l = some s') :
    s'.Abandoned ∨ l = .join ∧ s'.robot.requestQueue ≠ [] := by
  obtain ⟨hstopping, hstopped, hleft⟩ := hs
  cases step_move h with
  | start hidle => exact absurd hstopping hidle
  | stop hidle => exact absurd hstopping hidle
  | join => exact .inr ⟨rfl, hleft⟩
  | accept => exact .inl ⟨hstopping, hstopped, hleft⟩
  | refuse => exact .inl ⟨hstopping, hstopped, hleft⟩
  | push => exact .inl ⟨hstopping, hstopped, List.append_ne_nil_of_left_ne_nil hleft _⟩
  | worker e r hmove =>
    rw [Robot.workerStep_stopped hstopped] at hmove
    cases hmove

theorem nextPromise_step (h : s.step l = some s') :
    s.robot.nextPromise ≤ s'.robot.nextPromise := by
  cases step_move h with
  | start => exact (Robot.Quiet.startSession _).nextPromise.ge
  | push => exact Nat.le_succ _
  | worker _ _ hmove => exact (Robot.nextPromise_workerStep hmove).ge
  | _ => exact le_refl _

/-- Only the request of a new promise becomes unsent. -/
theorem unsent_step (h : s.step l = some s') {p : ℕ} (hp : s'.robot.Unsent p) :
    s.robot.Unsent p ∨ s.robot.nextPromise ≤ p := by
  cases step_move h with
  | start => exact .inl ((Robot.Quiet.startSession _).unsent hp)
  | stop => exact .inl ((Robot.Quiet.clearRunning _).unsent hp)
  | join => exact .inl ((Robot.Quiet.closeSession _).unsent hp)
  | accept => exact .inl hp
  | refuse => exact .inl hp
  | push => exact (Robot.unsent_pushRequest hp).imp_right fun heq => heq.ge
  | worker _ _ hmove => exact .inl (Robot.unsent_workerStep hmove hp)

/-- What is not unsent now was made later if it is unsent ever after. -/
theorem not_unsent_reaches (h : Reaches step always s s')
    (hs : ∀ p < s.robot.nextPromise, ¬ s.robot.Unsent p) :
    ∀ p < s.robot.nextPromise, ¬ s'.robot.Unsent p := by
  refine (h.invariant (I := fun t => s.robot.nextPromise ≤ t.robot.nextPromise ∧
    ∀ p < s.robot.nextPromise, ¬ t.robot.Unsent p) ⟨le_refl _, hs⟩ ?_).2
  rintro t l t' ⟨hnext, ht⟩ - hstep
  refine ⟨hnext.trans (nextPromise_step hstep), fun p hp hunsent => ?_⟩
  rcases unsent_step hstep hunsent with hbefore | hlater
  · exact ht p hp hbefore
  · exact absurd (hp.trans_le hnext) hlater.not_gt

/-! ### What `stop_session` leaves -/

theorem ok_reaches (h : Reaches step Drained initial s) : s.Ok ∧ ¬ s.Abandoned :=
  h.invariant (I := fun t => t.Ok ∧ ¬ t.Abandoned) ⟨ok_initial, fun hleft => hleft.2.2 rfl⟩
    fun _ _ _ ⟨ht, hnot⟩ hdrained hstep =>
      ⟨ht.step hstep, fun hleft => (abandoned_step_iff ht hnot hstep).mp hleft hdrained⟩

/-- **`stop_session` leaves nothing behind.** In every run in which no step leaves items to nobody,
when `stop_session` returns the queue is empty, every promise whose future was handed out has one
value, and in whatever happens afterwards none of their requests is written. -/
theorem stop_reaches (h : Reaches step Drained initial s) (hjoin : s.step .join = some s') :
    s'.robot.requestQueue = [] ∧
      (∀ p < s'.robot.nextPromise, (s'.robot.responses.map Prod.fst).count p = 1) ∧
      ∀ t, Reaches step always s' t → ∀ p < s'.robot.nextPromise, ¬ t.robot.Unsent p := by
  obtain ⟨hs, hnot⟩ := ok_reaches h
  have hs' := hs.step hjoin
  rw [step, Option.ite_none_right_eq_some] at hjoin
  obtain ⟨⟨hstopping, hstopped⟩, hjoin⟩ := hjoin
  obtain rfl := Option.some.inj hjoin
  have hempty : s.robot.requestQueue = [] := by
    by_contra hleft
    exact hnot ⟨hstopping, hstopped, hleft⟩
  have hout : s.robot.closeSession.outstanding = [] := by
    rw [Robot.outstanding_of_item_none (by rw [Robot.closeSession, hstopped]; rfl)]
    exact congrArg (List.filterMap RobotWorkItem.responsePromise) hempty
  refine ⟨hempty, fun p hp => hs'.accounted.count_eq_one hout hp, fun t ht => ?_⟩
  refine not_unsent_reaches ht fun p _ hunsent => ?_
  have hmem := hunsent.mem_outstanding
  rw [hout] at hmem
  exact absurd hmem List.not_mem_nil

/-! ### Two runs -/

/-- A session is started and the robot is there. -/
def connectLabels : List Label :=
  [.start, .worker .advance, .worker .advance, .worker .connected]

/-- A request is queued, and answered before the session is stopped. -/
def answeredLabels : List Label :=
  connectLabels ++ [.queue .zero, .push, .worker .advance, .worker .advance, .worker (.sent 188),
    .worker (.received (ascii "ACK")), .worker .advance, .stop, .worker .advance]

set_option maxRecDepth 2000 in
theorem stop_reaches_answered :
    ∃ s s', Reaches step Drained initial s ∧ step s .join = some s' ∧
      s'.robot.nextPromise = 1 ∧ s'.robot.requestQueue = [] ∧
      (s'.robot.responses.map Prod.fst).count 0 = 1 := by
  have hrun : ∃ s s', runLabels step Drained initial answeredLabels = some s ∧
      step s .join = some s' ∧ s'.robot.nextPromise = 1 := ⟨_, _, rfl, rfl, rfl⟩
  obtain ⟨s, s', hs, hjoin, hnext⟩ := hrun
  obtain ⟨hempty, hcount, -⟩ := stop_reaches (.of_runLabels hs) hjoin
  exact ⟨s, s', .of_runLabels hs, hjoin, hnext, hempty, hcount 0 (hnext ▸ Nat.zero_lt_one)⟩

/-- A request is queued before the worker thread looks at its queue, and the session is stopped. -/
def abandonedLabels : List Label := [.start, .queue .zero, .push, .stop, .worker .advance]

/-- **A request of the last session.** `stop_session` returns, the promise has no value, and the
worker thread of the next session takes the request to the socket. -/
theorem stop_fails :
    ∃ s s' t item, Reaches step always initial s ∧ step s .join = some s' ∧
      0 < s'.robot.nextPromise ∧ s'.robot.requestQueue ≠ [] ∧ s'.robot.future 0 = none ∧
      Reaches step always s' t ∧ t.robot.worker = .sending item 0 ∧
      item.responsePromise = some 0 := by
  have hrun : ∃ s s' t item, runLabels step always initial abandonedLabels = some s ∧
      step s .join = some s' ∧ 0 < s'.robot.nextPromise ∧ s'.robot.requestQueue ≠ [] ∧
      s'.robot.future 0 = none ∧
      runLabels step always s' (connectLabels ++ [.worker .advance, .worker .advance]) = some t ∧
      t.robot.worker = .sending item 0 ∧ item.responsePromise = some 0 :=
    ⟨_, _, _, _, rfl, rfl, by decide, by decide, by decide, rfl, rfl, rfl⟩
  obtain ⟨s, s', t, item, hs, hjoin, hnext, hleft, hnone, ht, hworker, hpromise⟩ := hrun
  exact ⟨s, s', t, item, .of_runLabels hs, hjoin, hnext, hleft, hnone, .of_runLabels ht, hworker,
    hpromise⟩

end RobotSessions

end RobertMiddleware

import Mathlib.Data.List.TakeWhile
import RobertMiddleware.Server.TaskChange

/-!
# The record of polling

A client learns what became of its task by asking again and again. This file says what an answer
tells about a task, and reads the answers about one task off the record of a run: those that came
after the task was accepted. The record also holds what the checks of a request showed, its token
and the lock, and what the request saw of the task. They are read off the shared objects, not off
what the handler makes of them.

## Main definitions

* `pollRank` — how far a task had come, as far as an answer tells
* `Reports` — an answer reports an outcome
* `polls` — the answers about a task
* `authorized` — the request in service has passed its checks
-/

namespace RobertMiddleware

open Effects Transition

/-! ### Answers -/

/-- How far the task had come, in phases; `none` if the request was refused. -/
def pollRank (response : ServerResponse) : Option ℕ :=
  match response.taskStatus with
  | some .taskPending => some 0
  | some .taskInProgress => some 1
  | some .taskCompleted | some .taskFailed => some 2
  | none => if response = errorResponse "Task ID not found in registry" then some 3 else none

/-- How far a task has come at least, after an answer: one that was reported at its end is gone. -/
def rankAfter (r : ℕ) : ℕ := if r = 2 then 3 else r

/-- The answers a client gets without token or lock. -/
def Refused (response : ServerResponse) : Prop :=
  response = errorResponse "Invalid token" ∨ response = errorResponse "Hardware lock not acquired"

/-- The answer reports how a task with this request ended. -/
structure Reports (P : Platform) (request : RapidRequest) (o : Outcome)
    (response : ServerResponse) : Prop where
  failed : o.state = .failed →
    response.status = some .success ∧ response.taskStatus = some .taskFailed ∧
      response.errorMessage = o.response
  completed : o.state = .completed → response.taskStatus = some .taskCompleted
  text : o.state = .completed → request.commandId ≠ RapidCommandType.getStatus.toUInt8 →
    response.status = some .success ∧ response.textPayload = o.response
  decoded : o.state = .completed → request.commandId = RapidCommandType.getStatus.toUInt8 →
    (Decoder.unpack P o.response {}).1 = true →
      response.status = some .success ∧
        response.robotStatus = some (Decoder.unpack P o.response {}).2
  undecodable : o.state = .completed → request.commandId = RapidCommandType.getStatus.toUInt8 →
    (Decoder.unpack P o.response {}).1 = false →
      response.status = some .error ∧
        response.errorMessage = ascii "Failed to unpack telemetry payload"

namespace RequestHandler

theorem taskStatus_completedResponse (P : Platform) (task : Task) :
    (completedResponse P task).taskStatus = some .taskCompleted := by
  unfold completedResponse
  split
  · split <;> rfl
  · rfl

theorem pollRank_completedResponse (P : Platform) (task : Task) :
    pollRank (completedResponse P task) = some 2 := by
  rw [pollRank, taskStatus_completedResponse]

theorem pollRank_failedResponse (task : Task) : pollRank (failedResponse task) = some 2 := rfl

theorem reports_completedResponse (P : Platform) {task : Task} {o : Outcome}
    (hstate : o.state = task.state) (hresponse : o.response = task.response)
    (hcompleted : task.state = .completed) :
    Reports P task.request o (completedResponse P task) := by
  refine ⟨fun hfailed => ?_, fun _ => taskStatus_completedResponse P task, fun _ hcommand => ?_,
    fun _ hcommand hok => ?_, fun _ hcommand hok => ?_⟩
  · rw [hstate, hcompleted] at hfailed
    cases hfailed
  · rw [completedResponse, if_neg hcommand, hresponse]
    exact ⟨rfl, rfl⟩
  · rw [hresponse] at hok ⊢
    rw [completedResponse, if_pos hcommand]
    generalize Decoder.unpack P task.response {} = unpacked at hok ⊢
    obtain ⟨_, status⟩ := unpacked
    obtain rfl : _ = true := hok
    exact ⟨rfl, rfl⟩
  · rw [hresponse] at hok
    rw [completedResponse, if_pos hcommand]
    generalize Decoder.unpack P task.response {} = unpacked at hok ⊢
    obtain ⟨_, status⟩ := unpacked
    obtain rfl : _ = false := hok
    exact ⟨rfl, rfl⟩

theorem reports_failedResponse (P : Platform) {task : Task} {o : Outcome}
    (hstate : o.state = task.state) (hresponse : o.response = task.response)
    (hfailed : task.state = .failed) : Reports P task.request o (failedResponse task) := by
  have hcompleted : o.state ≠ .completed := by
    rw [hstate, hfailed]
    decide
  refine ⟨fun hstate' => ?_, fun h => absurd h hcompleted, fun h => absurd h hcompleted,
    fun h => absurd h hcompleted, fun h => absurd h hcompleted⟩
  have hreason : task.response ≠ [] := hresponse ▸ o.reason hstate'
  refine ⟨rfl, rfl, ?_⟩
  rw [hresponse, failedResponse, if_neg (by simpa using hreason)]

end RequestHandler

/-! ### The record -/

inductive PollEvent
  /-- The task is inserted in the map. -/
  | accepted (id : TaskId) (request : RapidRequest)
  /-- The task worker records how the task ended. -/
  | recorded (id : TaskId) (outcome : Outcome) (time : ℤ)
  /-- A `CHECK_TASK` request for the task is answered. -/
  | replied (id : TaskId) (response : ServerResponse)
  /-- The token of a request is checked. -/
  | token (valid : Bool)
  /-- It is checked that the token of a request holds the lock. -/
  | lock (held : Bool)
  /-- A request looks for the task, and sees this. -/
  | looked (id : TaskId) (copy : Option Task) (time : ℤ)

namespace PollEvent

def accepts (id : TaskId) : PollEvent → Bool
  | .accepted id' _ => id' = id
  | _ => false

def reply? (id : TaskId) : PollEvent → Option ServerResponse
  | .replied id' response => if id' = id then some response else none
  | _ => none

def recordedId? : PollEvent → Option TaskId
  | .recorded id _ _ => some id
  | _ => none

/-- What the checks have shown after an event: that the token is valid, and that it holds the lock.
The check of the token is the first. -/
def checks : Bool × Bool → PollEvent → Bool × Bool
  | _, .token valid => (valid, false)
  | c, .lock held => (c.1, held)
  | c, _ => c

end PollEvent

def pollObserver : Observer PollEvent where
  call req op a _ :=
    match op with
    | .emplaceTask id request _ => [.accepted id request]
    | .isValidToken _ => [.token (a.sessions.isValidToken req.token)]
    | .hasLock _ => [.lock (a.sessions.hasLock req.token)]
    | .getTask id => [.looked id (a.tasker.getTask id) a.now]
    | _ => []
  reply req response :=
    match req.cmdType, req.taskId with
    | .checkTask, some id => [.replied id response]
    | _, _ => []
  other s l := (s.recorded? l).toList.map fun e => .recorded e.1 e.2 s.shared.now

/-- The answers about the task `id` since it was accepted. -/
def polls (id : TaskId) (log : List PollEvent) : List ServerResponse :=
  (log.dropWhile fun e => !e.accepts id).filterMap (PollEvent.reply? id)

/-- What the checks of the request in service have shown so far. -/
def checked (log : List PollEvent) : Bool × Bool := log.foldl PollEvent.checks (false, false)

/-- The token of the request in service was valid, and held the lock, when they were checked. -/
def authorized (log : List PollEvent) : Bool := (checked log).1 && (checked log).2

/-- Between the two records only outcomes were recorded. -/
def Extends (log log' : List PollEvent) : Prop :=
  ∃ es, log' = log ++ es ∧ ∀ e ∈ es, e.recordedId?.isSome

section Polls

variable {id : TaskId} {log log' log'' es : List PollEvent}

theorem dropWhile_of_not_accepted (h : ∀ e ∈ log, e.accepts id = false) :
    (log.dropWhile fun e => !e.accepts id) = [] := by
  rw [List.dropWhile_eq_nil_iff]
  intro e he
  rw [h e he]
  rfl

theorem polls_of_not_accepted (h : ∀ e ∈ log, e.accepts id = false) : polls id log = [] := by
  rw [polls, dropWhile_of_not_accepted h, List.filterMap_nil]

theorem polls_append_of_accepted (h : ∃ e ∈ log, e.accepts id = true) :
    polls id (log ++ es) = polls id log ++ es.filterMap (PollEvent.reply? id) := by
  have hdrop : log.dropWhile (fun e => !e.accepts id) ≠ [] := by
    rw [Ne, List.dropWhile_eq_nil_iff]
    intro hall
    obtain ⟨e, he, haccepts⟩ := h
    have hnot := hall e he
    rw [haccepts] at hnot
    cases hnot
  rw [polls, polls, List.dropWhile_append, if_neg (by simpa using hdrop), List.filterMap_append]

theorem polls_append_quiet (hes : ∀ e ∈ es, e.reply? id = none) :
    polls id (log ++ es) = polls id log := by
  have hnone : es.filterMap (PollEvent.reply? id) = [] := List.filterMap_eq_nil_iff.mpr hes
  by_cases h : ∃ e ∈ log, e.accepts id = true
  · rw [polls_append_of_accepted h, hnone, List.append_nil]
  · have hnot : ∀ e ∈ log, e.accepts id = false := by simpa using h
    rw [polls_of_not_accepted hnot, polls, List.dropWhile_append, dropWhile_of_not_accepted hnot,
      List.isEmpty_nil, if_pos rfl, List.filterMap_eq_nil_iff]
    exact fun e he => hes e ((List.dropWhile_sublist _).subset he)

/-- An answer about a task that was accepted comes last. -/
theorem polls_replied (id' : TaskId) (response : ServerResponse) :
    polls id (log ++ [.replied id' response]) = polls id log ∨
      id' = id ∧ polls id (log ++ [.replied id' response]) = polls id log ++ [response] := by
  by_cases hid : id' = id
  · by_cases h : ∃ e ∈ log, e.accepts id = true
    · refine .inr ⟨hid, ?_⟩
      rw [polls_append_of_accepted h]
      simp [PollEvent.reply?, hid]
    · have hnot : ∀ e ∈ log, e.accepts id = false := by simpa using h
      refine .inl ?_
      rw [polls_of_not_accepted hnot, polls_of_not_accepted]
      intro e he
      rcases List.mem_append.mp he with hold | hnew
      · exact hnot e hold
      · rw [List.mem_singleton.mp hnew]
        rfl
  · refine .inl (polls_append_quiet fun e he => ?_)
    rw [List.mem_singleton.mp he]
    exact if_neg hid

theorem mem_polls {response : ServerResponse} (h : response ∈ polls id log) :
    .replied id response ∈ log := by
  obtain ⟨e, he, hreply⟩ := List.mem_filterMap.mp h
  have hmem : e ∈ log := (List.dropWhile_sublist _).subset he
  cases e with
  | replied id' response' =>
    simp only [PollEvent.reply?, Option.ite_none_right_eq_some] at hreply
    obtain ⟨rfl, hresponse⟩ := hreply
    exact Option.some.inj hresponse ▸ hmem
  | _ => cases hreply

theorem Extends.refl (log : List PollEvent) : Extends log log :=
  ⟨[], (List.append_nil log).symm, fun _ he => absurd he List.not_mem_nil⟩

theorem Extends.trans (h : Extends log log') (h' : Extends log' log'') : Extends log log'' := by
  obtain ⟨es, rfl, hes⟩ := h
  obtain ⟨es', rfl, hes'⟩ := h'
  exact ⟨es ++ es', List.append_assoc .., fun e he => (List.mem_append.mp he).elim (hes e) (hes' e)⟩

theorem Extends.subset (h : Extends log log') {e : PollEvent} (he : e ∈ log) : e ∈ log' := by
  obtain ⟨es, rfl, -⟩ := h
  exact List.mem_append_left _ he

theorem Extends.polls_eq (h : Extends log log') (id : TaskId) : polls id log' = polls id log := by
  obtain ⟨es, rfl, hes⟩ := h
  refine polls_append_quiet fun e he => ?_
  have hrecorded := hes e he
  cases e with
  | recorded => rfl
  | _ => cases hrecorded

@[simp] theorem checked_snoc (e : PollEvent) : checked (log ++ [e]) = e.checks (checked log) :=
  List.foldl_concat ..

theorem Extends.checked_eq (h : Extends log log') : checked log' = checked log := by
  obtain ⟨es, rfl, hes⟩ := h
  rw [checked, List.foldl_append]
  change es.foldl PollEvent.checks (checked log) = checked log
  generalize checked log = c
  induction es with
  | nil => rfl
  | cons e es ih =>
    have hrecorded := hes e List.mem_cons_self
    cases e with
    | recorded => exact ih fun e' he' => hes e' (List.mem_cons_of_mem _ he')
    | _ => cases hrecorded

end Polls

end RobertMiddleware

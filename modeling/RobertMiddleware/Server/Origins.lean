import RobertMiddleware.Server.Admission
import RobertMiddleware.Server.TaskOrder

/-!
# Where tasks come from

A task is made of the request in service, by `create_rapid_request`, after the lock check of that
very request. The record of the clients holds the requests received besides the events of the lock,
so what is said of a task is said of one request of one client.

## Main definitions

* `ClientEvent`, `clientObserver` — the requests received, and the events of the lock
* `Makes` — a call that inserts a task inserts that of the request in service
* `Latest` — the request that was received last, and the events of the lock since
* `Ordered` — the client that asked for a task, which held the lock

## Main results

* `RequestHandler.calls_handle_makes` — every handler makes its tasks so
* `System.OriginsOk.step` — every task accepted was ordered
-/

namespace RobertMiddleware

open Effects Transition

/-! ### The record -/

/-- What is seen of the clients. -/
inductive ClientEvent
  /-- A request is received. -/
  | received (req : DecodedRequest)
  | lock (event : LockEvent)

namespace ClientEvent

def lockEvent : ClientEvent → LockEvent
  | .received req => .received req.token
  | .lock event => event

/-- No request is received. -/
def Between (e : ClientEvent) : Prop := e.lockEvent.isReceived = false

end ClientEvent

def clientObserver : Observer ClientEvent where
  receive req := [.received req]
  call req op a r := (lockObserver.call req op a r).map .lock
  other s l := (lockObserver.other s l).map .lock

theorem map_lockEvent_map_lock (es : List LockEvent) :
    (es.map ClientEvent.lock).map ClientEvent.lockEvent = es := by
  rw [List.map_map]
  exact List.map_id es

/-- The events of the lock are those of `lockObserver`. -/
theorem map_lockEvent_obs (s : System) (l : Label) :
    (clientObserver.obs s l).map ClientEvent.lockEvent = lockObserver.obs s l := by
  cases l with
  | server e =>
    cases e with
    | receive req => rfl
    | misread => rfl
    | call uuid =>
      cases hpc : s.server with
      | serving req rest =>
        cases rest with
        | call op k =>
          rw [Observer.obs_call hpc, Observer.obs_call hpc]
          exact map_lockEvent_map_lock _
        | _ => simp only [Observer.obs, hpc, List.map_nil]
      | _ => simp only [Observer.obs, hpc, List.map_nil]
    | advance =>
      rw [Observer.obs_advance fun _ _ => rfl, Observer.obs_advance fun _ _ => rfl]
      rfl
  | _ => exact map_lockEvent_map_lock _

/-! ### What a handler makes -/

/-- The request is the latest that was received. -/
def Latest (req : DecodedRequest) (log : List ClientEvent) : Prop :=
  ∃ pre mid, log = pre ++ .received req :: mid ∧ ∀ e ∈ mid, e.Between

/-- A task like this was added for a request that made it, after its lock check and before any other
request was received. -/
def Ordered (P : Platform) (log : List ClientEvent) (id : TaskId) (request : RapidRequest) : Prop :=
  ∃ req pre post, log = pre ++ .lock (.added id req.token) :: post ∧ Latest req pre ∧
    Checked req.token (pre.map ClientEvent.lockEvent) ∧ createRapidRequest P req = .ok request

section Record

variable {P : Platform} {req : DecodedRequest} {log es : List ClientEvent}

theorem Latest.append (h : Latest req log) (hes : ∀ e ∈ es, e.Between) :
    Latest req (log ++ es) := by
  obtain ⟨pre, mid, rfl, hmid⟩ := h
  refine ⟨pre, mid ++ es, by rw [List.append_assoc, List.cons_append], fun e he => ?_⟩
  exact (List.mem_append.mp he).elim (hmid e) (hes e)

theorem Ordered.append {id : TaskId} {request : RapidRequest} (h : Ordered P log id request)
    (es : List ClientEvent) : Ordered P (log ++ es) id request := by
  obtain ⟨req, pre, post, rfl, hlatest, hchecked, hmade⟩ := h
  exact ⟨req, pre, post ++ es, by rw [List.append_assoc, List.cons_append], hlatest, hchecked,
    hmade⟩

/-- Only a receive receives. -/
theorem between_obs (s : System) {l : Label} (hl : ∀ req, l ≠ .server (.receive req)) :
    ∀ e ∈ clientObserver.obs s l, e.Between := by
  have hmap : ∀ {es : List LockEvent}, (∀ e ∈ es, e.isReceived = false) →
      ∀ e ∈ es.map ClientEvent.lock, e.Between := by
    intro es hes e he
    obtain ⟨event, hevent, rfl⟩ := List.mem_map.mp he
    exact hes event hevent
  unfold Observer.obs
  split
  · exact absurd rfl (hl _)
  · exact hmap (isReceived_call _ _ _ _)
  · exact fun e he => absurd he List.not_mem_nil
  · exact fun e he => absurd he List.not_mem_nil
  · refine hmap fun e he => ?_
    simp only [lockObserver] at he
    split at he
    · obtain ⟨t, -, rfl⟩ := List.mem_map.mp he
      rfl
    · cases he

end Record

/-- If the call inserts a task, it is that of the request, for the session of the request. -/
def Makes (P : Platform) (req : DecodedRequest) : ServerCall → Prop
  | .emplaceTask _ request session => createRapidRequest P req = .ok request ∧ session = req.token
  | _ => True

namespace RequestHandler

variable {P : Platform} {req : DecodedRequest}

theorem makes_of_plainCall {op : ServerCall} (h : PlainCall req op) : Makes P req op := by
  have hchanges := h.changesTasks
  cases op with
  | emplaceTask => contradiction
  | _ => trivial

theorem LeavesTasks.makes {α : Type} {p : Handler α} (h : LeavesTasks req p) :
    p.Calls (Makes P req) := h.mono fun _ => makes_of_plainCall

theorem calls_handleCheckTask_makes : (handleCheckTask P req).Calls (Makes P req) := by
  refine (leavesTasks_validateToken req).makes.bind fun valid => ?_
  cases valid with
  | false => trivial
  | true =>
    refine (leavesTasks_validateHardwareLock req).makes.bind fun locked => ?_
    cases locked with
    | false => trivial
    | true =>
      cases req.taskId with
      | none => trivial
      | some id =>
        refine ⟨trivial, fun copy => ?_⟩
        rcases copy with _ | ⟨_, _, state, _, _, _, _⟩
        · trivial
        · cases state with
          | completed | failed => exact ⟨trivial, fun _ => trivial⟩
          | pending | inProgress => trivial

theorem calls_handleRobotCommand_makes : (handleRobotCommand P req).Calls (Makes P req) := by
  refine ⟨trivial, fun loaded => ?_⟩
  cases loaded with
  | false => trivial
  | true =>
    refine (leavesTasks_validateToken req).makes.bind fun valid => ?_
    cases valid with
    | false => trivial
    | true =>
      refine (leavesTasks_validateHardwareLock req).makes.bind fun locked => ?_
      cases locked with
      | false => trivial
      | true =>
        refine ⟨trivial, fun connected => ?_⟩
        cases connected with
        | false => trivial
        | true =>
          cases hmade : createRapidRequest P req with
          | error what => trivial
          | ok robotReq =>
            exact ⟨trivial, fun id => ⟨⟨hmade, rfl⟩, fun _ => ⟨trivial, fun _ => trivial⟩⟩⟩

/-- **Tasks are made of the request in service.** -/
theorem calls_handle_makes (P : Platform) (req : DecodedRequest) :
    (handle P req).Calls (Makes P req) := by
  rw [handle]
  split
  · rename_i hne
    exact ⟨trivial, fun _ =>
      dispatch_cases hne (fun p hp => hp.makes) calls_handleRobotCommand_makes⟩
  · rename_i heq
    rw [dispatch, not_not.mp heq]
    exact calls_handleCheckTask_makes

end RequestHandler

/-! ### Along runs -/

/-- The request in service is the latest that was received, and makes its own tasks. -/
def ServerPc.Attends (P : Platform) (log : List ClientEvent) : ServerPc → Prop
  | .serving req rest => rest.Calls (Makes P req) ∧ Latest req log
  | _ => True

theorem ServerPc.Idle.attends {P : Platform} {log : List ClientEvent} {pc : ServerPc}
    (h : pc.Idle) : pc.Attends P log := by
  cases pc with
  | serving => exact h.elim
  | _ => trivial

namespace System

/-- Every task accepted was ordered. -/
structure OriginsOk (P : Platform) (s : System) (log : List ClientEvent)
    (tasks : List TaskEvent) : Prop where
  admission : AdmissionOk s (log.map ClientEvent.lockEvent)
  attends : s.server.Attends P log
  ordered : ∀ id request, (id, request) ∈ tasks.filterMap TaskEvent.accepted? →
    Ordered P log id request

theorem originsOk_initial (P : Platform) (users : List UserInfo) :
    OriginsOk P (initial users) [] [] where
  admission := admissionOk_initial users
  attends := trivial
  ordered _ _ h := absurd h List.not_mem_nil

section Step

variable {P : Platform} {s s' : System} {log : List ClientEvent} {tasks : List TaskEvent}
  {l : Label}

theorem OriginsOk.step_attends (hs : OriginsOk P s log tasks) (h : step P s l = some s') :
    s'.server.Attends P (log ++ clientObserver.obs s l) := by
  by_cases hserver : ∃ e, l = .server e
  · obtain ⟨e, rfl⟩ := hserver
    cases step_effect h with
    | other hno => exact absurd rfl (hno e)
    | server hmove =>
      cases hmove with
      | between _ hidle => exact hidle.attends
      | misread => trivial
      | receive req =>
        exact ⟨RequestHandler.calls_handle_makes P req, log, [], rfl, fun e he => by cases he⟩
      | call uuid req op k hpc =>
        have hattends := hs.attends
        rw [hpc] at hattends
        obtain ⟨hcalls, hlatest⟩ := hattends
        exact ⟨hcalls.2 _, hlatest.append (between_obs s fun _ => by simp)⟩
  · have hother : ∀ e, l ≠ .server e := fun e he => hserver ⟨e, he⟩
    rcases server_other h hother with hsame | hnew
    · rw [hsame]
      have hattends := hs.attends
      cases hpc : s.server with
      | serving req rest =>
        rw [hpc] at hattends
        obtain ⟨hcalls, hlatest⟩ := hattends
        exact ⟨hcalls, hlatest.append (between_obs s fun _ => hother _)⟩
      | _ => trivial
    · rw [hnew]
      trivial

/-- The call that inserts a task is one of the request in service. -/
theorem OriginsOk.ordered_call (hs : OriginsOk P s log tasks) {uuid : Bytes} {req : DecodedRequest}
    {id : TaskId} {request : RapidRequest} {session : Bytes} {k : Unit → Handler ServerResponse}
    (hpc : s.server =
      .serving req (.call (S := ServerCalls) (.emplaceTask id request session) k)) :
    Ordered P (log ++ clientObserver.obs s (.server (.call uuid))) id request := by
  have hattends := hs.attends
  rw [hpc] at hattends
  obtain ⟨⟨⟨hmade, rfl⟩, -⟩, hlatest⟩ := hattends
  have hcall := hs.admission.serving.sound
    ⟨.refl _, ⟨[], (List.append_nil _).symm, fun e he => by cases he⟩, hs.admission.ledger⟩ hpc
  refine ⟨req, log, [], ?_, hlatest, (hcall.1 rfl).checked, hmade⟩
  rw [Observer.obs_call hpc]
  rfl

/-- **Step lemma.** -/
theorem OriginsOk.step (hs : OriginsOk P s log tasks) (h : step P s l = some s') :
    OriginsOk P s' (log ++ clientObserver.obs s l) (tasks ++ taskObserver.obs s l) := by
  refine ⟨?_, hs.step_attends h, fun id request hmem => ?_⟩
  · rw [List.map_append, map_lockEvent_obs]
    exact hs.admission.step h
  rw [List.filterMap_append] at hmem
  rcases List.mem_append.mp hmem with hold | hnew
  · exact (hs.ordered id request hold).append _
  · by_cases hcall : ∃ uuid, l = .server (.call uuid)
    · obtain ⟨uuid, rfl⟩ := hcall
      cases step_effect h with
      | other hno => exact absurd rfl (hno _)
      | server hmove =>
        cases hmove with
        | call uuid req op k hpc =>
          rw [Observer.obs_call hpc] at hnew
          cases op with
          | emplaceTask id' request' session =>
            obtain ⟨rfl, rfl⟩ := Prod.mk.inj (List.mem_singleton.mp hnew)
            exact hs.ordered_call hpc
          | _ => cases hnew
    · rw [(obs_of_not_call fun uuid huuid => hcall ⟨uuid, huuid⟩).2] at hnew
      cases hnew

end Step

end System

end RobertMiddleware

import RobertMiddleware.Cell.Plant

/-!
# From `addTask` to `parse_message`

A request of a client goes through the task map, two queues, the robot's worker thread and a
connection before the controller takes it up. Nothing on the way copies it, or lets another one
pass. The worker thread puts heartbeats between the requests of tasks; they are pings.

## Main definitions

* `isPing` — a heartbeat, or the ping of a client
* `System.LinkOk` — the requests of tasks and what went over the connections
* `Plant.WholeRequest` — a `SocketReceive` returns the bytes of a request

## Main results

* `Plant.accepted_reaches` — the controller takes up tasks in the order in which they were accepted
-/

namespace RobertMiddleware

open Effects Transition
open Rapid (Controller Errno RapidEvent RapidServer RapidSystem)

/-! ### Heartbeats -/

/-- The first byte of the request is the command of a ping. -/
def isPing (raw : Bytes) : Bool := raw.head? = some RapidCommandType.pingR.toUInt8

theorem head?_image (request : RapidRequest) : request.image.head? = some request.commandId := rfl

/-- The requests of which some bytes may be on the connection, but not all. -/
def WorkerPc.begun : WorkerPc → List RapidRequest
  | .sending item _ => [item.command]
  | _ => []

namespace Robot

variable {r r' : Robot} {e : WorkerEvent}

/-- Only a heartbeat joins the items that wait. -/
theorem mem_waiting_workerStep (h : r.workerStep e = some r') {item : RobotWorkItem}
    (hitem : item ∈ r'.waiting) : item ∈ r.waiting ∨ isPing item.command.image := by
  revert h
  fun_cases workerStep r e
  all_goals intro h
  all_goals try contradiction
  all_goals obtain rfl := Option.some.inj h
  case case18 junk hw command =>
    simp only [waiting, WorkerPc.fresh, Option.toList_some, List.singleton_append,
      List.mem_cons] at hitem
    rcases hitem with rfl | hold
    · exact .inr (decide_eq_true (head?_image _))
    · exact .inl (List.mem_append_right _ hold)
  all_goals
    left
    grind [waiting, WorkerPc.fresh, requestQueue_setValue]

/-- What `send_request` has sent was begun before. -/
theorem sent_workerStep (h : r.workerStep e = some r') :
    (sentRequests (r.wireEvents e) ++ r'.worker.begun).Sublist (r.worker.begun ++
      if e = .advance ∧ r.socketFd.isSome then
        r.worker.fresh.toList.map RobotWorkItem.command else []) := by
  revert h
  fun_cases workerStep r e
  all_goals intro h
  all_goals try contradiction
  all_goals obtain rfl := Option.some.inj h
  case case1 hw | case2 hw =>
    rw [show r.wireEvents .advance = [] by simp [wireEvents, hw]]
    dsimp only
    split <;> exact List.nil_sublist _
  case case9 item hw =>
    cases hfd : r.socketFd <;> simp [wireEvents, sentRequests, WorkerPc.begun, WorkerPc.fresh, hw]
  case case20 n item sent hw hn =>
    by_cases hmore : sent + n < item.command.image.length
    · simp only [wireEvents, sentRequests, WorkerPc.begun, hw, if_pos hmore]
      simp
    · simp only [wireEvents, sentRequests, WorkerPc.begun, hw, if_neg hmore]
      simp
  all_goals simp [wireEvents, sentRequests, WorkerPc.begun, WorkerPc.fresh, *]

end Robot

/-! ### Requests of tasks -/

namespace System

/-- What is seen of the step on the wire. -/
def wireEvents (s : System) : Label → List WireEvent
  | .robotWorker e => s.shared.robot.wireEvents e
  | _ => []

/-- The requests that were sent are those of tasks, but for pings. -/
structure LinkOk (s : System) (tasks : List TaskEvent) (wire : List WireEvent) : Prop where
  order : OrderOk s tasks
  beats : ∀ item ∈ s.shared.robot.waiting, item.responsePromise = none →
    isPing item.command.image = true
  sent : ((sentRequests wire ++ s.shared.robot.worker.begun).filter
    fun request => !isPing request.image).Sublist
      ((tasks.filterMap TaskEvent.sent?).map Prod.snd)

theorem linkOk_initial (users : List UserInfo) : LinkOk (initial users) [] [] where
  order := orderOk_initial users
  beats _ hitem := absurd hitem List.not_mem_nil
  sent := List.Sublist.refl _

section Link

variable {P : Platform} {s s' : System} {l : Label} {tasks : List TaskEvent}
  {wire : List WireEvent}

theorem beats_step (hs : LinkOk s tasks wire) (h : step P s l = some s') :
    ∀ item ∈ s'.shared.robot.waiting, item.responsePromise = none →
      isPing item.command.image = true := by
  intro item hitem hnone
  cases step_effect h with
  | server hmove =>
    refine hs.beats item ?_ hnone
    cases hmove with
    | call uuid req op => rwa [robot_execCall] at hitem
    | _ => exact hitem
  | taskWorker hmove =>
    cases hmove with
    | push id req =>
      have hwaiting :
          item ∈ s.shared.robot.waiting ++ [⟨req, some s.shared.robot.nextPromise⟩] := by
        simpa [Robot.waiting, Robot.pushRequest] using hitem
      rcases List.mem_append.mp hwaiting with hold | hnew
      · exact hs.beats item hold hnone
      · rw [List.mem_singleton.mp hnew] at hnone
        cases hnone
    | _ => exact hs.beats item hitem hnone
  | robotWorker hmove =>
    rcases Robot.mem_waiting_workerStep hmove hitem with hold | hping
    · exact hs.beats item hold hnone
    · exact hping
  | sweeper _ hmove => cases hmove <;> exact hs.beats item hitem hnone
  | other _ _ _ hmove =>
    exact hs.beats item ((Robot.waiting_quiet hmove.robot).subset hitem) hnone

/-- A call of `send_request` is for a heartbeat, or it is seen. -/
theorem begins_robotWorker (hs : LinkOk s tasks wire) (e : WorkerEvent) :
    ((if e = .advance ∧ s.shared.robot.socketFd.isSome then
        s.shared.robot.worker.fresh.toList.map RobotWorkItem.command else []).filter
          fun request => !isPing request.image).Sublist
      (((sendEvents s (.robotWorker e)).filterMap TaskEvent.sent?).map Prod.snd) := by
  split
  · rename_i hcalls
    obtain ⟨rfl, hfd⟩ := hcalls
    cases hw : s.shared.robot.worker with
    | starting item =>
      have hitem : item ∈ s.shared.robot.waiting := by
        rw [Robot.waiting, hw]
        exact List.mem_append_left _ (List.mem_singleton_self _)
      rcases hs.order.requests.waiting item hitem with hbeat | ⟨id, htask, -⟩
      · have hping := hs.beats item hitem hbeat
        simp [WorkerPc.fresh, hping]
      · have hseen : sendEvents s (.robotWorker .advance) = [.sent id item.command] := by
          simp [sendEvents, hw, hfd, htask]
        rw [hseen]
        exact List.filter_sublist
    | _ => exact List.nil_sublist _
  · exact List.nil_sublist _

/-- Only the robot's worker thread begins a request. -/
theorem begun_other (h : step P s l = some s') (hl : ∀ e, l ≠ .robotWorker e) :
    s'.shared.robot.worker.begun.Sublist s.shared.robot.worker.begun := by
  cases step_effect h with
  | server hmove =>
    cases hmove with
    | call uuid req op => rw [robot_execCall]
    | _ => exact List.Sublist.refl _
  | taskWorker hmove => cases hmove <;> exact List.Sublist.refl _
  | robotWorker => exact absurd rfl (hl _)
  | sweeper _ hmove => cases hmove <;> exact List.Sublist.refl _
  | other _ _ _ hmove =>
    rcases hmove.robot.worker with hsame | hnew
    · rw [hsame]
    · rw [hnew]
      exact List.nil_sublist _

/-- **Step lemma.** -/
theorem LinkOk.step (hs : LinkOk s tasks wire) (h : step P s l = some s') :
    LinkOk s' (tasks ++ taskObserver.obs s l) (wire ++ s.wireEvents l) := by
  refine ⟨hs.order.step h, beats_step hs h, ?_⟩
  rw [List.filterMap_append, sent_obs, List.map_append, sentRequests_append]
  -- what was begun before, and what the step begins
  have hmore : ∀ begins : List RapidRequest,
      (sentRequests (s.wireEvents l) ++ s'.shared.robot.worker.begun).Sublist
        (s.shared.robot.worker.begun ++ begins) →
      (begins.filter fun request => !isPing request.image).Sublist
        (((sendEvents s l).filterMap TaskEvent.sent?).map Prod.snd) →
      ((sentRequests wire ++ sentRequests (s.wireEvents l) ++
        s'.shared.robot.worker.begun).filter fun request => !isPing request.image).Sublist
        ((tasks.filterMap TaskEvent.sent?).map Prod.snd ++
          ((sendEvents s l).filterMap TaskEvent.sent?).map Prod.snd) := by
    intro begins hbegun hseen
    have hall := (List.Sublist.append_left hbegun (sentRequests wire)).filter
      fun request => !isPing request.image
    rw [← List.append_assoc, ← List.append_assoc, List.filter_append _ begins] at hall
    exact hall.trans (hs.sent.append hseen)
  by_cases hl : ∃ e, l = .robotWorker e
  · obtain ⟨e, rfl⟩ := hl
    cases step_effect h with
    | robotWorker hmove => exact hmore _ (Robot.sent_workerStep hmove) (begins_robotWorker hs e)
    | other _ _ hno => exact absurd rfl (hno e)
  · have hwire : s.wireEvents l = [] := by
      unfold wireEvents
      split
      · exact absurd ⟨_, rfl⟩ hl
      · rfl
    refine hmore [] ?_ (List.nil_sublist _)
    rw [hwire, List.append_nil]
    exact begun_other h fun e he => hl ⟨e, he⟩

end Link

end System

namespace Plant

/-- If the step is a `SocketReceive`, it returns as many bytes as a request has. -/
def WholeRequest (_ : Plant) : Label → Prop
  | .controller (.receive bytes) => bytes.length = 188
  | _ => True

instance (s : Plant) : ∀ l, Decidable (WholeRequest s l)
  | .controller (.receive _) => inferInstanceAs (Decidable (_ = _))
  | .server _ | .controller .accept | .controller (.receiveError _) | .controller (.call _ _)
  | .controller .advance | .controller (.drift _) => .isTrue trivial

/-- What is recorded of tasks. -/
def taskObs (s : Plant) : Label → List TaskEvent
  | .server l => taskObserver.obs s.system l
  | .controller _ => []

/-- What is seen of the step on the wire. -/
def wireObs (s : Plant) : Label → List WireEvent
  | .server l => s.system.wireEvents l
  | .controller _ => []

section Path

variable {P : Platform} {R : RapidSystem} {errSockTimeout : Errno} {s s' : Plant} {l : Label}
  {log : List TaskEvent}

theorem Shows.wholeRequest {l' : Cell.Label} (h : s.Shows l l') (hwhole : s.WholeRequest l) :
    s.cell.WholeRequest l' := by
  cases h with
  | controller ev => cases ev <;> exact hwhole
  | _ => trivial

theorem wireEvents_other {l : RobertMiddleware.Label} (hl : ∀ e, l ≠ .robotWorker e) :
    s.system.wireEvents l = [] := by
  unfold System.wireEvents
  split
  · exact absurd rfl (hl _)
  · rfl

theorem Shows.wireObs {l' : Cell.Label} (h : s.Shows l l') :
    s.cell.wireObs l' = s.wireObs l := by
  cases h with
  | worker e => rfl
  | call l l' _ hl hl' =>
    rw [Plant.wireObs, wireEvents_other hl]
    cases l' with
    | worker e => exact absurd rfl (hl' e)
    | _ => rfl
  | controller ev => rfl

theorem Hides.wireObs (h : s.Hides l) : s.wireObs l = [] := by
  cases h with
  | server l _ hl => exact wireEvents_other hl

/-- The records of the two sides of one run. -/
structure PathOk (R : RapidSystem) (errSockTimeout : Errno) (vars : Controller) (s : Plant)
    (log : List TaskEvent) (wire : List WireEvent) : Prop where
  threads : System.ThreadsOk s.system
  link : s.system.LinkOk log wire
  cell : Reaches (logged (Cell.step R errSockTimeout) Cell.wireObs) (unlogged Cell.WholeRequest)
    (Cell.initial vars, []) (s.cell, wire)

theorem pathOk_initial (users : List UserInfo) (vars : Controller) :
    PathOk R errSockTimeout vars (initial users vars) [] [] where
  threads := System.threadsOk_initial users
  link := System.linkOk_initial users
  cell := .refl _

/-- **Step lemma.** -/
theorem PathOk.step {vars : Controller} {wire : List WireEvent}
    (hs : PathOk R errSockTimeout vars s log wire) (hwhole : s.WholeRequest l)
    (h : s.step P R errSockTimeout l = some s') :
    PathOk R errSockTimeout vars s' (log ++ s.taskObs l) (wire ++ s.wireObs l) := by
  have hcell : Reaches (logged (Cell.step R errSockTimeout) Cell.wireObs)
      (unlogged Cell.WholeRequest) (Cell.initial vars, []) (s'.cell, wire ++ s.wireObs l) := by
    rcases cell_step hs.threads h with ⟨l', hl', hmove⟩ | ⟨hhidden, hsame⟩
    · exact hs.cell.tail (hl'.wholeRequest hwhole)
        (logged_eq_some_iff.mpr ⟨hmove, by rw [hl'.wireObs]⟩)
    · rw [hsame, hhidden.wireObs, List.append_nil]
      exact hs.cell
  cases step_move h with
  | server l system controller hmove =>
    exact ⟨hs.threads.step hmove, hs.link.step hmove, hcell⟩
  | controller ev controller hmove =>
    refine ⟨hs.threads, ?_, hcell⟩
    simpa only [taskObs, Plant.wireObs, List.append_nil] using hs.link

theorem pathOk_reaches {users : List UserInfo} {vars : Controller}
    (h : Reaches (logged (step P R errSockTimeout) taskObs) (unlogged WholeRequest)
      (initial users vars, []) (s, log)) : ∃ wire, PathOk R errSockTimeout vars s log wire :=
  h.logged_invariant (I := fun t tlog => ∃ wire, PathOk R errSockTimeout vars t tlog wire)
    ⟨[], pathOk_initial users vars⟩ fun _ _ _ _ ⟨_, ht⟩ hwhole hstep => ⟨_, ht.step hwhole hstep⟩

/-- What the controller takes up besides pings are requests of tasks, in their order. -/
theorem PathOk.taken_sublist {vars : Controller} {wire : List WireEvent}
    (hs : PathOk R errSockTimeout vars s log wire) :
    ((s.controller.taken.map Rapid.Execution.raw).filter fun raw => !isPing raw).Sublist
      ((log.filterMap TaskEvent.accepted?).map fun task => task.2.image) := by
  have horder := hs.link.order
  have htaken := (Cell.taken_sublist hs.cell).filter fun raw => !isPing raw
  have hsent : ((sentRequests wire).filter fun request => !isPing request.image).Sublist
      ((log.filterMap TaskEvent.sent?).map Prod.snd) :=
    ((List.sublist_append_left _ _).filter _).trans hs.link.sent
  have haccepted : (log.filterMap TaskEvent.sent?).Sublist (log.filterMap TaskEvent.accepted?) :=
    sublist_of_subset_of_pairwise (List.pairwise_map.mp (List.pairwise_append.mp horder.order).1)
      horder.accepted horder.requests.sent
  have himages : ((sentRequests wire).map RapidRequest.image).filter (fun raw => !isPing raw) =
      ((sentRequests wire).filter fun request => !isPing request.image).map RapidRequest.image :=
    List.filter_map
  rw [himages] at htaken
  have hall := (htaken.trans (hsent.map RapidRequest.image)).trans
    ((haccepted.map Prod.snd).map RapidRequest.image)
  rwa [List.map_map] at hall

end Path

/-- **In the order in which they were accepted.** In every run in which a `SocketReceive` returns
the bytes of a request: what the controller takes up are, besides pings, requests of tasks, each at
most once and in the order in which the server has accepted the tasks, whichever client each is from
and however often the robot was connected anew. Ids are different up to `2 ^ 64` tasks. -/
theorem accepted_reaches {P : Platform} {R : RapidSystem} {errSockTimeout : Errno} {s : Plant}
    {log : List TaskEvent} {users : List UserInfo} {vars : Controller}
    (h : Reaches (logged (step P R errSockTimeout) taskObs) (unlogged WholeRequest)
      (initial users vars, []) (s, log)) :
    ((s.controller.taken.map Rapid.Execution.raw).filter fun raw => !isPing raw).Sublist
        ((log.filterMap TaskEvent.accepted?).map fun task => task.2.image) ∧
      (log.filterMap TaskEvent.accepted?).Pairwise fun task task' => task.1 < task'.1 := by
  obtain ⟨wire, hs⟩ := pathOk_reaches h
  exact ⟨hs.taken_sublist, hs.link.order.accepted⟩

theorem accepted_reaches_speed :
    ∃ s log, Reaches (logged (step .linux .bench 0) taskObs) (unlogged WholeRequest)
      (initial SessionManager.aliceOnly .bench, []) (s, log) ∧
      s.controller.taken.map Rapid.Execution.raw = [speedRequest.image, Rapid.zeroRequest.image] ∧
      [speedRequest.image, Rapid.zeroRequest.image].Sublist
        ((log.filterMap TaskEvent.accepted?).map fun task => task.2.image) := by
  have hrun : (runLabels (logged (step .linux .bench 0) taskObs) (unlogged WholeRequest)
      (initial SessionManager.aliceOnly .bench, []) speedLabels).any fun s =>
        s.1.controller.taken.map Rapid.Execution.raw =
          [speedRequest.image, Rapid.zeroRequest.image] := by
    decide +kernel
  obtain ⟨⟨s, log⟩, hs, hend⟩ := Option.any_eq_true .. |>.mp hrun
  have htaken := of_decide_eq_true hend
  have hnoping : ([speedRequest.image, Rapid.zeroRequest.image].filter fun raw => !isPing raw) =
      [speedRequest.image, Rapid.zeroRequest.image] := by
    decide +kernel
  have haccepted := (accepted_reaches (.of_runLabels hs)).1
  rw [htaken, hnoping] at haccepted
  exact ⟨s, log, .of_runLabels hs, htaken, haccepted⟩

end Plant

end RobertMiddleware

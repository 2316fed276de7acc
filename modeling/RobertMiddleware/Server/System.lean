import RobertMiddleware.Internal.Transition
import RobertMiddleware.Server.RequestHandler

/-!
# The threads of the server

`src/server/server.{hpp,cpp}`: the server thread (`loop_`), the task worker
(`robot_worker_loop_`), the sweeper (`sweeper_loop_`) and the thread that owns the server and calls
`start` and `stop`, together with the robot's worker thread. `System.step` is one step of one of
them; the label says which, and holds every choice the threads do not make themselves.

The server thread is followed from a decoded request to its answer; the bytes around it are in
`Server/Loop.lean`. An exception that leaves a thread function ends that thread here. In the source
it ends the program, so nothing that follows it in a run is a promise.

The sweep of the sessions calls `release_lock` for an expired session, which locks the mutex that
the sweep holds. What becomes of that is not defined, so both are possible: the sweep completes, as
if the mutex could be locked twice, or it waits for ever and keeps the mutex. Then all calls on the
sessions wait too. `Server/SessionLaws.lean` is about the sweep that waits.

## Main definitions

* `System.step` — the transition function
* `System.initial` — the state after the constructor of `Server`
-/

namespace RobertMiddleware

open Effects

/-! ### The server thread -/

/-- Where the server thread stands in `loop_`. -/
inductive ServerPc
  | stopped
  /-- At `while (running_)`. -/
  | loopTest
  /-- In `recv`. -/
  | receiving
  /-- In `handle`, with what is left of it. -/
  | serving (req : DecodedRequest) (rest : Handler ServerResponse)
  /-- An exception has left the thread function. -/
  | crashed

/-- No request is being handled. -/
def ServerPc.Idle : ServerPc → Prop
  | .serving _ _ => False
  | _ => True

inductive ServerEvent
  | advance
  | receive (req : DecodedRequest)
  /-- A message of `EAGAIN` bytes is received. -/
  | misread
  /-- The handler makes its next call; `uuid` is the token a login would create. -/
  | call (uuid : Bytes)

/-- One step of the server thread. An exception of the handler is caught by `loop_`. -/
def serverStep (P : Platform) : ServerPc → Shared → ServerEvent → Option (ServerPc × Shared)
  | .loopTest, s, .advance => some (if s.running then .receiving else .stopped, s)
  | .receiving, s, .advance => some (.loopTest, s)
  | .receiving, s, .receive req => some (.serving req (RequestHandler.handle P req), s)
  -- the number of bytes is taken for an error number
  | .receiving, s, .misread => some (.crashed, s)
  | .serving req (.call op k), s, .call uuid =>
    if s.FreshToken uuid then
      let (r, s') := execCall uuid op s
      some (.serving req (k r), s')
    else none
  | .serving _ (.pure _), s, .advance => some (.loopTest, s)
  | .serving _ (.throw _), s, .advance => some (.loopTest, s)
  | _, _, _ => none

/-! ### The task worker -/

/-- Where the task worker stands in `robot_worker_loop_`. -/
inductive TaskWorkerPc
  | stopped
  /-- At `while (running_)`. -/
  | loopTest
  /-- In `waitForNextTask`. -/
  | waiting
  /-- At `startTask`. -/
  | starting (id : TaskId)
  /-- At `getTask`. -/
  | fetching (id : TaskId)
  /-- At `is_connected`. -/
  | checking (id : TaskId) (req : RapidRequest)
  /-- In `queue_request`, at its test of `running_`. -/
  | queueing (id : TaskId) (req : RapidRequest)
  /-- In `queue_request`, after the test. -/
  | pushing (id : TaskId) (req : RapidRequest)
  /-- In `wait_for`, for the future of a promise. -/
  | awaiting (id : TaskId) (promise : ℕ)
  /-- At the classification of a response. -/
  | recording (id : TaskId) (response : Bytes)
  /-- At `failTask(task_id, "Robot disconnected")`. -/
  | failing (id : TaskId)
  /-- An exception has left the thread function. -/
  | crashed
deriving DecidableEq

inductive TaskWorkerEvent
  | advance
  /-- The ninety seconds of `wait_for` are over. -/
  | timeout
deriving DecidableEq

/-- The test on a response of the robot: `find(..) == 0` for one of two prefixes. -/
def isErrorResponse (response : Bytes) : Bool :=
  (ascii "ERR:").isPrefixOf response || (ascii "NACK").isPrefixOf response

/-- What the task worker does with a response. -/
def recordResponse (now : ℤ) (id : TaskId) (response : Bytes) (t : Tasker) : Tasker :=
  if isErrorResponse response then (t.failTask now id (ascii "Robot error: " ++ response)).2
  else (t.completeTask now id response).2

/-- One step of the task worker. -/
def taskWorkerStep : TaskWorkerPc → Shared → TaskWorkerEvent → Option (TaskWorkerPc × Shared)
  | .loopTest, s, .advance => some (if s.running then .waiting else .stopped, s)
  | .waiting, s, .advance =>
    match s.tasker.waitForNextTask with
    | none => none
    | some (none, tasker) => some (.stopped, { s with tasker })
    | some (some id, tasker) => some (.starting id, { s with tasker })
  | .starting id, s, .advance =>
    let (started, tasker) := s.tasker.startTask s.now id
    some (if started then .fetching id else .loopTest, { s with tasker })
  | .fetching id, s, .advance =>
    match s.tasker.getTask id with
    | none => some (.loopTest, s)
    | some task => some (.checking id task.request, s)
  | .checking id req, s, .advance =>
    some (if s.robot.connected then .queueing id req else .failing id, s)
  | .queueing id req, s, .advance =>
    -- `queue_request` throws when the session is not running; nothing here catches it
    some (if s.robot.running then .pushing id req else .crashed, s)
  | .pushing id req, s, .advance =>
    let (promise, robot) := s.robot.pushRequest req
    some (.awaiting id promise, { s with
      robot, history := { s.history with promised := s.history.promised ++ [(promise, id)] } })
  | .awaiting id promise, s, .advance =>
    match s.robot.future promise with
    | none => none
    | some response => some (.recording id response, s)
  | .awaiting id promise, s, .timeout =>
    match s.robot.future promise with
    | none => some (.failing id, s)
    | some _ => none
  | .recording id response, s, .advance =>
    some (.loopTest, { s with tasker := recordResponse s.now id response s.tasker })
  | .failing id, s, .advance =>
    some (.loopTest, { s with
      tasker := (s.tasker.failTask s.now id (ascii "Robot disconnected")).2 })
  | _, _, _ => none

/-! ### The sweeper -/

/-- Where the sweeper stands in `sweeper_loop_`. -/
inductive SweeperPc
  | stopped
  | loopTest
  | sleeping
  | sessions
  | tasks
  /-- In `release_lock`, called by the sweep of the sessions, whose mutex it waits for. -/
  | relocking
deriving DecidableEq

/-- One step of the sweeper: sessions after sixty seconds, tasks after three hundred. -/
def sweeperStep : SweeperPc → Shared → Option (SweeperPc × Shared)
  | .stopped, _ | .relocking, _ => none
  | .loopTest, s => some (if s.running then .sleeping else .stopped, s)
  | .sleeping, s => some (if s.running then .sessions else .loopTest, s)
  | .sessions, s =>
    some (.tasks, { s with sessions := s.sessions.sweepExpiredSessions s.now 60 })
  | .tasks, s =>
    some (.loopTest, { s with tasker := s.tasker.sweepExpiredTasks s.now 300 })

/-! ### The whole server -/

/-- Where the owner of the server stands in `start` or `stop`. -/
inductive OwnerPc
  | idle
  /-- In `start`, before `start_session`. -/
  | startingSession
  /-- In `start`, before `running_ = true` and the creation of the threads. -/
  | startingThreads
  /-- In `stop`, before `tasker_.stop()`. -/
  | stoppingTasker
  /-- In `stop_session`, before `running_ = false`. -/
  | stoppingRobot
  /-- In `stop_session`, joining the robot's worker thread. -/
  | joiningRobot
  /-- In `stop`, joining the three threads. -/
  | joiningThreads
deriving DecidableEq

structure System where
  shared : Shared := {}
  server : ServerPc := .stopped
  taskWorker : TaskWorkerPc := .stopped
  sweeper : SweeperPc := .stopped
  owner : OwnerPc := .idle

/-- Which thread moves, and what it is told. -/
inductive Label
  /-- Time passes. -/
  | tick (nanoseconds : ℕ)
  | server (e : ServerEvent)
  | taskWorker (e : TaskWorkerEvent)
  | robotWorker (e : WorkerEvent)
  | sweeper
  /-- The sweep comes to an expired session, and waits for its own mutex. -/
  | relock
  /-- The owner calls `start`. -/
  | start
  /-- The owner calls `stop`. -/
  | stop
  /-- The owner goes on inside the call. -/
  | owner

namespace System

/-- One step of the owner inside `start` or `stop`. -/
def ownerStep (s : System) : Option System :=
  match s.owner with
  | .idle => none
  | .startingSession =>
    some { s with
      shared := { s.shared with robot := s.shared.robot.startSession }
      owner := .startingThreads }
  | .startingThreads =>
    some { s with
      shared := { s.shared with running := true }
      server := .loopTest, taskWorker := .loopTest, sweeper := .loopTest, owner := .idle }
  | .stoppingTasker =>
    some { s with
      shared := { s.shared with tasker := s.shared.tasker.stop }, owner := .stoppingRobot }
  | .stoppingRobot =>
    some { s with
      shared := { s.shared with robot := s.shared.robot.clearRunning }, owner := .joiningRobot }
  | .joiningRobot =>
    if s.shared.robot.worker = .stopped then
      some { s with
        shared := { s.shared with robot := s.shared.robot.closeSession }
        owner := .joiningThreads }
    else none
  | .joiningThreads =>
    match s.server, s.taskWorker, s.sweeper with
    | .stopped, .stopped, .stopped => some { s with owner := .idle }
    | _, _, _ => none

/-- The server thread waits for the mutex of the sessions, which the sweeper keeps. -/
def serverWaits (s : System) : Bool :=
  match s.sweeper, s.server with
  | .relocking, .serving _ (.call op _) => op.locksSessions
  | _, _ => false

/-- One step of the system. -/
def step (P : Platform) (s : System) : Label → Option System
  | .tick d => some { s with shared := { s.shared with now := s.shared.now + d } }
  | .server e =>
    if s.serverWaits then none
    else (serverStep P s.server s.shared e).map fun (server, shared) => { s with server, shared }
  | .taskWorker e =>
    (taskWorkerStep s.taskWorker s.shared e).map fun (taskWorker, shared) =>
      { s with taskWorker, shared }
  | .robotWorker e =>
    (s.shared.robot.workerStep e).map fun robot => { s with shared := { s.shared with robot } }
  | .sweeper =>
    (sweeperStep s.sweeper s.shared).map fun (sweeper, shared) => { s with sweeper, shared }
  | .relock =>
    if s.sweeper = .sessions ∧ s.shared.sessions.anyExpired s.shared.now 60 then
      some { s with sweeper := .relocking }
    else none
  | .start =>
    if s.owner = .idle then
      if s.shared.running ∨ s.shared.robotLoaded = false ∨ s.shared.sessions.users.entries = [] then
        some s
      else some { s with owner := .startingSession }
    else none
  | .stop =>
    if s.owner = .idle then
      if s.shared.running then
        some { s with shared := { s.shared with running := false }, owner := .stoppingTasker }
      else some s
    else none
  | .owner => s.ownerStep

/-- After the constructor of `Server`, with the users of the configuration. -/
def initial (users : List UserInfo) : System where
  shared := { sessions := SessionManager.loadUsers users {} }

end System

end RobertMiddleware

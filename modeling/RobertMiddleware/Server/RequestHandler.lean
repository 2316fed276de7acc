import RobertMiddleware.Commands.Decoder
import RobertMiddleware.Robot.Robot
import RobertMiddleware.Server.Session
import RobertMiddleware.Server.Tasker

/-!
# The request handler

`src/server/request_handler.{hpp,cpp}`. A handler runs on the server thread and touches the shared
objects only through their member functions, each of which is one atomic step (the three steps of
`addTask` apart). So a handler is a program over those calls, and other threads may run between
any two of them.

`Shared` is the state of the shared objects. Its `history` is not in the source: it records what
has been created, queued and issued so far, and nothing but the record itself depends on it.

## Main definitions

* `ServerCall`, `execCall` — the calls a handler makes and what they do
* `RequestHandler.handle` — the dispatcher, with its nine branches
-/

namespace RobertMiddleware

open Effects

/-! ### The shared objects -/

/-- A record of what happened so far. -/
structure History where
  /-- The tasks inserted in the map, with the session token of the request that created each. -/
  created : List (TaskId × Bytes) := []
  /-- The ids pushed to the task queue, oldest first. -/
  queued : List TaskId := []
  /-- The tokens that `generate_uuid` has returned. -/
  issued : List Bytes := []
  /-- The promises made by `queue_request`, each with the task its request belongs to. -/
  promised : List (ℕ × TaskId) := []

/-- The objects that the threads of the server share. -/
structure Shared where
  /-- The steady clock, in nanoseconds. -/
  now : ℤ := 0
  sessions : SessionManager := {}
  tasker : Tasker := {}
  /-- Whether `robot_` points to a robot. -/
  robotLoaded : Bool := true
  robot : Robot := {}
  /-- `Server::running_`. -/
  running : Bool := false
  history : History := {}

/-- What is assumed of `generate_uuid`: tokens are not empty and do not repeat. -/
def Shared.FreshToken (s : Shared) (uuid : Bytes) : Prop := uuid ≠ [] ∧ uuid ∉ s.history.issued

instance (s : Shared) (uuid : Bytes) : Decidable (s.FreshToken uuid) :=
  inferInstanceAs (Decidable (_ ∧ _))

/-! ### The calls -/

/-- The calls on shared objects that handlers make. -/
inductive ServerCall
  | tokenToUsername (token : Bytes)
  | login (username password : Bytes)
  | logout (token : Bytes)
  | isValidToken (token : Bytes)
  | touchSession (token : Bytes)
  | acquireLock (token : Bytes)
  | releaseLock (token : Bytes)
  | hasLock (token : Bytes)
  | fetchTaskId
  /-- The insertion step of `addTask`. The token of the request is for the record only. -/
  | emplaceTask (id : TaskId) (request : RapidRequest) (session : Bytes)
  | pushTask (id : TaskId)
  | getTask (id : TaskId)
  | removeTask (id : TaskId)
  | robotLoaded
  | isConnected

/-- What each call returns. -/
abbrev ServerCall.Ret : ServerCall → Type
  | .tokenToUsername _ => Bytes
  | .login _ _ => Option Bytes
  | .logout _ => Unit
  | .isValidToken _ => Bool
  | .touchSession _ => Unit
  | .acquireLock _ => Bool
  | .releaseLock _ => Bool
  | .hasLock _ => Bool
  | .fetchTaskId => TaskId
  | .emplaceTask _ _ _ => Unit
  | .pushTask _ => Unit
  | .getTask _ => Option Task
  | .removeTask _ => Bool
  | .robotLoaded => Bool
  | .isConnected => Bool

/-- The member functions of `SessionManager`. They lock its mutex. -/
def ServerCall.locksSessions : ServerCall → Bool
  | .tokenToUsername _ | .login _ _ | .logout _ | .isValidToken _ | .touchSession _
  | .acquireLock _ | .releaseLock _ | .hasLock _ => true
  | _ => false

/-- The signature of handlers. -/
abbrev ServerCalls : Signature := ⟨ServerCall, ServerCall.Ret⟩

/-- The effect of a call, with the token that `generate_uuid` would return. -/
def execCall (uuid : Bytes) : (op : ServerCall) → Shared → op.Ret × Shared
  | .tokenToUsername token, s => (s.sessions.tokenToUsername token, s)
  | .login username password, s =>
    let (answer, sessions) := s.sessions.login uuid username password
    (answer, { s with
      sessions, history := { s.history with issued := s.history.issued ++ [uuid] } })
  | .logout token, s => ((), { s with sessions := s.sessions.logout token })
  | .isValidToken token, s => (s.sessions.isValidToken token, s)
  | .touchSession token, s => ((), { s with sessions := s.sessions.touchSession s.now token })
  | .acquireLock token, s =>
    let (answer, sessions) := s.sessions.acquireLock token
    (answer, { s with sessions })
  | .releaseLock token, s =>
    let (answer, sessions) := s.sessions.releaseLock token
    (answer, { s with sessions })
  | .hasLock token, s => (s.sessions.hasLock token, s)
  | .fetchTaskId, s =>
    let (id, tasker) := s.tasker.fetchTaskId
    (id, { s with tasker })
  | .emplaceTask id request session, s =>
    ((), { s with
      tasker := s.tasker.emplaceTask s.now id request
      history := { s.history with created := s.history.created ++ [(id, session)] } })
  | .pushTask id, s =>
    ((), { s with
      tasker := s.tasker.pushTask id
      history := { s.history with queued := s.history.queued ++ [id] } })
  | .getTask id, s => (s.tasker.getTask id, s)
  | .removeTask id, s =>
    let (answer, tasker) := s.tasker.removeTask id
    (answer, { s with tasker })
  | .robotLoaded, s => (s.robotLoaded, s)
  | .isConnected, s => (s.robot.connected, s)

/-- The semantics of handlers: a call runs with some token that `generate_uuid` may return. -/
def serverSem : Semantics ServerCalls Shared := fun op s r s' =>
  ∃ uuid, s.FreshToken uuid ∧ (r, s') = execCall uuid op s

/-! ### The handlers -/

/-- Handlers return a value or throw an exception, given by its `what()`. -/
abbrev Handler := Prog ServerCalls String

/-- The call `op`. -/
abbrev invoke (op : ServerCall) : Handler op.Ret := Prog.perform (S := ServerCalls) op

/-- `session_token.value_or("")`. -/
def DecodedRequest.token (req : DecodedRequest) : Bytes := req.sessionToken.getD []

/-- A response with status `ERROR`. -/
def errorResponse (message : String) : ServerResponse :=
  { status := some .error, errorMessage := ascii message }

/-- A response with status `SUCCESS`. -/
def successResponse (text : Bytes) : ServerResponse :=
  { status := some .success, textPayload := text }

namespace RequestHandler

/-- `validate_token`. -/
def validateToken (req : DecodedRequest) : Handler Bool := do
  let valid : Bool ← invoke (.isValidToken req.token)
  if valid then
    invoke (.touchSession req.token)
    return true
  else
    return false

/-- `validate_hardware_lock`. -/
def validateHardwareLock (req : DecodedRequest) : Handler Bool := invoke (.hasLock req.token)

/-- `handle_login`. -/
def handleLogin (req : DecodedRequest) : Handler ServerResponse := do
  let answer : Option Bytes ← invoke (.login (req.username.getD []) (req.password.getD []))
  let token := answer.getD []
  if token = [] then
    return errorResponse "Invalid credentials"
  else
    return successResponse token

/-- `handle_logout`. -/
def handleLogout (req : DecodedRequest) : Handler ServerResponse := do
  if req.token = [] then
    return errorResponse "No token provided"
  else
    let valid ← validateToken req
    if !valid then
      return errorResponse "Invalid token"
    else
      let locked ← validateHardwareLock req
      if locked then
        let _ ← invoke (.releaseLock req.token)
        invoke (.logout req.token)
        return successResponse (ascii "Logged out successfully")
      else
        invoke (.logout req.token)
        return successResponse (ascii "Logged out successfully")

/-- `handle_acquire`. -/
def handleAcquire (req : DecodedRequest) : Handler ServerResponse := do
  let valid ← validateToken req
  if !valid then
    return errorResponse "Invalid token"
  else
    let locked ← validateHardwareLock req
    if locked then
      return { status := some .warning, errorMessage := ascii "You already have a hardware lock" }
    else if req.token = [] then
      return errorResponse "No token provided"
    else
      let acquired : Bool ← invoke (.acquireLock req.token)
      if !acquired then
        return errorResponse "Failed to acquire lock. Someone else may have it locked."
      else
        return successResponse (ascii "Lock acquired successfully")

/-- `handle_release`. -/
def handleRelease (req : DecodedRequest) : Handler ServerResponse := do
  let valid ← validateToken req
  if !valid then
    return errorResponse "Invalid token"
  else
    let locked ← validateHardwareLock req
    if !locked then
      return errorResponse "Hardware lock not acquired"
    else
      let _ ← invoke (.releaseLock req.token)
      return successResponse (ascii "Lock released successfully")

/-- The answer about a completed task. `mutable_robot_status` creates the sub-message before it is
known whether the telemetry unpacks. -/
def completedResponse (P : Platform) (task : Task) : ServerResponse :=
  let res : ServerResponse := { status := some .success, taskStatus := some .taskCompleted }
  if task.request.commandId = RapidCommandType.getStatus.toUInt8 then
    match Decoder.unpack P task.response {} with
    | (true, robotStatus) => { res with robotStatus := some robotStatus }
    | (false, robotStatus) =>
      { res with
        robotStatus := some robotStatus, status := some .error
        errorMessage := ascii "Failed to unpack telemetry payload" }
  else { res with textPayload := task.response }

/-- The answer about a failed task. -/
def failedResponse (task : Task) : ServerResponse :=
  { status := some .success
    taskStatus := some .taskFailed
    errorMessage :=
      if task.response.isEmpty then ascii "Task execution failed at robot controller"
      else task.response }

/-- `handle_check_task`. -/
def handleCheckTask (P : Platform) (req : DecodedRequest) : Handler ServerResponse := do
  let valid ← validateToken req
  if !valid then
    return errorResponse "Invalid token"
  else
    let locked ← validateHardwareLock req
    if !locked then
      return errorResponse "Hardware lock not acquired"
    else
      match req.taskId with
      | none => .throw "bad optional access"
      | some id =>
        let task : Option Task ← invoke (.getTask id)
        match task with
        | none => return errorResponse "Task ID not found in registry"
        | some task =>
          match task.state with
          | .completed =>
            let _ ← invoke (.removeTask id)
            return completedResponse P task
          | .pending => return { status := some .success, taskStatus := some .taskPending }
          | .inProgress =>
            return { status := some .success, taskStatus := some .taskInProgress }
          | .failed =>
            let _ ← invoke (.removeTask id)
            return failedResponse task

/-- `Tasker::addTask`. -/
def addTask (request : RapidRequest) (session : Bytes) : Handler TaskId := do
  let id : TaskId ← invoke .fetchTaskId
  invoke (.emplaceTask id request session)
  invoke (.pushTask id)
  return id

/-- `handle_robot_command`. -/
def handleRobotCommand (P : Platform) (req : DecodedRequest) : Handler ServerResponse := do
  let loaded : Bool ← invoke .robotLoaded
  if !loaded then
    return errorResponse "Robot is nullptr. Call skibidi toilet to fix it :c"
  else
    let valid ← validateToken req
    if !valid then
      return errorResponse "Invalid token"
    else
      let locked ← validateHardwareLock req
      if !locked then
        return errorResponse "Hardware lock not acquired"
      else
        let connected : Bool ← invoke .isConnected
        if !connected then
          return errorResponse "Robot not connected"
        else
          match createRapidRequest P req with
          | .error what => .throw what
          | .ok robotReq =>
            let newTaskId ← addTask robotReq req.token
            return { status := some .success
                     taskStatus := some .taskPending
                     taskId := newTaskId
                     textPayload := ascii "TaskAdded.uwunyanichan" }

/-- The `EXIT` branch of `handle`; the store to `running_flag` is commented out in the source. -/
def handleExit (req : DecodedRequest) : Handler ServerResponse := do
  let valid ← validateToken req
  if valid then
    let locked ← validateHardwareLock req
    if locked then
      return successResponse (ascii "OKISUWU")
    else
      return errorResponse "Invalid token"
  else
    return errorResponse "Invalid token"

/-- The `switch` of `handle`. -/
def dispatch (P : Platform) (req : DecodedRequest) : Handler ServerResponse :=
  match req.cmdType with
  | .unknown => return errorResponse "Unknown command"
  | .login => handleLogin req
  | .logout => handleLogout req
  | .acquire => handleAcquire req
  | .release => handleRelease req
  | .checkTask => handleCheckTask P req
  | .exit => handleExit req
  | .ping => return successResponse (ascii "PONGUWU")
  | _ => handleRobotCommand P req

/-- `handle`. Every command but `CHECK_TASK` is logged with the name behind its token. -/
def handle (P : Platform) (req : DecodedRequest) : Handler ServerResponse :=
  if req.cmdType ≠ .checkTask then do
    let _ ← invoke (.tokenToUsername req.token)
    dispatch P req
  else dispatch P req

end RequestHandler

end RobertMiddleware

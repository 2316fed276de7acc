import RobertMiddleware.Commands.Commands

/-!
# The robot connection

`src/robot/robot.{hpp,cpp}` with the socket calls of `src/network/sock_comm.cpp`. The state of the
`Robot` object includes where its worker thread stands in `worker_loop`; `workerStep` is one step
of that thread.

A step is one critical section, one socket call, or one test of an atomic flag. What the thread
does not decide itself (whether a connection attempt succeeds, how many bytes `send` takes, what
`recv` returns, whether a wait times out) is in the event. `send_and_receive` holds
`socket_mutex_` from its first test to the end of `recv`; `stop_session` joins the thread before
it takes that mutex, so nobody ever waits for it.

A promise is a number. The values set on promises are kept in order, oldest first; the future of a
promise is ready when a value is there.
-/

namespace RobertMiddleware

/-- `RobotWorkItem`. A heartbeat has no promise. -/
structure RobotWorkItem where
  command : RapidRequest
  responsePromise : Option ℕ
deriving DecidableEq

/-- Where the worker thread stands in `worker_loop`. -/
inductive WorkerPc
  /-- There is no thread, or it has left the loop. -/
  | stopped
  /-- At `while (running_)`. -/
  | loopTest
  /-- At `if (!connected_)`. -/
  | connectTest
  /-- In `attempt_connection`. -/
  | connecting
  /-- Waiting five seconds before the next attempt. -/
  | reconnectWait
  /-- Waiting two seconds for work. -/
  | queueWait
  /-- At the start of `send_and_receive`. -/
  | starting (item : RobotWorkItem)
  /-- In the loop of `send_request`, `sent` bytes written. -/
  | sending (item : RobotWorkItem) (sent : ℕ)
  /-- In `receive_buffer`. -/
  | receiving (item : RobotWorkItem)
  /-- After `send_and_receive` returned. -/
  | responding (item : RobotWorkItem) (response : Bytes)
  /-- In the exception handler, before the socket is closed. -/
  | failing (item : RobotWorkItem) (what : String)
  /-- In the exception handler, after the socket was closed. -/
  | reporting (item : RobotWorkItem) (what : String)
deriving DecidableEq

structure Robot where
  running : Bool := false
  connected : Bool := false
  /-- `socket_fd_`; `none` is `INVALID_SOCKET_FD`. -/
  socketFd : Option ℕ := none
  /-- Connections made so far; the next one gets this number. -/
  nextFd : ℕ := 0
  requestQueue : List RobotWorkItem := []
  /-- Promises made so far; the next one gets this number. -/
  nextPromise : ℕ := 0
  /-- The values set on promises. -/
  responses : List (ℕ × Bytes) := []
  worker : WorkerPc := .stopped

/-- What happens to the worker thread in one step. -/
inductive WorkerEvent
  /-- The next step, where nothing outside decides it. -/
  | advance
  | connected
  | connectFailed
  /-- The wait for work times out; only the command byte of the heartbeat is set, the rest of
  the stack variable is whatever was there. -/
  | heartbeat (junk : RapidRequest)
  | sent (n : ℕ)
  | sendFailed
  | received (bytes : Bytes)
  | receiveFailed
deriving DecidableEq

namespace Robot

/-- `response_promise->set_value(value)`, for an item that has a promise. -/
def setValue (item : RobotWorkItem) (value : Bytes) (r : Robot) : Robot :=
  match item.responsePromise with
  | some p => { r with responses := r.responses ++ [(p, value)] }
  | none => r

/-- The value the future of `p` is ready with. -/
def future (p : ℕ) (r : Robot) : Option Bytes := (r.responses.find? fun e => e.1 = p).map Prod.snd

/-- The size of the buffer given to `recv`. -/
def receiveLimit : ℕ := 255

/-- One step of the worker thread, if the event is possible. -/
def workerStep (r : Robot) : WorkerEvent → Option Robot
  | .advance =>
    match r.worker with
    | .loopTest => some { r with worker := if r.running then .connectTest else .stopped }
    | .connectTest => some { r with worker := if r.connected then .queueWait else .connecting }
    | .connecting =>
      -- `attempt_connection` finds a descriptor and returns true
      if r.socketFd.isSome then some { r with worker := .queueWait } else none
    | .reconnectWait => some { r with worker := .loopTest }
    | .queueWait =>
      if r.running then
        match r.requestQueue with
        | item :: rest => some { r with requestQueue := rest, worker := .starting item }
        | [] => none
      else some { r with worker := .stopped }
    | .starting item =>
      some { r with worker :=
        if r.socketFd.isSome then .sending item 0
        else .failing item "Robot session not active" }
    | .responding item response =>
      let value := if response.isEmpty then ascii "ERR: empty response" else response
      some { r.setValue item value with worker := .loopTest }
    | .failing item what =>
      some { r with socketFd := none, connected := false, worker := .reporting item what }
    | .reporting item what =>
      some { r.setValue item (ascii "ERR: " ++ ascii what) with worker := .loopTest }
    | _ => none
  | .connected =>
    if r.worker = .connecting ∧ r.socketFd = none then
      some { r with
        socketFd := some r.nextFd, nextFd := r.nextFd + 1, connected := true,
        worker := .queueWait }
    else none
  | .connectFailed =>
    if r.worker = .connecting ∧ r.socketFd = none then some { r with worker := .reconnectWait }
    else none
  | .heartbeat junk =>
    if r.worker = .queueWait ∧ r.running ∧ r.requestQueue = [] then
      let command := { junk with commandId := RapidCommandType.pingR.toUInt8 }
      some { r with worker := .starting ⟨command, none⟩ }
    else none
  | .sent n =>
    match r.worker with
    | .sending item sent =>
      if 0 < n ∧ sent + n ≤ item.command.image.length then
        some { r with worker :=
          if sent + n < item.command.image.length then .sending item (sent + n)
          else .receiving item }
      else none
    | _ => none
  | .sendFailed =>
    match r.worker with
    | .sending item _ =>
      some { r with worker := .failing item "Failed to send command to robot" }
    | _ => none
  | .received bytes =>
    match r.worker with
    | .receiving item =>
      if 0 < bytes.length ∧ bytes.length ≤ receiveLimit then
        some { r with worker := .responding item bytes }
      else none
    | _ => none
  | .receiveFailed =>
    match r.worker with
    | .receiving item =>
      some { r with worker := .failing item "Failed to receive response from robot" }
    | _ => none

/-! ### The other member functions -/

/-- `queue_request` after its test of `running_`: the promise, and the state. -/
def pushRequest (request : RapidRequest) (r : Robot) : ℕ × Robot :=
  (r.nextPromise,
    { r with
      nextPromise := r.nextPromise + 1
      requestQueue := r.requestQueue ++ [⟨request, some r.nextPromise⟩] })

/-- `start_session`. -/
def startSession (r : Robot) : Robot :=
  if r.running then r else { r with running := true, worker := .loopTest }

/-- `stop_session`, first part: `running_ = false` and the notification. -/
def clearRunning (r : Robot) : Robot := { r with running := false }

/-- `stop_session`, after the worker thread was joined. -/
def closeSession (r : Robot) : Robot := { r with socketFd := none, connected := false }

end Robot

end RobertMiddleware

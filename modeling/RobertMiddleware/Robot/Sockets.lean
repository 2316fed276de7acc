import RobertMiddleware.Network.SockComm
import RobertMiddleware.Robot.Framing

/-!
# The descriptor of the robot

`socket_fd_` and `connected_` are written in four places: where a connection is made, where an
exception is handled, and in `stop_session`. Each of them holds `socket_mutex_`, and so does
`send_and_receive`. Here they are programs over the socket calls. A step of the worker thread is an
execution of one of them, or of a part of `send_and_receive`.

An observer of the runs writes down which descriptors `connect_tcp` returns, which are closed, on
which `send` and `recv` are called, and when `stop_session` returns.

## Main definitions

* `Robot.attemptConnection`, `Robot.dropConnection`, `Robot.sendAndReceive` — the critical sections
* `Robot.SocketOk` — the flag, the descriptor, and what is open
* `SocketEvent`, `Robot.socketEvents` — what is written down

## Main results

* `Robot.attemptConnection_wp`, `Robot.dropConnection_wp`, `Robot.sendAndReceive_wp` — a critical
  section calls on open descriptors only, keeps `SocketOk`, and does what the steps of the worker
  thread do
* `RobotSessions.sockets_reaches` — the life of every descriptor, in every run
-/

namespace RobertMiddleware

open Effects Transition

/-! ### The critical sections -/

/-- `host_`, `port_` and `socket_timeout_ms_`. -/
structure RobotConf where
  host : Bytes
  port : ℤ
  timeoutMs : ℤ

namespace Robot

variable {ε : Type}

/-- `attempt_connection`: its answer, and the object. -/
def attemptConnection (conf : RobotConf) (r : Robot) : Prog SockCalls ε (Bool × Robot) :=
  if r.socketFd.isSome then .pure (true, r)
  else do
    let fd : Option ℕ ← connectTcp conf.host conf.port conf.timeoutMs
    if fd.isNone then return (false, { r with socketFd := fd })
    else return (true, { r with socketFd := fd, connected := true })

/-- The end of a connection, in the exception handler of `worker_loop` and in `stop_session`. -/
def dropConnection (r : Robot) : Prog SockCalls ε Robot :=
  if r.socketFd.isSome then do
    closeSocket r.socketFd
    return { r with socketFd := none, connected := false }
  else .pure { r with connected := false }

/-- The loop of `send_request`, `sent` bytes written. -/
def sendLoop (fd : ℕ) (image : Bytes) (sent : ℕ) : Prog SockCalls ε Bool :=
  if _hsent : sent < image.length then do
    let n : ℤ ← invokeSock (.send fd (image.drop sent))
    if _hn : 0 < n then sendLoop fd image (sent + n.toNat) else return false
  else .pure true
termination_by image.length - sent

/-- `send_request`. -/
def sendRequest (fd : ℕ) (request : RapidRequest) : Prog SockCalls ε Bool :=
  sendLoop fd request.image 0

/-- `receive_buffer`. What `set_timeouts` answers is dropped. -/
def receiveBuffer (conf : RobotConf) (fd : ℕ) : Prog SockCalls String Bytes := do
  let _ ← setTimeouts (some fd) conf.timeoutMs
  let received : Option Bytes ← invokeSock (.recv fd receiveLimit)
  match received with
  | none => .throw "Failed to receive response from robot"
  | some bytes =>
    if bytes.length ≤ 0 then .throw "Failed to receive response from robot" else return bytes

/-- `send_and_receive`. -/
def sendAndReceive (conf : RobotConf) (r : Robot) (request : RapidRequest) :
    Prog SockCalls String Bytes :=
  match r.socketFd with
  | none => .throw "Robot session not active"
  | some fd => do
    let ok : Bool ← sendRequest fd request
    if !ok then .throw "Failed to send command to robot" else receiveBuffer conf fd

/-- Outside the critical sections: the flag is set if there is a descriptor, and that one is
open and no other. -/
structure SocketOk (r : Robot) (fds : Finset ℕ) : Prop where
  flag : r.connected = r.socketFd.isSome
  fds : fds = r.socketFd.toFinset

section Sections

variable {r : Robot} {fds : Finset ℕ} {item : RobotWorkItem}

/-- **`attempt_connection`.** The worker thread takes the same step. It names the descriptor by the
number of the connection. -/
theorem attemptConnection_wp (conf : RobotConf) (hpc : r.worker = .connecting)
    (hr : r.SocketOk fds) :
    (r.attemptConnection conf : Prog SockCalls ε (Bool × Robot)).Wp sockSem (· = ·) OnOpen
      (fun res fds' => ∃ ok r' e t, res = .ok (ok, r') ∧ r'.SocketOk fds' ∧
        r.workerStep e = some t ∧ t.connected = r'.connected ∧
        t.socketFd.isSome = r'.socketFd.isSome ∧
        t.worker = if ok then .queueWait else .reconnectWait) fds := by
  rw [attemptConnection]
  by_cases hfd : r.socketFd.isSome = true
  · rw [if_pos hfd]
    refine ⟨true, r, .advance, { r with worker := .queueWait }, rfl, hr, ?_, rfl, rfl, rfl⟩
    rw [workerStep, hpc]
    exact if_pos hfd
  · have hnone : r.socketFd = none := by simpa using hfd
    rw [if_neg hfd]
    refine Prog.wp_bind.mpr ((connectTcp_wp _ _ _).mono (fun _ _ => id) ?_)
    rintro _ fds' ⟨fd, rfl, -, rfl⟩
    have hflag := hr.flag
    have hempty : fds = ∅ := by
      rw [hr.fds, hnone]
      rfl
    rw [hnone] at hflag
    cases fd with
    | none =>
      refine ⟨false, _, .connectFailed, { r with worker := .reconnectWait }, rfl, ⟨hflag, ?_⟩, ?_,
        rfl, by simp [hnone], rfl⟩
      · simp [hempty]
      · rw [workerStep, if_pos ⟨hpc, hnone⟩]
    | some n =>
      refine ⟨true, _, .connected, _, rfl, ⟨rfl, ?_⟩, if_pos ⟨hpc, hnone⟩, rfl, rfl, rfl⟩
      simp [hempty]

/-- **The end of a connection.** -/
theorem dropConnection_wp (hr : r.SocketOk fds) :
    (r.dropConnection : Prog SockCalls ε Robot).Wp sockSem (· = ·) OnOpen
      (fun res fds' => res = .ok r.closeSession ∧ r.closeSession.SocketOk fds') fds := by
  obtain ⟨hflag, rfl⟩ := hr
  rw [dropConnection]
  cases hfd : r.socketFd with
  | none =>
    refine ⟨?_, rfl, rfl⟩
    simp [closeSession]
  | some fd =>
    refine Prog.wp_bind.mpr ((closeSocket_wp (by simp)).mono (fun _ _ => id) ?_)
    rintro _ fds' ⟨rfl, rfl⟩
    refine ⟨rfl, rfl, ?_⟩
    simp [closeSession]

/-- The exception handler. -/
theorem workerStep_failing {what : String} (hpc : r.worker = .failing item what) :
    r.workerStep .advance = some { r.closeSession with worker := .reporting item what } := by
  rw [workerStep, hpc]
  rfl

/-- Where the worker thread stands after `send_and_receive`. -/
def afterSection (item : RobotWorkItem) : Except String Bytes → WorkerPc
  | .ok response => .responding item response
  | .error what => .failing item what

/-- The loop of `send_request`, while there are bytes to be written. -/
theorem sendLoop_wp {fd sent : ℕ} (hfd : fd ∈ fds) (hsent : sent < item.command.image.length) :
    (sendLoop fd item.command.image sent : Prog SockCalls ε Bool).Wp sockSem (· = ·) OnOpen
      (fun res fds' => fds' = fds ∧ ∃ ok, res = .ok ok ∧
        Reaches workerStep always { r with worker := .sending item sent }
          { r with worker := if ok then .receiving item
            else .failing item "Failed to send command to robot" }) fds := by
  induction hleft : item.command.image.length - sent using Nat.strong_induction_on
    generalizing sent with
  | _ left ih =>
    rw [sendLoop, dif_pos hsent]
    refine invokeSock_wp hfd fun (n : ℤ) fds' hsend => ?_
    have hle : n ≤ (item.command.image.length - sent : ℕ) := List.length_drop ▸ hsend.1
    obtain rfl : fds' = fds := hsend.2
    by_cases hn : 0 < n
    · rw [dif_pos hn]
      have hstep : ({ r with worker := .sending item sent } : Robot).workerStep (.sent n.toNat) =
          some { r with worker :=
            if sent + n.toNat < item.command.image.length then .sending item (sent + n.toNat)
            else .receiving item } := by
        rw [workerStep]
        exact if_pos ⟨by omega, by omega⟩
      by_cases hmore : sent + n.toNat < item.command.image.length
      · rw [if_pos hmore] at hstep
        refine (ih _ (by omega) hmore rfl).mono (fun _ _ => id) ?_
        rintro res fds'' ⟨rfl, ok, rfl, hreach⟩
        exact ⟨rfl, ok, rfl, (Reaches.refl _).tail trivial hstep |>.trans hreach⟩
      · rw [if_neg hmore] at hstep
        rw [sendLoop, dif_neg hmore]
        exact ⟨rfl, true, rfl, (Reaches.refl _).tail trivial hstep⟩
    · rw [dif_neg hn]
      have hstep : ({ r with worker := .sending item sent } : Robot).workerStep .sendFailed =
          some { r with worker := .failing item "Failed to send command to robot" } := rfl
      exact ⟨rfl, false, rfl, (Reaches.refl _).tail trivial hstep⟩

/-- **`receive_buffer`.** -/
theorem receiveBuffer_wp (conf : RobotConf) (item : RobotWorkItem) {fd : ℕ} (hfd : fd ∈ fds) :
    (receiveBuffer conf fd).Wp sockSem (· = ·) OnOpen
      (fun res fds' => fds' = fds ∧
        Reaches workerStep always { r with worker := .receiving item }
          { r with worker := afterSection item res }) fds := by
  have hfail : Reaches workerStep always { r with worker := .receiving item }
      { r with worker := .failing item "Failed to receive response from robot" } :=
    (Reaches.refl _).tail (l := .receiveFailed) trivial rfl
  refine Prog.wp_bind.mpr ((setTimeouts_wp conf.timeoutMs hfd).mono (fun _ _ => id) ?_)
  rintro _ fds' ⟨⟨ok, rfl⟩, rfl⟩
  refine invokeSock_wp hfd fun received fds'' hrecv => ?_
  obtain ⟨hlimit, rfl⟩ := hrecv
  cases received with
  | none => exact ⟨rfl, hfail⟩
  | some bytes =>
    dsimp only
    by_cases hbytes : bytes.length ≤ 0
    · rw [if_pos hbytes]
      exact ⟨rfl, hfail⟩
    · rw [if_neg hbytes]
      refine ⟨rfl, (Reaches.refl _).tail (l := .received bytes) trivial ?_⟩
      exact if_pos ⟨by omega, hlimit bytes rfl⟩

/-- **`send_and_receive`.** It leaves the descriptors as they are, and its result is where a run of
the worker thread ends. -/
theorem sendAndReceive_wp (conf : RobotConf) (hpc : r.worker = .starting item)
    (hr : r.SocketOk fds) :
    (r.sendAndReceive conf item.command).Wp sockSem (· = ·) OnOpen
      (fun res fds' => fds' = fds ∧
        Reaches workerStep always r { r with worker := afterSection item res }) fds := by
  have hstep : r.workerStep .advance =
      some { r with worker :=
        if r.socketFd.isSome then .sending item 0
        else .failing item "Robot session not active" } := by
    rw [workerStep, hpc]
  by_cases hfd : r.socketFd.isSome = true
  · obtain ⟨fd, hsome⟩ := Option.isSome_iff_exists.mp hfd
    have hmem : fd ∈ fds := by
      rw [hr.fds, hsome]
      simp
    have hlength : 0 < item.command.image.length := by
      rw [RapidRequest.length_image]
      omega
    have hprog : r.sendAndReceive conf item.command = (sendRequest fd item.command).bind fun ok =>
        if !ok then .throw "Failed to send command to robot" else receiveBuffer conf fd := by
      rw [sendAndReceive, hsome]
      rfl
    rw [if_pos hfd] at hstep
    rw [hprog]
    refine Prog.wp_bind.mpr ((sendLoop_wp (r := r) hmem hlength).mono (fun _ _ => id) ?_)
    rintro _ fds' ⟨rfl, ok, rfl, hsent⟩
    have hbegun := ((Reaches.refl r).tail trivial hstep).trans hsent
    cases ok with
    | false => exact ⟨rfl, hbegun⟩
    | true =>
      refine (receiveBuffer_wp (r := r) conf item hmem).mono (fun _ _ => id) ?_
      rintro res fds'' ⟨rfl, hreceived⟩
      exact ⟨rfl, hbegun.trans hreceived⟩
  · have hprog : r.sendAndReceive conf item.command = .throw "Robot session not active" := by
      rw [sendAndReceive, show r.socketFd = none by simpa using hfd]
    rw [if_neg hfd] at hstep
    rw [hprog]
    exact ⟨rfl, (Reaches.refl _).tail trivial hstep⟩

end Sections

end Robot

/-! ### The record -/

/-- What is seen of a descriptor, which is named by the number of its connection. -/
inductive SocketEvent
  /-- `connect_tcp` returns the descriptor, and it is stored. -/
  | obtained (fd : ℕ)
  | closed (fd : ℕ)
  /-- `send` or `recv` is called on `socket_fd_`. -/
  | used (fd : Option ℕ)
  /-- `stop_session` returns. -/
  | sessionStopped
deriving DecidableEq

/-- What is seen of one step of the worker thread. -/
def Robot.socketEvents (r : Robot) : WorkerEvent → List SocketEvent
  | .connected => [.obtained r.nextFd]
  | .advance =>
    match r.worker with
    | .failing _ _ => r.socketFd.toList.map .closed
    | _ => []
  | .sent _ | .sendFailed | .received _ | .receiveFailed => [.used r.socketFd]
  | .connectFailed | .heartbeat _ => []

/-- What is seen of a step of the threads. -/
def RobotSessions.socketObs (s : RobotSessions) : Label → List SocketEvent
  | .worker e => s.robot.socketEvents e
  | .join => s.robot.socketFd.toList.map .closed ++ [.sessionStopped]
  | _ => []

/-- The descriptors obtained from `connect_tcp`. -/
def obtainedFds (log : List SocketEvent) : List ℕ :=
  log.filterMap fun
    | .obtained fd => some fd
    | _ => none

/-- The descriptors closed. -/
def closedFds (log : List SocketEvent) : List ℕ :=
  log.filterMap fun
    | .closed fd => some fd
    | _ => none

/-- A descriptor is open. -/
def IsOpen (log : List SocketEvent) (fd : ℕ) : Prop := fd ∈ obtainedFds log ∧ fd ∉ closedFds log

/-- An entry of the record is in order after the entries `pre`. A descriptor is new, and it is
obtained when none is open; what is closed and what is used is open; and none is open when
`stop_session` returns. -/
def SocketEntryOk (pre : List SocketEvent) : SocketEvent → Prop
  | .obtained fd => fd ∉ obtainedFds pre ∧ ∀ fd', ¬ IsOpen pre fd'
  | .closed fd => IsOpen pre fd
  | .used fd => ∃ n, fd = some n ∧ IsOpen pre n
  | .sessionStopped => ∀ fd, ¬ IsOpen pre fd

section Record

variable {log log' : List SocketEvent} {fd : ℕ}

@[simp] theorem obtainedFds_append :
    obtainedFds (log ++ log') = obtainedFds log ++ obtainedFds log' := List.filterMap_append

@[simp] theorem closedFds_append :
    closedFds (log ++ log') = closedFds log ++ closedFds log' := List.filterMap_append

@[simp] theorem obtainedFds_closed (l : List ℕ) : obtainedFds (l.map .closed) = [] := by
  simp [obtainedFds]

@[simp] theorem closedFds_closed (l : List ℕ) : closedFds (l.map .closed) = l := by
  simp [closedFds]

end Record

/-! ### The moves of the worker thread -/

/-- `socket_mutex_` is held. The other critical sections are one step each. -/
def Robot.socketMutex (r : Robot) : Bool := r.worker.usesSocket

/-- What a step of the worker thread does to the descriptor, and what is seen of it. -/
inductive SocketMove (r : Robot) : List SocketEvent → Robot → Prop
  | quiet {r' : Robot} (hfd : r'.socketFd = r.socketFd) (hnext : r'.nextFd = r.nextFd)
      (hflag : r'.connected = r.connected)
      (huses : r'.worker.usesSocket = true → r.worker.usesSocket = true ∨ r.socketFd.isSome) :
      SocketMove r [] r'
  | connect {r' : Robot} (hnone : r.socketFd = none) (hfd : r'.socketFd = some r.nextFd)
      (hnext : r'.nextFd = r.nextFd + 1) (hflag : r'.connected = true) :
      SocketMove r [.obtained r.nextFd] r'
  | use {r' : Robot} (hfd : r'.socketFd = r.socketFd) (hnext : r'.nextFd = r.nextFd)
      (hflag : r'.connected = r.connected) (huses : r.worker.usesSocket = true) :
      SocketMove r [.used r.socketFd] r'
  | close {r' : Robot} (hfd : r'.socketFd = none) (hnext : r'.nextFd = r.nextFd)
      (hflag : r'.connected = false) (huses : r'.worker.usesSocket = false) :
      SocketMove r (r.socketFd.toList.map .closed) r'

/-- Outside the critical sections nothing is seen. -/
theorem SocketMove.calm {r r' : Robot} {es : List SocketEvent} (hes : es = [])
    (hfd : r'.socketFd = r.socketFd) (hnext : r'.nextFd = r.nextFd)
    (hflag : r'.connected = r.connected) (huses : r'.worker.usesSocket = false) :
    SocketMove r es r' := by
  subst hes
  refine .quiet hfd hnext hflag fun huses' => ?_
  rw [huses] at huses'
  cases huses'

/-- **The moves of the worker thread.** -/
theorem Robot.workerStep_socket {r r' : Robot} {e : WorkerEvent} (h : r.workerStep e = some r') :
    SocketMove r (r.socketEvents e) r' := by
  revert h
  fun_cases workerStep r e
  all_goals intro h
  all_goals try contradiction
  all_goals obtain rfl := Option.some.inj h
  case case9 item hpc =>
    rw [show r.socketEvents .advance = [] by simp [socketEvents, hpc]]
    refine .quiet rfl rfl rfl fun huses => .inr ?_
    by_contra hnone
    rw [if_neg hnone] at huses
    cases huses
  case case11 item what hpc =>
    rw [show r.socketEvents .advance = r.socketFd.toList.map .closed by simp [socketEvents, hpc]]
    exact .close rfl rfl rfl rfl
  case case14 hpc => exact .connect hpc.2 rfl rfl rfl
  case case20 n item sent hpc hn => exact .use rfl rfl rfl (by rw [hpc]; rfl)
  case case23 item sent hpc => exact .use rfl rfl rfl (by rw [hpc]; rfl)
  case case25 bytes item hpc hn => exact .use rfl rfl rfl (by rw [hpc]; rfl)
  case case28 item hpc => exact .use rfl rfl rfl (by rw [hpc]; rfl)
  all_goals
    refine .calm (by simp [socketEvents, *]) (by simp) (by simp) (by simp) ?_
    first
    | rfl
    | split <;> rfl

/-- **The moves of all threads.** What `stop_session` closes, it closes before it returns. -/
theorem RobotSessions.step_socket {s s' : RobotSessions} {l : Label} (h : s.step l = some s') :
    SocketMove s.robot (s.socketObs l) s'.robot ∨
      l = .join ∧ SocketMove s.robot (s.robot.socketFd.toList.map .closed) s'.robot := by
  have hsame : SocketMove s.robot [] s.robot := .quiet rfl rfl rfl .inl
  cases step_move h with
  | start hidle =>
    show SocketMove s.robot [] s.robot.startSession ∨ _
    refine .inl ?_
    by_cases hrunning : s.robot.running = true
    · rw [Robot.startSession, if_pos hrunning]
      exact hsame
    · rw [Robot.startSession, if_neg hrunning]
      exact .calm rfl rfl rfl rfl rfl
  | stop => exact .inl (.quiet rfl rfl rfl .inl)
  | join _ hstopped =>
    refine .inr ⟨rfl, .close rfl rfl rfl ?_⟩
    show s.robot.worker.usesSocket = false
    rw [hstopped]
    rfl
  | accept => exact .inl hsame
  | refuse => exact .inl hsame
  | push => exact .inl (.quiet rfl rfl rfl .inl)
  | worker e r hmove => exact .inl (Robot.workerStep_socket hmove)

/-! ### The life of a descriptor -/

/-- What the descriptor, the flag and the record have to do with each other. -/
structure SocketsOk (r : Robot) (log : List SocketEvent) : Prop where
  flag : r.connected = r.socketFd.isSome
  uses : r.socketMutex = true → r.socketFd.isSome
  numbers : obtainedFds log = List.range r.nextFd
  /-- All are closed but the one that is stored. -/
  stored : obtainedFds log = closedFds log ++ r.socketFd.toList
  entries : EachEntry SocketEntryOk log

theorem socketsOk_initial : SocketsOk {} [] where
  flag := rfl
  uses := by
    intro huses
    cases huses
  numbers := rfl
  stored := rfl
  entries := eachEntry_nil _

namespace SocketsOk

variable {r r' : Robot} {log es : List SocketEvent}

theorem nodup (hr : SocketsOk r log) : (closedFds log ++ r.socketFd.toList).Nodup := by
  rw [← hr.stored, hr.numbers]
  exact List.nodup_range

/-- What is stored is what is open. -/
theorem isOpen_iff (hr : SocketsOk r log) {fd : ℕ} : IsOpen log fd ↔ r.socketFd = some fd := by
  obtain ⟨-, -, hdisjoint⟩ := List.nodup_append.mp hr.nodup
  rw [IsOpen, hr.stored, List.mem_append, Option.mem_toList]
  constructor
  · rintro ⟨hclosed | hstored, hnot⟩
    · exact absurd hclosed hnot
    · exact hstored
  · intro hstored
    refine ⟨.inr hstored, fun hclosed => ?_⟩
    exact hdisjoint fd hclosed fd (by simp [hstored]) rfl

/-- A descriptor is closed once, or it is still stored. -/
theorem count_closedFds (hr : SocketsOk r log) {fd : ℕ} (hfd : fd ∈ obtainedFds log) :
    (closedFds log).count fd = if r.socketFd = some fd then 0 else 1 := by
  obtain ⟨hclosed, -, -⟩ := List.nodup_append.mp hr.nodup
  by_cases hstored : r.socketFd = some fd
  · rw [if_pos hstored]
    exact List.count_eq_zero_of_not_mem (hr.isOpen_iff.mpr hstored).2
  · rw [if_neg hstored]
    rw [hr.stored, List.mem_append, Option.mem_toList] at hfd
    exact List.count_eq_one_of_mem hclosed (hfd.resolve_right hstored)

/-- The descriptor and the flag are left alone. -/
theorem congr (hr : SocketsOk r log) (hfd : r'.socketFd = r.socketFd)
    (hnext : r'.nextFd = r.nextFd) (hflag : r'.connected = r.connected)
    (huses : r'.socketMutex = true → r.socketFd.isSome) : SocketsOk r' log where
  flag := by
    rw [hflag, hfd]
    exact hr.flag
  uses := by
    rw [hfd]
    exact huses
  numbers := by
    rw [hnext]
    exact hr.numbers
  stored := by
    rw [hfd]
    exact hr.stored
  entries := hr.entries

/-- Nothing is obtained or closed. -/
theorem snoc {e : SocketEvent} (hr : SocketsOk r log) (hobtained : obtainedFds [e] = [])
    (hclosed : closedFds [e] = []) (hentry : SocketEntryOk log e) : SocketsOk r (log ++ [e]) where
  flag := hr.flag
  uses := hr.uses
  numbers := by
    rw [obtainedFds_append, hobtained, List.append_nil]
    exact hr.numbers
  stored := by
    rw [obtainedFds_append, closedFds_append, hobtained, hclosed, List.append_nil, List.append_nil]
    exact hr.stored
  entries := hr.entries.snoc hentry

/-- **Step lemma.** -/
theorem step (hr : SocketsOk r log) (hmove : SocketMove r es r') : SocketsOk r' (log ++ es) := by
  cases hmove with
  | quiet hfd hnext hflag huses =>
    rw [List.append_nil]
    exact hr.congr hfd hnext hflag fun huses' => (huses huses').elim hr.uses id
  | connect hnone hfd hnext hflag =>
    have hnew : r.nextFd ∉ obtainedFds log := by
      rw [hr.numbers, List.mem_range]
      exact lt_irrefl _
    refine ⟨?_, fun _ => ?_, ?_, ?_, hr.entries.snoc ⟨hnew, fun fd hopen => ?_⟩⟩
    · rw [hflag, hfd]
      rfl
    · rw [hfd]
      rfl
    · rw [obtainedFds_append, hr.numbers, hnext, List.range_succ]
      rfl
    · rw [obtainedFds_append, closedFds_append, hr.stored, hnone, hfd]
      simp [obtainedFds, closedFds]
    · rw [hr.isOpen_iff, hnone] at hopen
      cases hopen
  | use hfd hnext hflag huses =>
    obtain ⟨fd, hstored⟩ := Option.isSome_iff_exists.mp (hr.uses huses)
    have hkept := hr.congr hfd hnext hflag fun _ => hr.uses huses
    exact hkept.snoc rfl rfl ⟨fd, hstored, hr.isOpen_iff.mpr hstored⟩
  | close hfd hnext hflag huses =>
    refine ⟨?_, fun huses' => ?_, ?_, ?_, ?_⟩
    · rw [hflag, hfd]
      rfl
    · rw [Robot.socketMutex, huses] at huses'
      cases huses'
    · rw [obtainedFds_append, obtainedFds_closed, List.append_nil, hr.numbers, hnext]
    · rw [obtainedFds_append, closedFds_append, obtainedFds_closed, closedFds_closed,
        hr.stored, hfd]
      simp
    · cases hstored : r.socketFd with
      | none => simpa using hr.entries
      | some fd => exact hr.entries.snoc (hr.isOpen_iff.mpr hstored)

end SocketsOk

namespace RobotSessions

/-- **Run lemma.** -/
theorem socketsOk_reaches {s : RobotSessions} {log : List SocketEvent}
    (h : Reaches (logged step socketObs) (unlogged always) (initial, []) (s, log)) :
    s.Ok ∧ SocketsOk s.robot log := by
  refine h.logged_invariant (I := fun s log => s.Ok ∧ SocketsOk s.robot log)
    ⟨ok_initial, socketsOk_initial⟩ ?_
  rintro s log l s' ⟨hs, hsockets⟩ - hstep
  refine ⟨hs.step hstep, ?_⟩
  rcases step_socket hstep with hmove | ⟨rfl, hmove⟩
  · exact hsockets.step hmove
  · have hclosed := hsockets.step hmove
    have hreturns : s'.robot.socketFd = none := by
      rw [step, Option.ite_none_right_eq_some] at hstep
      obtain rfl := Option.some.inj hstep.2
      rfl
    have hentry : SocketEntryOk (log ++ s.robot.socketFd.toList.map .closed) .sessionStopped := by
      intro fd hopen
      rw [hclosed.isOpen_iff, hreturns] at hopen
      cases hopen
    rw [socketObs, ← List.append_assoc]
    exact hclosed.snoc rfl rfl hentry

/-- **The life of every descriptor.** In every run, when `socket_mutex_` is free the flag is set if
and only if `socket_fd_` is an open descriptor, and no other descriptor is ever open. A descriptor
that is obtained is new, and every earlier one has been closed by then; one that is closed is open,
so each is closed once, the one that is stored not yet; `send` and `recv` are called on an open one;
and none is open when `stop_session` returns. -/
theorem sockets_reaches {s : RobotSessions} {log : List SocketEvent}
    (h : Reaches (logged step socketObs) (unlogged always) (initial, []) (s, log)) :
    (s.robot.socketMutex = false →
      (s.robot.connected = true ↔ ∃ fd, s.robot.socketFd = some fd ∧ IsOpen log fd)) ∧
    (∀ fd, IsOpen log fd ↔ s.robot.socketFd = some fd) ∧
    (∀ fd ∈ obtainedFds log,
      (closedFds log).count fd = if s.robot.socketFd = some fd then 0 else 1) ∧
    EachEntry SocketEntryOk log := by
  have hsockets := (socketsOk_reaches h).2
  refine ⟨fun _ => ?_, fun fd => hsockets.isOpen_iff, fun fd => hsockets.count_closedFds,
    hsockets.entries⟩
  rw [hsockets.flag, Option.isSome_iff_exists]
  constructor
  · rintro ⟨fd, hfd⟩
    exact ⟨fd, hfd, hsockets.isOpen_iff.mpr hfd⟩
  · rintro ⟨fd, hfd, -⟩
    exact ⟨fd, hfd⟩

/-- A session that connects, fails and connects again, is stopped, and stopped again. -/
def reconnectLabels : List Label :=
  connectLabels ++ [.queue .zero, .push, .worker .advance, .worker .advance, .worker .sendFailed,
    .worker .advance, .worker .advance, .worker .advance, .worker .advance, .worker .connected,
    .stop, .worker .advance, .join, .stop, .join]

set_option maxRecDepth 4000 in
theorem sockets_reaches_reconnect :
    ∃ s log, Reaches (logged step socketObs) (unlogged always) (initial, []) (s, log) ∧
      obtainedFds log = [0, 1] ∧ (closedFds log).count 0 = 1 ∧ (closedFds log).count 1 = 1 := by
  have hrun : ∃ s log, runLabels (logged step socketObs) (unlogged always) (initial, [])
      reconnectLabels = some (s, log) ∧ obtainedFds log = [0, 1] ∧ s.robot.socketFd = none :=
    ⟨_, _, rfl, by decide, rfl⟩
  obtain ⟨s, log, hs, hobtained, hnone⟩ := hrun
  have hreach := Reaches.of_runLabels hs
  have hcount := (sockets_reaches hreach).2.2.1
  rw [hobtained, hnone] at hcount
  exact ⟨s, log, hreach, hobtained, hcount 0 (by decide), hcount 1 (by decide)⟩

/-- A critical section that begins in a reachable state begins with the flag, the descriptor and
what is open as they should be. -/
theorem socketOk_reaches {s : RobotSessions} (h : Reaches step always initial s) :
    s.robot.SocketOk s.robot.socketFd.toFinset := by
  obtain ⟨log, hlogged⟩ := h.exists_logged socketObs []
  exact ⟨(socketsOk_reaches hlogged).2.flag, rfl⟩

end RobotSessions

end RobertMiddleware

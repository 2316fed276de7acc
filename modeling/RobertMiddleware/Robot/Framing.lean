import RobertMiddleware.Internal.FramedStream
import RobertMiddleware.Robot.Sessions

/-!
# What goes over a connection

`send_request` writes the 188 bytes of a request in a loop, and `send` may take any part of them
or fail. An observer of the worker thread writes down which requests it takes, which bytes go over
which connection, and what `send_request` returns.

On every connection there are whole requests, and at most one that was cut. A send or a receive
that fails is the end of its connection: the exception handler closes the socket before the worker
thread takes another request.

## Main definitions

* `WireEvent`, `Robot.wireEvents` — what is written down
* `bytesOn`, `sentOn` — the bytes and the requests that went over a connection
* `Robot.place` — where the worker thread stands on a connection

## Main results

* `Robot.workerStep_wire` — the moves of the worker thread on the wire
* `RobotSessions.framed_reaches` — the framing holds in every run
-/

namespace RobertMiddleware

open FramedStream Transition

/-! ### The record -/

/-- What is seen of the worker thread. A connection is named by its number, `none` if there was
none. -/
inductive WireEvent
  /-- A request is taken from the queue, or a heartbeat is made. -/
  | took (request : RapidRequest)
  /-- `send` takes these bytes. -/
  | wrote (fd : Option ℕ) (bytes : Bytes)
  /-- `send_request` returns. -/
  | returned (fd : Option ℕ) (request : RapidRequest) (ok : Bool)
  /-- A `send` or a `recv` fails. -/
  | failed (fd : Option ℕ)
deriving DecidableEq

/-- What is seen of one step of the worker thread. -/
def Robot.wireEvents (r : Robot) : WorkerEvent → List WireEvent
  | .advance =>
    if r.worker = .queueWait ∧ r.running then
      r.requestQueue.head?.toList.map fun item => .took item.command
    else []
  | .heartbeat junk => [.took { junk with commandId := RapidCommandType.pingR.toUInt8 }]
  | .sent n =>
    match r.worker with
    | .sending item sent =>
      .wrote r.socketFd ((item.command.image.drop sent).take n) ::
        if sent + n < item.command.image.length then []
        else [.returned r.socketFd item.command true]
    | _ => []
  | .sendFailed =>
    match r.worker with
    | .sending item _ => [.returned r.socketFd item.command false, .failed r.socketFd]
    | _ => []
  | .receiveFailed => [.failed r.socketFd]
  | _ => []

/-- What is seen of a step of the threads. -/
def RobotSessions.wireObs (s : RobotSessions) : Label → List WireEvent
  | .worker e => s.robot.wireEvents e
  | _ => []

/-- The bytes that went over the connection `fd`. -/
def bytesOn (fd : ℕ) (log : List WireEvent) : Bytes :=
  log.flatMap fun
    | .wrote fd' bytes => if fd' = some fd then bytes else []
    | _ => []

/-- The requests for which `send_request` returned true on the connection `fd`. -/
def sentOn (fd : ℕ) (log : List WireEvent) : List RapidRequest :=
  log.filterMap fun
    | .returned fd' request true => if fd' = some fd then some request else none
    | _ => none

/-- The requests for which it returned true, on whatever connection. -/
def sentRequests (log : List WireEvent) : List RapidRequest :=
  log.filterMap fun
    | .returned _ request true => some request
    | _ => none

/-- The requests taken. -/
def takenRequests (log : List WireEvent) : List RapidRequest :=
  log.filterMap fun
    | .took request => some request
    | _ => none

section Record

variable {fd : ℕ} {log log' : List WireEvent}

@[simp] theorem bytesOn_append :
    bytesOn fd (log ++ log') = bytesOn fd log ++ bytesOn fd log' := List.flatMap_append

@[simp] theorem sentOn_append :
    sentOn fd (log ++ log') = sentOn fd log ++ sentOn fd log' := List.filterMap_append

@[simp] theorem sentRequests_append :
    sentRequests (log ++ log') = sentRequests log ++ sentRequests log' := List.filterMap_append

@[simp] theorem takenRequests_append :
    takenRequests (log ++ log') = takenRequests log ++ takenRequests log' :=
  List.filterMap_append

end Record

/-! ### The moves of the worker thread -/

/-- Where the worker thread stands on the connection that is open. -/
def WorkerPc.place : WorkerPc → Place RapidRequest
  | .sending item sent => .inside item.command sent
  | .failing _ _ => .ended
  | _ => .between

/-- It calls `send` or `recv`. -/
def WorkerPc.usesSocket : WorkerPc → Bool
  | .sending _ _ | .receiving _ => true
  | _ => false

/-- Where it stands on the connection `fd`. -/
def Robot.place (r : Robot) (fd : ℕ) : Place RapidRequest :=
  if r.socketFd = some fd then r.worker.place else .ended

/-- What a step of the worker thread does on the wire, and what is seen of it. -/
inductive WireMove (r : Robot) : List WireEvent → Robot → Prop
  | quiet {r' : Robot} (hnext : r'.nextFd = r.nextFd) (hfd : r'.socketFd = r.socketFd)
      (hplace : ∀ fd, r'.place fd = r.place fd)
      (hunsent : r'.worker.unsent.toList.Sublist r.worker.unsent.toList)
      (huses : r'.worker.usesSocket = true → r.worker.usesSocket = true) : WireMove r [] r'
  | take {r' : Robot} (item : RobotWorkItem) (hnext : r'.nextFd = r.nextFd)
      (hfd : r'.socketFd = r.socketFd) (hpc : r.worker = .queueWait)
      (hpc' : r'.worker = .starting item) : WireMove r [.took item.command] r'
  | begin (item : RobotWorkItem) (fd : ℕ) (hpc : r.worker = .starting item)
      (hfd : r.socketFd = some fd) : WireMove r [] { r with worker := .sending item 0 }
  | connect (hpc : r.worker = .connecting) (hfd : r.socketFd = none) :
      WireMove r [] { r with
        socketFd := some r.nextFd, nextFd := r.nextFd + 1, connected := true
        worker := .queueWait }
  | write (item : RobotWorkItem) (k n : ℕ) (hpc : r.worker = .sending item k)
      (hn : k + n < item.command.image.length) :
      WireMove r [.wrote r.socketFd ((item.command.image.drop k).take n)]
        { r with worker := .sending item (k + n) }
  | finish (item : RobotWorkItem) (k n : ℕ) (hpc : r.worker = .sending item k)
      (hn : k + n = item.command.image.length) :
      WireMove r [.wrote r.socketFd ((item.command.image.drop k).take n),
        .returned r.socketFd item.command true] { r with worker := .receiving item }
  | sendFail (item : RobotWorkItem) (k : ℕ) (what : String) (hpc : r.worker = .sending item k) :
      WireMove r [.returned r.socketFd item.command false, .failed r.socketFd]
        { r with worker := .failing item what }
  | receiveFail (item : RobotWorkItem) (what : String) (hpc : r.worker = .receiving item) :
      WireMove r [.failed r.socketFd] { r with worker := .failing item what }
  | close {r' : Robot} (hnext : r'.nextFd = r.nextFd) (hfd : r'.socketFd = none)
      (hunsent : r'.worker.unsent = none) (huses : r'.worker.usesSocket = false) : WireMove r [] r'

/-- The worker thread moves between two requests, or from a request to its answer. -/
theorem WireMove.calm {r r' : Robot} {es : List WireEvent} (hes : es = [])
    (hnext : r'.nextFd = r.nextFd) (hfd : r'.socketFd = r.socketFd)
    (hplace : r.worker.place = .between) (hplace' : r'.worker.place = .between)
    (hunsent : r'.worker.unsent = none) (huses : r'.worker.usesSocket = false) :
    WireMove r es r' := by
  subst hes
  refine .quiet hnext hfd (fun fd => ?_) ?_ ?_
  · rw [Robot.place, Robot.place, hfd, hplace, hplace']
  · rw [hunsent]
    exact List.nil_sublist _
  · intro huses'
    rw [huses] at huses'
    cases huses'

/-- **The moves on the wire.** -/
theorem Robot.workerStep_wire {r r' : Robot} {e : WorkerEvent} (h : r.workerStep e = some r') :
    WireMove r (r.wireEvents e) r' := by
  revert h
  fun_cases workerStep r e
  all_goals intro h
  all_goals try contradiction
  all_goals obtain rfl := Option.some.inj h
  case case6 hpc hrunning item rest hqueue =>
    have hseen : r.wireEvents .advance = [.took item.command] := by
      simp [wireEvents, hpc, hqueue, hrunning]
    rw [hseen]
    exact .take item rfl rfl hpc rfl
  case case9 item hpc =>
    rw [show r.wireEvents .advance = [] by simp [wireEvents, hpc]]
    by_cases hfd : r.socketFd.isSome = true
    · obtain ⟨fd, hfd'⟩ := Option.isSome_iff_exists.mp hfd
      rw [if_pos hfd]
      exact .begin item fd hpc hfd'
    · rw [if_neg hfd]
      have hnone : r.socketFd = none := by simpa using hfd
      refine .quiet rfl rfl (fun fd => ?_) ?_ ?_
      · simp [place, hnone]
      · simp [WorkerPc.unsent]
      · intro huses
        cases huses
  case case11 item what hpc =>
    rw [show r.wireEvents .advance = [] by simp [wireEvents, hpc]]
    exact .close rfl rfl rfl rfl
  case case14 hpc => exact .connect hpc.1 hpc.2
  case case18 junk hpc command =>
    exact .take ⟨command, none⟩ rfl rfl hpc.1 rfl
  case case20 n item sent hpc hn =>
    have hseen : r.wireEvents (.sent n) =
        .wrote r.socketFd ((item.command.image.drop sent).take n) ::
          if sent + n < item.command.image.length then []
          else [.returned r.socketFd item.command true] := by
      simp only [wireEvents, hpc]
    rw [hseen]
    by_cases hpart : sent + n < item.command.image.length
    · rw [if_pos hpart, if_pos hpart]
      exact .write item sent n hpc hpart
    · rw [if_neg hpart, if_neg hpart]
      exact .finish item sent n hpc (by omega)
  case case23 item sent hpc =>
    have hseen : r.wireEvents .sendFailed =
        [.returned r.socketFd item.command false, .failed r.socketFd] := by
      simp only [wireEvents, hpc]
    rw [hseen]
    exact .sendFail item sent _ hpc
  case case28 item hpc => exact .receiveFail item _ hpc
  all_goals
    refine .calm (by simp [wireEvents, *]) (by simp) (by simp) (by simp [WorkerPc.place, *])
      ?_ ?_ ?_
    all_goals
      first
      | rfl
      | split <;> rfl

/-- **The moves of all threads on the wire.** -/
theorem RobotSessions.step_wire {s s' : RobotSessions} {l : Label} (hs : s.Ok)
    (h : s.step l = some s') : WireMove s.robot (s.wireObs l) s'.robot := by
  have hsame : WireMove s.robot [] s.robot :=
    .quiet rfl rfl (fun _ => rfl) (List.Sublist.refl _) fun h => h
  cases step_move h with
  | start hidle =>
    show WireMove s.robot [] s.robot.startSession
    by_cases hrunning : s.robot.running = true
    · rw [Robot.startSession, if_pos hrunning]
      exact hsame
    · have hstopped := hs.worker (Bool.eq_false_iff.mpr hrunning) (Bool.eq_false_iff.mpr hidle)
      rw [Robot.startSession, if_neg hrunning]
      exact .calm rfl rfl rfl (by rw [hstopped]; rfl) rfl rfl rfl
  | stop => exact .quiet rfl rfl (fun _ => rfl) (List.Sublist.refl _) fun h => h
  | join _ hstopped =>
    refine .close rfl rfl ?_ ?_
    · show s.robot.worker.unsent = none
      rw [hstopped]
      rfl
    · show s.robot.worker.usesSocket = false
      rw [hstopped]
      rfl
  | accept => exact hsame
  | refuse => exact hsame
  | push => exact .quiet rfl rfl (fun _ => rfl) (List.Sublist.refl _) fun h => h
  | worker e r hmove => exact Robot.workerStep_wire hmove

/-! ### The framing -/

/-- An entry of the record is in order after the entries `pre`. What is written goes over a
connection on which nothing has failed, and `send_request` returns true exactly when the bytes that
it has written are all of the request. -/
def EntryOk (pre : List WireEvent) : WireEvent → Prop
  | .wrote fd _ => ∃ n, fd = some n ∧ .failed (some n) ∉ pre
  | .returned fd request ok => ∃ n part, fd = some n ∧
      bytesOn n pre = (sentOn n pre).flatMap RapidRequest.image ++ part ∧
      part <+: request.image ∧ (ok = true ↔ part = request.image)
  | _ => True

/-- What the worker thread and the record have to do with each other. -/
structure FrameOk (r : Robot) (log : List WireEvent) : Prop where
  holds : ∀ fd, Holds RapidRequest.image (· ∈ takenRequests log) (sentOn fd log) (bytesOn fd log)
    (r.place fd)
  /-- The request in hand has been taken, and is not sent yet. -/
  taken : (sentRequests log ++ r.worker.unsent.toList.map RobotWorkItem.command).Sublist
    (takenRequests log)
  uses : r.worker.usesSocket = true → r.socketFd ≠ none
  below : ∀ fd, r.socketFd = some fd → fd < r.nextFd
  /-- A connection that was never made. -/
  fresh : ∀ fd, r.nextFd ≤ fd → bytesOn fd log = [] ∧ sentOn fd log = [] ∧
    .failed (some fd) ∉ log
  failed : ∀ fd, .failed (some fd) ∈ log → r.place fd = .ended
  entries : EachEntry EntryOk log

theorem frameOk_initial : FrameOk {} [] where
  holds := by
    intro fd
    exact ⟨[], rfl, .inl rfl⟩
  taken := List.Sublist.refl _
  uses := by
    intro huses
    cases huses
  below := by
    intro fd hfd
    cases hfd
  fresh := by
    intro fd _
    exact ⟨rfl, rfl, List.not_mem_nil⟩
  failed := by
    intro fd hfailed
    cases hfailed
  entries := eachEntry_nil _

section FrameOk

variable {r r' : Robot} {log es : List WireEvent}

/-- Nothing is seen, and the worker thread stands where it stood or nowhere. -/
theorem FrameOk.silent (hr : FrameOk r log) (hnext : r'.nextFd = r.nextFd)
    (hfd : ∀ fd, r'.socketFd = some fd → r.socketFd = some fd)
    (hplace : ∀ fd, r'.place fd = r.place fd ∨ r'.place fd = .ended)
    (hunsent : r'.worker.unsent.toList.Sublist r.worker.unsent.toList)
    (huses : r'.worker.usesSocket = true → r'.socketFd ≠ none) : FrameOk r' log where
  holds := by
    intro fd
    rcases hplace fd with hsame | hended
    · rw [hsame]
      exact hr.holds fd
    · rw [hended]
      exact (hr.holds fd).stop
  taken := (List.Sublist.append_left (hunsent.map _) _).trans hr.taken
  uses := huses
  below := by
    intro fd hopen
    rw [hnext]
    exact hr.below fd (hfd fd hopen)
  fresh := by
    intro fd hfresh
    exact hr.fresh fd (hnext ▸ hfresh)
  failed := by
    intro fd hfailed
    rcases hplace fd with hsame | hended
    · exact hsame.trans (hr.failed fd hfailed)
    · exact hended
  entries := hr.entries

/-- The worker thread moves on the open connection `n`, and what is seen is seen there. -/
theorem FrameOk.onSocket (hr : FrameOk r log) {n : ℕ} (hfd : r.socketFd = some n)
    (hfd' : r'.socketFd = some n) (hnext : r'.nextFd = r.nextFd)
    (hes : ∀ fd, fd ≠ n → bytesOn fd es = [] ∧ sentOn fd es = [] ∧ .failed (some fd) ∉ es)
    (htook : takenRequests es = [])
    (hholds : Holds RapidRequest.image (· ∈ takenRequests log) (sentOn n log ++ sentOn n es)
      (bytesOn n log ++ bytesOn n es) r'.worker.place)
    (htaken : (sentRequests es ++ r'.worker.unsent.toList.map RobotWorkItem.command).Sublist
      (r.worker.unsent.toList.map RobotWorkItem.command))
    (hfailed : .failed (some n) ∈ log ++ es → r'.worker.place = .ended)
    (hentries : EachEntry EntryOk (log ++ es)) : FrameOk r' (log ++ es) where
  holds := by
    intro fd
    rw [takenRequests_append, htook, List.append_nil, sentOn_append, bytesOn_append]
    rcases eq_or_ne fd n with rfl | hne
    · rw [Robot.place, if_pos hfd']
      exact hholds
    · have hended : ∀ r'' : Robot, r''.socketFd = some n → r''.place fd = .ended := by
        intro r'' h
        rw [Robot.place, h, if_neg]
        simpa using hne.symm
      have hold := hr.holds fd
      rw [hended r hfd] at hold
      rw [hended r' hfd', (hes fd hne).1, (hes fd hne).2.1, List.append_nil, List.append_nil]
      exact hold
  taken := by
    rw [takenRequests_append, htook, List.append_nil, sentRequests_append, List.append_assoc]
    exact (List.Sublist.append_left htaken _).trans hr.taken
  uses := by
    intro _ hnone
    rw [hfd'] at hnone
    cases hnone
  below := by
    intro fd hopen
    rw [hnext]
    exact hr.below fd (hfd.trans (hfd'.symm.trans hopen))
  fresh := by
    intro fd hfresh
    rw [hnext] at hfresh
    have hne : fd ≠ n := by
      have hlt := hr.below n hfd
      omega
    obtain ⟨hbytes, hsent, hnot⟩ := hr.fresh fd hfresh
    refine ⟨?_, ?_, ?_⟩
    · rw [bytesOn_append, hbytes, (hes fd hne).1, List.append_nil]
    · rw [sentOn_append, hsent, (hes fd hne).2.1, List.append_nil]
    · intro hmem
      rcases List.mem_append.mp hmem with hold | hnew
      · exact hnot hold
      · exact (hes fd hne).2.2 hnew
  failed := by
    intro fd hmem
    rcases eq_or_ne fd n with rfl | hne
    · rw [Robot.place, if_pos hfd']
      exact hfailed hmem
    · rw [Robot.place, hfd', if_neg]
      simpa using hne.symm
  entries := hentries

/-- Nothing has failed on a connection where the worker thread still stands. -/
theorem FrameOk.not_failed (hr : FrameOk r log) {n : ℕ} (hfd : r.socketFd = some n)
    (hplace : r.worker.place ≠ .ended) : .failed (some n) ∉ log := by
  intro hmem
  have hended := hr.failed n hmem
  rw [Robot.place, if_pos hfd] at hended
  exact hplace hended

/-- The connection in use, and what it holds. -/
theorem FrameOk.socket (hr : FrameOk r log) (huses : r.worker.usesSocket = true) :
    ∃ n, r.socketFd = some n ∧ Holds RapidRequest.image (· ∈ takenRequests log) (sentOn n log)
      (bytesOn n log) r.worker.place := by
  obtain ⟨n, hfd⟩ := Option.ne_none_iff_exists'.mp (hr.uses huses)
  refine ⟨n, hfd, ?_⟩
  have hholds := hr.holds n
  rwa [Robot.place, if_pos hfd] at hholds

/-- The connection over which a request is sent. -/
theorem FrameOk.inside {item : RobotWorkItem} {k : ℕ} (hr : FrameOk r log)
    (hpc : r.worker = .sending item k) :
    ∃ n, r.socketFd = some n ∧ .failed (some n) ∉ log ∧
      Holds RapidRequest.image (· ∈ takenRequests log) (sentOn n log) (bytesOn n log)
        (.inside item.command k) := by
  obtain ⟨n, hfd, hholds⟩ := hr.socket (by rw [hpc]; rfl)
  rw [hpc] at hholds
  refine ⟨n, hfd, hr.not_failed hfd ?_, hholds⟩
  rw [hpc]
  simp [WorkerPc.place]

theorem FrameOk.take {item : RobotWorkItem} (hr : FrameOk r log) (hnext : r'.nextFd = r.nextFd)
    (hfd : r'.socketFd = r.socketFd) (hpc : r.worker = .queueWait)
    (hpc' : r'.worker = .starting item) : FrameOk r' (log ++ [.took item.command]) where
  holds := by
    intro fd
    have hplace : r'.place fd = r.place fd := by
      rw [Robot.place, Robot.place, hfd, hpc, hpc']
      rfl
    have hsame : bytesOn fd [.took item.command] = [] ∧ sentOn fd [.took item.command] = [] :=
      ⟨rfl, rfl⟩
    rw [hplace, sentOn_append, bytesOn_append, hsame.1, hsame.2, List.append_nil, List.append_nil]
    refine (hr.holds fd).mono fun request hrequest => ?_
    rw [takenRequests_append]
    exact List.mem_append_left _ hrequest
  taken := by
    have htaken := hr.taken
    rw [hpc] at htaken
    rw [hpc', sentRequests_append, takenRequests_append]
    simpa [WorkerPc.unsent, sentRequests, takenRequests] using htaken
  uses := by
    intro huses
    rw [hpc'] at huses
    cases huses
  below := by
    intro fd hopen
    rw [hnext]
    exact hr.below fd (hfd.symm.trans hopen)
  fresh := by
    intro fd hfresh
    obtain ⟨hbytes, hsent, hnot⟩ := hr.fresh fd (hnext ▸ hfresh)
    refine ⟨?_, ?_, ?_⟩
    · rw [bytesOn_append, hbytes]
      rfl
    · rw [sentOn_append, hsent]
      rfl
    · simpa using hnot
  failed := by
    intro fd hmem
    have hended := hr.failed fd (by simpa using hmem)
    rw [Robot.place, hpc] at hended
    rw [Robot.place, hfd, hpc']
    exact hended
  entries := hr.entries.snoc trivial

/-- The request in hand is one that was taken. -/
theorem FrameOk.known (hr : FrameOk r log) {item : RobotWorkItem}
    (hitem : r.worker.unsent = some item) : item.command ∈ takenRequests log := by
  refine hr.taken.subset (List.mem_append_right _ ?_)
  rw [hitem]
  simp

theorem FrameOk.begin {item : RobotWorkItem} {n : ℕ} (hr : FrameOk r log)
    (hpc : r.worker = .starting item) (hfd : r.socketFd = some n) :
    FrameOk { r with worker := .sending item 0 } log := by
  have hholds := hr.holds n
  rw [Robot.place, if_pos hfd, hpc] at hholds
  have hnot := hr.not_failed hfd (by rw [hpc]; simp [WorkerPc.place])
  suffices hstep : FrameOk { r with worker := .sending item 0 } (log ++ []) by
    rwa [List.append_nil] at hstep
  refine hr.onSocket hfd hfd rfl (fun _ _ => ⟨rfl, rfl, List.not_mem_nil⟩) rfl ?_ ?_ ?_ ?_
  · simp only [sentOn, bytesOn, List.filterMap_nil, List.flatMap_nil, List.append_nil]
    exact hholds.begin (hr.known (by rw [hpc]; rfl)) (by rw [RapidRequest.length_image]; omega)
  · rw [hpc]
    exact List.Sublist.refl _
  · intro hmem
    rw [List.append_nil] at hmem
    exact absurd hmem hnot
  · rw [List.append_nil]
    exact hr.entries

theorem FrameOk.connect (hr : FrameOk r log) (hpc : r.worker = .connecting)
    (hfd : r.socketFd = none) :
    FrameOk { r with
      socketFd := some r.nextFd, nextFd := r.nextFd + 1, connected := true
      worker := .queueWait } log where
  holds := by
    intro fd
    rcases eq_or_ne fd r.nextFd with rfl | hne
    · obtain ⟨hbytes, hsent, -⟩ := hr.fresh r.nextFd le_rfl
      rw [Robot.place, if_pos rfl, hbytes, hsent]
      rfl
    · have hold := hr.holds fd
      rw [Robot.place, hfd, if_neg (by simp)] at hold
      rw [Robot.place, if_neg (by simpa using hne.symm)]
      exact hold
  taken := by
    have htaken := hr.taken
    rw [hpc] at htaken
    exact htaken
  uses := by
    intro huses
    cases huses
  below := by
    intro fd hopen
    obtain rfl := Option.some.inj hopen
    exact Nat.lt_succ_self _
  fresh := by
    intro fd hfresh
    exact hr.fresh fd (Nat.le_of_succ_le hfresh)
  failed := by
    intro fd hfailed
    rcases eq_or_ne fd r.nextFd with rfl | hne
    · exact absurd hfailed (hr.fresh r.nextFd le_rfl).2.2
    · rw [Robot.place, if_neg (by simpa using hne.symm)]
  entries := hr.entries

theorem FrameOk.write {item : RobotWorkItem} {k m : ℕ} (hr : FrameOk r log)
    (hpc : r.worker = .sending item k) (hm : k + m < item.command.image.length) :
    FrameOk { r with worker := .sending item (k + m) }
      (log ++ [.wrote r.socketFd ((item.command.image.drop k).take m)]) := by
  obtain ⟨n, hfd, hnot, hholds⟩ := hr.inside hpc
  rw [hfd]
  refine hr.onSocket hfd rfl rfl ?_ rfl ?_ ?_ ?_ ?_
  · intro fd hne
    refine ⟨?_, rfl, ?_⟩
    · simp [bytesOn, hne.symm]
    · simp
  · have hwrite := hholds.write hm
    simpa [sentOn, bytesOn, WorkerPc.place] using hwrite
  · rw [hpc]
    exact List.Sublist.refl _
  · intro hmem
    exact absurd (by simpa using hmem) hnot
  · have hwrote : EntryOk log (.wrote (some n) ((item.command.image.drop k).take m)) :=
      ⟨n, rfl, hnot⟩
    exact hr.entries.snoc hwrote

theorem FrameOk.finish {item : RobotWorkItem} {k m : ℕ} (hr : FrameOk r log)
    (hpc : r.worker = .sending item k) (hm : k + m = item.command.image.length) :
    FrameOk { r with worker := .receiving item }
      (log ++ [.wrote r.socketFd ((item.command.image.drop k).take m),
        .returned r.socketFd item.command true]) := by
  obtain ⟨n, hfd, hnot, hholds⟩ := hr.inside hpc
  rw [hfd]
  refine hr.onSocket hfd rfl rfl ?_ rfl ?_ ?_ ?_ ?_
  · intro fd hne
    refine ⟨?_, ?_, ?_⟩
    · simp [bytesOn, hne.symm]
    · simp [sentOn, hne.symm]
    · simp
  · have hfinish := hholds.finish hm
    simpa [sentOn, bytesOn, WorkerPc.place] using hfinish
  · rw [hpc]
    exact List.Sublist.refl _
  · intro hmem
    exact absurd (by simpa using hmem) hnot
  · have hwrote : EntryOk log (.wrote (some n) ((item.command.image.drop k).take m)) :=
      ⟨n, rfl, hnot⟩
    have hreturned : EntryOk (log ++ [.wrote (some n) ((item.command.image.drop k).take m)])
        (.returned (some n) item.command true) := by
      refine ⟨n, item.command.image, rfl, ?_, List.prefix_refl _, by simp⟩
      have hwhole := hholds.finish hm
      simpa [sentOn, bytesOn, Holds] using hwhole
    rw [← List.singleton_append, ← List.append_assoc]
    exact (hr.entries.snoc hwrote).snoc hreturned

theorem FrameOk.sendFail {item : RobotWorkItem} {k : ℕ} (what : String) (hr : FrameOk r log)
    (hpc : r.worker = .sending item k) :
    FrameOk { r with worker := .failing item what }
      (log ++ [.returned r.socketFd item.command false, .failed r.socketFd]) := by
  obtain ⟨n, hfd, -, hholds⟩ := hr.inside hpc
  rw [hfd]
  refine hr.onSocket hfd rfl rfl ?_ rfl ?_ ?_ ?_ ?_
  · intro fd hne
    refine ⟨rfl, rfl, ?_⟩
    simpa using hne
  · simpa [sentOn, bytesOn, WorkerPc.place] using hholds.stop
  · exact List.nil_sublist _
  · intro _
    rfl
  · have hreturned : EntryOk log (.returned (some n) item.command false) := by
      obtain ⟨-, hk, hbytes⟩ := hholds
      refine ⟨n, _, rfl, hbytes, List.take_prefix k _, ?_⟩
      simpa using take_ne hk
    rw [← List.singleton_append, ← List.append_assoc]
    exact (hr.entries.snoc hreturned).snoc trivial

theorem FrameOk.receiveFail {item : RobotWorkItem} (what : String) (hr : FrameOk r log)
    (hpc : r.worker = .receiving item) :
    FrameOk { r with worker := .failing item what } (log ++ [.failed r.socketFd]) := by
  obtain ⟨n, hfd, hholds⟩ := hr.socket (by rw [hpc]; rfl)
  rw [hfd]
  refine hr.onSocket hfd rfl rfl ?_ rfl ?_ ?_ ?_ ?_
  · intro fd hne
    refine ⟨rfl, rfl, ?_⟩
    simpa using hne
  · simpa [sentOn, bytesOn, WorkerPc.place] using hholds.stop
  · exact List.nil_sublist _
  · intro _
    rfl
  · exact hr.entries.snoc trivial

theorem FrameOk.step (hr : FrameOk r log) (hmove : WireMove r es r') :
    FrameOk r' (log ++ es) := by
  cases hmove with
  | quiet hnext hfd hplace hunsent huses =>
    rw [List.append_nil]
    refine hr.silent hnext (fun fd => by rw [hfd]; exact id) (fun fd => .inl (hplace fd)) hunsent ?_
    intro huses'
    rw [hfd]
    exact hr.uses (huses huses')
  | close hnext hfd hunsent huses =>
    rw [List.append_nil]
    refine hr.silent hnext (fun fd hopen => ?_) (fun fd => .inr ?_) ?_ ?_
    · rw [hfd] at hopen
      cases hopen
    · simp [Robot.place, hfd]
    · rw [hunsent]
      exact List.nil_sublist _
    · intro huses'
      rw [huses] at huses'
      cases huses'
  | take item hnext hfd hpc hpc' => exact hr.take hnext hfd hpc hpc'
  | begin item n hpc hfd =>
    rw [List.append_nil]
    exact hr.begin hpc hfd
  | connect hpc hfd =>
    rw [List.append_nil]
    exact hr.connect hpc hfd
  | write item k n hpc hn => exact hr.write hpc hn
  | finish item k n hpc hn => exact hr.finish hpc hn
  | sendFail item k what hpc => exact hr.sendFail what hpc
  | receiveFail item what hpc => exact hr.receiveFail what hpc

end FrameOk

theorem sentOn_subset {fd : ℕ} {log : List WireEvent} : sentOn fd log ⊆ sentRequests log := by
  intro request hmem
  obtain ⟨ev, hev, hsent⟩ := List.mem_filterMap.mp hmem
  refine List.mem_filterMap.mpr ⟨ev, hev, ?_⟩
  cases ev with
  | returned fd' request' ok =>
    cases ok with
    | false => cases hsent
    | true => exact (Option.ite_none_right_eq_some.mp hsent).2
  | _ => cases hsent

namespace RobotSessions

/-- **Run lemma.** -/
theorem frameOk_reaches {s : RobotSessions} {log : List WireEvent}
    (h : Reaches (logged step wireObs) (unlogged always) (initial, []) (s, log)) :
    s.Ok ∧ FrameOk s.robot log := by
  refine h.logged_invariant (I := fun s log => s.Ok ∧ FrameOk s.robot log)
    ⟨ok_initial, frameOk_initial⟩ ?_
  rintro s log l s' ⟨hs, hframe⟩ - hstep
  exact ⟨hs.step hstep, hframe.step (step_wire hs hstep)⟩

/-- **Outgoing framing.** In every run, the bytes on each connection are the images of whole
requests, each of 188 bytes and each of a request that was taken, and then at most a proper first
part of one more; over all connections the whole requests are in the order in which they were taken,
each once. Whatever `send_request` returns, it returns true if and only if the bytes that it wrote
are all of the request, and nothing is written on a connection after a send or a receive has failed
on it. -/
theorem framed_reaches {s : RobotSessions} {log : List WireEvent}
    (h : Reaches (logged step wireObs) (unlogged always) (initial, []) (s, log)) :
    (∀ fd, Framed RapidRequest.image (· ∈ takenRequests log) (sentOn fd log) (bytesOn fd log) ∧
      ∀ request ∈ sentOn fd log, request ∈ takenRequests log ∧ request.image.length = 188) ∧
    (sentRequests log).Sublist (takenRequests log) ∧ EachEntry EntryOk log := by
  have hframe := (frameOk_reaches h).2
  have htaken : (sentRequests log).Sublist (takenRequests log) :=
    (List.sublist_append_left _ _).trans hframe.taken
  refine ⟨fun fd => ⟨(hframe.holds fd).framed, fun request hmem => ?_⟩, htaken, hframe.entries⟩
  exact ⟨htaken.subset (sentOn_subset hmem), request.length_image⟩

/-- One request is written in two parts and answered, and the next is cut after ten bytes. -/
def cutLabels : List Label :=
  connectLabels ++ [.queue .zero, .push, .queue .zero, .push, .worker .advance, .worker .advance,
    .worker (.sent 100), .worker (.sent 88), .worker (.received (ascii "ACK")), .worker .advance,
    .worker .advance, .worker .advance, .worker .advance, .worker .advance, .worker (.sent 10),
    .worker .sendFailed]

set_option maxRecDepth 4000 in
theorem framed_reaches_cut :
    ∃ s log, Reaches (logged step wireObs) (unlogged always) (initial, []) (s, log) ∧
      sentOn 0 log = [.zero] ∧ (bytesOn 0 log).length = 198 ∧
      Framed RapidRequest.image (· ∈ takenRequests log) (sentOn 0 log) (bytesOn 0 log) := by
  have hrun : (runLabels (logged step wireObs) (unlogged always) (initial, []) cutLabels).any
      fun s => sentOn 0 s.2 = [.zero] ∧ (bytesOn 0 s.2).length = 198 := by decide +kernel
  obtain ⟨⟨s, log⟩, hs, hend⟩ := Option.any_eq_true .. |>.mp hrun
  obtain ⟨hsent, hlength⟩ := of_decide_eq_true hend
  exact ⟨s, log, .of_runLabels hs, hsent, hlength, ((framed_reaches (.of_runLabels hs)).1 0).1⟩

end RobotSessions

end RobertMiddleware

import RobertMiddleware.Cell.Cell
import RobertMiddleware.Rapid.Zones

/-!
# From `send_request` to `parse_message`

The controller takes what one `SocketReceive` returns for one request. As long as each of them
returns the 188 bytes of a request, what the controller takes up on a connection are the first
requests that went over it, whatever parts `send` took them in and wherever the connection was cut.

The middleware makes one connection after the other, and the controller serves them in that order.
So over all connections the controller takes up some of the requests sent, in their order, each at
most once, although it may still be at one of the last connection when the next is open.

## Main definitions

* `Cell.WholeRequest` — a `SocketReceive` returns 188 bytes
* `Cell.DeliveryOk` — the bytes on the connections, and what was taken from them
* `SentOk` — the connections are used one after the other

## Main results

* `Cell.delivered_reaches` — the controller takes up what was sent
* `Cell.executed_reaches` — what it does for each request are runs of `parse_message`
-/

namespace RobertMiddleware

open Effects FramedStream Transition
open Rapid (Calls Controller Errno RapidEvent RapidServer RapidSystem)

/-! ### The requests sent, with their connections -/

/-- The requests that `send_request` has sent as a whole, each with its connection. -/
def sentEntries (log : List WireEvent) : List (ℕ × RapidRequest) :=
  log.filterMap fun
    | .returned (some fd) request true => some (fd, request)
    | _ => none

section Record

variable {fd : ℕ} {log log' : List WireEvent}

@[simp] theorem sentEntries_append :
    sentEntries (log ++ log') = sentEntries log ++ sentEntries log' := List.filterMap_append

theorem sentOn_eq : sentOn fd log = ((sentEntries log).filter (·.1 = fd)).map Prod.snd := by
  induction log with
  | nil => rfl
  | cons ev log ih =>
    have hsplit : ∀ log', ev :: log' = [ev] ++ log' := fun _ => rfl
    rw [hsplit, sentOn_append, sentEntries_append, List.filter_append, List.map_append, ih]
    congr 1
    cases ev with
    | returned fd' request ok =>
      cases fd' with
      | none => cases ok <;> rfl
      | some fd' => cases ok <;> by_cases hfd : fd' = fd <;> simp [sentOn, sentEntries, hfd]
    | _ => rfl

/-- Under one key only the values differ. -/
theorem filter_fst_eq {α : Type} (l : List (ℕ × α)) (fd : ℕ) :
    l.filter (·.1 = fd) = ((l.filter (·.1 = fd)).map Prod.snd).map (Prod.mk fd) := by
  conv_lhs => rw [← List.map_id (l.filter (·.1 = fd))]
  rw [List.map_map]
  refine List.map_congr_left fun x hx => ?_
  rw [← of_decide_eq_true (List.mem_filter.mp hx).2]
  rfl

/-- `send_request` returns true on a connection. -/
theorem sentRequests_eq (h : ∀ request, .returned none request true ∉ log) :
    sentRequests log = (sentEntries log).map Prod.snd := by
  rw [sentRequests, sentEntries, List.map_filterMap]
  refine List.filterMap_congr fun ev hev => ?_
  cases ev with
  | returned fd request ok =>
    cases ok with
    | false => cases fd <;> rfl
    | true =>
      cases fd with
      | none => exact absurd hev (h request)
      | some fd => rfl
  | _ => rfl

end Record

/-- The connections are used one after the other. -/
structure SentOk (r : Robot) (log : List WireEvent) : Prop where
  last : ∀ fd, r.socketFd = some fd → fd + 1 = r.nextFd
  below : ∀ x ∈ sentEntries log, x.1 < r.nextFd
  sorted : ((sentEntries log).map Prod.fst).Pairwise (· ≤ ·)

theorem sentOk_initial : SentOk {} [] := ⟨nofun, nofun, .nil⟩

section SentOk

variable {r r' : Robot} {log es : List WireEvent}

/-- Nothing more is sent. -/
theorem SentOk.silent (hr : SentOk r log) (hes : sentEntries es = [])
    (hnext : r'.nextFd = r.nextFd) (hfd : ∀ fd, r'.socketFd = some fd → r.socketFd = some fd) :
    SentOk r' (log ++ es) := by
  refine ⟨fun fd hopen => (hr.last fd (hfd fd hopen)).trans hnext.symm, ?_, ?_⟩
  · rw [sentEntries_append, hes, List.append_nil, hnext]
    exact hr.below
  · rw [sentEntries_append, hes, List.append_nil]
    exact hr.sorted

theorem SentOk.step (hr : SentOk r log) (hmove : WireMove r es r') : SentOk r' (log ++ es) := by
  cases hmove with
  | quiet hnext hfd => exact hr.silent rfl hnext fun fd hopen => hfd.symm.trans hopen
  | take _ hnext hfd => exact hr.silent rfl hnext fun fd hopen => hfd.symm.trans hopen
  | close hnext hfd => exact hr.silent rfl hnext fun fd hopen => by rw [hfd] at hopen; cases hopen
  | connect =>
    rw [List.append_nil]
    refine ⟨fun fd hopen => ?_, fun x hx => (hr.below x hx).trans (Nat.lt_succ_self _), hr.sorted⟩
    obtain rfl := Option.some.inj hopen
    rfl
  | finish item k n =>
    cases hfd : r.socketFd with
    | none => exact hr.silent rfl rfl fun fd hopen => by rw [← hopen, hfd]
    | some fd =>
      have hlast := hr.last fd hfd
      refine ⟨fun fd' hopen => hr.last fd' (hfd.trans hopen), ?_, ?_⟩
      · rw [sentEntries_append]
        intro x hx
        rcases List.mem_append.mp hx with hold | hnew
        · exact hr.below x hold
        · obtain rfl : x = (fd, item.command) := by simpa [sentEntries] using hnew
          show fd < r.nextFd
          omega
      · rw [sentEntries_append, List.map_append, List.pairwise_append]
        refine ⟨hr.sorted, by simp [sentEntries], fun a ha b hb => ?_⟩
        obtain ⟨x, hx, rfl⟩ := List.mem_map.mp ha
        obtain rfl : b = fd := by simpa [sentEntries] using hb
        have hlt := hr.below x hx
        omega
  | sendFail => exact hr.silent (by cases r.socketFd <;> rfl) rfl fun _ => id
  | _ => exact hr.silent rfl rfl fun _ => id

end SentOk

/-! ### The bytes on the connections -/

namespace Rapid.RapidServer

/-- What `SocketReceive` has returned on a connection. -/
def receivedOn (fd : ℕ) (s : RapidServer) : List Bytes :=
  (s.received.filter (·.1 = fd)).map Prod.snd

variable {r : Robot} {e : WorkerEvent} {s s' : RapidServer}

theorem bytesOn_sent (fd n : ℕ) : bytesOn fd (r.wireEvents (.sent n)) =
    match r.worker with
    | .sending item sent =>
      if r.socketFd = some fd then (item.command.image.drop sent).take n else []
    | _ => [] := by
  cases hpc : r.worker with
  | _ => simp [Robot.wireEvents, hpc, bytesOn]

theorem bytesOn_wireEvents_advance {fd : ℕ} : bytesOn fd (r.wireEvents .advance) = [] := by
  rw [Robot.wireEvents]
  split
  · cases r.requestQueue.head? <;> rfl
  · rfl

theorem afterWorker_eq (h : s.afterWorker r e = some s') :
    (∀ fd, s'.requests fd = s.requests fd ++ bytesOn fd (r.wireEvents e)) ∧ s.SameWork s' := by
  revert h
  fun_cases afterWorker r e s
  all_goals intro h
  all_goals try contradiction
  all_goals obtain rfl := Option.some.inj h
  case case1 n item sent fd hpc hfd =>
    refine ⟨fun fd' => ?_, ⟨rfl, rfl, rfl, rfl⟩⟩
    rw [bytesOn_sent]
    rcases eq_or_ne fd' fd with rfl | hne
    · simp [hpc, hfd]
    · simp [hpc, hfd, hne, hne.symm]
  case case2 => exact ⟨fun _ => (List.append_nil _).symm, ⟨rfl, rfl, rfl, rfl⟩⟩
  case case4 hsend _ =>
    refine ⟨fun fd => ?_, ⟨rfl, rfl, rfl, rfl⟩⟩
    have hnone : bytesOn fd (r.wireEvents e) = [] := by
      cases e with
      | sent n =>
        rw [bytesOn_sent]
        split
        · rename_i item sent hpc
          exact if_neg fun hfd => hsend n item sent fd rfl hpc hfd
        · rfl
      | advance => exact bytesOn_wireEvents_advance
      | sendFailed =>
        rw [Robot.wireEvents]
        split <;> rfl
      | _ => rfl
    rw [hnone, List.append_nil]

end Rapid.RapidServer

namespace Cell

/-- If the step is a `SocketReceive`, it returns as many bytes as a request has. -/
def WholeRequest (_ : Cell) : Label → Prop
  | .controller (.receive bytes) => bytes.length = 188
  | _ => True

instance (s : Cell) : ∀ l, Decidable (WholeRequest s l)
  | .controller (.receive _) => inferInstanceAs (Decidable (_ = _))
  | .middleware _ | .controller .accept | .controller (.receiveError _) | .controller (.call _ _)
  | .controller .advance | .controller (.drift _) => .isTrue trivial

/-- What is on the connections, and what the controller has taken from them. -/
structure DeliveryOk (s : Cell) (log : List WireEvent) : Prop where
  conns : s.controller.ConnsOk s.sessions.robot.nextFd
  bytes : ∀ fd, bytesOn fd log =
    (s.controller.receivedOn fd).flatten ++ s.controller.requests fd
  whole : ∀ x ∈ s.controller.received, x.2.length = 188
  sent : SentOk s.sessions.robot log

theorem deliveryOk_initial (vars : Controller) : DeliveryOk (initial vars) [] :=
  ⟨⟨le_rfl, nofun, nofun, .nil⟩, fun _ => rfl, nofun, sentOk_initial⟩

variable {R : RapidSystem} {errSockTimeout : Errno} {s s' : Cell} {l : Label}
  {log : List WireEvent}

/-- The middleware only puts bytes on the connections, and takes some. -/
theorem afterMiddleware_eq {l : RobotSessions.Label} {controller : RapidServer}
    (h : s.afterMiddleware l = some controller) :
    (∀ fd, controller.requests fd =
      s.controller.requests fd ++ bytesOn fd (s.sessions.wireObs l)) ∧
    s.controller.SameWork controller := by
  cases l with
  | worker e => exact RapidServer.afterWorker_eq h
  | _ =>
    obtain rfl := Option.some.inj h
    exact ⟨fun fd => (List.append_nil _).symm, ⟨rfl, rfl, rfl, rfl⟩⟩

theorem DeliveryOk.step (hs : DeliveryOk s log) (hok : s.sessions.Ok) (hwhole : WholeRequest s l)
    (h : s.step R errSockTimeout l = some s') : DeliveryOk s' (log ++ s.wireObs l) := by
  cases step_move h with
  | middleware l sessions controller hmove hafter =>
    have hwire := RobotSessions.step_wire hok hmove
    obtain ⟨hrequests, hsame⟩ := afterMiddleware_eq hafter
    refine ⟨(hsame.conns hs.conns).mono hwire.nextFd_le, fun fd => ?_, ?_, hs.sent.step hwire⟩
    · rw [bytesOn_append, hs.bytes, hrequests, RapidServer.receivedOn, RapidServer.receivedOn,
        hsame.received, List.append_assoc]
      rfl
    · rw [hsame.received]
      exact hs.whole
  | controller ev controller hmove =>
    rw [show s.wireObs (.controller ev) = [] from rfl, List.append_nil]
    have hreceived := RapidServer.received_step hmove
    refine ⟨hs.conns.step hmove, fun fd => ?_, ?_, hs.sent⟩
    · rw [hs.bytes, RapidServer.requests_step hmove, RapidServer.receivedOn,
        RapidServer.receivedOn, hreceived, List.filter_append, List.map_append,
        List.flatten_append, List.append_assoc, List.flatMap_def]
    · rw [hreceived]
      intro x hx
      rcases List.mem_append.mp hx with hold | hnew
      · exact hs.whole x hold
      · cases ev with
        | receive bytes =>
          cases hpc : s.controller.pc with
          | receiving conn =>
            simp only [RapidServer.receives, hpc, List.mem_singleton] at hnew
            rw [hnew]
            exact hwhole
          | _ => simp [RapidServer.receives, hpc] at hnew
        | _ => cases hnew

/-- **Run lemma.** -/
theorem deliveryOk_reaches {vars : Controller}
    (h : Reaches (logged (step R errSockTimeout) wireObs) (unlogged WholeRequest)
      (initial vars, []) (s, log)) : DeliveryOk s log := by
  refine (h.logged_invariant (I := fun t log => t.sessions.Ok ∧ DeliveryOk t log)
    ⟨RobotSessions.ok_initial, deliveryOk_initial vars⟩ ?_).2
  rintro t log l t' ⟨hok, ht⟩ hwhole hstep
  refine ⟨?_, ht.step hok hwhole hstep⟩
  cases step_move hstep with
  | middleware _ _ _ hmove => exact hok.step hmove
  | controller => exact hok

/-- On one connection. -/
theorem receivedOn_begins {vars : Controller}
    (h : Reaches (logged (step R errSockTimeout) wireObs) (unlogged WholeRequest)
      (initial vars, []) (s, log)) (fd : ℕ) :
    s.controller.receivedOn fd <+: (sentOn fd log).map RapidRequest.image := by
  have hs := deliveryOk_reaches h
  have hframed := ((RobotSessions.frameOk_reaches (connection_reaches h)).2.holds fd).framed
  rw [hs.bytes] at hframed
  refine hframed.chunks (n := 188) (by decide) RapidRequest.length_image fun raw hraw => ?_
  obtain ⟨x, hx, rfl⟩ := List.mem_map.mp hraw
  exact hs.whole x (List.mem_of_mem_filter hx)

/-- Over all connections. -/
theorem taken_sublist {vars : Controller}
    (h : Reaches (logged (step R errSockTimeout) wireObs) (unlogged WholeRequest)
      (initial vars, []) (s, log)) :
    (s.controller.taken.map Rapid.Execution.raw).Sublist
      ((sentRequests log).map RapidRequest.image) := by
  have hs := deliveryOk_reaches h
  have hframe := (RobotSessions.frameOk_reaches (connection_reaches h)).2
  have hsublist : s.controller.received.Sublist
      ((sentEntries log).map fun x => (x.1, x.2.image)) := by
    refine sublist_of_fibres Prod.fst hs.conns.sorted ?_ fun fd => ?_
    · rw [List.map_map]
      exact hs.sent.sorted
    · have hentries : ((sentEntries log).map fun x => (x.1, x.2.image)).filter (·.1 = fd) =
          ((sentOn fd log).map RapidRequest.image).map (Prod.mk fd) := by
        rw [filter_fst_eq, List.filter_map, sentOn_eq]
        simp only [List.map_map]
        rfl
      rw [hentries, filter_fst_eq]
      exact (receivedOn_begins h fd).sublist.map (Prod.mk fd)
  have hnone : ∀ request, .returned none request true ∉ log := by
    intro request hmem
    obtain ⟨pre, post, hsplit⟩ := List.append_of_mem hmem
    obtain ⟨n, part, hfd, -⟩ := hframe.entries pre _ post hsplit
    cases hfd
  rw [sentRequests_eq hnone, List.map_map]
  have hraws := hsublist.map Prod.snd
  rwa [RapidServer.received, List.map_map, List.map_map] at hraws

/-- **The controller takes up what was sent.** In every run in which each `SocketReceive` returns as
many bytes as a request has: what the controller has taken up on a connection are the first of the
requests that `send_request` has sent on it, and over all connections it takes up some of the
requests sent, in the order in which they were sent, each at most once. -/
theorem delivered_reaches {vars : Controller}
    (h : Reaches (logged (step R errSockTimeout) wireObs) (unlogged WholeRequest)
      (initial vars, []) (s, log)) :
    (∀ fd, s.controller.receivedOn fd <+: (sentOn fd log).map RapidRequest.image) ∧
      (s.controller.taken.map Rapid.Execution.raw).Sublist
        ((sentRequests log).map RapidRequest.image) :=
  ⟨receivedOn_begins h, taken_sublist h⟩

/-- **What it does is what `parse_message` does.** In every such run, each request that the
controller is done with is one that was sent on the connection it came from, and the calls made for
it are those of runs of `parse_message` on the image of the request. -/
theorem executed_reaches {vars : Controller}
    (h : Reaches (logged (step R errSockTimeout) wireObs) (unlogged WholeRequest)
      (initial vars, []) (s, log)) :
    ∀ x ∈ s.controller.executions, ∃ request ∈ sentOn x.conn log, x.raw = request.image ∧
      RapidServer.Attempts R errSockTimeout request.image x.calls := by
  have hexecuted : s.controller.ExecutedOk R errSockTimeout := by
    refine h.of_logged.invariant (I := fun t => t.controller.ExecutedOk R errSockTimeout)
      ⟨nofun, nofun⟩ ?_
    intro t l t' ht _ hstep
    cases step_move hstep with
    | middleware l sessions controller hmove hafter =>
      exact (afterMiddleware_eq hafter).2.executed ht
    | controller ev controller hmove => exact ht.step hmove
  intro x hx
  have hmem : x.raw ∈ s.controller.receivedOn x.conn := by
    refine List.mem_map.mpr ⟨x.request, List.mem_filter.mpr ⟨?_, by simp [Rapid.Execution.request]⟩,
      rfl⟩
    exact List.mem_map_of_mem (List.mem_append_left _ hx)
  obtain ⟨request, hsent, himage⟩ :=
    List.mem_map.mp ((receivedOn_begins h x.conn).subset hmem)
  refine ⟨request, hsent, himage.symm, ?_⟩
  rw [himage]
  exact hexecuted.executions x hx

/-! ### A run -/

/-- The request of a ping. -/
def pingRequest : RapidRequest :=
  { RapidRequest.zero with commandId := RapidCommandType.pingR.toUInt8 }

/-- A ping is queued, and written in two parts. -/
def pingLabels : List RobotSessions.Label :=
  RobotSessions.connectLabels ++ [.queue pingRequest, .push, .worker .advance, .worker .advance,
    .worker (.sent 100), .worker (.sent 88)]

/-- The next call is answered by a robot at rest. -/
def benchCall : RapidEvent :=
  .call (fun op => (Rapid.rapidStep (fun _ => none) op .bench).1) .bench

/-- The ping goes over the connection, and is answered. -/
def pongLabels : List Label :=
  pingLabels.map .middleware ++
    [.accept, .receive pingRequest.image, benchCall, benchCall, .advance].map .controller

/-- The middleware receives the answer, and sends the request for the zero position, which is
answered, too. -/
def pongZeroLabels : List Label :=
  pongLabels ++ [.middleware (.worker (.received (ascii "ACK|PONGRUWU"))),
      .middleware (.worker .advance), .middleware (.queue Rapid.zeroRequest), .middleware .push] ++
    List.replicate 4 (.middleware (.worker .advance)) ++
    [.middleware (.worker (.sent 188)), .controller (.receive Rapid.zeroRequest.image)] ++
    List.replicate 5 (.controller benchCall) ++ [.controller .advance]

theorem pongZeroLabels_run :
    ∃ s log, Reaches (logged (step .bench 0) wireObs) (unlogged WholeRequest)
      (initial .bench, []) (s, log) ∧ sentRequests log = [pingRequest, Rapid.zeroRequest] ∧
      s.controller.executions.map Rapid.Execution.raw =
        [pingRequest.image, Rapid.zeroRequest.image] ∧
      s.controller.responses 0 = ascii "ACK|ZERO" := by
  have hrun : (runLabels (logged (step .bench 0) wireObs) (unlogged WholeRequest)
      (initial .bench, []) pongZeroLabels).any fun s =>
        sentRequests s.2 = [pingRequest, Rapid.zeroRequest] ∧
        s.1.controller.executions.map Rapid.Execution.raw =
          [pingRequest.image, Rapid.zeroRequest.image] ∧
        s.1.controller.responses 0 = ascii "ACK|ZERO" := by decide +kernel
  obtain ⟨⟨s, log⟩, hs, hend⟩ := Option.any_eq_true .. |>.mp hrun
  exact ⟨s, log, .of_runLabels hs, of_decide_eq_true hend⟩

theorem delivered_reaches_zero :
    ∃ s : Cell, s.controller.executions.map Rapid.Execution.raw =
        [pingRequest.image, Rapid.zeroRequest.image] ∧
      s.controller.responses 0 = ascii "ACK|ZERO" ∧
      (s.controller.taken.map Rapid.Execution.raw).Sublist
        [pingRequest.image, Rapid.zeroRequest.image] := by
  obtain ⟨s, log, hs, hsent, hexecuted, hresponse⟩ := pongZeroLabels_run
  have hsublist := (delivered_reaches hs).2
  rw [hsent] at hsublist
  exact ⟨s, hexecuted, hresponse, hsublist⟩

theorem executed_reaches_zero :
    ∃ (s : Cell) (log : List WireEvent) (x : Rapid.Execution), x ∈ s.controller.executions ∧
      x.raw = Rapid.zeroRequest.image ∧ ∃ request ∈ sentOn x.conn log, x.raw = request.image ∧
        RapidServer.Attempts .bench 0 request.image x.calls := by
  obtain ⟨s, log, hs, -, hexecuted, -⟩ := pongZeroLabels_run
  have hmem : Rapid.zeroRequest.image ∈ s.controller.executions.map Rapid.Execution.raw := by
    rw [hexecuted]
    exact List.mem_cons_of_mem _ (List.mem_singleton_self _)
  obtain ⟨x, hx, hraw⟩ := List.mem_map.mp hmem
  exact ⟨s, log, x, hx, hraw, executed_reaches hs x hx⟩

end Cell

end RobertMiddleware

import RobertMiddleware.Internal.Transition
import RobertMiddleware.Robot.Promises

/-!
# Replies and requests

The robot connection together with the controller at the other end. The controller answers every
request it receives in full with one reply of 1 to 255 bytes, in order, on the byte stream of the
connection; `recv` returns some first part of the bytes that have arrived. A connection that is
closed takes its requests and replies with it.

The worker thread calls `recv` once for each request. It pairs replies with requests as long as
every `recv` returns all of the reply; what it leaves behind is taken for the reply to the next
request.

## Main definitions

* `Link.step` — one step of the connection, its users or the controller
* `Link.WholeReply` — a `recv` returns everything the controller has sent
* `Link.Answered` — a value is the controller's reply to the request of a promise

## Main results

* `Link.paired_reaches` — then every promise gets the reply to its own request, or an error message
* `Link.paired_fails` — a reply received in two parts
-/

namespace RobertMiddleware

open Transition

/-- The robot connection, the controller, and the stream between them. -/
structure Link where
  robot : Robot := {}
  /-- What the controller has received on this connection and not answered, oldest first. -/
  pending : List RobotWorkItem := []
  /-- What the controller has sent on this connection and `recv` has not returned. -/
  inbound : Bytes := []
  /-- A record of the controller's replies, each under the promise of the request. -/
  replies : List (ℕ × Bytes) := []

inductive LinkLabel
  /-- Another thread queues a request. -/
  | queue (request : RapidRequest)
  | worker (e : WorkerEvent)
  /-- The controller answers the oldest request. -/
  | reply (bytes : Bytes)
  | startSession
  /-- The two parts of `stop_session`. -/
  | clearRunning
  | closeSession

namespace Link

/-- What the step of the worker thread to `robot` does to the stream. -/
def afterWorker (s : Link) (e : WorkerEvent) (robot : Robot) : Link :=
  match e, robot.worker with
  | .connected, _ => { s with robot, pending := [], inbound := [] }
  | .sent _, .receiving item => { s with robot, pending := s.pending ++ [item] }
  | .received bytes, _ => { s with robot, inbound := s.inbound.drop bytes.length }
  | _, _ => { s with robot }

/-- `recv` returns bytes from the front of the stream. -/
def Possible (s : Link) : WorkerEvent → Bool
  | .received bytes => bytes.isPrefixOf s.inbound
  | _ => true

/-- One step. -/
def step (s : Link) : LinkLabel → Option Link
  | .queue request => some { s with robot := (s.robot.pushRequest request).2 }
  | .worker e => if s.Possible e then (s.robot.workerStep e).map (s.afterWorker e) else none
  | .reply bytes =>
    match s.pending with
    | [] => none
    | item :: rest =>
      if s.robot.socketFd.isSome ∧ 0 < bytes.length ∧ bytes.length ≤ 255 then
        some { s with
          pending := rest
          inbound := s.inbound ++ bytes
          replies := s.replies ++ (item.responsePromise.map fun p => (p, bytes)).toList }
      else none
  | .startSession =>
    if s.robot.worker = .stopped then some { s with robot := s.robot.startSession } else none
  | .clearRunning => some { s with robot := s.robot.clearRunning }
  | .closeSession =>
    if s.robot.worker = .stopped then some { s with robot := s.robot.closeSession } else none

/-- If the step is a `recv`, it returns all that the controller has sent. -/
def WholeReply (s : Link) (l : LinkLabel) : Prop :=
  match l with
  | .worker (.received bytes) => bytes = s.inbound
  | _ => True

instance (s : Link) (l : LinkLabel) : Decidable (WholeReply s l) := by
  unfold WholeReply
  split <;> infer_instance

/-! ### The invariant -/

/-- `value` is the controller's reply to the request in `item`, if that has a promise. -/
def Answered (s : Link) (item : RobotWorkItem) (value : Bytes) : Prop :=
  ∀ p, item.responsePromise = some p → (p, value) ∈ s.replies

/-- What is on the stream, by what the worker thread is doing. -/
def StreamOk (s : Link) : Prop :=
  match s.robot.worker with
  | .sending _ _ => s.pending = [] ∧ s.inbound = []
  | .receiving item =>
    (s.pending = [item] ∧ s.inbound = []) ∨ (s.pending = [] ∧ s.Answered item s.inbound)
  | .responding item value => s.pending = [] ∧ s.inbound = [] ∧ s.Answered item value
  -- the connection is about to be closed
  | .failing _ _ => True
  | _ => s.robot.socketFd.isSome → s.pending = [] ∧ s.inbound = []

/-- Every value set on a promise is the reply to its request, or an error message. -/
def Paired (s : Link) : Prop :=
  ∀ e ∈ s.robot.responses, e ∈ s.replies ∨ ascii "ERR: " <+: e.2

theorem streamOk_worker {s s' : Link} {e : WorkerEvent} (hs : StreamOk s)
    (hwhole : WholeReply s (.worker e)) (h : s.step (.worker e) = some s') : StreamOk s' := by
  rw [step] at h
  split at h
  · rename_i hpossible
    obtain ⟨r, hstep, rfl⟩ := Option.map_eq_some_iff.mp h
    clear h
    revert hstep
    fun_cases Robot.workerStep s.robot e
    all_goals intro hstep
    all_goals try contradiction
    all_goals obtain rfl := Option.some.inj hstep
    case case1 => by_cases hrun : s.robot.running <;> simp_all [StreamOk, afterWorker]
    case case2 => by_cases hconn : s.robot.connected <;> simp_all [StreamOk, afterWorker]
    case case9 => by_cases hfd : s.robot.socketFd.isSome <;> simp_all [StreamOk, afterWorker]
    case case20 n item sent hw hn =>
      simp only [StreamOk, hw] at hs
      by_cases hpart : sent + n < item.command.image.length
      · rw [if_pos hpart]
        exact hs
      · rw [if_neg hpart]
        exact .inl ⟨by simp [afterWorker, hs.1], hs.2⟩
    case case25 bytes item hw hlen =>
      obtain rfl : bytes = s.inbound := hwhole
      simp only [StreamOk, hw] at hs
      rcases hs with ⟨-, hnone⟩ | ⟨hpending, hanswered⟩
      · simp [hnone] at hlen
      · exact ⟨hpending, List.drop_length, hanswered⟩
    all_goals simp_all [StreamOk, afterWorker, WholeReply, Possible]
  · cases h

/-- The controller only has a request to answer while the worker thread waits for the reply. -/
theorem streamOk_reply {s s' : Link} {bytes : Bytes} (hs : StreamOk s)
    (h : s.step (.reply bytes) = some s') : StreamOk s' := by
  simp only [step] at h
  split at h
  · cases h
  · rename_i item rest hpending
    split at h
    · rename_i hreply
      obtain rfl := Option.some.inj h
      cases hw : s.robot.worker with
      | receiving current =>
        simp only [StreamOk, hw] at hs ⊢
        rcases hs with ⟨hone, hnone⟩ | ⟨hzero, -⟩
        · -- the one request is the current one
          obtain ⟨rfl, rfl⟩ : item = current ∧ rest = [] := by simpa [hpending] using hone
          refine .inr ⟨rfl, fun p hp => ?_⟩
          simp [hnone, hp]
        · simp [hpending] at hzero
      | failing => simp [StreamOk, hw]
      | _ => simp_all [StreamOk]
    · cases h

theorem streamOk_step {s s' : Link} {l : LinkLabel} (hs : StreamOk s) (hwhole : WholeReply s l)
    (h : s.step l = some s') : StreamOk s' := by
  cases l with
  | queue request =>
    obtain rfl := Option.some.inj h
    exact hs
  | worker e => exact streamOk_worker hs hwhole h
  | reply bytes => exact streamOk_reply hs h
  | startSession =>
    simp only [step] at h
    split at h
    · rename_i hstopped
      obtain rfl := Option.some.inj h
      by_cases hrun : s.robot.running <;> simp_all [StreamOk, Robot.startSession]
    · cases h
  | clearRunning =>
    obtain rfl := Option.some.inj h
    exact hs
  | closeSession =>
    simp only [step] at h
    split at h
    · obtain rfl := Option.some.inj h
      simp_all [StreamOk, Robot.closeSession]
    · cases h

/-! ### Pairing -/

/-- Setting one more value. -/
theorem paired_setValue {s : Link} {item : RobotWorkItem} {value : Bytes} (hs : Paired s)
    (hvalue : s.Answered item value ∨ ascii "ERR: " <+: value) :
    ∀ e ∈ (s.robot.setValue item value).responses, e ∈ s.replies ∨ ascii "ERR: " <+: e.2 := by
  intro e he
  rw [Robot.setValue] at he
  split at he
  · rename_i p hp
    rcases List.mem_append.mp he with hold | hnew
    · exact hs e hold
    · obtain rfl := List.mem_singleton.mp hnew
      exact hvalue.imp_left fun hanswered => hanswered p hp
  · exact hs e he

theorem paired_worker {s s' : Link} {e : WorkerEvent} (hs : Paired s) (hstream : StreamOk s)
    (h : s.step (.worker e) = some s') : Paired s' := by
  rw [step] at h
  split at h
  · rename_i hpossible
    obtain ⟨r, hstep, rfl⟩ := Option.map_eq_some_iff.mp h
    clear h
    have hreplies : (s.afterWorker e r).replies = s.replies := by
      fun_cases afterWorker s e r <;> rfl
    have hrobot : (s.afterWorker e r).robot = r := by
      fun_cases afterWorker s e r <;> rfl
    rw [Paired, hreplies, hrobot]
    revert hstep
    fun_cases Robot.workerStep s.robot e
    all_goals intro hstep
    all_goals try contradiction
    all_goals obtain rfl := Option.some.inj hstep
    case case10 item response hw value =>
      simp only [StreamOk, hw] at hstream
      refine paired_setValue hs ?_
      by_cases hempty : response.isEmpty
      · exact .inr (by simp only [value, if_pos hempty]; decide)
      · exact .inl (by simpa only [value, if_neg hempty] using hstream.2.2)
    case case12 item what hw => exact paired_setValue hs (.inr (List.prefix_append _ _))
    all_goals exact hs
  · cases h

theorem paired_step {s s' : Link} {l : LinkLabel} (hs : Paired s) (hstream : StreamOk s)
    (h : s.step l = some s') : Paired s' := by
  cases l with
  | queue request =>
    obtain rfl := Option.some.inj h
    exact hs
  | worker e => exact paired_worker hs hstream h
  | reply bytes =>
    simp only [step] at h
    split at h
    · cases h
    · split at h
      · obtain rfl := Option.some.inj h
        exact fun e he => (hs e he).imp_left (List.mem_append_left _)
      · cases h
  | startSession =>
    simp only [step] at h
    split at h
    · obtain rfl := Option.some.inj h
      rw [Paired, (Robot.Quiet.startSession s.robot).responses]
      exact hs
    · cases h
  | clearRunning =>
    obtain rfl := Option.some.inj h
    exact hs
  | closeSession =>
    simp only [step] at h
    split at h
    · obtain rfl := Option.some.inj h
      exact hs
    · cases h

/-- **Replies are paired.** In every run in which each `recv` returns all that the controller has
sent, every value set on a promise is the controller's reply to the request of that promise, or a
message of the middleware that begins with `ERR: `. -/
theorem paired_reaches {s : Link} (h : Reaches step WholeReply {} s) : Paired s := by
  have hinv : Paired s ∧ StreamOk s :=
    h.invariant (I := fun t => Paired t ∧ StreamOk t) ⟨nofun, nofun⟩
      fun _ _ _ ⟨hpaired, hstream⟩ hwhole hstep =>
        ⟨paired_step hpaired hstream hstep, streamOk_step hstream hwhole hstep⟩
  exact hinv.1

/-! ### Two runs -/

/-- A session is started, connected, and a request written. -/
def writeLabels : List LinkLabel :=
  [.startSession, .queue .zero, .queue .zero, .worker .advance, .worker .advance,
    .worker .connected, .worker .advance, .worker .advance, .worker (.sent 188)]

/-- The reply arrives in one part. -/
def wholeLabels : List LinkLabel :=
  writeLabels ++ [.reply (ascii "OK"), .worker (.received (ascii "OK")), .worker .advance]

/-- The reply arrives in two parts, and the second is received when the other request waits for
its reply. -/
def cutLabels : List LinkLabel :=
  writeLabels ++
    [.reply (ascii "OK"), .worker (.received (ascii "O")), .worker .advance, .worker .advance,
      .worker .advance, .worker .advance, .worker .advance, .worker (.sent 188),
      .worker (.received (ascii "K")), .worker .advance]

theorem paired_reaches_whole :
    ∃ s, Reaches step WholeReply {} s ∧ s.robot.responses = [(0, ascii "OK")] ∧ Paired s := by
  have hrun : (runLabels step WholeReply {} wholeLabels).any
      fun s => s.robot.responses = [(0, ascii "OK")] := by decide +kernel
  obtain ⟨s, hs, hresponses⟩ := Option.any_eq_true .. |>.mp hrun
  exact ⟨s, .of_runLabels hs, by simpa using hresponses, paired_reaches (.of_runLabels hs)⟩

/-- **A reply in two parts.** The first request gets half of its reply, and the second request,
which the controller has not answered, gets the other half. -/
theorem paired_fails :
    ∃ s, Reaches step always {} s ∧ s.robot.responses = [(0, ascii "O"), (1, ascii "K")] ∧
      s.replies = [(0, ascii "OK")] ∧ ¬ Paired s := by
  have hrun : (runLabels step always {} cutLabels).any
      fun s => s.robot.responses = [(0, ascii "O"), (1, ascii "K")] ∧
        s.replies = [(0, ascii "OK")] := by decide +kernel
  obtain ⟨s, hs, hend⟩ := Option.any_eq_true .. |>.mp hrun
  obtain ⟨hresponses, hreplies⟩ := of_decide_eq_true hend
  refine ⟨s, .of_runLabels hs, hresponses, hreplies, fun hpaired => ?_⟩
  have hfirst := hpaired (0, ascii "O") (by rw [hresponses]; exact List.mem_cons_self)
  rw [hreplies] at hfirst
  exact absurd hfirst (by decide)

end Link

end RobertMiddleware

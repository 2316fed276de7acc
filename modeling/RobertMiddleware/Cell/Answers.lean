import RobertMiddleware.Cell.Delivery
import RobertMiddleware.Rapid.Responses

/-!
# From `parse_message` to the promise

The worker thread sends a request and waits for the answer before it sends the next one, and it
drops a connection on which anything has failed. So there is never more than one request on the
connection that is open, and what comes back can only be the response to it. This takes a network
that returns requests and responses as a whole, and a controller on which nothing upsets the count
of the responses.

The record keeps the requests that were queued, in the order of their promises.

## Main definitions

* `Robot.Exchange` — what a step of the worker thread does to the request in its hands
* `Cell.answered` — the values set on promises, with the requests behind the promises
* `Cell.Orderly` — the condition on the steps
* `Cell.StreamOk` — what is on the open connection, by what the worker thread is doing

## Main results

* `Cell.answered_reaches` — the values set on promises are responses to their own requests
-/

namespace RobertMiddleware

open Effects Transition
open Rapid (Controller Errno RapidEvent RapidServer RapidSystem)

/-! ### The steps of the worker thread -/

/-- No request is on its way, and no response. -/
def WorkerPc.calm : WorkerPc → Bool
  | .sending _ _ | .receiving _ | .responding _ _ | .failing _ _ => false
  | _ => true

/-- The steps of the worker thread, and what they do at the other end of the connection. -/
inductive Robot.Exchange (r : Robot) (e : WorkerEvent) : Robot → Prop
  | calm {r' : Robot} (hafter : ∀ c : RapidServer, c.afterWorker r e = some c)
      (hpc : r.worker.calm = true) (hpc' : r'.worker.calm = true)
      (hresponses : r'.responses = r.responses) (hnext : r'.nextFd = r.nextFd)
      (hfd : r'.socketFd = r.socketFd) : Exchange r e r'
  | connect {r' : Robot} (hafter : ∀ c : RapidServer, c.afterWorker r e = some c)
      (hpc' : r'.worker.calm = true) (hresponses : r'.responses = r.responses)
      (hnext : r'.nextFd = r.nextFd + 1) (hfd : r'.socketFd = some r.nextFd) : Exchange r e r'
  | begin (item : RobotWorkItem) (hafter : ∀ c : RapidServer, c.afterWorker r e = some c)
      (hpc : r.worker = .starting item) : Exchange r e { r with worker := .sending item 0 }
  | write (item : RobotWorkItem) (k n : ℕ) (he : e = .sent n) (hpc : r.worker = .sending item k)
      (hn : k + n < item.command.image.length) :
      Exchange r e { r with worker := .sending item (k + n) }
  | finish (item : RobotWorkItem) (k n : ℕ) (he : e = .sent n) (hpc : r.worker = .sending item k)
      (hn : k + n = item.command.image.length) : Exchange r e { r with worker := .receiving item }
  | receive (item : RobotWorkItem) (bytes : Bytes) (he : e = .received bytes)
      (hpc : r.worker = .receiving item) (hpos : 0 < bytes.length) :
      Exchange r e { r with worker := .responding item bytes }
  | fail (item : RobotWorkItem) (what : String)
      (hafter : ∀ c : RapidServer, c.afterWorker r e = some c) :
      Exchange r e { r with worker := .failing item what }
  | close {r' : Robot} (hafter : ∀ c : RapidServer, c.afterWorker r e = some c)
      (hpc' : r'.worker.calm = true) (hresponses : r'.responses = r.responses)
      (hnext : r'.nextFd = r.nextFd) (hfd : r'.socketFd = none) : Exchange r e r'
  | respond (item : RobotWorkItem) (response value : Bytes)
      (hafter : ∀ c : RapidServer, c.afterWorker r e = some c)
      (hpc : r.worker = .responding item response)
      (hvalue : value = response ∨ ascii "ERR: " <+: value) :
      Exchange r e { r.setValue item value with worker := .loopTest }
  | report (item : RobotWorkItem) (value : Bytes)
      (hafter : ∀ c : RapidServer, c.afterWorker r e = some c) (hpc : r.worker.calm = true)
      (hvalue : ascii "ERR: " <+: value) :
      Exchange r e { r.setValue item value with worker := .loopTest }

theorem Rapid.RapidServer.afterWorker_of_ne {r : Robot} {e : WorkerEvent} (c : RapidServer)
    (hsent : ∀ n, e ≠ .sent n) (hreceived : ∀ bytes, e ≠ .received bytes) :
    c.afterWorker r e = some c := by
  cases e with
  | sent n => exact absurd rfl (hsent n)
  | received bytes => exact absurd rfl (hreceived bytes)
  | _ => rfl

theorem Robot.workerStep_exchange {r r' : Robot} {e : WorkerEvent}
    (h : r.workerStep e = some r') : r.Exchange e r' := by
  revert h
  fun_cases workerStep r e
  all_goals intro h
  all_goals try contradiction
  all_goals obtain rfl := Option.some.inj h
  case case9 item hpc =>
    by_cases hfd : r.socketFd.isSome = true
    · rw [if_pos hfd]
      exact .begin item (fun c => c.afterWorker_of_ne (by simp) (by simp)) hpc
    · rw [if_neg hfd]
      exact .fail item _ fun c => c.afterWorker_of_ne (by simp) (by simp)
  case case10 item response hpc value =>
    refine .respond item response _ (fun c => c.afterWorker_of_ne (by simp) (by simp)) hpc ?_
    by_cases hempty : response.isEmpty
    · exact .inr (by simp only [value, if_pos hempty]; decide)
    · exact .inl (by simp only [value, if_neg hempty])
  case case11 item what hpc =>
    exact .close (fun c => c.afterWorker_of_ne (by simp) (by simp)) rfl rfl rfl rfl
  case case12 item what hpc =>
    exact .report item _ (fun c => c.afterWorker_of_ne (by simp) (by simp)) (by rw [hpc]; rfl)
      (List.prefix_append _ _)
  case case14 hpc =>
    exact .connect (fun c => c.afterWorker_of_ne (by simp) (by simp)) rfl rfl rfl rfl
  case case20 n item sent hpc hn =>
    by_cases hpart : sent + n < item.command.image.length
    · rw [if_pos hpart]
      exact .write item sent n rfl hpc hpart
    · rw [if_neg hpart]
      exact .finish item sent n rfl hpc (by omega)
  case case23 item sent hpc => exact .fail item _ fun c => c.afterWorker_of_ne (by simp) (by simp)
  case case25 bytes item hpc hbytes => exact .receive item bytes rfl hpc hbytes.1
  case case28 item hpc => exact .fail item _ fun c => c.afterWorker_of_ne (by simp) (by simp)
  all_goals
    refine .calm (fun c => c.afterWorker_of_ne (by simp) (by simp))
      (by simp [WorkerPc.calm, *]) ?_ rfl rfl rfl
    all_goals
      first
      | rfl
      | split <;> rfl

/-- The connection in use is one that was made. -/
theorem WireMove.socket {r r' : Robot} {es : List WireEvent} (h : WireMove r es r')
    (hbelow : ∀ fd, r.socketFd = some fd → fd < r.nextFd)
    (huses : r.worker.usesSocket = true → r.socketFd ≠ none) :
    (∀ fd, r'.socketFd = some fd → fd < r'.nextFd) ∧
      (r'.worker.usesSocket = true → r'.socketFd ≠ none) := by
  cases h with
  | quiet hnext hfd _ _ huses' =>
    rw [hnext, hfd]
    exact ⟨hbelow, fun h => huses (huses' h)⟩
  | take item hnext hfd _ hpc' =>
    rw [hnext, hfd, hpc']
    exact ⟨hbelow, nofun⟩
  | begin item fd hpc hfd => exact ⟨hbelow, fun _ => by simp [hfd]⟩
  | connect =>
    refine ⟨fun fd hopen => ?_, nofun⟩
    obtain rfl := Option.some.inj hopen
    exact Nat.lt_succ_self _
  | write item k n hpc => exact ⟨hbelow, fun _ => huses (by rw [hpc]; rfl)⟩
  | finish item k n hpc => exact ⟨hbelow, fun _ => huses (by rw [hpc]; rfl)⟩
  | sendFail => exact ⟨hbelow, nofun⟩
  | receiveFail => exact ⟨hbelow, nofun⟩
  | close hnext hfd _ huses' =>
    rw [hfd, huses']
    exact ⟨nofun, nofun⟩

/-! ### The record -/

namespace Cell

variable {R : RapidSystem} {errSockTimeout : Errno} {s s' : Cell} {l : Label}
  {queued : List RapidRequest}

/-- The request that is queued. -/
def pushObs (s : Cell) : Label → List RapidRequest
  | .middleware l => s.sessions.pushEvents l
  | .controller _ => []

/-- The values set on promises that are not error messages, each with the request that was queued
for the promise. -/
def answered (queued : List RapidRequest) (responses : List (ℕ × Bytes)) : List (Bytes × Bytes) :=
  responses.filterMap fun e =>
    if ascii "ERR: " <+: e.2 then none
    else queued[e.1]?.map fun request => (request.image, e.2)

/-- The network returns requests and responses as a whole, and no call upsets the count of the
responses. -/
def Orderly (R : RapidSystem) (s : Cell) : Label → Prop
  | .middleware (.worker (.received bytes)) =>
    ∀ fd, s.sessions.robot.socketFd = some fd → bytes = s.controller.responses fd
  | .controller ev => s.controller.Orderly R ev
  | _ => True

instance (s : Cell) : ∀ l, Decidable (Orderly R s l)
  | .middleware (.worker (.received bytes)) =>
    inferInstanceAs (Decidable (∀ fd ∈ s.sessions.robot.socketFd,
      bytes = s.controller.responses fd))
  | .controller ev => inferInstanceAs (Decidable (s.controller.Orderly R ev))
  | .middleware .start | .middleware .stop | .middleware .join | .middleware (.queue _)
  | .middleware .push | .middleware (.worker .advance) | .middleware (.worker .connected)
  | .middleware (.worker .connectFailed) | .middleware (.worker (.heartbeat _))
  | .middleware (.worker (.sent _)) | .middleware (.worker .sendFailed)
  | .middleware (.worker .receiveFailed) => .isTrue trivial

/-! ### The invariant -/

/-- `value` is the response to the request in `item`, and the last one. -/
def Answer (s : Cell) (queued : List RapidRequest) (item : RobotWorkItem) (value : Bytes) : Prop :=
  ∀ p, item.responsePromise = some p →
    (answered queued s.sessions.robot.responses ++ [(item.command.image, value)]).Sublist
      s.controller.replied

/-- What is on the connection `fd`, when it is open. -/
def StreamOk (s : Cell) (queued : List RapidRequest) (fd : ℕ) : WorkerPc → Prop
  | .sending item k => k < item.command.image.length ∧
      s.controller.Quiet fd (item.command.image.take k) []
  | .receiving item =>
      -- it is there, or in work, or there will be no answer, or the answer is there
      s.controller.Quiet fd item.command.image [] ∨ s.controller.InWork fd item.command.image ∨
        s.controller.Quiet fd [] [] ∨
          ∃ value, s.controller.Quiet fd [] value ∧ s.Answer queued item value
  | .failing _ _ => True
  | _ => s.controller.Quiet fd [] []

structure AnswersOk (R : RapidSystem) (errSockTimeout : Errno) (s : Cell)
    (queued : List RapidRequest) : Prop where
  sessions : s.sessions.Ok
  count : s.controller.CountOk R errSockTimeout
  conns : s.controller.ConnsOk s.sessions.robot.nextFd
  below : ∀ fd, s.sessions.robot.socketFd = some fd → fd < s.sessions.robot.nextFd
  uses : s.sessions.robot.worker.usesSocket = true → s.sessions.robot.socketFd ≠ none
  /-- A connection that was never made. -/
  fresh : ∀ fd, s.sessions.robot.nextFd ≤ fd → s.controller.Quiet fd [] []
  promised : queued.length = s.sessions.robot.nextPromise
  items : ∀ item ∈ s.sessions.robot.items, ∀ p, item.responsePromise = some p →
    queued[p]? = some item.command
  paired : (answered queued s.sessions.robot.responses).Sublist s.controller.replied
  hand : ∀ item value, s.sessions.robot.worker = .responding item value →
    s.Answer queued item value
  stream : ∀ fd, s.sessions.robot.socketFd = some fd →
    s.StreamOk queued fd s.sessions.robot.worker

theorem answersOk_initial (vars : Controller) : AnswersOk R errSockTimeout (initial vars) [] where
  sessions := RobotSessions.ok_initial
  count := ⟨⟨nofun, nofun⟩, nofun⟩
  conns := ⟨le_rfl, nofun, nofun, .nil⟩
  below := nofun
  uses := nofun
  fresh _ _ := ⟨rfl, rfl, nofun⟩
  promised := rfl
  items := nofun
  paired := .slnil
  hand := nofun
  stream := nofun

/-! ### The controller moves -/

theorem Answer.mono {item : RobotWorkItem} {value : Bytes} (h : s.Answer queued item value)
    (hsessions : s'.sessions = s.sessions) {more : List (Bytes × Bytes)}
    (hreplied : s'.controller.replied = s.controller.replied ++ more) :
    s'.Answer queued item value := by
  intro p hp
  rw [hsessions, hreplied]
  exact (h p hp).trans (List.sublist_append_left _ _)

/-- The stages of the request in the hands of the worker thread. -/
theorem AnswersOk.stream_controller {controller : RapidServer} {ev : RapidEvent}
    (hs : AnswersOk R errSockTimeout s queued) (horderly : s.controller.Orderly R ev)
    (h : s.controller.step R errSockTimeout s.sessions.robot.nextFd ev = some controller) {fd : ℕ}
    (hfd : s.sessions.robot.socketFd = some fd) :
    StreamOk { s with controller } queued fd s.sessions.robot.worker := by
  have hstream := hs.stream fd hfd
  have hempty : ∀ {responses}, s.controller.Quiet fd [] responses →
      controller.Quiet fd [] responses :=
    fun hquiet => hquiet.step_lt hs.count (by simp) horderly h
  cases hpc : s.sessions.robot.worker with
  | sending item k =>
    rw [hpc] at hstream
    obtain ⟨hk, hquiet⟩ := hstream
    refine ⟨hk, hquiet.step_lt hs.count ?_ horderly h⟩
    rw [RapidRequest.length_image] at hk
    rw [List.length_take, RapidRequest.length_image]
    omega
  | receiving item =>
    rw [hpc] at hstream
    rcases hstream with hunread | hwork | hdead | ⟨value, hquiet, hanswer⟩
    · exact (hunread.step_eq hs.count item.command.length_image horderly h).imp_right .inl
    · rcases hwork.step hs.count horderly h with hwork | hdead | ⟨value, hquiet, hreplied⟩
      · exact .inr (.inl hwork)
      · exact .inr (.inr (.inl hdead))
      · refine .inr (.inr (.inr ⟨value, hquiet, fun p _ => ?_⟩))
        rw [show Cell.controller { s with controller } = controller from rfl, hreplied]
        exact List.Sublist.append hs.paired (.refl _)
    · exact .inr (.inr (.inl (hempty hdead)))
    · exact .inr (.inr (.inr ⟨value, hempty hquiet,
        hanswer.mono rfl (RapidServer.replied_step h)⟩))
  | failing => trivial
  | _ =>
    rw [hpc] at hstream
    exact hempty hstream

theorem AnswersOk.controller {controller : RapidServer} {ev : RapidEvent}
    (hs : AnswersOk R errSockTimeout s queued) (horderly : s.controller.Orderly R ev)
    (h : s.controller.step R errSockTimeout s.sessions.robot.nextFd ev = some controller) :
    AnswersOk R errSockTimeout { s with controller } queued where
  sessions := hs.sessions
  count := hs.count.step horderly h
  conns := hs.conns.step h
  below := hs.below
  uses := hs.uses
  fresh fd hfd := (hs.fresh fd hfd).step_lt hs.count (by simp) horderly h
  promised := hs.promised
  items := hs.items
  paired := by
    rw [RapidServer.replied_step h]
    exact hs.paired.trans (List.sublist_append_left _ _)
  hand item value hpc := (hs.hand item value hpc).mono rfl (RapidServer.replied_step h)
  stream fd hfd := hs.stream_controller horderly h hfd

/-! ### The middleware moves -/

section Answered

variable {r : Robot} {item : RobotWorkItem} {value : Bytes}

theorem answered_append (responses : List (ℕ × Bytes)) (more : List (ℕ × Bytes)) :
    answered queued (responses ++ more) = answered queued responses ++ answered queued more :=
  List.filterMap_append

/-- The promises have their requests already. -/
theorem answered_push {responses : List (ℕ × Bytes)} (h : ∀ e ∈ responses, e.1 < queued.length)
    (more : List RapidRequest) :
    answered (queued ++ more) responses = answered queued responses := by
  refine List.filterMap_congr fun e he => ?_
  rw [List.getElem?_append_left (h e he)]

/-- An error message is not counted. -/
theorem answered_setValue_error (hvalue : ascii "ERR: " <+: value) :
    answered queued (r.setValue item value).responses = answered queued r.responses := by
  rw [Robot.setValue]
  split
  · rw [answered_append, answered, answered, List.filterMap_cons, if_pos hvalue]
    exact List.append_nil _
  · rfl

/-- One more value. -/
theorem answered_setValue (r : Robot) (value : Bytes)
    (hitem : ∀ p, item.responsePromise = some p → queued[p]? = some item.command) :
    answered queued (r.setValue item value).responses = answered queued r.responses ∨
      ∃ p, item.responsePromise = some p ∧
        answered queued (r.setValue item value).responses =
          answered queued r.responses ++ [(item.command.image, value)] := by
  by_cases hvalue : ascii "ERR: " <+: value
  · exact .inl (answered_setValue_error hvalue)
  · cases hp : item.responsePromise with
    | none => exact .inl (by rw [Robot.setValue, hp])
    | some p =>
      refine .inr ⟨p, rfl, ?_⟩
      simp [Robot.setValue, hp, answered, hvalue, hitem p hp]

end Answered

theorem streamOk_calm {fd : ℕ} {pc : WorkerPc} (hpc : pc.calm = true) :
    s.StreamOk queued fd pc ↔ s.controller.Quiet fd [] [] := by
  cases pc <;> first | rfl | cases hpc

/-- The items in hand are those of before, and heartbeats. -/
theorem items_workerStep {r r' : Robot} {e : WorkerEvent} (h : r.workerStep e = some r')
    (hr : ∀ item ∈ r.items, ∀ p, item.responsePromise = some p → queued[p]? = some item.command) :
    ∀ item ∈ r'.items, ∀ p, item.responsePromise = some p → queued[p]? = some item.command := by
  intro item hitem p hp
  cases Robot.workerStep_effect h with
  | keep hqueue _ _ hsame =>
    rw [Robot.items, hqueue, hsame] at hitem
    exact hr item hitem p hp
  | take first hqueue _ _ hworker hworker' =>
    refine hr item ?_ p hp
    rw [Robot.items, hworker, hqueue]
    rw [Robot.items, hworker'] at hitem
    exact hitem
  | beat first hqueue _ _ hworker hworker' hbeat =>
    rw [Robot.items, hworker', hqueue] at hitem
    rcases List.mem_cons.mp hitem with rfl | hitem
    · rw [hbeat] at hp
      cases hp
    · exact hr item (List.mem_append_right _ hitem) p hp
  | answer first value hqueue _ _ _ hworker' =>
    rw [Robot.items, hworker', hqueue] at hitem
    exact hr item (List.mem_append_right _ hitem) p hp

/-- The open connection, when the values set on promises are as before. -/
theorem StreamOk.congr {queued' : List RapidRequest} {fd : ℕ} {pc : WorkerPc}
    (h : s.StreamOk queued fd pc) (hcontroller : s'.controller = s.controller)
    (hanswered : answered queued' s'.sessions.robot.responses =
      answered queued s.sessions.robot.responses) : s'.StreamOk queued' fd pc := by
  cases pc with
  | receiving item =>
    rw [StreamOk, hcontroller]
    refine h.imp_right (Or.imp_right (Or.imp_right ?_))
    rintro ⟨value, hquiet, hanswer⟩
    refine ⟨value, hquiet, fun p hp => ?_⟩
    rw [hanswered, hcontroller]
    exact hanswer p hp
  | failing => trivial
  | sending item k =>
    rw [StreamOk, hcontroller]
    exact h
  | _ =>
    show s'.controller.Quiet fd [] []
    rw [hcontroller]
    exact h

/-- `send` puts its bytes on the connection. -/
theorem afterWorker_sent {r : Robot} {item : RobotWorkItem} {k n fd : ℕ} {c : RapidServer}
    (hpc : r.worker = .sending item k) (hfd : r.socketFd = some fd)
    (h : s.controller.afterWorker r (.sent n) = some c)
    (hquiet : s.controller.Quiet fd (item.command.image.take k) []) :
    c.replied = s.controller.replied ∧ c.Quiet fd (item.command.image.take (k + n)) [] := by
  simp only [RapidServer.afterWorker, hpc, hfd] at h
  obtain rfl := Option.some.inj h
  refine ⟨rfl, ?_, hquiet.responses, hquiet.settled⟩
  simp [hquiet.requests, List.take_add]

/-- `recv` takes all that is on the connection. -/
theorem afterWorker_received {r : Robot} {item : RobotWorkItem} {fd : ℕ} {bytes : Bytes}
    {c : RapidServer} (hpc : r.worker = .receiving item) (hfd : r.socketFd = some fd)
    (h : s.controller.afterWorker r (.received bytes) = some c)
    (hquiet : s.controller.Quiet fd [] bytes) :
    c.replied = s.controller.replied ∧ c.Quiet fd [] [] := by
  simp only [RapidServer.afterWorker, hpc, hfd, Option.ite_none_right_eq_some] at h
  obtain rfl := Option.some.inj h.2
  refine ⟨rfl, hquiet.requests, ?_, hquiet.settled⟩
  simp [hquiet.responses]

/-- **The worker thread moves.** -/
theorem AnswersOk.exchange (hs : AnswersOk R errSockTimeout s queued) {e : WorkerEvent}
    {r : Robot} {c : RapidServer} (horderly : s.Orderly R (.middleware (.worker e)))
    (hmove : s.sessions.robot.workerStep e = some r)
    (hafter : s.controller.afterWorker s.sessions.robot e = some c) :
    (answered queued r.responses).Sublist c.replied ∧
      (∀ item value, r.worker = .responding item value →
        Answer ⟨{ s.sessions with robot := r }, c⟩ queued item value) ∧
      ∀ fd, r.socketFd = some fd →
        StreamOk ⟨{ s.sessions with robot := r }, c⟩ queued fd r.worker := by
  -- what the other end does not notice
  have hsilent : (∀ c : RapidServer, c.afterWorker s.sessions.robot e = some c) →
      c = s.controller := fun h => Option.some.inj (hafter.symm.trans (h _))
  have hcalm : ∀ {pc : WorkerPc} {item : RobotWorkItem} {value : Bytes}, pc.calm = true →
      pc ≠ .responding item value := by
    rintro _ _ _ hpc rfl
    cases hpc
  cases Robot.workerStep_exchange hmove with
  | calm hsame hpc hpc' hresponses hnext hfd =>
    obtain rfl := hsilent hsame
    refine ⟨hresponses ▸ hs.paired, fun _ _ h => absurd h (hcalm hpc'), fun fd hopen => ?_⟩
    rw [hfd] at hopen
    have hclear : s.controller.Quiet fd [] [] := (streamOk_calm hpc).mp (hs.stream fd hopen)
    exact (streamOk_calm hpc').mpr hclear
  | connect hsame hpc' hresponses hnext hfd =>
    obtain rfl := hsilent hsame
    refine ⟨hresponses ▸ hs.paired, fun _ _ h => absurd h (hcalm hpc'), fun fd hopen => ?_⟩
    obtain rfl := Option.some.inj (hfd.symm.trans hopen)
    exact (streamOk_calm hpc').mpr (hs.fresh _ le_rfl)
  | begin item hsame hpc =>
    obtain rfl := hsilent hsame
    refine ⟨hs.paired, nofun, fun fd hopen => ⟨?_, ?_⟩⟩
    · rw [RapidRequest.length_image]
      decide
    · have hstream := hs.stream fd hopen
      rw [hpc] at hstream
      exact hstream
  | write item k n he hpc hn =>
    subst he
    obtain ⟨fd, hfd⟩ := Option.ne_none_iff_exists'.mp (hs.uses (by rw [hpc]; rfl))
    have hstream := hs.stream fd hfd
    rw [hpc] at hstream
    obtain ⟨hreplied, hquiet⟩ := afterWorker_sent hpc hfd hafter hstream.2
    refine ⟨hreplied ▸ hs.paired, nofun, fun fd' hopen => ?_⟩
    obtain rfl := Option.some.inj (hfd.symm.trans hopen)
    exact ⟨hn, hquiet⟩
  | finish item k n he hpc hn =>
    subst he
    obtain ⟨fd, hfd⟩ := Option.ne_none_iff_exists'.mp (hs.uses (by rw [hpc]; rfl))
    have hstream := hs.stream fd hfd
    rw [hpc] at hstream
    obtain ⟨hreplied, hquiet⟩ := afterWorker_sent hpc hfd hafter hstream.2
    refine ⟨hreplied ▸ hs.paired, nofun, fun fd' hopen => ?_⟩
    obtain rfl := Option.some.inj (hfd.symm.trans hopen)
    rw [hn, List.take_length] at hquiet
    exact .inl hquiet
  | receive item bytes he hpc hpos =>
    subst he
    obtain ⟨fd, hfd⟩ := Option.ne_none_iff_exists'.mp (hs.uses (by rw [hpc]; rfl))
    have hbytes : bytes = s.controller.responses fd := horderly fd hfd
    have hnonempty : s.controller.responses fd ≠ [] := by
      rw [← hbytes]
      exact List.ne_nil_of_length_pos hpos
    have hstream := hs.stream fd hfd
    rw [hpc] at hstream
    rcases hstream with hunread | hwork | hdead | ⟨value, hquiet, hanswer⟩
    · exact absurd hunread.responses hnonempty
    · exact absurd hwork.responses hnonempty
    · exact absurd hdead.responses hnonempty
    · obtain rfl : bytes = value := hbytes.trans hquiet.responses
      obtain ⟨hreplied, hclear⟩ := afterWorker_received hpc hfd hafter hquiet
      refine ⟨hreplied ▸ hs.paired, ?_, fun fd' hopen => ?_⟩
      · rintro _ _ ⟨⟩ p hp
        rw [show Cell.controller _ = c from rfl, hreplied]
        exact hanswer p hp
      · obtain rfl := Option.some.inj (hfd.symm.trans hopen)
        exact hclear
  | fail item what hsame =>
    obtain rfl := hsilent hsame
    exact ⟨hs.paired, nofun, fun _ _ => trivial⟩
  | close hsame hpc' hresponses hnext hfd =>
    obtain rfl := hsilent hsame
    refine ⟨hresponses ▸ hs.paired, fun _ _ h => absurd h (hcalm hpc'), fun fd hopen => ?_⟩
    rw [hfd] at hopen
    cases hopen
  | respond item response value hsame hpc hvalue =>
    obtain rfl := hsilent hsame
    have hitem : ∀ p, item.responsePromise = some p → queued[p]? = some item.command :=
      hs.items item (List.mem_append_left _ (by rw [hpc]; exact List.mem_singleton_self _))
    refine ⟨?_, nofun, fun fd hopen => ?_⟩
    · show (answered queued (s.sessions.robot.setValue item value).responses).Sublist _
      rcases hvalue with rfl | herror
      · rcases answered_setValue s.sessions.robot value hitem with hsame | ⟨p, hp, hone⟩
        · rw [hsame]
          exact hs.paired
        · rw [hone]
          exact hs.hand item value hpc p hp
      · rw [answered_setValue_error herror]
        exact hs.paired
    · have hstream := hs.stream fd (by simpa using hopen)
      rw [hpc] at hstream
      exact hstream
  | report item value hsame hpc hvalue =>
    obtain rfl := hsilent hsame
    refine ⟨?_, nofun, fun fd hopen => ?_⟩
    · show (answered queued (s.sessions.robot.setValue item value).responses).Sublist _
      rw [answered_setValue_error hvalue]
      exact hs.paired
    · have hclear : s.controller.Quiet fd [] [] :=
        (streamOk_calm hpc).mp (hs.stream fd (by simpa using hopen))
      exact hclear

/-- The worker thread uses no other connection. -/
theorem afterWorker_other {r : Robot} {e : WorkerEvent} {c : RapidServer} {fd : ℕ}
    (hfd : r.socketFd ≠ some fd) (h : s.controller.afterWorker r e = some c) :
    c.requests fd = s.controller.requests fd ∧ c.responses fd = s.controller.responses fd := by
  revert h
  fun_cases RapidServer.afterWorker r e s.controller
  all_goals intro h
  all_goals try contradiction
  all_goals obtain rfl := Option.some.inj h
  case case1 n item sent fd' hopen hpc =>
    have hne : fd ≠ fd' := fun heq => hfd (heq ▸ hopen)
    exact ⟨Function.update_of_ne hne .., rfl⟩
  case case2 bytes item fd' hopen hpc _ =>
    have hne : fd ≠ fd' := fun heq => hfd (heq ▸ hopen)
    exact ⟨rfl, Function.update_of_ne hne ..⟩
  case case4 => exact ⟨rfl, rfl⟩

/-- A step of the middleware that is not one of the worker thread, and queues nothing. -/
structure Idle (s : Cell) (sessions : RobotSessions) : Prop where
  quiet : s.sessions.robot.Quiet sessions.robot
  socketFd : ∀ fd, sessions.robot.socketFd = some fd → s.sessions.robot.socketFd = some fd
  worker : sessions.robot.worker = s.sessions.robot.worker ∨
    sessions.robot.worker = .loopTest ∧ s.sessions.robot.worker.calm = true

theorem idle_of_move {sessions : RobotSessions} {l : RobotSessions.Label} (hok : s.sessions.Ok)
    (h : s.sessions.step l = some sessions) (hpush : l ≠ .push) (hworker : ∀ e, l ≠ .worker e) :
    s.Idle sessions := by
  cases RobotSessions.step_move h with
  | start hidle =>
    refine ⟨.startSession _, fun fd hopen => ?_, ?_⟩
    · rw [← hopen]
      rw [Robot.startSession]
      split <;> rfl
    · rw [Robot.startSession]
      split
      · exact .inl rfl
      · rename_i hrunning
        refine .inr ⟨rfl, ?_⟩
        rw [hok.worker (Bool.eq_false_iff.mpr hrunning) (Bool.eq_false_iff.mpr hidle)]
        rfl
  | stop => exact ⟨.clearRunning _, fun _ => id, .inl rfl⟩
  | join => exact ⟨.closeSession _, by simp [Robot.closeSession], .inl rfl⟩
  | accept | refuse => exact ⟨.refl _, fun _ => id, .inl rfl⟩
  | push => exact absurd rfl hpush
  | worker e => exact absurd rfl (hworker e)

/-- What the invariant says of promises and of the open connection. -/
def PairingOk (s : Cell) (queued : List RapidRequest) : Prop :=
  queued.length = s.sessions.robot.nextPromise ∧
  (∀ item ∈ s.sessions.robot.items, ∀ p, item.responsePromise = some p →
    queued[p]? = some item.command) ∧
  (answered queued s.sessions.robot.responses).Sublist s.controller.replied ∧
  (∀ item value, s.sessions.robot.worker = .responding item value →
    s.Answer queued item value) ∧
  ∀ fd, s.sessions.robot.socketFd = some fd →
    s.StreamOk queued fd s.sessions.robot.worker

theorem AnswersOk.pairing_idle (hs : AnswersOk R errSockTimeout s queued)
    {sessions : RobotSessions} (h : s.Idle sessions) :
    PairingOk ⟨sessions, s.controller⟩ queued := by
  obtain ⟨⟨hqueue, hnext, hresponses, -⟩, hfd, hworker⟩ := h
  have hanswered : answered queued sessions.robot.responses =
      answered queued s.sessions.robot.responses := by rw [hresponses]
  refine ⟨hs.promised.trans hnext.symm, fun item hitem => hs.items item ?_,
    hanswered ▸ hs.paired, fun item value hpc p hp => ?_, fun fd hopen => ?_⟩
  · rw [Robot.items, hqueue] at hitem
    rcases hworker with hsame | ⟨hloop, -⟩
    · rwa [hsame] at hitem
    · rw [hloop] at hitem
      exact List.mem_append_right _ hitem
  · rcases hworker with hsame | ⟨hloop, -⟩
    · exact hanswered ▸ hs.hand item value (hsame ▸ hpc) p hp
    · cases hloop.symm.trans hpc
  · have hstream := hs.stream fd (hfd fd hopen)
    rcases hworker with hsame | ⟨hloop, hcalm⟩
    · rw [← hsame] at hstream
      exact hstream.congr rfl hanswered
    · rw [show Cell.sessions ⟨sessions, s.controller⟩ = sessions from rfl, hloop]
      have hclear : s.controller.Quiet fd [] [] := (streamOk_calm hcalm).mp hstream
      exact hclear

/-- A request is queued, with the next promise. -/
theorem AnswersOk.pairing_push (hs : AnswersOk R errSockTimeout s queued)
    {request : RapidRequest} :
    PairingOk ⟨{ s.sessions with
      robot := (s.sessions.robot.pushRequest request).2, pushing := none }, s.controller⟩
      (queued ++ [request]) := by
  have hbelow : ∀ e ∈ s.sessions.robot.responses, e.1 < queued.length := by
    intro e he
    rw [hs.promised, ← List.mem_range]
    exact hs.sessions.accounted.subset (List.mem_append_left _ (List.mem_map_of_mem he))
  have hanswered := answered_push hbelow [request]
  refine ⟨?_, fun item hitem p hp => ?_, ?_, fun item value hpc p hp => ?_, fun fd hopen => ?_⟩
  · rw [List.length_append, hs.promised]
    rfl
  · rw [Robot.items, Robot.pushRequest, ← List.append_assoc] at hitem
    rcases List.mem_append.mp hitem with hold | hnew
    · have hsome := hs.items item hold p hp
      rw [List.getElem?_append_left (List.getElem?_eq_some_iff.mp hsome).1, hsome]
    · obtain rfl := List.mem_singleton.mp hnew
      obtain rfl := Option.some.inj hp
      rw [← hs.promised]
      exact List.getElem?_concat_length
  · show (answered (queued ++ [request]) s.sessions.robot.responses).Sublist _
    rw [hanswered]
    exact hs.paired
  · show (answered (queued ++ [request]) s.sessions.robot.responses ++ _).Sublist _
    rw [hanswered]
    exact hs.hand item value hpc p hp
  · exact (hs.stream fd hopen).congr rfl hanswered

theorem AnswersOk.middleware (hs : AnswersOk R errSockTimeout s queued)
    {l : RobotSessions.Label} {sessions : RobotSessions} {c : RapidServer}
    (horderly : s.Orderly R (.middleware l)) (hmove : s.sessions.step l = some sessions)
    (hafter : s.afterMiddleware l = some c) :
    PairingOk ⟨sessions, c⟩ (queued ++ s.pushObs (.middleware l)) := by
  cases l with
  | worker e =>
    obtain ⟨r, hworker, rfl⟩ := Option.map_eq_some_iff.mp hmove
    obtain ⟨hpaired, hhand, hstream⟩ := hs.exchange horderly hworker hafter
    rw [show s.pushObs (.middleware (.worker e)) = [] from rfl, List.append_nil]
    exact ⟨hs.promised.trans (Robot.nextPromise_workerStep hworker).symm,
      items_workerStep hworker hs.items, hpaired, hhand, hstream⟩
  | push =>
    obtain rfl := Option.some.inj hafter
    cases hpushing : s.sessions.pushing with
    | none => simp [RobotSessions.step, hpushing] at hmove
    | some request =>
      simp only [RobotSessions.step, hpushing] at hmove
      obtain rfl := Option.some.inj hmove
      rw [pushObs, RobotSessions.pushEvents, hpushing]
      exact hs.pairing_push
  | _ =>
    obtain rfl := Option.some.inj hafter
    show PairingOk _ (queued ++ [])
    rw [List.append_nil]
    exact hs.pairing_idle (idle_of_move hs.sessions hmove (by simp) (by simp))

/-- **Step lemma.** -/
theorem AnswersOk.step (hs : AnswersOk R errSockTimeout s queued) (horderly : s.Orderly R l)
    (h : s.step R errSockTimeout l = some s') :
    AnswersOk R errSockTimeout s' (queued ++ s.pushObs l) := by
  cases step_move h with
  | controller ev controller hmove =>
    rw [show s.pushObs (.controller ev) = [] from rfl, List.append_nil]
    exact hs.controller horderly hmove
  | middleware l sessions c hmove hafter =>
    have hwire := RobotSessions.step_wire hs.sessions hmove
    have hsame := (afterMiddleware_eq hafter).2
    obtain ⟨hbelow, huses⟩ := hwire.socket hs.below hs.uses
    obtain ⟨hpromised, hitems, hpaired, hhand, hstream⟩ := hs.middleware horderly hmove hafter
    refine ⟨hs.sessions.step hmove, ⟨hsame.executed hs.count.executed, ?_⟩,
      (hsame.conns hs.conns).mono hwire.nextFd_le, hbelow, huses, fun fd hfresh => ?_, hpromised,
      hitems, hpaired, hhand, hstream⟩
    · rw [show Cell.controller ⟨sessions, c⟩ = c from rfl, hsame.taken]
      exact hs.count.calm
    · have hfd : s.sessions.robot.socketFd ≠ some fd := fun hopen =>
        absurd (hs.below fd hopen) (hwire.nextFd_le.trans hfresh).not_gt
      have hquiet := hs.fresh fd (hwire.nextFd_le.trans hfresh)
      have hother : c.requests fd = s.controller.requests fd ∧
          c.responses fd = s.controller.responses fd := by
        cases l with
        | worker e => exact afterWorker_other hfd hafter
        | _ =>
          obtain rfl := Option.some.inj hafter
          exact ⟨rfl, rfl⟩
      exact hquiet.congr hother.1 hother.2 (hsame.pc ▸ hquiet.settled)

theorem answersOk_reaches {vars : Controller}
    (h : Reaches (logged (step R errSockTimeout) pushObs) (unlogged (Orderly R))
      (initial vars, []) (s, queued)) : AnswersOk R errSockTimeout s queued :=
  h.logged_invariant (answersOk_initial vars) fun _ _ _ _ ht horderly hstep =>
    ht.step horderly hstep

/-- A value that is set on a promise, and the response that it is. -/
theorem AnswersOk.answer_of_mem (hs : AnswersOk R errSockTimeout s queued) {p : ℕ} {value : Bytes}
    (hmem : (p, value) ∈ s.sessions.robot.responses) :
    ascii "ERR: " <+: value ∨ ∃ request, queued[p]? = some request ∧
      ∃ x ∈ s.controller.taken, x.raw = request.image ∧
        Rapid.responsesOf x.calls = [value] := by
  refine or_iff_not_imp_left.mpr fun hvalue => ?_
  have hp : p < queued.length := by
    rw [hs.promised, ← List.mem_range]
    exact hs.sessions.accounted.subset (List.mem_append_left _ (List.mem_map_of_mem hmem))
  refine ⟨queued[p], List.getElem?_eq_getElem hp, ?_⟩
  have hanswered : (queued[p].image, value) ∈ answered queued s.sessions.robot.responses := by
    refine List.mem_filterMap.mpr ⟨(p, value), hmem, ?_⟩
    simp [hvalue, List.getElem?_eq_getElem hp]
  obtain ⟨x, hx, hreply⟩ := List.mem_flatMap.mp (hs.paired.subset hanswered)
  obtain ⟨bytes, hbytes, heq⟩ := List.mem_map.mp hreply
  obtain ⟨hraw, rfl⟩ := Prod.mk.inj heq
  refine ⟨x, hx, hraw, ?_⟩
  obtain ⟨bytes', hone⟩ := List.length_eq_one_iff.mp
    (le_antisymm (hs.count.responses_le x hx) (List.length_pos_of_mem hbytes))
  rw [hone] at hbytes ⊢
  rw [List.mem_singleton.mp hbytes]

/-- **The values set on promises are responses to their own requests.** In every run in which the
network returns requests and responses as a whole and no call upsets the count of the responses:
every value set on a promise is an error message of the middleware, or the only response that the
controller has sent for a request like the one that was queued for that promise. In the order of the
values, each with its request, those responses are some of the responses that the controller has
sent. -/
theorem answered_reaches {vars : Controller}
    (h : Reaches (logged (step R errSockTimeout) pushObs) (unlogged (Orderly R))
      (initial vars, []) (s, queued)) :
    (∀ p value, (p, value) ∈ s.sessions.robot.responses → ascii "ERR: " <+: value ∨
      ∃ request, queued[p]? = some request ∧ ∃ x ∈ s.controller.taken,
        x.raw = request.image ∧ Rapid.responsesOf x.calls = [value]) ∧
      (answered queued s.sessions.robot.responses).Sublist s.controller.replied :=
  have hs := answersOk_reaches h
  ⟨fun _ _ hmem => hs.answer_of_mem hmem, hs.paired⟩

/-! ### A run -/

theorem answered_reaches_zero :
    ∃ s queued, Reaches (logged (step .bench 0) pushObs) (unlogged (Orderly .bench))
      (initial .bench, []) (s, queued) ∧ queued = [pingRequest, Rapid.zeroRequest] ∧
      s.sessions.robot.responses = [(0, ascii "ACK|PONGRUWU"), (1, ascii "ACK|ZERO")] ∧
      ∃ request, queued[1]? = some request ∧ ∃ x ∈ s.controller.taken,
        x.raw = request.image ∧ Rapid.responsesOf x.calls = [ascii "ACK|ZERO"] := by
  have hrun : (runLabels (logged (step .bench 0) pushObs) (unlogged (Orderly .bench))
      (initial .bench, []) (pongZeroLabels ++ [.middleware (.worker (.received (ascii "ACK|ZERO"))),
        .middleware (.worker .advance)])).any fun s => s.2 = [pingRequest, Rapid.zeroRequest] ∧
        s.1.sessions.robot.responses = [(0, ascii "ACK|PONGRUWU"), (1, ascii "ACK|ZERO")] := by
    decide +kernel
  obtain ⟨⟨s, queued⟩, hs, hend⟩ := Option.any_eq_true .. |>.mp hrun
  obtain ⟨hqueued, hresponses⟩ := of_decide_eq_true hend
  have hanswer := (answered_reaches (.of_runLabels hs)).1 1 (ascii "ACK|ZERO")
    (hresponses ▸ List.mem_cons_of_mem _ (List.mem_singleton_self _))
  exact ⟨s, queued, .of_runLabels hs, hqueued, hresponses, hanswer.resolve_left (by decide)⟩

end Cell

end RobertMiddleware

import RobertMiddleware.Server.Progress

/-!
# The request loop

`Server::loop_` of `src/server/server.cpp`, with its bytes: receive a message, decode it, let the
request handler answer, and send the answer. The thread is the server thread of `System.step`. Here
it is told the message itself, and the messages and replies are recorded, with every other step it
takes. A send does not fail.

An exception of the handler becomes an `ERR_SERVER_EXCEPTION` response, and a response that cannot
be serialised becomes a fixed text. The test on the result of `recv` stands before the `try`: it
compares the number of bytes received with `EAGAIN`, so a message of exactly that length ends the
thread. The other way to get no answer is through the sweeper: a sweep that waits for its own mutex
keeps it, and every handler begins with a call that locks that mutex.

## Main definitions

* `Loop.step` — the steps of the server, told the bytes of the messages
* `Loop.Answered` — each message of a record is followed by at most nine calls and its reply
* `Loop.Regular` — no message is of `EAGAIN` bytes, and no sweep locks its mutex twice
* `Loop.Deaf` — no message is answered any more

## Main results

* `Loop.replies_reaches` — in every run whose steps are regular every message is answered
* `Loop.deaf_recv_iff`, `Loop.Deaf.reaches` — the condition is exact
* `Loop.replies_fail` — two messages that get no answer
-/

namespace RobertMiddleware

open Effects Transition

namespace Loop

/-! ### The loop -/

/-- The steps of the thread that runs `loop_`. -/
inductive LoopEvent
  /-- A test of `running_`, a receive that times out, or the send at the end of a request. -/
  | advance
  /-- A receive, of as many bytes as `recv` says. -/
  | recv (buffer : Bytes)
  /-- A call of the handler. -/
  | call (uuid : Bytes)

/-- What becomes of a step. The size of a message is compared with `EAGAIN` before it is decoded. -/
def LoopEvent.serverEvent (P : Platform) (pb : Protobuf) : LoopEvent → ServerEvent
  | .advance => .advance
  | .recv buffer =>
    if P.eagain = buffer.length then .misread else .receive (Decoder.decodeBuffer pb buffer)
  | .call uuid => .call uuid

inductive LoopLabel
  | loop (e : LoopEvent)
  /-- Another thread moves. -/
  | other (l : Label)

/-- The label of the system. -/
def LoopLabel.system (P : Platform) (pb : Protobuf) : LoopLabel → Option Label
  | .loop e => some (.server (e.serverEvent P pb))
  | .other (.server _) => none
  | .other l => some l

/-- One step of the server. -/
def step (P : Platform) (pb : Protobuf) (s : System) (l : LoopLabel) : Option System :=
  (l.system P pb).bind (s.step P)

/-- The response made of an exception. -/
def exceptionResponse (what : String) : ServerResponse :=
  { status := some .error, errorMessage := ascii "ERR_SERVER_EXCEPTION: " ++ ascii what }

/-- The bytes sent for a response. -/
def replyBytes (pb : Protobuf) (response : ServerResponse) : Bytes :=
  (pb.serializeToString response).getD (ascii "ERR_SERIALIZATION_FAILED")

/-- The bytes sent at the end of a handler, which may have thrown. -/
def answerBytes (pb : Protobuf) : Except String ServerResponse → Bytes
  | .ok response => replyBytes pb response
  | .error what => replyBytes pb (exceptionResponse what)

/-! ### What the clients see -/

/-- What is recorded of a step of the thread. -/
inductive IoEvent
  | received (message : Bytes)
  | sent (reply : Bytes)
  /-- Nothing is received or sent. -/
  | silent
deriving DecidableEq

/-- The send at the end of a request. -/
def advanceEvent (pb : Protobuf) : ServerPc → IoEvent
  | .serving _ (.pure response) => .sent (answerBytes pb (.ok response))
  | .serving _ (.throw what) => .sent (answerBytes pb (.error what))
  | _ => .silent

/-- What is recorded of a step of the server. -/
def ioObs (pb : Protobuf) (s : System) : LoopLabel → List IoEvent
  | .loop .advance => [advanceEvent pb s.server]
  | .loop (.recv buffer) => [.received buffer]
  | .loop (.call _) => [.silent]
  | .other _ => []

/-- `r` is sent for some end that the handler may come to with the decoded message `m`. -/
def IsReply (P : Platform) (pb : Protobuf) (m r : Bytes) : Prop :=
  ∃ s res s', (RequestHandler.handle P (Decoder.decodeBuffer pb m)).Exec serverSem (fun _ _ => True)
      s res s' ∧ r = answerBytes pb res

/-- After each message come at most nine silent steps and one reply to it. Nothing else is sent. -/
inductive Answered (reply : Bytes → Bytes → Prop) : List IoEvent → Prop
  | nil : Answered reply []
  | silent {log : List IoEvent} (h : Answered reply log) : Answered reply (log ++ [.silent])
  | reply {log : List IoEvent} {m r : Bytes} {k : ℕ} (h : Answered reply log) (hk : k ≤ 9)
      (hr : reply m r) :
      Answered reply (log ++ .received m :: List.replicate k .silent ++ [.sent r])

/-- The condition on the steps of a run. -/
def Regular (P : Platform) (s : System) : LoopLabel → Prop
  | .loop (.recv buffer) => buffer.length ≠ P.eagain
  | .other .relock => s.shared.sessions.anyExpired s.shared.now 60 = false
  | _ => True

/-! ### One step -/

section Steps

variable {P : Platform} {pb : Protobuf} {s s' : System} {log : List IoEvent}

/-- Every step is one of the system. -/
theorem step_system {l : LoopLabel} (h : step P pb s l = some s') :
    (∃ e, l = .loop e ∧ s.step P (.server (e.serverEvent P pb)) = some s') ∨
      ∃ l', l = .other l' ∧ (∀ e, l' ≠ .server e) ∧ s.step P l' = some s' := by
  obtain ⟨l', hl', hmove⟩ := Option.bind_eq_some_iff.mp h
  revert hl'
  fun_cases l.system P pb
  all_goals rintro ⟨⟩
  case case1 e => exact .inl ⟨e, rfl, hmove⟩
  case case3 hserver => exact .inr ⟨l', rfl, hserver, hmove⟩

/-- Every run is one of the system. -/
theorem reaches_system {allowed : System → LoopLabel → Prop}
    (h : Reaches (step P pb) allowed s s') : Reaches (System.step P) always s s' := by
  refine h.invariant (.refl s) fun t l t' ht _ hstep => ?_
  rcases step_system hstep with ⟨e, -, hmove⟩ | ⟨l', -, -, hmove⟩
  · exact ht.tail trivial hmove
  · exact ht.tail trivial hmove

theorem threadsOk_reaches {users : List UserInfo} {allowed : System → LoopLabel → Prop}
    (h : Reaches (step P pb) allowed (.initial users) s) : s.ThreadsOk :=
  (reaches_system h).invariant (System.threadsOk_initial users)
    fun _ _ _ ht _ hstep => ht.step hstep

/-- When the other threads may do anything, a handler may be looked at from any state. -/
theorem exec_from {p : Handler ServerResponse} {a b : Shared} {res : Except String ServerResponse}
    (h : p.Exec serverSem (fun _ _ => True) a res b) (a' : Shared) :
    ∃ b', p.Exec serverSem (fun _ _ => True) a' res b' := by
  cases h with
  | pure x => exact ⟨a', .pure x a'⟩
  | throw e => exact ⟨a', .throw e a'⟩
  | call _ hcall hrest => exact ⟨_, .call trivial hcall hrest⟩

/-- Every end of `rest` is an end of the handler of `m`. -/
def Finishes (P : Platform) (pb : Protobuf) (m : Bytes) (rest : Handler ServerResponse) : Prop :=
  ∀ {a res b}, rest.Exec serverSem (fun _ _ => True) a res b → IsReply P pb m (answerBytes pb res)

theorem Finishes.call {m uuid : Bytes} {op : ServerCall} {k : op.Ret → Handler ServerResponse}
    {a : Shared} (h : Finishes P pb m (.call (S := ServerCalls) op k))
    (hfresh : a.FreshToken uuid) :
    Finishes P pb m (k (execCall uuid op a).1) := by
  intro a' res b' hrest
  obtain ⟨b, hrest'⟩ := exec_from hrest (execCall uuid op a).2
  exact h (.call (s := a) trivial ⟨uuid, hfresh, rfl⟩ hrest')

/-- Where the thread stands, and what it has recorded. -/
inductive Turn (P : Platform) (pb : Protobuf) : ServerPc → List IoEvent → Prop
  | between {pc : ServerPc} {log : List IoEvent} (hpc : pc.Idle) (hcrashed : pc ≠ .crashed)
      (h : Answered (IsReply P pb) log) : Turn P pb pc log
  | serving {log : List IoEvent} {m : Bytes} {k : ℕ} {rest : Handler ServerResponse}
      (h : Answered (IsReply P pb) log) (hk : k ≤ 9) (hrest : rest.Within (9 - k))
      (hfinishes : Finishes P pb m rest) :
      Turn P pb (.serving (Decoder.decodeBuffer pb m) rest)
        (log ++ .received m :: List.replicate k .silent)

theorem Turn.advance {pc pc' : ServerPc} {a b : Shared} (ht : Turn P pb pc log)
    (h : serverStep P pc a .advance = some (pc', b)) :
    Turn P pb pc' (log ++ [advanceEvent pb pc]) := by
  cases ht with
  | between hpc hcrashed hlog =>
    cases pc with
    | serving => exact hpc.elim
    | stopped | crashed => cases h
    | loopTest =>
      obtain ⟨rfl, -⟩ := Prod.mk.inj (Option.some.inj h)
      split
      · exact .between trivial nofun hlog.silent
      · exact .between trivial nofun hlog.silent
    | receiving =>
      cases h
      exact .between trivial nofun hlog.silent
  | serving hlog hk hrest hfinishes =>
    rename_i rest
    cases rest with
    | call => cases h
    | pure response =>
      cases h
      exact .between trivial nofun (hlog.reply hk (hfinishes (.pure response a)))
    | throw what =>
      cases h
      exact .between trivial nofun (hlog.reply hk (hfinishes (.throw what a)))

theorem Turn.recv {pc pc' : ServerPc} {a b : Shared} {buffer : Bytes} (ht : Turn P pb pc log)
    (hlength : buffer.length ≠ P.eagain)
    (h : serverStep P pc a ((LoopEvent.recv buffer).serverEvent P pb) = some (pc', b)) :
    Turn P pb pc' (log ++ [.received buffer]) := by
  rw [LoopEvent.serverEvent, if_neg (Ne.symm hlength)] at h
  cases ht with
  | between hpc hcrashed hlog =>
    cases serverStep_effect h with
    | receive req hreceiving =>
      exact .serving (k := 0) hlog (by decide) (RequestHandler.within_handle P _)
        fun hexec => ⟨_, _, _, hexec, rfl⟩
  | serving => cases serverStep_effect h with
    | receive req hreceiving => cases hreceiving

theorem Turn.call {pc pc' : ServerPc} {a b : Shared} {uuid : Bytes} (ht : Turn P pb pc log)
    (h : serverStep P pc a (.call uuid) = some (pc', b)) : Turn P pb pc' (log ++ [.silent]) := by
  cases serverStep_effect h with
  | call uuid req op k hpc hfresh =>
    subst hpc
    cases ht with
    | between hidle => exact hidle.elim
    | serving hlog hk hrest hfinishes =>
      rename_i log' m n
      obtain ⟨hpos, hrest⟩ := hrest
      have hn : n + 1 ≤ 9 := by omega
      rw [List.append_assoc, List.cons_append, ← List.replicate_succ']
      refine .serving hlog hn ?_ (hfinishes.call hfresh)
      rw [← Nat.sub_sub]
      exact hrest _

theorem Turn.answered {pc : ServerPc} (ht : Turn P pb pc log) (hpc : pc.Idle) :
    Answered (IsReply P pb) log := by
  cases ht with
  | between _ _ h => exact h
  | serving => exact hpc.elim

theorem Turn.ne_crashed {pc : ServerPc} (ht : Turn P pb pc log) : pc ≠ .crashed := by
  cases ht with
  | between _ hcrashed => exact hcrashed
  | serving => nofun

/-- All messages are answered but the one in service. -/
theorem Turn.log_eq {pc : ServerPc} (ht : Turn P pb pc log) :
    Answered (IsReply P pb) log ∨ ∃ pre m k, Answered (IsReply P pb) pre ∧ k ≤ 9 ∧
      log = pre ++ .received m :: List.replicate k .silent := by
  cases ht with
  | between _ _ hlog => exact .inl hlog
  | serving hlog hk => exact .inr ⟨_, _, _, hlog, hk, rfl⟩

/-- What is kept along a run. -/
structure LoopOk (P : Platform) (pb : Protobuf) (s : System) (log : List IoEvent) : Prop where
  threads : s.ThreadsOk
  sweeper : s.sweeper ≠ .relocking
  turn : Turn P pb s.server log

theorem loopOk_initial (users : List UserInfo) : LoopOk P pb (.initial users) [] :=
  ⟨System.threadsOk_initial users, nofun, .between trivial nofun .nil⟩

theorem LoopOk.step {l : LoopLabel} (hs : LoopOk P pb s log) (hl : Regular P s l)
    (h : step P pb s l = some s') : LoopOk P pb s' (log ++ ioObs pb s l) := by
  rcases step_system h with ⟨e, rfl, hmove⟩ | ⟨l', rfl, hserver, hmove⟩
  · obtain ⟨-, pc, b, hpc, rfl⟩ := System.server_move hmove
    refine ⟨hs.threads.step hmove, hs.sweeper, ?_⟩
    cases e with
    | advance => exact hs.turn.advance hpc
    | recv buffer => exact hs.turn.recv hl hpc
    | call uuid => exact hs.turn.call hpc
  · refine ⟨hs.threads.step hmove, ?_, ?_⟩
    · intro hrelocking
      rcases (hs.threads.relocking_iff hmove).mp hrelocking with hbefore | rfl
      · exact hs.sweeper hbefore
      · obtain ⟨⟨-, hexpired⟩, -⟩ := System.relock_move hmove
        exact absurd hexpired (Bool.eq_false_iff.mp hl)
    · rw [ioObs, List.append_nil]
      rcases hs.threads.server_other hmove hserver with hsame | ⟨hstopped, hmade⟩
      · rw [hsame]
        exact hs.turn
      · rw [hmade]
        exact .between trivial nofun (hs.turn.answered (by rw [hstopped]; trivial))

/-- The thread never waits for the sweeper. -/
theorem LoopOk.step_loop {e : LoopEvent} {pc : ServerPc} {b : Shared} (hs : LoopOk P pb s log)
    (h : serverStep P s.server s.shared (e.serverEvent P pb) = some (pc, b)) :
    Loop.step P pb s (.loop e) = some { s with server := pc, shared := b } := by
  have hwaits := System.serverWaits_eq_false hs.sweeper
  simp [Loop.step, LoopLabel.system, System.step, hwaits, h]

/-- It can take a step, and a thread in `recv` may also time out. -/
theorem LoopOk.exists_step (hs : LoopOk P pb s log) (hstopped : s.server ≠ .stopped) :
    ∃ e, (Loop.step P pb s (.loop e)).isSome := by
  have hmoves : ∃ e : LoopEvent, (serverStep P s.server s.shared (e.serverEvent P pb)).isSome := by
    obtain ⟨e, he⟩ := ServerPc.exists_step P s.shared hstopped hs.turn.ne_crashed
    obtain ⟨⟨pc, b⟩, hmove⟩ := Option.isSome_iff_exists.mp he
    cases serverStep_effect hmove with
    | between => exact ⟨.advance, he⟩
    | call uuid => exact ⟨.call uuid, he⟩
    | receive req hpc | misread hpc =>
      rw [hpc]
      exact ⟨.advance, rfl⟩
  obtain ⟨e, he⟩ := hmoves
  obtain ⟨⟨pc, b⟩, hmove⟩ := Option.isSome_iff_exists.mp he
  exact ⟨e, by rw [hs.step_loop hmove]; rfl⟩

/-- One more step of a run. -/
theorem LoopOk.reaches_loop {e : LoopEvent} {pc : ServerPc} {b : Shared} (hs : LoopOk P pb s log)
    (he : Regular P s (.loop e))
    (h : serverStep P s.server s.shared (e.serverEvent P pb) = some (pc, b)) :
    LoopOk P pb { s with server := pc, shared := b } (log ++ ioObs pb s (.loop e)) ∧
      Reaches (logged (Loop.step P pb) (ioObs pb)) (unlogged (Regular P)) (s, log)
        ({ s with server := pc, shared := b }, log ++ ioObs pb s (.loop e)) :=
  have hmove := hs.step_loop h
  ⟨hs.step he hmove, .tail (.refl _) he (logged_eq_some_iff.mpr ⟨hmove, rfl⟩)⟩

/-- The thread alone can bring its request to an end, by induction on what is left of the
handler. -/
theorem LoopOk.exists_sent {req : DecodedRequest} {rest : Handler ServerResponse}
    (hs : LoopOk P pb s log) (hserving : s.server = .serving req rest) :
    ∃ s' log', Reaches (logged (Loop.step P pb) (ioObs pb)) (unlogged (Regular P)) (s, log)
      (s', log') ∧ Answered (IsReply P pb) log' := by
  induction rest generalizing s log with
  | pure response =>
    have hmove : serverStep P s.server s.shared .advance = some (.loopTest, s.shared) := by
      rw [hserving]
      rfl
    obtain ⟨hs', hrun⟩ := hs.reaches_loop (e := .advance) trivial hmove
    exact ⟨_, _, hrun, hs'.turn.answered trivial⟩
  | throw what =>
    have hmove : serverStep P s.server s.shared .advance = some (.loopTest, s.shared) := by
      rw [hserving]
      rfl
    obtain ⟨hs', hrun⟩ := hs.reaches_loop (e := .advance) trivial hmove
    exact ⟨_, _, hrun, hs'.turn.answered trivial⟩
  | call op k ih =>
    obtain ⟨uuid, hfresh⟩ := SessionManager.exists_freshToken s.shared
    have hmove : serverStep P s.server s.shared (.call uuid) =
        some (.serving req (k (execCall uuid op s.shared).1), (execCall uuid op s.shared).2) := by
      rw [hserving]
      exact if_pos hfresh
    obtain ⟨hs', hrun⟩ := hs.reaches_loop (e := .call uuid) trivial hmove
    obtain ⟨s', log', hrest, hanswered⟩ := ih _ hs' rfl
    exact ⟨s', log', hrun.trans hrest, hanswered⟩

theorem LoopOk.exists_answered (hs : LoopOk P pb s log) :
    ∃ s' log', Reaches (logged (Loop.step P pb) (ioObs pb)) (unlogged (Regular P)) (s, log)
      (s', log') ∧ Answered (IsReply P pb) log' := by
  cases hserver : s.server with
  | serving req rest => exact hs.exists_sent hserver
  | _ => exact ⟨s, log, .refl _, hs.turn.answered (by rw [hserver]; trivial)⟩

/-- **Each message is answered.** In every run in which no message received is as long as the
number `EAGAIN` and no sweep comes upon an expired session and waits for its own mutex, no
exception leaves the loop, and each message is followed by at most nine steps of the thread that
send nothing and one reply to it, before the next message; the last message may still be in
service. Then the thread is not blocked, and the run goes on to one in which that message is
answered, too. -/
theorem replies_reaches {users : List UserInfo}
    (h : Reaches (logged (step P pb) (ioObs pb)) (unlogged (Regular P)) (.initial users, [])
      (s, log)) :
    s.server ≠ .crashed ∧
      (Answered (IsReply P pb) log ∨ ∃ pre m k, Answered (IsReply P pb) pre ∧ k ≤ 9 ∧
        log = pre ++ .received m :: List.replicate k .silent) ∧
      (s.server ≠ .stopped → ∃ e, (step P pb s (.loop e)).isSome) ∧
      ∃ s' log', Reaches (logged (step P pb) (ioObs pb)) (unlogged (Regular P)) (s, log)
        (s', log') ∧ Answered (IsReply P pb) log' := by
  have hok : LoopOk P pb s log :=
    h.logged_invariant (loopOk_initial users) fun _ _ _ _ ht hl hstep => ht.step hl hstep
  exact ⟨hok.turn.ne_crashed, hok.turn.log_eq, hok.exists_step, hok.exists_answered⟩

/-! ### The condition is exact -/

/-- An exception has left the thread, or it waits for the mutex that the sweeper keeps. -/
structure Deaf (s : System) : Prop where
  threads : s.ThreadsOk
  deaf : s.server = .crashed ∨ s.serverWaits = true

/-- Every handler begins with a call on the sessions. -/
theorem handle_locks (P : Platform) (req : DecodedRequest) :
    ∃ op k, RequestHandler.handle P req = .call (S := ServerCalls) op k ∧
      ServerCall.locksSessions op = true := by
  by_cases hcheck : req.cmdType = .checkTask
  · rw [RequestHandler.handle, if_neg (not_not_intro hcheck), RequestHandler.dispatch, hcheck]
    exact ⟨.isValidToken req.token, _, rfl, rfl⟩
  · rw [RequestHandler.handle, if_pos hcheck]
    exact ⟨.tokenToUsername req.token, _, rfl, rfl⟩

/-- **The condition is exact.** A message is the last that the thread looks at if its length is
`EAGAIN` or the sweeper waits for its own mutex, and in no other case. -/
theorem deaf_recv_iff {buffer : Bytes} (hs : s.ThreadsOk)
    (h : step P pb s (.loop (.recv buffer)) = some s') :
    Deaf s' ↔ buffer.length = P.eagain ∨ s.sweeper = .relocking := by
  have hmove : s.step P (.server ((LoopEvent.recv buffer).serverEvent P pb)) = some s' := h
  have hs' : s'.ThreadsOk := hs.step hmove
  obtain ⟨-, pc, b, hpc, rfl⟩ := System.server_move hmove
  by_cases heagain : P.eagain = buffer.length
  · rw [LoopEvent.serverEvent, if_pos heagain] at hpc
    cases serverStep_effect hpc
    exact iff_of_true ⟨hs', .inl rfl⟩ (.inl heagain.symm)
  · rw [LoopEvent.serverEvent, if_neg heagain] at hpc
    cases serverStep_effect hpc
    obtain ⟨op, k, hhandle, hlocks⟩ := handle_locks P (Decoder.decodeBuffer pb buffer)
    constructor
    · rintro ⟨-, hcrashed | hwaits⟩
      · cases hcrashed
      · exact .inr (System.serverWaits_iff.mp hwaits).1
    · rintro (hlength | hrelocking)
      · exact absurd hlength.symm heagain
      · exact ⟨hs', .inr (System.serverWaits_iff.mpr
          ⟨hrelocking, _, op, k, congrArg (ServerPc.serving _) hhandle, hlocks⟩)⟩

theorem Deaf.step {l : LoopLabel} (hs : Deaf s) (h : Loop.step P pb s l = some s') :
    Deaf s' ∧ ioObs pb s l = [] := by
  rcases step_system h with ⟨e, rfl, hmove⟩ | ⟨l', rfl, hserver, hmove⟩
  · obtain ⟨hwaits, pc, b, hpc, rfl⟩ := System.server_move hmove
    rcases hs.deaf with hcrashed | hwaits'
    · rw [hcrashed] at hpc
      cases hpc
    · rw [hwaits] at hwaits'
      cases hwaits'
  · refine ⟨⟨hs.threads.step hmove, ?_⟩, rfl⟩
    have hsame : s'.server = s.server := by
      rcases hs.threads.server_other hmove hserver with hsame | ⟨hstopped, -⟩
      · exact hsame
      · rcases hs.deaf with hcrashed | hwaits
        · rw [hcrashed] at hstopped
          cases hstopped
        · obtain ⟨-, req, op, k, hserving, -⟩ := System.serverWaits_iff.mp hwaits
          rw [hserving] at hstopped
          cases hstopped
    refine hs.deaf.imp hsame.trans fun hwaits => ?_
    obtain ⟨hrelocking, req, op, k, hserving, hlocks⟩ := System.serverWaits_iff.mp hwaits
    have hrelocking' := (hs.threads.relocking_iff hmove).mpr (.inl hrelocking)
    exact System.serverWaits_iff.mpr ⟨hrelocking', req, op, k, hsame.trans hserving, hlocks⟩

/-- **Nothing is sent any more.** -/
theorem Deaf.reaches {log' : List IoEvent} (hs : Deaf s)
    (h : Reaches (logged (Loop.step P pb) (ioObs pb)) (unlogged always) (s, log) (s', log')) :
    log' = log := by
  refine (h.logged_invariant (I := fun t tlog => Deaf t ∧ tlog = log) ⟨hs, rfl⟩ ?_).2
  rintro t tlog l t' ⟨ht, rfl⟩ - hstep
  obtain ⟨ht', hnone⟩ := ht.step hstep
  exact ⟨ht', by rw [hnone, List.append_nil]⟩

end Steps

/-! ### Two runs -/

/-- A text field of a message; an empty one is left out. -/
def textField (tag : UInt8) (text : Bytes) : Bytes :=
  if text.isEmpty then [] else tag :: UInt8.ofNat text.length :: text

/-- Generated code that reads a `PING` and the `LOGIN` of `alice`, and writes the texts of a
response. The numbers of the fields are made up. -/
def pingCode : Protobuf where
  parseFromString message :=
    if message = [8, 7] then some { command := .ping }
    else if message = [8, 12] then
      some { command := .login, username := ascii "alice", password := ascii "secret" }
    else none
  serializeToString response :=
    some (textField 18 response.errorMessage ++ textField 26 response.textPayload)

/-- A message is received and answered, in so many calls. -/
def answerLabels (message : Bytes) (calls : ℕ) : List LoopLabel :=
  [.loop .advance, .loop (.recv message)] ++
    List.replicate calls (.loop (.call (ascii "u"))) ++ [.loop .advance]

/-- The server is started. -/
def startLabels : List LoopLabel := [.other .start, .other .owner, .other .owner]

instance (P : Platform) (s : System) : ∀ l, Decidable (Regular P s l)
  | .loop (.recv _) => inferInstanceAs (Decidable (_ ≠ _))
  | .other .relock => inferInstanceAs (Decidable (_ = _))
  | .loop .advance | .loop (.call _) => .isTrue trivial
  | .other (.tick _) | .other (.server _) | .other (.taskWorker _) | .other (.robotWorker _)
  | .other .sweeper | .other .start | .other .stop | .other .owner => .isTrue trivial

/-- A `PING` and then a message that does not parse. -/
theorem replies_reaches_ping :
    ∃ s log, Reaches (logged (step .linux pingCode) (ioObs pingCode)) (unlogged (Regular .linux))
        (.initial SessionManager.aliceOnly, []) (s, log) ∧
      log = [.silent, .received [8, 7], .silent, .sent (26 :: 7 :: ascii "PONGUWU"),
        .silent, .received [255], .silent, .sent (18 :: 15 :: ascii "Unknown command")] ∧
      s.server ≠ .crashed := by
  have hrun : ∃ s log, runLabels (logged (step .linux pingCode) (ioObs pingCode))
      (unlogged (Regular .linux)) (.initial SessionManager.aliceOnly, [])
      (startLabels ++ answerLabels [8, 7] 1 ++ answerLabels [255] 1) = some (s, log) ∧
      log = [.silent, .received [8, 7], .silent, .sent (26 :: 7 :: ascii "PONGUWU"),
        .silent, .received [255], .silent, .sent (18 :: 15 :: ascii "Unknown command")] :=
    ⟨_, _, rfl, by decide⟩
  obtain ⟨s, log, hrun, hlog⟩ := hrun
  have hreach := Reaches.of_runLabels hrun
  exact ⟨s, log, hreach, hlog, (replies_reaches hreach).1⟩

/-- The sweep comes upon the session of `alice`. -/
def relockLabels : List LoopLabel :=
  [.other (.tick 61000000000), .other .sweeper, .other .sweeper, .other .relock]

/-- **Two messages that are not answered.** One has eleven bytes, on Linux: the exception leaves
the loop. The other is a `PING`, after a sweep has waited for its own mutex. No run that goes on
from there sends anything. -/
theorem replies_fail :
    (∃ s log, Reaches (logged (step .linux pingCode) (ioObs pingCode)) (unlogged always)
        (.initial SessionManager.aliceOnly, []) (s, log) ∧
      log = [.silent, .received (ascii "eleven byte")] ∧ s.server = .crashed ∧
      ∀ s' log', Reaches (logged (step .linux pingCode) (ioObs pingCode)) (unlogged always)
        (s, log) (s', log') → log' = log) ∧
    ∃ s log, Reaches (logged (step .linux pingCode) (ioObs pingCode)) (unlogged always)
        (.initial SessionManager.aliceOnly, []) (s, log) ∧
      log.getLast? = some (.received [8, 7]) ∧ s.sweeper = .relocking ∧
      ∀ s' log', Reaches (logged (step .linux pingCode) (ioObs pingCode)) (unlogged always)
        (s, log) (s', log') → log' = log := by
  constructor
  · have hrun : ∃ s log, runLabels (logged (step .linux pingCode) (ioObs pingCode))
        (unlogged always) (.initial SessionManager.aliceOnly, [])
        (startLabels ++ [.loop .advance, .loop (.recv (ascii "eleven byte"))]) = some (s, log) ∧
        log = [.silent, .received (ascii "eleven byte")] ∧ s.server = .crashed :=
      ⟨_, _, rfl, rfl, rfl⟩
    obtain ⟨s, log, hrun, hlog, hcrashed⟩ := hrun
    have hreach := Reaches.of_runLabels hrun
    have hdeaf : Deaf s := ⟨threadsOk_reaches hreach.of_logged, .inl hcrashed⟩
    exact ⟨s, log, hreach, hlog, hcrashed, fun _ _ => hdeaf.reaches⟩
  · have hrun : ∃ s log, runLabels (logged (step .linux pingCode) (ioObs pingCode))
        (unlogged always) (.initial SessionManager.aliceOnly, [])
        (startLabels ++ answerLabels [8, 12] 2 ++ relockLabels ++
          [.loop .advance, .loop (.recv [8, 7])]) = some (s, log) ∧
        log.getLast? = some (.received [8, 7]) ∧ s.sweeper = .relocking ∧ s.serverWaits = true :=
      ⟨_, _, rfl, rfl, rfl, rfl⟩
    obtain ⟨s, log, hrun, hlog, hrelocking, hwaits⟩ := hrun
    have hreach := Reaches.of_runLabels hrun
    have hdeaf : Deaf s := ⟨threadsOk_reaches hreach.of_logged, .inr hwaits⟩
    exact ⟨s, log, hreach, hlog, hrelocking, fun _ _ => hdeaf.reaches⟩

end Loop

end RobertMiddleware

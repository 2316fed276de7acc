import RobertMiddleware.Server.Moves

/-!
# Handlers under interference

Between two calls of a handler every other thread may run. `Interference` says what those threads
can do to the shared objects, as far as handlers depend on it: they queue no task and draw no id,
and the sweeper only ever removes sessions, together with the lock of a session it removes.

Under that interference each call a handler makes is a sound one: a task gets a new id and is
created and queued while no other session than the requester's holds the lock, and a session that
logs out does not hold it.

## Main definitions

* `Interference` — what may happen between two calls
* `SoundCall` — what holds when a call is made
* `System.HandlerOk` — the calls still to be made by the request in service will be sound

## Main results

* `System.interference_step` — every step of another thread is interference
* `RequestHandler.wp_handle` — the calls of every handler are sound
* `System.HandlerOk.step`, `HandlerOk.sound` — and so are the calls of every run
-/

namespace RobertMiddleware

open Effects

/-! ### The other threads -/

/-- What the other threads may do to the shared objects between `a` and `b`. -/
structure Interference (a b : Shared) : Prop where
  users : b.sessions.users = a.sessions.users
  sessions : ∀ token session, b.sessions.sessions.lookup token = some session →
    a.sessions.sessions.lookup token = some session
  lock : ∀ token, b.sessions.currentLock = some token → a.sessions.currentLock = some token
  holder : ∀ token, b.sessions.currentLock = some token → token ∈ a.sessions.sessions →
    token ∈ b.sessions.sessions
  counter : b.tasker.nextTaskCounter = a.tasker.nextTaskCounter
  created : b.history.created = a.history.created
  queued : b.history.queued = a.history.queued
  issued : b.history.issued = a.history.issued

namespace Interference

/-- What leaves the sessions alone. -/
theorem of_sessions_eq {a b : Shared} (sessions : b.sessions = a.sessions)
    (counter : b.tasker.nextTaskCounter = a.tasker.nextTaskCounter)
    (created : b.history.created = a.history.created)
    (queued : b.history.queued = a.history.queued)
    (issued : b.history.issued = a.history.issued) : Interference a b where
  users := by rw [sessions]
  sessions _ _ h := sessions ▸ h
  lock _ h := sessions ▸ h
  holder _ _ h := sessions ▸ h
  counter := counter
  created := created
  queued := queued
  issued := issued

theorem refl (a : Shared) : Interference a a := of_sessions_eq rfl rfl rfl rfl rfl

theorem trans {a b c : Shared} (h : Interference a b) (h' : Interference b c) :
    Interference a c where
  users := h'.users.trans h.users
  sessions token session hc := h.sessions token session (h'.sessions token session hc)
  lock token hc := h.lock token (h'.lock token hc)
  holder token hc ha := h'.holder token hc (h.holder token (h'.lock token hc) ha)
  counter := h'.counter.trans h.counter
  created := h'.created.trans h.created
  queued := h'.queued.trans h.queued
  issued := h'.issued.trans h.issued

/-- The sweep of the sessions. -/
theorem sweepExpiredSessions (a : Shared) (timeout : ℤ) :
    Interference a { a with sessions := a.sessions.sweepExpiredSessions a.now timeout } where
  users := SessionManager.users_sweepExpiredSessions _ _ _
  sessions token session h := by
    rw [SessionManager.lookup_sweepExpiredSessions] at h
    exact (Option.filter_eq_some_iff.mp h).1
  lock token h := by
    rw [SessionManager.currentLock_sweepExpiredSessions] at h
    exact (Option.filter_eq_some_iff.mp h).1
  holder token h hmem := by
    rw [SessionManager.currentLock_sweepExpiredSessions] at h
    have hlive := (Option.filter_eq_some_iff.mp h).2
    obtain ⟨session, hsession⟩ := Option.isSome_iff_exists.mp (AList.lookup_isSome.mpr hmem)
    rw [hsession] at hlive
    rw [← AList.lookup_isSome, SessionManager.lookup_sweepExpiredSessions, hsession]
    simpa using hlive
  counter := rfl
  created := rfl
  queued := rfl
  issued := rfl

end Interference

theorem TaskWorkerEffect.interference {pc pc' : TaskWorkerPc} {a b : Shared}
    {e : TaskWorkerEvent} (h : TaskWorkerEffect pc a e pc' b) : Interference a b := by
  have hupdate : ∀ id f, Interference a { a with tasker := (a.tasker.updateTask id f).2 } :=
    fun id f => .of_sessions_eq rfl (Tasker.nextTaskCounter_updateTask ..) rfl rfl rfl
  cases h with
  | keep => exact .refl a
  | take => exact .of_sessions_eq rfl rfl rfl rfl rfl
  | start id => exact hupdate id _
  | push => exact .of_sessions_eq rfl rfl rfl rfl rfl
  | answered => exact .refl a
  | timedOut => exact .refl a
  | record id response =>
    obtain ⟨f, hf⟩ := recordResponse_eq a.now id response a.tasker
    rw [hf]
    exact hupdate id f
  | fail id => exact hupdate id _

theorem SweeperEffect.interference {a b : Shared} (h : SweeperEffect a b) : Interference a b := by
  cases h with
  | keep => exact .refl a
  | sessions => exact .sweepExpiredSessions a 60
  | tasks => exact .of_sessions_eq rfl rfl rfl rfl rfl

namespace System

theorem interference_step {P : Platform} {s s' : System} {l : Label} (h : step P s l = some s')
    (hl : ∀ e, l ≠ .server e) : Interference s.shared s'.shared := by
  cases step_effect h with
  | server => exact absurd rfl (hl _)
  | taskWorker hmove => exact hmove.interference
  | robotWorker hmove => exact .of_sessions_eq rfl rfl rfl rfl rfl
  | sweeper _ hmove => exact hmove.interference
  | other _ _ _ hmove =>
    exact .of_sessions_eq hmove.sessions hmove.counter (by rw [hmove.history])
      (by rw [hmove.history]) (by rw [hmove.history])

/-- For the shared objects a step is a call of the handler or interference with it. -/
theorem shared_step {P : Platform} {s s' : System} {l : Label} (h : step P s l = some s') :
    (∃ uuid req op k, l = .server (.call uuid) ∧
      s.server = .serving req (.call (S := ServerCalls) op k) ∧
      s'.shared = (execCall uuid op s.shared).2) ∨
    (∀ uuid, l ≠ .server (.call uuid)) ∧ Interference s.shared s'.shared := by
  by_cases hl : ∃ e, l = .server e
  · obtain ⟨e, rfl⟩ := hl
    cases step_effect h with
    | other hl => exact absurd rfl (hl e)
    | server hmove =>
      cases hmove with
      | between | receive | misread => exact .inr ⟨by simp, .refl s.shared⟩
      | call uuid req op k hpc => exact .inl ⟨uuid, req, op, k, rfl, hpc, rfl⟩
  · have hother : ∀ e, l ≠ .server e := fun e he => hl ⟨e, he⟩
    exact .inr ⟨fun uuid => hother (.call uuid), interference_step h hother⟩

end System

/-! ### Sound calls -/

/-- Nobody but `token` holds the lock. -/
def SessionManager.OnlyHolder (token : Bytes) (s : SessionManager) : Prop :=
  ∀ t, s.currentLock = some t → t = token

/-- The task `id` was created once, by a request with this token. -/
def Shared.CreatedBy (id : TaskId) (token : Bytes) (s : Shared) : Prop :=
  ∀ t, (id, t) ∈ s.history.created ↔ t = token

/-- What holds when a handler makes a call. -/
def SoundCall : ServerCall → Shared → Prop
  | .logout token, s => s.sessions.currentLock ≠ some token
  | .emplaceTask id _ token, s =>
    id < s.tasker.nextTaskCounter ∧ (∀ t, (id, t) ∉ s.history.created) ∧
      s.sessions.OnlyHolder token
  | .pushTask id, s =>
    id < s.tasker.nextTaskCounter ∧ id ∉ s.history.queued ∧
      ∃ creator, s.CreatedBy id creator ∧ s.sessions.OnlyHolder creator
  | _, _ => True

/-- The ids in use come from the counter. -/
structure Shared.IdsBelow (s : Shared) : Prop where
  created : ∀ e ∈ s.history.created, e.1 < s.tasker.nextTaskCounter
  queued : ∀ id ∈ s.history.queued, id < s.tasker.nextTaskCounter

theorem SessionManager.OnlyHolder.of_interference {a b : Shared} {token : Bytes}
    (h : a.sessions.OnlyHolder token) (hab : Interference a b) : b.sessions.OnlyHolder token :=
  fun t ht => h t (hab.lock t ht)

theorem Shared.IdsBelow.of_interference {a b : Shared} (h : a.IdsBelow) (hab : Interference a b) :
    b.IdsBelow where
  created := by rw [hab.created, hab.counter]; exact h.created
  queued := by rw [hab.queued, hab.counter]; exact h.queued

namespace RequestHandler

/-- Every call of `p`, run from `s`, is sound, and `p` ends with `Q`. -/
abbrev Safely {α : Type} (p : Handler α) (Q : Except String α → Shared → Prop) (s : Shared) :
    Prop :=
  p.Wp serverSem Interference SoundCall Q s

/-- Every call of `p`, run from `s`, is sound. -/
abbrev Safe {α : Type} (p : Handler α) (s : Shared) : Prop := Safely p (fun _ _ => True) s

/-- **Rule of a call.** -/
theorem safely_call {α : Type} {op : ServerCall} {k : op.Ret → Handler α}
    {Q : Except String α → Shared → Prop} {s : Shared}
    (h : ∀ a, Interference s a →
      SoundCall op a ∧ ∀ uuid, Safely (k (execCall uuid op a).1) Q (execCall uuid op a).2) :
    Safely (Prog.call (S := ServerCalls) op k) Q s := by
  intro a ha
  refine ⟨(h a ha).1, ?_⟩
  rintro r b ⟨uuid, -, heq⟩
  obtain ⟨rfl, rfl⟩ := Prod.mk.inj heq
  exact (h a ha).2 uuid

theorem safely_validateToken {req : DecodedRequest} {Q : Except String Bool → Shared → Prop}
    {s : Shared} (hs : s.IdsBelow) (h : ∀ valid a, a.IdsBelow → Q (.ok valid) a) :
    Safely (validateToken req) Q s := by
  refine safely_call fun a ha => ⟨trivial, fun _ => ?_⟩
  change Safely (if a.sessions.isValidToken req.token then _ else _) Q a
  split
  · refine safely_call fun b hb => ⟨trivial, fun _ => h true _ ?_⟩
    obtain ⟨hcreated, hqueued⟩ := (hs.of_interference ha).of_interference hb
    exact ⟨hcreated, hqueued⟩
  · exact h false a (hs.of_interference ha)

/-- The answer about the lock is right for the state it was asked in. -/
theorem safely_validateHardwareLock {req : DecodedRequest}
    {Q : Except String Bool → Shared → Prop} {s : Shared}
    (h : ∀ a, Interference s a → Q (.ok (a.sessions.hasLock req.token)) a) :
    Safely (validateHardwareLock req) Q s :=
  safely_call fun a ha => ⟨trivial, fun _ => h a ha⟩

theorem safe_handleLogin (req : DecodedRequest) (s : Shared) : Safe (handleLogin req) s := by
  simp [handleLogin, invoke, Prog.perform, Prog.bind, Safe, Prog.Wp, SoundCall]

theorem safe_handleLogout {req : DecodedRequest} {s : Shared} (hs : s.IdsBelow) :
    Safe (handleLogout req) s := by
  rw [handleLogout]
  split
  · trivial
  · refine Prog.wp_bind.mpr (safely_validateToken hs fun valid a ha => ?_)
    cases valid with
    | false => trivial
    | true =>
      refine Prog.wp_bind.mpr (safely_validateHardwareLock fun b hb => ?_)
      cases hlock : b.sessions.hasLock req.token with
      | true =>
        refine safely_call fun c hc => ⟨trivial, fun _ => ?_⟩
        refine safely_call fun d hd => ⟨fun hheld => ?_, fun _ => trivial⟩
        -- just released, and nobody else can have taken it
        have hreleased := hd.lock _ hheld
        simp [execCall, SessionManager.currentLock_releaseLock] at hreleased
      | false =>
        refine safely_call fun c hc => ⟨fun hheld => ?_, fun _ => trivial⟩
        have hb := hc.lock _ hheld
        simp [SessionManager.hasLock, hb] at hlock

theorem safe_handleAcquire (req : DecodedRequest) (s : Shared) : Safe (handleAcquire req) s := by
  simp [handleAcquire, validateToken, validateHardwareLock, invoke, Prog.perform, Prog.bind, Safe,
    Prog.Wp, SoundCall]

theorem safe_handleRelease (req : DecodedRequest) (s : Shared) : Safe (handleRelease req) s := by
  simp [handleRelease, validateToken, validateHardwareLock, invoke, Prog.perform, Prog.bind, Safe,
    Prog.Wp, SoundCall]

theorem safe_handleExit (req : DecodedRequest) (s : Shared) : Safe (handleExit req) s := by
  simp [handleExit, validateToken, validateHardwareLock, invoke, Prog.perform, Prog.bind, Safe,
    Prog.Wp, SoundCall]

theorem safe_handleCheckTask {P : Platform} {req : DecodedRequest} {s : Shared}
    (hs : s.IdsBelow) : Safe (handleCheckTask P req) s := by
  rw [handleCheckTask]
  refine Prog.wp_bind.mpr (safely_validateToken hs fun valid a ha => ?_)
  cases valid with
  | false => trivial
  | true =>
    refine Prog.wp_bind.mpr (safely_validateHardwareLock fun b hb => ?_)
    cases b.sessions.hasLock req.token with
    | false => trivial
    | true =>
      cases req.taskId with
      | none => trivial
      | some id =>
        refine safely_call fun c hc => ⟨trivial, fun uuid => ?_⟩
        generalize (execCall uuid (.getTask id) c).1 = task
        rcases task with _ | ⟨_, _, state, _, _, _, _⟩
        · trivial
        · cases state with
          | completed => exact safely_call fun d hd => ⟨trivial, fun _ => trivial⟩
          | pending => trivial
          | inProgress => trivial
          | failed => exact safely_call fun d hd => ⟨trivial, fun _ => trivial⟩

/-- A task that is added while nobody but the requester holds the lock. -/
theorem safe_addTask {request : RapidRequest} {token : Bytes} {s : Shared} (hs : s.IdsBelow)
    (hlock : s.sessions.OnlyHolder token) : Safe (addTask request token) s := by
  refine safely_call fun a ha => ⟨trivial, fun uuid => ?_⟩
  -- the new id is the counter of `a`; nobody else draws one
  obtain ⟨hcreated, hqueued⟩ := hs.of_interference ha
  have hlocka : a.sessions.OnlyHolder token := hlock.of_interference ha
  refine safely_call fun b hb => ?_
  have hlockb : b.sessions.OnlyHolder token :=
    SessionManager.OnlyHolder.of_interference (a := (execCall uuid .fetchTaskId a).2) hlocka hb
  refine ⟨⟨?_, fun t ht => ?_, hlockb⟩, fun uuid' => ?_⟩
  · exact hb.counter ▸ Nat.lt_succ_self _
  · exact absurd (hcreated _ (hb.created ▸ ht)) (lt_irrefl _)
  refine safely_call fun c hc =>
    ⟨⟨?_, fun hmem => ?_, token, fun t => ?_, fun holder hholder => ?_⟩, fun _ => trivial⟩
  · rw [hc.counter]
    exact (Tasker.nextTaskCounter_emplaceTask ..).symm ▸ hb.counter ▸ Nat.lt_succ_self _
  · rw [hc.queued] at hmem
    exact absurd (hqueued _ (hb.queued ▸ hmem)) (lt_irrefl _)
  · rw [hc.created]
    refine ⟨fun ht => ?_, ?_⟩
    · rcases List.mem_append.mp ht with hold | hnew
      · exact absurd (hcreated _ (hb.created ▸ hold)) (lt_irrefl _)
      · exact congrArg Prod.snd (List.mem_singleton.mp hnew)
    · rintro rfl
      exact List.mem_append_right _ (List.mem_singleton_self _)
  · exact hlockb holder (hc.lock holder hholder)

theorem safe_handleRobotCommand {P : Platform} {req : DecodedRequest} {s : Shared}
    (hs : s.IdsBelow) : Safe (handleRobotCommand P req) s := by
  refine safely_call fun a ha => ⟨trivial, fun _ => ?_⟩
  change Safe (if !a.robotLoaded then _ else _) a
  split
  · trivial
  refine Prog.wp_bind.mpr (safely_validateToken (hs.of_interference ha) fun valid b hb => ?_)
  cases valid with
  | false => trivial
  | true =>
    refine Prog.wp_bind.mpr (safely_validateHardwareLock fun c hc => ?_)
    cases hlock : c.sessions.hasLock req.token with
    | false => trivial
    | true =>
      have honly : c.sessions.OnlyHolder req.token := fun t ht => by
        have hheld : c.sessions.currentLock = some req.token := by
          simpa [SessionManager.hasLock] using hlock
        exact Option.some.inj (ht.symm.trans hheld)
      refine safely_call fun d hd => ⟨trivial, fun _ => ?_⟩
      change Safe (if !d.robot.connected then _ else _) d
      split
      · trivial
      have hids := (hb.of_interference hc).of_interference hd
      have honly' := honly.of_interference hd
      split
      · trivial
      · exact Prog.wp_bind.mpr (safe_addTask hids honly')

theorem safe_dispatch {P : Platform} {req : DecodedRequest} {s : Shared} (hs : s.IdsBelow) :
    Safe (dispatch P req) s := by
  rw [dispatch]
  split
  · trivial
  · exact safe_handleLogin req s
  · exact safe_handleLogout hs
  · exact safe_handleAcquire req s
  · exact safe_handleRelease req s
  · exact safe_handleCheckTask hs
  · exact safe_handleExit req s
  · trivial
  · exact safe_handleRobotCommand hs

/-- **The calls of every handler are sound**, whatever the other threads do in between. -/
theorem safe_handle {P : Platform} {req : DecodedRequest} {s : Shared} (hs : s.IdsBelow) :
    Safe (handle P req) s := by
  rw [handle]
  split
  · exact safely_call fun a ha => ⟨trivial, fun _ => safe_dispatch (hs.of_interference ha)⟩
  · exact safe_dispatch hs

end RequestHandler

/-! ### Along runs -/

namespace System

/-- The calls that the request in service has still to make will be sound. -/
def Serving (pc : ServerPc) (s : Shared) : Prop :=
  match pc with
  | .serving _ rest => RequestHandler.Safe rest s
  | _ => True

structure HandlerOk (s : System) : Prop where
  ids : s.shared.IdsBelow
  serving : Serving s.server s.shared

theorem handlerOk_initial (users : List UserInfo) : HandlerOk (initial users) :=
  ⟨⟨nofun, nofun⟩, trivial⟩

theorem Serving.of_idle {pc : ServerPc} (h : pc.Idle) (s : Shared) : Serving pc s := by
  cases pc with
  | serving => exact h.elim
  | _ => trivial

theorem Serving.of_interference {pc : ServerPc} {a b : Shared} (h : Serving pc a)
    (hab : Interference a b) : Serving pc b := by
  cases pc with
  | serving req rest =>
    have hsafe : RequestHandler.Safe rest a := h
    exact Prog.Wp.of_env (fun hab hbc => hab.trans hbc) (fun _ _ _ _ => id) hsafe hab
  | _ => trivial

/-- **Every call made in a run is sound.** -/
theorem HandlerOk.sound {s : System} (hs : HandlerOk s) {req : DecodedRequest} {op : ServerCall}
    {k : op.Ret → Handler ServerResponse}
    (hpc : s.server = .serving req (.call (S := ServerCalls) op k)) : SoundCall op s.shared := by
  have h := hs.serving
  rw [hpc] at h
  exact (h s.shared (.refl _)).1

/-- A sound call keeps the ids below the counter. -/
theorem idsBelow_execCall {s : Shared} (hs : s.IdsBelow) {op : ServerCall} (hop : SoundCall op s)
    (uuid : Bytes) : (execCall uuid op s).2.IdsBelow := by
  obtain ⟨hcreated, hqueued⟩ := hs
  cases op with
  | fetchTaskId =>
    exact ⟨fun e he => (hcreated e he).trans (Nat.lt_succ_self _),
      fun id hid => (hqueued id hid).trans (Nat.lt_succ_self _)⟩
  | emplaceTask id request token =>
    refine ⟨fun e he => ?_, fun id hid => ?_⟩
    · refine (?_ : e.1 < s.tasker.nextTaskCounter).trans_eq
        (Tasker.nextTaskCounter_emplaceTask ..).symm
      rcases List.mem_append.mp he with hold | hnew
      · exact hcreated e hold
      · exact List.mem_singleton.mp hnew ▸ hop.1
    · exact (hqueued id hid).trans_eq (Tasker.nextTaskCounter_emplaceTask ..).symm
  | pushTask id =>
    refine ⟨hcreated, fun id' hid' => ?_⟩
    rcases List.mem_append.mp hid' with hold | hnew
    · exact hqueued id' hold
    · exact List.mem_singleton.mp hnew ▸ hop.1
  | removeTask id =>
    refine ⟨fun e he => ?_, fun id' hid' => ?_⟩
    · exact (hcreated e he).trans_eq (Tasker.nextTaskCounter_removeTask ..).symm
    · exact (hqueued id' hid').trans_eq (Tasker.nextTaskCounter_removeTask ..).symm
  | _ => exact ⟨hcreated, hqueued⟩

theorem HandlerOk.step {P : Platform} {s s' : System} {l : Label} (hs : HandlerOk s)
    (h : step P s l = some s') : HandlerOk s' := by
  by_cases hl : ∃ e, l = .server e
  · obtain ⟨e, rfl⟩ := hl
    cases step_effect h with
    | other hl => exact absurd rfl (hl e)
    | server hmove =>
      cases hmove with
      | between _ hidle => exact ⟨hs.ids, .of_idle hidle _⟩
      | misread => exact ⟨hs.ids, trivial⟩
      | receive req => exact ⟨hs.ids, RequestHandler.safe_handle hs.ids⟩
      | call uuid req op k hpc hfresh =>
        refine ⟨idsBelow_execCall hs.ids (hs.sound hpc) uuid, ?_⟩
        have hserving := hs.serving
        rw [hpc] at hserving
        exact (hserving s.shared (.refl _)).2 _ _ ⟨uuid, hfresh, rfl⟩
  · have hother : ∀ e, l ≠ .server e := fun e he => hl ⟨e, he⟩
    have hinter := interference_step h hother
    refine ⟨hs.ids.of_interference hinter, ?_⟩
    rcases server_other h hother with hpc | hpc <;> rw [hpc]
    · exact hs.serving.of_interference hinter
    · trivial

end System

end RobertMiddleware

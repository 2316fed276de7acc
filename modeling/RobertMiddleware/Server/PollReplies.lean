import RobertMiddleware.Server.PollRecord

/-!
# Answers to polling

`handle_check_task` answers from a copy of the task; when that shows the task at its end, the task
is removed, in a second step. The task worker and the sweep change the map in between.

A request that passes its checks is told what it saw of the task when it looked, and one that does
not is refused.

## Main definitions

* `AnswersLook` — an answer tells what the request saw
* `ReplyOk` — what holds when a `CHECK_TASK` request is answered
* `polling` — the contract of the handlers with the record
* `RemovalSite` — where a handler removes a task

## Main results

* `RequestHandler.keeps_polling` — every handler keeps the contract
* `RequestHandler.removalSites_handle` — a task is removed with the answer about its end ready
-/

namespace RobertMiddleware

open Effects Transition

/-! ### What a handler relies on -/

/-- What the record says of the tasks in the map. -/
structure Polled (a : Shared × List PollEvent) : Prop where
  ranks : ∀ id, ∀ response ∈ polls id a.2, ∀ r ∈ pollRank response,
    rankAfter r ≤ Task.phase (a.1.tasker.getTask id)
  requests : ∀ id task, a.1.tasker.getTask id = some task → .accepted id task.request ∈ a.2
  outcomes : ∀ id task, a.1.tasker.getTask id = some task → task.state.terminal = true →
    ∃ o, .recorded id o task.endTime ∈ a.2 ∧ o.state = task.state ∧ o.response = task.response

/-- What the other threads may do between two calls. -/
structure PollRely (a b : Shared × List PollEvent) : Prop where
  tasks : TaskRely a.1 b.1
  extends_log : Extends a.2 b.2
  polled : Polled b

/-- The answer tells how far the task had come when the request looked for it. -/
def AnswersLook (id : TaskId) (response : ServerResponse) (log : List PollEvent) : Prop :=
  ∃ before copy time, Extends (before ++ [.looked id copy time]) log ∧
    pollRank response = some (Task.phase copy)

/-- What holds when a `CHECK_TASK` request for the task `id` is answered. -/
structure ReplyOk (P : Platform) (id : TaskId) (response : ServerResponse)
    (a : Shared × List PollEvent) : Prop where
  unauthorized : authorized a.2 = false → Refused response
  authorized : authorized a.2 = true → AnswersLook id response a.2
  order : ∀ r ∈ pollRank response, ∀ old ∈ polls id a.2, ∀ r' ∈ pollRank old, rankAfter r' ≤ r
  phase : ∀ r ∈ pollRank response, rankAfter r ≤ Task.phase (a.1.tasker.getTask id)
  reports : pollRank response = some 2 → ∃ request o time, .accepted id request ∈ a.2 ∧
    .recorded id o time ∈ a.2 ∧ Reports P request o response

def polling (P : Platform) : Contract PollEvent where
  observer := pollObserver
  rely := PollRely
  reply req response a := ∀ id, req.cmdType = .checkTask → req.taskId = some id →
    ReplyOk P id response a

theorem PollRely.trans {a b c : Shared × List PollEvent} (h : PollRely a b) (h' : PollRely b c) :
    PollRely a c where
  tasks := h.tasks.trans h'.tasks
  extends_log := h.extends_log.trans h'.extends_log
  polled := h'.polled

theorem AnswersLook.mono {id : TaskId} {response : ServerResponse} {log log' : List PollEvent}
    (h : AnswersLook id response log) (hlog : Extends log log') : AnswersLook id response log' := by
  obtain ⟨before, copy, time, hbefore, hrank⟩ := h
  exact ⟨before, copy, time, hbefore.trans hlog, hrank⟩

theorem PollRely.authorized_eq {a b : Shared × List PollEvent} (h : PollRely a b) :
    authorized b.2 = authorized a.2 := by
  rw [authorized, authorized, h.extends_log.checked_eq]

theorem ReplyOk.of_rely {P : Platform} {id : TaskId} {response : ServerResponse}
    {a b : Shared × List PollEvent} (h : ReplyOk P id response a) (hab : PollRely a b) :
    ReplyOk P id response b where
  unauthorized hno := h.unauthorized (hab.authorized_eq ▸ hno)
  authorized hyes := (h.authorized (hab.authorized_eq ▸ hyes)).mono hab.extends_log
  order r hr old hold := h.order r hr old (hab.extends_log.polls_eq id ▸ hold)
  phase r hr := (h.phase r hr).trans (hab.tasks.phase_le id)
  reports hr := by
    obtain ⟨request, o, time, haccepted, hrecorded, hreports⟩ := h.reports hr
    exact ⟨request, o, time, hab.extends_log.subset haccepted, hab.extends_log.subset hrecorded,
      hreports⟩

theorem polling_stable (P : Platform) : (polling P).Stable where
  trans := PollRely.trans
  reply hab h id hcmd hid := (h id hcmd hid).of_rely hab

namespace RequestHandler

section Polling

variable {P : Platform} {req : DecodedRequest} {id : TaskId} {a : Shared × List PollEvent}

theorem pollRank_refused {response : ServerResponse} (h : Refused response) :
    pollRank response = none := by
  rcases h with rfl | rfl
  · decide
  · decide

theorem replyOk_refused {response : ServerResponse} (h : Refused response)
    (hno : authorized a.2 = false) : ReplyOk P id response a := by
  have hnone := pollRank_refused h
  refine ⟨fun _ => h, fun hyes => ?_, fun r hr => ?_, fun r hr => ?_, fun hr => ?_⟩
  · rw [hno] at hyes
    cases hyes
  all_goals
    rw [hnone] at hr
    cases hr

/-- An answer that tells the phase of a task that stays. -/
theorem replyOk_phase (ha : Polled a) {response : ServerResponse} {time : ℤ}
    (hrank : pollRank response = some (Task.phase (a.1.tasker.getTask id)))
    (hr : Task.phase (a.1.tasker.getTask id) ≠ 2) (hchecked : checked a.2 = (true, true)) :
    ReplyOk P id response (a.1, a.2 ++ [.looked id (a.1.tasker.getTask id) time]) := by
  have hpolls : polls id (a.2 ++ [.looked id (a.1.tasker.getTask id) time]) = polls id a.2 :=
    polls_append_quiet fun e he => by rw [List.mem_singleton.mp he]; rfl
  refine ⟨fun hno => ?_, fun _ => ⟨a.2, _, time, .refl _, hrank⟩,
    fun r' hr' old hold r'' hr'' => ?_, fun r' hr' => ?_, fun htwo => ?_⟩
  · simp [authorized, hchecked, PollEvent.checks] at hno
  · obtain rfl := Option.some.inj (hrank.symm.trans hr')
    rw [hpolls] at hold
    exact ha.ranks id old hold r'' hr''
  · obtain rfl := Option.some.inj (hrank.symm.trans hr')
    rw [rankAfter, if_neg hr]
  · exact absurd (Option.some.inj (hrank.symm.trans htwo)) hr

/-- An answer that tells the end of a task, which was removed after it had been copied. -/
theorem replyOk_removed {b c : Shared × List PollEvent} (ha : Polled a) {task : Task} {time : ℤ}
    (hab : PollRely (a.1, a.2 ++ [.looked id (some task) time]) b)
    (htask : a.1.tasker.getTask id = some task) (hterminal : task.state.terminal = true)
    {response : ServerResponse} (hrank : pollRank response = some 2)
    (hreports : ∀ o : Outcome, o.state = task.state → o.response = task.response →
      Reports P task.request o response)
    (hchecked : checked a.2 = (true, true))
    (hgone : c.1.tasker.getTask id = none) (hlog : c.2 = b.2) : ReplyOk P id response c := by
  have htwo : Task.phase (some task) = 2 := Task.phase_eq_two_iff.mpr hterminal
  have hpolls : polls id c.2 = polls id a.2 := by
    rw [hlog, hab.extends_log.polls_eq]
    exact polls_append_quiet fun e he => by rw [List.mem_singleton.mp he]; rfl
  have hsubset : ∀ {e}, e ∈ a.2 → e ∈ c.2 := fun he => by
    rw [hlog]
    exact hab.extends_log.subset (List.mem_append_left _ he)
  refine ⟨fun hno => ?_, fun _ => ⟨a.2, _, time, hlog ▸ hab.extends_log, htwo ▸ hrank⟩,
    fun r hr old hold r' hr' => ?_, fun r hr => ?_, fun _ => ?_⟩
  · rw [hlog, hab.authorized_eq] at hno
    simp [authorized, hchecked, PollEvent.checks] at hno
  · obtain rfl : 2 = r := Option.some.inj (hrank.symm.trans hr)
    rw [hpolls] at hold
    refine (ha.ranks id old hold r' hr').trans_eq ?_
    rw [htask, htwo]
  · obtain rfl : 2 = r := Option.some.inj (hrank.symm.trans hr)
    rw [hgone]
    exact le_refl 3
  · obtain ⟨o, hrecorded, hstate, hresponse⟩ := ha.outcomes id task htask hterminal
    exact ⟨task.request, o, task.endTime, hsubset (ha.requests id task htask), hsubset hrecorded,
      hreports o hstate hresponse⟩

/-- The first check. -/
theorem keeps_validateToken {f : Bool → Handler ServerResponse}
    {Q : Except String ServerResponse → Shared × List PollEvent → Prop}
    (hf : ∀ valid b, checked b.2 = (valid, false) → (polling P).Keeps req (f valid) Q b)
    (a : Shared × List PollEvent) : (polling P).Keeps req ((validateToken req).bind f) Q a := by
  refine Contract.keeps_call fun b _ => ⟨trivial, fun uuid _ => ?_⟩
  have hchecked : checked (b.2 ++ [.token (b.1.sessions.isValidToken req.token)]) =
      (b.1.sessions.isValidToken req.token, false) := checked_snoc _
  change (polling P).Keeps req ((if b.1.sessions.isValidToken req.token = true then
    (invoke (.touchSession req.token)).bind fun _ => Prog.pure true else Prog.pure false).bind f) Q
    (b.1, b.2 ++ [.token (b.1.sessions.isValidToken req.token)])
  cases hvalid : b.1.sessions.isValidToken req.token with
  | false =>
    rw [hvalid] at hchecked
    exact hf false _ hchecked
  | true =>
    rw [hvalid] at hchecked
    refine Contract.keeps_call fun c hc => ⟨trivial, fun uuid' _ => hf true _ ?_⟩
    exact (congrArg checked (List.append_nil c.2)).trans (hc.extends_log.checked_eq.trans hchecked)

/-- The second check. -/
theorem keeps_validateHardwareLock {f : Bool → Handler ServerResponse} {valid held : Bool}
    {Q : Except String ServerResponse → Shared × List PollEvent → Prop}
    (hchecked : checked a.2 = (valid, held))
    (hf : ∀ held b, checked b.2 = (valid, held) → (polling P).Keeps req (f held) Q b) :
    (polling P).Keeps req ((validateHardwareLock req).bind f) Q a := by
  refine Contract.keeps_call fun b hb => ⟨trivial, fun uuid _ => hf _ _ ?_⟩
  refine (checked_snoc _).trans ?_
  rw [hb.extends_log.checked_eq, hchecked]
  rfl

theorem keeps_polling_handleCheckTask (a : Shared × List PollEvent) :
    (polling P).Keeps req (handleCheckTask P req) ((polling P).Answers req) a := by
  have hrefused : ∀ {response} {a : Shared × List PollEvent}, Refused response →
      authorized a.2 = false → (polling P).Answers req (.ok response) a :=
    fun h hno id _ _ => replyOk_refused h hno
  refine keeps_validateToken (fun valid b hb => ?_) a
  cases valid with
  | false => exact hrefused (.inl rfl) (by rw [authorized, hb]; rfl)
  | true =>
    refine keeps_validateHardwareLock hb fun held c hc => ?_
    cases held with
    | false => exact hrefused (.inr rfl) (by rw [authorized, hc]; rfl)
    | true =>
      cases htaskId : req.taskId with
      | none => exact Contract.keeps_throw trivial
      | some id =>
        refine Contract.keeps_call fun d hd => ⟨trivial, fun uuid _ => ?_⟩
        have hchecked : checked d.2 = (true, true) := hd.extends_log.checked_eq.trans hc
        change (polling P).Keeps req _ _
          (d.1, d.2 ++ [.looked id (d.1.tasker.getTask id) d.1.now])
        have hphase : ∀ {response : ServerResponse} {r : ℕ}, pollRank response = some r → r ≠ 2 →
            Task.phase (d.1.tasker.getTask id) = r → (polling P).Answers req (.ok response)
              (d.1, d.2 ++ [.looked id (d.1.tasker.getTask id) d.1.now]) := by
          rintro response r hrank hr rfl id' _ hid'
          obtain rfl : id = id' := Option.some.inj (htaskId.symm.trans hid')
          exact replyOk_phase hd.polled hrank hr hchecked
        have hremoved : ∀ {response : ServerResponse} {task : Task},
            d.1.tasker.getTask id = some task →
            task.state.terminal = true → pollRank response = some 2 →
            (∀ o : Outcome, o.state = task.state → o.response = task.response →
              Reports P task.request o response) →
            (polling P).Keeps req (Prog.call (S := ServerCalls) (.removeTask id)
              fun _ => .pure response) ((polling P).Answers req)
              (d.1, d.2 ++ [.looked id (d.1.tasker.getTask id) d.1.now]) := by
          intro response task htask hterminal hrank hreports
          refine Contract.keeps_call fun e he => ⟨trivial, fun uuid' _ => ?_⟩
          refine Contract.keeps_pure fun id' _ hid' => ?_
          obtain rfl : id = id' := Option.some.inj (htaskId.symm.trans hid')
          refine replyOk_removed hd.polled (htask ▸ he) htask hterminal hrank hreports hchecked ?_
            (List.append_nil _)
          exact (Tasker.getTask_removeTask id id e.1.tasker).trans (if_pos rfl)
        have hcopy : (execCall uuid (.getTask id) d.1).1 = d.1.tasker.getTask id := rfl
        rw [hcopy]
        generalize hget : d.1.tasker.getTask id = copy at hphase hremoved ⊢
        rcases copy with _ | ⟨_, _, state, _, _, _, _⟩
        · exact hphase (r := 3) rfl (by decide) rfl
        · cases state with
          | completed =>
            exact hremoved rfl rfl (pollRank_completedResponse P _) fun o h h' =>
              reports_completedResponse P h h' rfl
          | pending => exact hphase (r := 0) rfl (by decide) rfl
          | inProgress => exact hphase (r := 1) rfl (by decide) rfl
          | failed =>
            exact hremoved rfl rfl (pollRank_failedResponse _) fun o h h' =>
              reports_failedResponse P h h' rfl

/-- **Every answer about a task is right**, whatever the other threads do. -/
theorem keeps_polling (a : Shared × List PollEvent) :
    (polling P).Keeps req (handle P req) ((polling P).Answers req) a := by
  have hanswers : req.cmdType ≠ .checkTask → ∀ res (a : Shared × List PollEvent),
      (polling P).Answers req res a := by
    rintro hcmd (e | response) a
    · trivial
    · exact fun id hcheck => absurd hcheck hcmd
  refine keeps_handle (fun _ _ _ => trivial) hanswers
    (fun _ => keeps_polling_handleCheckTask a) fun hcmd b => ?_
  exact (Prog.calls_true _).wp (fun _ _ _ => trivial) (hanswers hcmd) b

end Polling

end RequestHandler

/-! ### Removal -/

/-- Where a handler removes a task, it has the answer about its end ready. -/
def RemovalSite (req : DecodedRequest) (op : ServerCall) (k : op.Ret → Handler ServerResponse) :
    Prop :=
  ∀ id, op = .removeTask id → req.cmdType = .checkTask ∧ req.taskId = some id ∧
    ∃ response, (∀ r, k r = .pure response) ∧ pollRank response = some 2

namespace RequestHandler

theorem removalSite_of_ne {req : DecodedRequest} {op : ServerCall}
    {k : op.Ret → Handler ServerResponse} (h : ∀ id, op ≠ .removeTask id) :
    RemovalSite req op k := fun id hop => absurd hop (h id)

theorem LeavesTasks.removalSites_bind {α : Type} {req : DecodedRequest} {p : Handler α}
    (hp : LeavesTasks req p) {f : α → Handler ServerResponse}
    (hf : ∀ x, (f x).Sites (RemovalSite req)) : (p.bind f).Sites (RemovalSite req) := by
  refine Prog.Calls.sites_bind (fun op k hop => removalSite_of_ne ?_) hp hf
  rintro id rfl
  cases hop.changesTasks

theorem LeavesTasks.removalSites {req : DecodedRequest} {p : Handler ServerResponse}
    (hp : LeavesTasks req p) : p.Sites (RemovalSite req) := by
  rw [← Prog.bind_pure p]
  exact hp.removalSites_bind fun _ => trivial

theorem removalSites_handleCheckTask (P : Platform) (req : DecodedRequest)
    (hcmd : req.cmdType = .checkTask) : (handleCheckTask P req).Sites (RemovalSite req) := by
  refine (leavesTasks_validateToken req).removalSites_bind fun valid => ?_
  cases valid with
  | false => trivial
  | true =>
    refine (leavesTasks_validateHardwareLock req).removalSites_bind fun locked => ?_
    cases locked with
    | false => trivial
    | true =>
      cases htaskId : req.taskId with
      | none => trivial
      | some id =>
        have hsite : ∀ response, pollRank response = some 2 →
            (Prog.call (S := ServerCalls) (.removeTask id) fun _ =>
              .pure response : Handler ServerResponse).Sites (RemovalSite req) := by
          intro response hrank
          refine ⟨fun id' hid => ?_, fun _ => trivial⟩
          obtain rfl : id = id' := by simpa using hid
          exact ⟨hcmd, htaskId, response, fun _ => rfl, hrank⟩
        refine ⟨removalSite_of_ne (by simp), fun copy => ?_⟩
        rcases copy with _ | ⟨_, _, state, _, _, _, _⟩
        · trivial
        · cases state with
          | completed => exact hsite _ (pollRank_completedResponse P _)
          | pending => trivial
          | inProgress => trivial
          | failed => exact hsite _ (pollRank_failedResponse _)

theorem removalSites_handleRobotCommand (P : Platform) (req : DecodedRequest) :
    (handleRobotCommand P req).Sites (RemovalSite req) := by
  refine ⟨removalSite_of_ne (by simp), fun loaded => ?_⟩
  cases loaded with
  | false => trivial
  | true =>
    refine (leavesTasks_validateToken req).removalSites_bind fun valid => ?_
    cases valid with
    | false => trivial
    | true =>
      refine (leavesTasks_validateHardwareLock req).removalSites_bind fun locked => ?_
      cases locked with
      | false => trivial
      | true =>
        refine ⟨removalSite_of_ne (by simp), fun connected => ?_⟩
        cases connected with
        | false => trivial
        | true =>
          cases createRapidRequest P req with
          | error what => trivial
          | ok robotReq =>
            exact ⟨removalSite_of_ne (by simp), fun id => ⟨removalSite_of_ne (by simp),
              fun _ => ⟨removalSite_of_ne (by simp), fun _ => trivial⟩⟩⟩

theorem removalSites_handle (P : Platform) (req : DecodedRequest) :
    (handle P req).Sites (RemovalSite req) := by
  rw [handle]
  split
  · rename_i hne
    refine ⟨removalSite_of_ne (by simp), fun _ => ?_⟩
    exact dispatch_cases hne (fun p hp => hp.removalSites) (removalSites_handleRobotCommand P req)
  · rename_i heq
    have hcmd : req.cmdType = .checkTask := not_not.mp heq
    rw [dispatch, hcmd]
    exact removalSites_handleCheckTask P req hcmd

end RequestHandler

end RobertMiddleware

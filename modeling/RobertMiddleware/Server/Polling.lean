import RobertMiddleware.Server.ExclusiveControl
import RobertMiddleware.Server.PollReplies

/-!
# Polling

The answers about one task, in the order in which they were sent, over every run: a request that is
authorized is told what it saw of the task, the answers never go back, none follows the one about
the end of the task, and that one reports what the task worker recorded.

## Main definitions

* `System.Kept` — where the outcome of a task is after it was recorded
* `System.Seen`, `System.Informed` — what an authorized request sees and is told
* `System.PollOk` — what holds of the record along runs

## Main results

* `System.polls_reaches` — the answers about a task, over every run
-/

namespace RobertMiddleware

open Effects Transition

namespace System

/-- What a step adds to the record. -/
inductive PollStep (s : System) (l : Label) : List PollEvent → Prop
  | accept (uuid : Bytes) (req : DecodedRequest) (id : TaskId) (request : RapidRequest)
      (session : Bytes) (k : Unit → Handler ServerResponse) (hl : l = .server (.call uuid))
      (hpc : s.server = .serving req
        (.call (S := ServerCalls) (.emplaceTask id request session) k)) :
      PollStep s l [.accepted id request]
  | record (id : TaskId) (o : Outcome) (hrecorded : s.recorded? l = some (id, o)) :
      PollStep s l [.recorded id o s.shared.now]
  | reply (req : DecodedRequest) (id : TaskId) (response : ServerResponse)
      (hl : l = .server .advance) (hpc : s.server = .serving req (.pure response))
      (hcmd : req.cmdType = .checkTask) (hid : req.taskId = some id) :
      PollStep s l [.replied id response]
  | token (valid : Bool) : PollStep s l [.token valid]
  | lock (held : Bool) : PollStep s l [.lock held]
  | look (uuid : Bytes) (req : DecodedRequest) (id : TaskId)
      (k : Option Task → Handler ServerResponse) (hl : l = .server (.call uuid))
      (hpc : s.server = .serving req (.call (S := ServerCalls) (.getTask id) k)) :
      PollStep s l [.looked id (s.shared.tasker.getTask id) s.shared.now]
  | quiet : PollStep s l []

theorem pollStep (s : System) (l : Label) : PollStep s l (pollObserver.obs s l) := by
  unfold Observer.obs
  split
  · exact .quiet
  · rename_i uuid req op k hpc
    cases op with
    | emplaceTask id request session => exact .accept uuid req id request session k rfl hpc
    | isValidToken => exact .token _
    | hasLock => exact .lock _
    | getTask id => exact .look uuid req id k rfl hpc
    | _ => exact .quiet
  · rename_i req response hpc
    simp only [pollObserver]
    split
    · rename_i id hcmd hid
      exact .reply req id response rfl hpc hcmd hid
    · exact .quiet
  · exact .quiet
  · simp only [pollObserver]
    generalize hrecorded : s.recorded? _ = e
    cases e with
    | none => exact .quiet
    | some e => exact .record e.1 e.2 hrecorded

/-- Where the outcome of a task is after it was recorded. -/
inductive Kept (s : System) (log : List PollEvent) (id : TaskId) (o : Outcome) (time : ℤ) : Prop
  /-- In the map, for whoever asks. -/
  | stored (task : Task) (htask : s.shared.tasker.getTask id = some task)
      (hstate : task.state = o.state) (hresponse : task.response = o.response)
      (htime : task.endTime = time)
  /-- The client was told. -/
  | told (response : ServerResponse) (hmem : response ∈ polls id log)
      (hrank : pollRank response = some 2)
  /-- The client is about to be told. -/
  | telling (req : DecodedRequest) (response : ServerResponse)
      (hpc : s.server = .serving req (.pure response)) (hcmd : req.cmdType = .checkTask)
      (hid : req.taskId = some id) (hrank : pollRank response = some 2)
  /-- The five minutes are over. -/
  | expired (hnow : time + 300 * nsPerSec ≤ s.shared.now)

/-- What a request sees of a task, when so much was recorded before. -/
structure Seen (id : TaskId) (log : List PollEvent) (rank : ℕ) (time : ℤ) : Prop where
  /-- A task that was accepted and has not ended is there. -/
  working : ∀ request, .accepted id request ∈ log → (∀ o t, .recorded id o t ∉ log) → rank ≤ 1
  ended : ∀ o t, .recorded id o t ∈ log → 2 ≤ rank
  /-- A task that has ended is there until the client is told, or for five minutes. -/
  retrieved : ∀ o t, .recorded id o t ∈ log → time < t + 300 * nsPerSec →
    (∀ response ∈ polls id log, pollRank response ≠ some 2) → rank = 2

/-- What holds of the looks and the answers. -/
def EntryOk (log : List PollEvent) : PollEvent → Prop
  | .looked id copy time => Seen id log (Task.phase copy) time
  | .replied id response =>
    (authorized log = false → Refused response) ∧
      (authorized log = true → AnswersLook id response log)
  | _ => True

/-- The record is right, and the request in service will keep it so. -/
structure PollOk (P : Platform) (s : System) (log : List PollEvent) : Prop where
  tasks : TasksOk pollObserver s log
  threads : ThreadsOk s
  serving : (polling P).Serving s.server (s.shared, log)
  polled : Polled (s.shared, log)
  accepted : ∀ id request, .accepted id request ∈ log →
    ∃ token, (id, token) ∈ s.shared.history.created
  order : ∀ id, (polls id log).Pairwise fun x y =>
    ∀ r ∈ pollRank x, ∀ r' ∈ pollRank y, rankAfter r ≤ r'
  reports : ∀ id response, .replied id response ∈ log → pollRank response = some 2 →
    ∃ request o time, .accepted id request ∈ log ∧ .recorded id o time ∈ log ∧
      Reports P request o response
  recorded : (log.filterMap PollEvent.recordedId?).Nodup
  ended : ∀ id o time, .recorded id o time ∈ log →
    id ∈ s.shared.history.queued ∧ 2 ≤ Task.phase (s.shared.tasker.getTask id)
  found : ∀ id request, .accepted id request ∈ log →
    2 ≤ Task.phase (s.shared.tasker.getTask id) → ∃ o time, .recorded id o time ∈ log
  kept : ∀ id o time, .recorded id o time ∈ log → s.Kept log id o time
  entries : EachEntry EntryOk log
  sites : ∀ req rest, s.server = .serving req rest → rest.Sites (RemovalSite req)

theorem pollOk_initial (P : Platform) (users : List UserInfo) : PollOk P (initial users) [] where
  tasks := tasksOk_initial users
  threads := threadsOk_initial users
  serving := trivial
  polled := ⟨fun _ _ hmem => absurd hmem List.not_mem_nil, fun _ _ htask => (nomatch htask),
    fun _ _ htask => (nomatch htask)⟩
  accepted _ _ hmem := absurd hmem List.not_mem_nil
  order _ := List.Pairwise.nil
  reports _ _ hmem := absurd hmem List.not_mem_nil
  recorded := List.nodup_nil
  ended _ _ _ hmem := absurd hmem List.not_mem_nil
  found _ _ hmem := absurd hmem List.not_mem_nil
  kept _ _ _ hmem := absurd hmem List.not_mem_nil
  entries := eachEntry_nil _
  sites _ _ hpc := nomatch hpc

section Step

variable {P : Platform} {s s' : System} {log : List PollEvent} {l : Label}

/-- An id that is about to be created was not heard of. -/
theorem PollOk.not_accepted (hs : PollOk P s log) {req : DecodedRequest} {id : TaskId}
    {request : RapidRequest} {session : Bytes} {k : Unit → Handler ServerResponse}
    (hpc : s.server = .serving req
      (.call (S := ServerCalls) (.emplaceTask id request session) k)) :
    ∀ e ∈ log, e.accepts id = false := by
  intro e he
  have hcall := hs.tasks.call hpc
  cases e with
  | accepted id' request' =>
    obtain ⟨token, htoken⟩ := hs.accepted id' request' he
    have hlt : id' < id := hcall.2.2 _ htoken
    simpa [PollEvent.accepts] using hlt.ne
  | _ => rfl

theorem PollOk.taskChange (hs : PollOk P s log) (h : step P s l = some s') (id : TaskId) :
    TaskChange s l s' id := hs.tasks.life.taskChange h (fun hpc => hs.tasks.call hpc) id

/-- A task that was heard of does not go back. -/
theorem PollOk.phase_le (hs : PollOk P s log) (h : step P s l = some s') {id : TaskId}
    (hold : id ∈ s.shared.history.queued ∨ polls id log ≠ []) :
    Task.phase (s.shared.tasker.getTask id) ≤ Task.phase (s'.shared.tasker.getTask id) := by
  cases hs.taskChange h id with
  | same hsame => rw [hsame]
  | created uuid req request session k _ hpc =>
    rcases hold with hqueued | hpolls
    · exact absurd hqueued (hs.tasks.call hpc).2.1
    · exact absurd (polls_of_not_accepted (hs.not_accepted hpc)) hpolls
  | removed _ _ _ _ _ htask' =>
    rw [htask']
    exact Task.phase_le_three _
  | started task htask hpending htask' =>
    rw [htask, htask']
    exact (Task.advances_markStarted _ hpending).phase_le
  | ended task o _ htask hworking htask' =>
    rw [htask, htask']
    exact (Task.advances_finish _ _ hworking).phase_le
  | swept _ _ _ _ htask' =>
    rw [htask']
    exact Task.phase_le_three _

/-- The answer that is given now. -/
theorem PollOk.replyOk (hs : PollOk P s log) {req : DecodedRequest} {id : TaskId}
    {response : ServerResponse} (hpc : s.server = .serving req (.pure response))
    (hcmd : req.cmdType = .checkTask) (hid : req.taskId = some id) :
    ReplyOk P id response (s.shared, log) := hs.serving.answer hpc id hcmd hid

/-- Old answers stay, and the new one is last. -/
theorem PollOk.polls_step (hs : PollOk P s log) (id : TaskId) :
    polls id (log ++ pollObserver.obs s l) = polls id log ∨
      ∃ response, l = .server .advance ∧ ReplyOk P id response (s.shared, log) ∧
        polls id (log ++ pollObserver.obs s l) = polls id log ++ [response] := by
  have hstep := pollStep s l
  generalize pollObserver.obs s l = es at hstep ⊢
  cases hstep with
  | accept | record | token | lock | look =>
    refine .inl (polls_append_quiet fun e he => ?_)
    rw [List.mem_singleton.mp he]
    rfl
  | reply req id' response hl hpc hcmd hid =>
    have hreplied : polls id (log ++ [.replied id' response]) = polls id log ∨
        id' = id ∧ polls id (log ++ [.replied id' response]) = polls id log ++ [response] :=
      polls_replied id' response
    rcases hreplied with hsame | ⟨rfl, hnew⟩
    · exact .inl hsame
    · exact .inr ⟨response, hl, hs.replyOk hpc hcmd hid, hnew⟩
  | quiet => exact .inl (by rw [List.append_nil])

theorem PollOk.step_ranks (hs : PollOk P s log) (h : step P s l = some s') (id : TaskId) :
    ∀ response ∈ polls id (log ++ pollObserver.obs s l), ∀ r ∈ pollRank response,
      rankAfter r ≤ Task.phase (s'.shared.tasker.getTask id) := by
  have hold : ∀ response ∈ polls id log, ∀ r ∈ pollRank response,
      rankAfter r ≤ Task.phase (s'.shared.tasker.getTask id) := by
    intro response hmem r hr
    have hpolls : polls id log ≠ [] := List.ne_nil_of_mem hmem
    exact (hs.polled.ranks id response hmem r hr).trans (hs.phase_le h (.inr hpolls))
  rcases hs.polls_step (l := l) id with hsame | ⟨response, rfl, hok, hnew⟩
  · rw [hsame]
    exact hold
  · rw [hnew]
    intro response' hmem
    rcases List.mem_append.mp hmem with hmem | hmem
    · exact hold response' hmem
    · rw [List.mem_singleton.mp hmem, shared_advance h]
      exact hok.phase

/-- An event that is recorded in the step. -/
theorem accepted_obs {uuid : Bytes} {req : DecodedRequest} {id : TaskId} {request : RapidRequest}
    {session : Bytes} {k : Unit → Handler ServerResponse}
    (hpc : s.server = .serving req
      (.call (S := ServerCalls) (.emplaceTask id request session) k)) :
    .accepted id request ∈ log ++ pollObserver.obs s (.server (.call uuid)) := by
  rw [Observer.obs_call hpc]
  exact List.mem_append_right _ (List.mem_singleton_self _)

theorem recorded_obs {id : TaskId} {o : Outcome} (hrecorded : s.recorded? l = some (id, o)) :
    .recorded id o s.shared.now ∈ log ++ pollObserver.obs s l := by
  have hl : ∀ e, l ≠ .server e := by
    rintro e rfl
    cases hrecorded
  rw [Observer.obs_other hl]
  simp [pollObserver, hrecorded]

theorem PollOk.step_polled (hs : PollOk P s log) (h : step P s l = some s') :
    Polled (s'.shared, log ++ pollObserver.obs s l) := by
  refine ⟨hs.step_ranks h, fun id task htask => ?_, fun id task htask hterminal => ?_⟩
  · have hold : ∀ old, s.shared.tasker.getTask id = some old → old.request = task.request →
        .accepted id task.request ∈ log ++ pollObserver.obs s l := fun old hold hrequest =>
      List.mem_append_left _ (hrequest ▸ hs.polled.requests id old hold)
    cases hs.taskChange h id with
    | same hsame => exact hold task (hsame ▸ htask) rfl
    | created uuid req request session k hl hpc htask' =>
      rw [htask'] at htask
      obtain rfl := Option.some.inj htask
      rw [hl]
      exact accepted_obs hpc
    | removed _ _ _ _ _ htask' =>
      rw [htask'] at htask
      cases htask
    | started old hget hpending htask' =>
      rw [htask'] at htask
      obtain rfl := Option.some.inj htask
      have hstarted := Task.advances_markStarted s.shared.now hpending
      exact hold old hget (hstarted.request _ rfl _ rfl).symm
    | ended old o _ hget hworking htask' =>
      rw [htask'] at htask
      obtain rfl := Option.some.inj htask
      exact hold old hget ((Task.advances_finish s.shared.now o hworking).request _ rfl _ rfl).symm
    | swept _ _ _ _ htask' =>
      rw [htask'] at htask
      cases htask
  · cases hs.taskChange h id with
    | same hsame =>
      obtain ⟨o, hrecorded, hstate, hresponse⟩ :=
        hs.polled.outcomes id task (hsame ▸ htask) hterminal
      exact ⟨o, List.mem_append_left _ hrecorded, hstate, hresponse⟩
    | created uuid req request session k hl hpc htask' =>
      rw [htask'] at htask
      obtain rfl := Option.some.inj htask
      cases hterminal
    | removed _ _ _ _ _ htask' =>
      rw [htask'] at htask
      cases htask
    | started old hget hpending htask' =>
      rw [htask', Task.markStarted, if_pos hpending] at htask
      obtain rfl := Option.some.inj htask
      cases hterminal
    | ended old o hrecorded hget hworking htask' =>
      rw [htask', Task.finish_of_inProgress _ _ hworking] at htask
      obtain rfl := Option.some.inj htask
      exact ⟨o, recorded_obs hrecorded, rfl, rfl⟩
    | swept _ _ _ _ htask' =>
      rw [htask'] at htask
      cases htask

theorem PollOk.step_order (hs : PollOk P s log) (id : TaskId) :
    (polls id (log ++ pollObserver.obs s l)).Pairwise fun x y =>
      ∀ r ∈ pollRank x, ∀ r' ∈ pollRank y, rankAfter r ≤ r' := by
  rcases hs.polls_step (l := l) id with hsame | ⟨response, -, hok, hnew⟩
  · rw [hsame]
    exact hs.order id
  · rw [hnew]
    refine List.pairwise_append.mpr ⟨hs.order id, List.pairwise_singleton _ _, ?_⟩
    intro old hold new hmem r hr r' hr'
    rw [List.mem_singleton.mp hmem] at hr'
    exact hok.order r' hr' old hold r hr

/-- The events of the record before and after a step. -/
theorem mem_log {e : PollEvent} (he : e ∈ log ++ pollObserver.obs s l) :
    e ∈ log ∨ PollStep s l [e] := by
  rcases List.mem_append.mp he with hold | hnew
  · exact .inl hold
  · refine .inr ?_
    have hstep := pollStep s l
    generalize pollObserver.obs s l = es at hstep hnew
    have hsingle : es = [e] := by
      cases hstep with
      | quiet => cases hnew
      | _ => rw [List.mem_singleton.mp hnew]
    rw [← hsingle]
    exact hstep

theorem PollOk.step_accepted (hs : PollOk P s log) (h : step P s l = some s') {id : TaskId}
    {request : RapidRequest} (he : .accepted id request ∈ log ++ pollObserver.obs s l) :
    ∃ token, (id, token) ∈ s'.shared.history.created := by
  rcases mem_log he with hold | hnew
  · obtain ⟨token, htoken⟩ := hs.accepted id request hold
    refine ⟨token, ?_⟩
    rcases shared_step h with ⟨uuid, req, op, k, -, -, hshared⟩ | ⟨-, hinter⟩
    · rw [hshared]
      cases op with
      | emplaceTask => exact List.mem_append_left _ htoken
      | _ => exact htoken
    · rw [hinter.created]
      exact htoken
  · cases hnew with
    | accept uuid req _ _ session k hl hpc =>
      subst hl
      rw [step_call h hpc]
      exact ⟨session, List.mem_append_right _ (List.mem_singleton_self _)⟩

/-- What the worker records, it records once. -/
theorem PollOk.step_recorded (hs : PollOk P s log) (h : step P s l = some s') :
    ((log ++ pollObserver.obs s l).filterMap PollEvent.recordedId?).Nodup := by
  rw [List.filterMap_append]
  have hstep := pollStep s l
  generalize pollObserver.obs s l = es at hstep ⊢
  cases hstep with
  | record id o hrecorded =>
    obtain ⟨task, htask, hworking, -⟩ := hs.tasks.life.recorded h hrecorded
    refine List.nodup_append.mpr
      ⟨hs.recorded, List.nodup_singleton id, fun id' hid' id'' hid'' => ?_⟩
    obtain rfl : id'' = id := List.mem_singleton.mp hid''
    rintro rfl
    obtain ⟨e, he, hid⟩ := List.mem_filterMap.mp hid'
    cases e with
    | recorded old o' time =>
      obtain rfl : old = id' := Option.some.inj hid
      have htwo := (hs.ended old o' time he).2
      rw [htask] at htwo
      simp [Task.phase, hworking] at htwo
    | _ => cases hid
  | _ =>
    change (_ ++ []).Nodup
    rw [List.append_nil]
    exact hs.recorded

theorem PollOk.step_ended (hs : PollOk P s log) (h : step P s l = some s') {id : TaskId}
    {o : Outcome} {time : ℤ} (he : .recorded id o time ∈ log ++ pollObserver.obs s l) :
    id ∈ s'.shared.history.queued ∧ 2 ≤ Task.phase (s'.shared.tasker.getTask id) := by
  rcases mem_log he with hold | hnew
  · obtain ⟨hqueued, htwo⟩ := hs.ended id o time hold
    exact ⟨queued_step h hqueued, htwo.trans (hs.phase_le h (.inl hqueued))⟩
  · cases hnew with
    | record _ _ hrecorded =>
      obtain ⟨task, htask, hworking, htask'⟩ := hs.tasks.life.recorded h hrecorded
      have hqueued : id ∈ s.shared.history.queued := by
        by_contra hout
        have hpending := hs.tasks.life.unqueued id task htask hout
        rw [hworking] at hpending
        cases hpending
      refine ⟨queued_step h hqueued, ?_⟩
      rw [htask', Task.phase_eq_two_iff.mpr]
      rw [Task.finish_of_inProgress _ _ hworking]
      exact o.terminal

/-- Only a task that has ended is removed or expires. -/
theorem PollOk.step_found (hs : PollOk P s log) (h : step P s l = some s') {id : TaskId}
    {request : RapidRequest} (he : .accepted id request ∈ log ++ pollObserver.obs s l)
    (htwo : 2 ≤ Task.phase (s'.shared.tasker.getTask id)) :
    ∃ o time, .recorded id o time ∈ log ++ pollObserver.obs s l := by
  rcases mem_log he with hold | hnew
  · have hbefore : 2 ≤ Task.phase (s.shared.tasker.getTask id) →
        ∃ o time, .recorded id o time ∈ log ++ pollObserver.obs s l := fun hphase =>
      let ⟨o, time, hrecorded⟩ := hs.found id request hold hphase
      ⟨o, time, List.mem_append_left _ hrecorded⟩
    cases hs.taskChange h id with
    | same hsame => exact hbefore (hsame ▸ htwo)
    | created uuid req request' session k _ hpc =>
      have hnot := hs.not_accepted hpc _ hold
      simp [PollEvent.accepts] at hnot
    | removed uuid req k _ hpc => exact hbefore (hs.tasks.call hpc)
    | started task _ hpending htask' =>
      rw [htask', Task.markStarted, if_pos hpending] at htwo
      simp [Task.phase] at htwo
    | ended task o hrecorded => exact ⟨o, _, recorded_obs hrecorded⟩
    | swept task _ htask hexpired =>
      refine hbefore (le_of_eq ?_)
      rw [htask, Task.phase_eq_two_iff.mpr (Task.terminal_of_isExpired hexpired)]
  · cases hnew with
    | accept uuid req _ _ session k hl hpc =>
      subst hl
      have hput := Tasker.getTask_emplaceTask s.shared.now request (hs.tasks.call hpc).1 id
      rw [if_pos rfl] at hput
      rw [step_call h hpc] at htwo
      simp [execCall, hput, Task.phase] at htwo

/-- A request that looks for the task finds it where it was kept. -/
theorem PollOk.seen (hs : PollOk P s log) {req : DecodedRequest} {id : TaskId}
    {k : Option Task → Handler ServerResponse}
    (hpc : s.server = .serving req (.call (S := ServerCalls) (.getTask id) k)) :
    Seen id log (Task.phase (s.shared.tasker.getTask id)) s.shared.now where
  working request haccepted hnone := by
    by_contra hphase
    obtain ⟨o, time, hrecorded⟩ := hs.found id request haccepted (not_le.mp hphase)
    exact hnone o time hrecorded
  ended o time hrecorded := (hs.ended id o time hrecorded).2
  retrieved o time hrecorded hnow huntold := by
    cases hs.kept id o time hrecorded with
    | stored task htask hstate =>
      rw [htask, Task.phase_eq_two_iff, hstate]
      exact o.terminal
    | told response hmem hrank => exact absurd hrank (huntold response hmem)
    | telling req' response hpc' =>
      rw [hpc] at hpc'
      cases hpc'
    | expired hexpired => exact absurd hexpired (not_le.mpr hnow)

theorem PollOk.step_entries (hs : PollOk P s log) :
    EachEntry EntryOk (log ++ pollObserver.obs s l) := by
  have hstep := pollStep s l
  generalize pollObserver.obs s l = es at hstep ⊢
  cases hstep with
  | quiet =>
    rw [List.append_nil]
    exact hs.entries
  | look uuid req id k _ hpc => exact hs.entries.snoc (hs.seen hpc)
  | reply req id response _ hpc hcmd hid =>
    have hok := hs.replyOk hpc hcmd hid
    exact hs.entries.snoc ⟨hok.unauthorized, hok.authorized⟩
  | _ => exact hs.entries.snoc trivial

theorem PollOk.step_sites (hs : PollOk P s log) (h : step P s l = some s') :
    ∀ req rest, s'.server = .serving req rest → rest.Sites (RemovalSite req) := by
  intro req rest hpc'
  cases step_effect h with
  | server hmove =>
    cases hmove with
    | between _ hidle =>
      cases hpc'
      exact hidle.elim
    | misread => cases hpc'
    | receive req' =>
      obtain ⟨rfl, rfl⟩ : req' = req ∧ RequestHandler.handle P req' = rest := by simpa using hpc'
      exact RequestHandler.removalSites_handle P req'
    | call uuid req' op k hpc =>
      obtain ⟨rfl, rfl⟩ : req' = req ∧ k (execCall uuid op s.shared).1 = rest := by
        simpa using hpc'
      exact (hs.sites req' _ hpc).2 _
  | other _ _ _ hmove =>
    rcases hmove.server with hsame | ⟨-, hnew⟩
    · exact hs.sites req rest (hsame ▸ hpc')
    · rw [hnew] at hpc'
      cases hpc'
  | _ => exact hs.sites req rest hpc'

/-- A request whose answer is ready stays in service until it is answered. -/
theorem PollOk.telling_step (hs : PollOk P s log) (h : step P s l = some s')
    {req : DecodedRequest} {response : ServerResponse}
    (hpc : s.server = .serving req (.pure response)) :
    l = .server .advance ∨ s'.server = .serving req (.pure response) := by
  cases step_effect h with
  | server hmove =>
    cases hmove with
    | between => exact .inl rfl
    | receive _ hpc' | misread hpc' =>
      rw [hpc] at hpc'
      cases hpc'
    | call _ _ _ _ hpc' =>
      rw [hpc] at hpc'
      cases hpc'
  | other _ _ _ hmove =>
    rcases hmove.server with hsame | ⟨howner, -⟩
    · exact .inr (hsame.trans hpc)
    · rw [(hs.threads.of_starting howner).1] at hpc
      cases hpc
  | _ => exact .inr hpc

/-- A task that is stored stays so, or is told, or expires. -/
theorem PollOk.stored_step (hs : PollOk P s log) (h : step P s l = some s') {id : TaskId}
    {o : Outcome} {time : ℤ} {task : Task} (htask : s.shared.tasker.getTask id = some task)
    (hstate : task.state = o.state) (hresponse : task.response = o.response)
    (htime : task.endTime = time) : s'.Kept (log ++ pollObserver.obs s l) id o time := by
  cases hs.taskChange h id with
  | same hsame => exact .stored task (hsame.trans htask) hstate hresponse htime
  | created uuid req request session k _ hpc =>
    have hnone := (hs.tasks.call hpc).1
    rw [htask] at hnone
    cases hnone
  | removed uuid req k hl hpc =>
    subst hl
    obtain ⟨hcmd, hid, response, hk, hrank⟩ := (hs.sites req _ hpc).1 id rfl
    refine .telling req response ?_ hcmd hid hrank
    rw [step_call h hpc]
    exact congrArg (ServerPc.serving req) (hk _)
  | started old hold hpending =>
    obtain rfl : task = old := Option.some.inj (htask.symm.trans hold)
    have hterminal := o.terminal
    rw [← hstate, hpending] at hterminal
    cases hterminal
  | ended old _ _ hold hworking =>
    obtain rfl : task = old := Option.some.inj (htask.symm.trans hold)
    have hterminal := o.terminal
    rw [← hstate, hworking] at hterminal
    cases hterminal
  | swept old _ hold hexpired =>
    obtain rfl : task = old := Option.some.inj (htask.symm.trans hold)
    exact .expired (htime ▸ (Task.endTime_of_isExpired hexpired).trans (now_le_step h))

theorem PollOk.step_kept (hs : PollOk P s log) (h : step P s l = some s') {id : TaskId}
    {o : Outcome} {time : ℤ} (he : .recorded id o time ∈ log ++ pollObserver.obs s l) :
    s'.Kept (log ++ pollObserver.obs s l) id o time := by
  rcases mem_log he with hold | hnew
  · cases hs.kept id o time hold with
    | stored task htask hstate hresponse htime =>
      exact hs.stored_step h htask hstate hresponse htime
    | told response hmem hrank =>
      refine .told response ?_ hrank
      rcases hs.polls_step (l := l) id with hsame | ⟨response', -, -, happ⟩
      · rw [hsame]
        exact hmem
      · rw [happ]
        exact List.mem_append_left _ hmem
    | telling req response hpc hcmd hid hrank =>
      rcases hs.telling_step h hpc with rfl | hpc'
      · -- the answer is given; the task was accepted before
        obtain ⟨request, _, _, haccepted, -, -⟩ := (hs.replyOk hpc hcmd hid).reports hrank
        have hobs : pollObserver.obs s (.server .advance) = [.replied id response] := by
          rw [Observer.obs_reply hpc]
          simp only [pollObserver, hcmd, hid]
        have hmem : ∃ e ∈ log, e.accepts id = true := ⟨_, haccepted, by simp [PollEvent.accepts]⟩
        refine .told response ?_ hrank
        rw [hobs, polls_append_of_accepted hmem]
        simp [PollEvent.reply?]
      · exact .telling req response hpc' hcmd hid hrank
    | expired hnow => exact .expired (hnow.trans (now_le_step h))
  · cases hnew with
    | record _ _ hrecorded =>
      obtain ⟨task, -, hworking, htask'⟩ := hs.tasks.life.recorded h hrecorded
      rw [Task.finish_of_inProgress _ _ hworking] at htask'
      exact .stored _ htask' rfl rfl rfl

theorem PollOk.step (hs : PollOk P s log) (h : step P s l = some s') :
    PollOk P s' (log ++ pollObserver.obs s l) := by
  have hpolled := hs.step_polled h
  have hrefl : PollRely (s.shared, log) (s.shared, log) :=
    ⟨taskRely_refl hs.tasks.life hs.tasks.handler.ids, .refl log, hs.polled⟩
  have hother : (∀ e, l ≠ .server e) →
      PollRely (s.shared, log) (s'.shared, log ++ pollObserver.other s l) := by
    intro hl
    rw [Observer.obs_other hl] at hpolled
    refine ⟨hs.tasks.rely h hl, ⟨_, rfl, fun e he => ?_⟩, hpolled⟩
    obtain ⟨r, -, rfl⟩ := List.mem_map.mp he
    rfl
  have hserving : (polling P).Serving s'.server (s'.shared, log ++ pollObserver.obs s l) :=
    hs.serving.step (polling_stable P) hrefl hother
      (fun req => RequestHandler.keeps_polling _) h
  refine ⟨hs.tasks.step h, hs.threads.step h, hserving, hpolled, fun id request =>
    hs.step_accepted h, hs.step_order, fun id response he hrank => ?_,
    hs.step_recorded h, fun id o time => hs.step_ended h, fun id request => hs.step_found h,
    fun id o time => hs.step_kept h, hs.step_entries, hs.step_sites h⟩
  · have hreports : ∃ request o time, .accepted id request ∈ log ∧ .recorded id o time ∈ log ∧
        Reports P request o response := by
      rcases mem_log he with hold | hnew
      · exact hs.reports id response hold hrank
      · cases hnew with
        | reply req _ _ _ hpc hcmd hid => exact (hs.replyOk hpc hcmd hid).reports hrank
    obtain ⟨request, o, time, haccepted, hrecorded, hreport⟩ := hreports
    exact ⟨request, o, time, List.mem_append_left _ haccepted, List.mem_append_left _ hrecorded,
      hreport⟩

end Step

/-! ### The answers -/

def checkRequest (token : String) (id : TaskId) : DecodedRequest where
  cmdType := .checkTask
  sessionToken := some (ascii token)
  taskId := some id

end System

end RobertMiddleware

import RobertMiddleware.Robot.Robot

/-!
# Work items and promises

The life of a work item in the robot connection: queued with a new promise, taken by the worker
thread, written to the socket, answered. `workerStep_effect` says what a step of the worker thread
can do to the items and promises; everything else here follows from it.

## Main definitions

* `Robot.Unsent` — some byte of the request behind a promise is still to be written
* `Robot.PromisesOk` — promises are distinct, and one still outstanding has no value

## Main results

* `Robot.workerStep_effect` — the five things a step can do
* `Robot.PromisesOk.workerStep`, `PromisesOk.pushRequest` — the invariant is kept
* `Robot.unsent_workerStep` — the worker thread never makes a request unsent
-/

namespace RobertMiddleware

namespace WorkerPc

/-- The item in the worker's hands. -/
def item : WorkerPc → Option RobotWorkItem
  | .starting item | .sending item _ | .receiving item | .responding item _ | .failing item _
  | .reporting item _ => some item
  | _ => none

/-- The item in the worker's hands, while bytes of it are still to be written. -/
def unsent : WorkerPc → Option RobotWorkItem
  | .starting item | .sending item _ => some item
  | _ => none

theorem item_of_unsent {pc : WorkerPc} {item : RobotWorkItem} (h : pc.unsent = some item) :
    pc.item = some item := by
  cases pc <;> simp_all [unsent, WorkerPc.item]

end WorkerPc

namespace Robot

/-- The items not answered yet, the one in hand first. -/
def items (r : Robot) : List RobotWorkItem := r.worker.item.toList ++ r.requestQueue

/-- Their promises. -/
def outstanding (r : Robot) : List ℕ := r.items.filterMap RobotWorkItem.responsePromise

/-- Some byte of the request behind the promise `p` is still to be written. -/
def Unsent (r : Robot) (p : ℕ) : Prop :=
  ∃ item, (item ∈ r.requestQueue ∨ r.worker.unsent = some item) ∧ item.responsePromise = some p

instance (r : Robot) (p : ℕ) : Decidable (r.Unsent p) :=
  decidable_of_iff
    (∃ item ∈ r.requestQueue ++ r.worker.unsent.toList, item.responsePromise = some p)
    (by simp [Unsent, and_comm])

/-! ### What a step of the worker thread can do -/

inductive Effect (r r' : Robot) : Prop
  /-- Nothing happens to items and promises, except that bytes are written. -/
  | keep (hqueue : r'.requestQueue = r.requestQueue) (hnext : r'.nextPromise = r.nextPromise)
      (hresponses : r'.responses = r.responses) (hitem : r'.worker.item = r.worker.item)
      (hunsent : ∀ item, r'.worker.unsent = some item → r.worker.unsent = some item)
  /-- The oldest item of the queue is taken. -/
  | take (item : RobotWorkItem) (hqueue : r.requestQueue = item :: r'.requestQueue)
      (hnext : r'.nextPromise = r.nextPromise) (hresponses : r'.responses = r.responses)
      (hworker : r.worker.item = none) (hworker' : r'.worker = .starting item)
  /-- A heartbeat is made. -/
  | beat (item : RobotWorkItem) (hqueue : r'.requestQueue = r.requestQueue)
      (hnext : r'.nextPromise = r.nextPromise) (hresponses : r'.responses = r.responses)
      (hworker : r.worker.item = none) (hworker' : r'.worker = .starting item)
      (hitem : item.responsePromise = none)
  /-- The item in hand is answered. -/
  | answer (item : RobotWorkItem) (value : Bytes) (hqueue : r'.requestQueue = r.requestQueue)
      (hnext : r'.nextPromise = r.nextPromise)
      (hresponses : r'.responses = (r.setValue item value).responses)
      (hworker : r.worker.item = some item) (hworker' : r'.worker.item = none)

@[simp] theorem requestQueue_setValue (item : RobotWorkItem) (value : Bytes) (r : Robot) :
    (r.setValue item value).requestQueue = r.requestQueue := by
  rw [setValue]; split <;> rfl

@[simp] theorem nextPromise_setValue (item : RobotWorkItem) (value : Bytes) (r : Robot) :
    (r.setValue item value).nextPromise = r.nextPromise := by
  rw [setValue]; split <;> rfl

@[simp] theorem socketFd_setValue (item : RobotWorkItem) (value : Bytes) (r : Robot) :
    (r.setValue item value).socketFd = r.socketFd := by
  rw [setValue]; split <;> rfl

@[simp] theorem nextFd_setValue (item : RobotWorkItem) (value : Bytes) (r : Robot) :
    (r.setValue item value).nextFd = r.nextFd := by
  rw [setValue]; split <;> rfl

@[simp] theorem connected_setValue (item : RobotWorkItem) (value : Bytes) (r : Robot) :
    (r.setValue item value).connected = r.connected := by
  rw [setValue]; split <;> rfl

@[simp] theorem running_setValue (item : RobotWorkItem) (value : Bytes) (r : Robot) :
    (r.setValue item value).running = r.running := by
  rw [setValue]; split <;> rfl

theorem workerStep_effect {r r' : Robot} {e : WorkerEvent} (h : r.workerStep e = some r') :
    Effect r r' := by
  revert h
  fun_cases workerStep r e
  all_goals intro h
  all_goals try contradiction
  all_goals obtain rfl := Option.some.inj h
  case case6 hw hrun item rest hq => exact .take item hq rfl rfl (by rw [hw]; rfl) rfl
  case case10 item response hw value =>
    exact .answer item _ (by simp) (by simp) rfl (by rw [hw]; rfl) rfl
  case case12 item what hw => exact .answer item _ (by simp) (by simp) rfl (by rw [hw]; rfl) rfl
  case case18 junk hw command => exact .beat _ rfl rfl rfl (by rw [hw.1]; rfl) rfl rfl
  all_goals
    refine .keep rfl rfl rfl ?_ ?_ <;> grind [WorkerPc.item, WorkerPc.unsent]

theorem nextPromise_workerStep {r r' : Robot} {e : WorkerEvent} (h : r.workerStep e = some r') :
    r'.nextPromise = r.nextPromise := by
  cases workerStep_effect h <;> assumption

/-- Only `start_session` and `stop_session` set `running_`. -/
theorem running_workerStep {r r' : Robot} {e : WorkerEvent} (h : r.workerStep e = some r') :
    r'.running = r.running := by
  revert h
  fun_cases workerStep r e
  all_goals intro h
  all_goals try contradiction
  all_goals obtain rfl := Option.some.inj h
  all_goals simp

/-- The worker thread writes requests; it does not make one unsent. -/
theorem unsent_workerStep {r r' : Robot} {e : WorkerEvent} (h : r.workerStep e = some r') {p : ℕ}
    (hp : r'.Unsent p) : r.Unsent p := by
  obtain ⟨item, hitem, hip⟩ := hp
  cases workerStep_effect h with
  | keep hqueue _ _ _ hunsent =>
    exact ⟨item, hitem.imp (hqueue ▸ ·) (hunsent item), hip⟩
  | take first hqueue _ _ _ hworker' =>
    refine ⟨item, .inl ?_, hip⟩
    rw [hqueue]
    rcases hitem with hmem | hhand
    · exact List.mem_cons_of_mem _ hmem
    · obtain rfl : first = item := by simpa [hworker', WorkerPc.unsent] using hhand
      exact List.mem_cons_self
  | beat first hqueue _ _ _ hworker' hbeat =>
    rcases hitem with hmem | hhand
    · exact ⟨item, .inl (hqueue ▸ hmem), hip⟩
    · obtain rfl : first = item := by simpa [hworker', WorkerPc.unsent] using hhand
      rw [hbeat] at hip
      cases hip
  | answer _ _ hqueue _ _ _ hworker' =>
    rcases hitem with hmem | hhand
    · exact ⟨item, .inl (hqueue ▸ hmem), hip⟩
    · rw [WorkerPc.item_of_unsent hhand] at hworker'
      cases hworker'

/-- Only the new request becomes unsent. -/
theorem unsent_pushRequest {r : Robot} {request : RapidRequest} {p : ℕ}
    (h : (r.pushRequest request).2.Unsent p) : r.Unsent p ∨ p = r.nextPromise := by
  obtain ⟨item, hitem, hip⟩ := h
  rcases hitem with hmem | hhand
  · rcases List.mem_append.mp hmem with hold | hnew
    · exact .inl ⟨item, .inl hold, hip⟩
    · rw [List.mem_singleton.mp hnew] at hip
      exact .inr (Option.some.inj hip).symm
  · exact .inl ⟨item, .inr hhand, hip⟩

/-- The worker thread may be restarted; items and promises are left alone. -/
structure Quiet (r r' : Robot) : Prop where
  requestQueue : r'.requestQueue = r.requestQueue
  nextPromise : r'.nextPromise = r.nextPromise
  responses : r'.responses = r.responses
  worker : r'.worker = r.worker ∨ r'.worker = .loopTest

theorem Quiet.refl (r : Robot) : r.Quiet r := ⟨rfl, rfl, rfl, .inl rfl⟩

theorem Quiet.startSession (r : Robot) : r.Quiet r.startSession := by
  rw [Robot.startSession]
  split
  · exact .refl r
  · exact ⟨rfl, rfl, rfl, .inr rfl⟩

theorem Quiet.clearRunning (r : Robot) : r.Quiet r.clearRunning := ⟨rfl, rfl, rfl, .inl rfl⟩

theorem Quiet.closeSession (r : Robot) : r.Quiet r.closeSession := ⟨rfl, rfl, rfl, .inl rfl⟩

theorem Quiet.unsent {r r' : Robot} (h : r.Quiet r') {p : ℕ} (hp : r'.Unsent p) : r.Unsent p := by
  obtain ⟨item, hitem, hip⟩ := hp
  refine ⟨item, ?_, hip⟩
  rw [h.requestQueue] at hitem
  rcases h.worker with hw | hw <;> rw [hw] at hitem
  · exact hitem
  · exact hitem.imp_right (nomatch ·)

/-! ### Distinct promises -/

/-- Promises are numbered in the order they are made, and each has at most one item and at most
one value. -/
structure PromisesOk (r : Robot) : Prop where
  nodup : r.outstanding.Nodup
  below : ∀ p ∈ r.outstanding, p < r.nextPromise
  responded_below : ∀ e ∈ r.responses, e.1 < r.nextPromise
  unanswered : ∀ p ∈ r.outstanding, ∀ e ∈ r.responses, e.1 ≠ p

theorem outstanding_of_item_none {r : Robot} (h : r.worker.item = none) :
    r.outstanding = r.requestQueue.filterMap RobotWorkItem.responsePromise := by
  simp [outstanding, items, h]

theorem outstanding_of_item_some {r : Robot} {item : RobotWorkItem}
    (h : r.worker.item = some item) :
    r.outstanding = item.responsePromise.toList ++
      r.requestQueue.filterMap RobotWorkItem.responsePromise := by
  cases hp : item.responsePromise <;> simp [outstanding, items, h, hp]

theorem Unsent.mem_outstanding {r : Robot} {p : ℕ} (h : r.Unsent p) : p ∈ r.outstanding := by
  obtain ⟨item, hitem, hip⟩ := h
  refine List.mem_filterMap.mpr ⟨item, ?_, hip⟩
  rcases hitem with hmem | hhand
  · exact List.mem_append_right _ hmem
  · rw [Robot.items, WorkerPc.item_of_unsent hhand]
    exact List.mem_append_left _ (List.mem_singleton_self _)

/-- Items may be dropped. -/
theorem PromisesOk.of_sublist {r r' : Robot} (hr : r.PromisesOk)
    (hout : r'.outstanding.Sublist r.outstanding) (hnext : r'.nextPromise = r.nextPromise)
    (hresponses : r'.responses = r.responses) : r'.PromisesOk where
  nodup := hr.nodup.sublist hout
  below p hp := hnext ▸ hr.below p (hout.subset hp)
  responded_below := hresponses ▸ hnext ▸ hr.responded_below
  unanswered p hp := hresponses ▸ hr.unanswered p (hout.subset hp)

/-- Answering the item in hand. -/
theorem PromisesOk.answer {r r' : Robot} {item : RobotWorkItem} {value : Bytes}
    (hr : r.PromisesOk) (hqueue : r'.requestQueue = r.requestQueue)
    (hnext : r'.nextPromise = r.nextPromise)
    (hresponses : r'.responses = (r.setValue item value).responses)
    (hworker : r.worker.item = some item) (hworker' : r'.worker.item = none) :
    r'.PromisesOk := by
  have hout' := outstanding_of_item_none hworker'
  have hout := outstanding_of_item_some hworker
  rw [hqueue] at hout'
  cases hp : item.responsePromise with
  | none =>
    refine hr.of_sublist ?_ hnext (by simp [hresponses, setValue, hp])
    rw [hout, hout', hp]
    exact List.Sublist.refl _
  | some p =>
    rw [hp] at hout
    have hcons : r.outstanding = p :: r'.outstanding := by rw [hout, hout']; rfl
    have hnodup := List.nodup_cons.mp (hcons ▸ hr.nodup)
    have happ : r'.responses = r.responses ++ [(p, value)] := by simp [hresponses, setValue, hp]
    have hmem : ∀ q ∈ r'.outstanding, q ∈ r.outstanding := fun q hq =>
      hcons ▸ List.mem_cons_of_mem _ hq
    refine ⟨hnodup.2, fun q hq => hnext ▸ hr.below q (hmem q hq), ?_, ?_⟩
    · intro e he
      rw [happ] at he
      rcases List.mem_append.mp he with he | he
      · exact hnext ▸ hr.responded_below e he
      · obtain rfl := List.mem_singleton.mp he
        exact hnext ▸ hr.below p (hcons ▸ List.mem_cons_self)
    · intro q hq e he
      rw [happ] at he
      rcases List.mem_append.mp he with he | he
      · exact hr.unanswered q (hmem q hq) e he
      · obtain rfl := List.mem_singleton.mp he
        rintro rfl
        exact hnodup.1 hq

theorem PromisesOk.workerStep {r r' : Robot} {e : WorkerEvent} (hr : r.PromisesOk)
    (h : r.workerStep e = some r') : r'.PromisesOk := by
  cases workerStep_effect h with
  | keep hqueue hnext hresponses hitem _ =>
    have hout : r'.outstanding = r.outstanding := by
      rw [outstanding, outstanding, items, items, hitem, hqueue]
    exact hr.of_sublist (hout ▸ List.Sublist.refl _) hnext hresponses
  | take item hqueue hnext hresponses hworker hworker' =>
    refine hr.of_sublist ?_ hnext hresponses
    rw [outstanding_of_item_none hworker, outstanding, items, hworker', hqueue]
    exact List.Sublist.refl _
  | beat item hqueue hnext hresponses hworker hworker' hbeat =>
    refine hr.of_sublist ?_ hnext hresponses
    have hhand : r'.worker.item = some item := by rw [hworker']; rfl
    rw [outstanding_of_item_none hworker, outstanding_of_item_some hhand, hbeat, hqueue]
    exact List.Sublist.refl _
  | answer item value hqueue hnext hresponses hworker hworker' =>
    exact hr.answer hqueue hnext hresponses hworker hworker'

/-- A request that is queued gets a promise not used before. -/
theorem PromisesOk.pushRequest {r : Robot} (hr : r.PromisesOk) (request : RapidRequest) :
    (r.pushRequest request).2.PromisesOk := by
  have hout : (r.pushRequest request).2.outstanding = r.outstanding ++ [r.nextPromise] := by
    simp [Robot.pushRequest, outstanding, items]
  have hfresh : r.nextPromise ∉ r.outstanding := fun h => absurd (hr.below _ h) (lt_irrefl _)
  refine ⟨?_, ?_, fun e he => (hr.responded_below e he).trans (Nat.lt_succ_self _), ?_⟩
  · rw [hout]
    exact List.nodup_append.mpr ⟨hr.nodup, by simp, fun a ha b hb => by
      obtain rfl := List.mem_singleton.mp hb
      rintro rfl
      exact hfresh ha⟩
  · intro p hp
    rw [hout] at hp
    rcases List.mem_append.mp hp with hp | hp
    · exact (hr.below p hp).trans (Nat.lt_succ_self _)
    · rw [List.mem_singleton.mp hp]
      exact Nat.lt_succ_self _
  · intro p hp e he
    rw [hout] at hp
    rcases List.mem_append.mp hp with hp | hp
    · exact hr.unanswered p hp e he
    · rw [List.mem_singleton.mp hp]
      exact (hr.responded_below e he).ne

theorem PromisesOk.quiet {r r' : Robot} (hr : r.PromisesOk) (h : r.Quiet r') : r'.PromisesOk := by
  refine hr.of_sublist ?_ h.nextPromise h.responses
  refine List.Sublist.filterMap _ (List.Sublist.append ?_ (h.requestQueue ▸ List.Sublist.refl _))
  rcases h.worker with hw | hw
  · exact hw ▸ List.Sublist.refl _
  · exact hw ▸ List.nil_sublist _

/-- While a request is unsent its promise has no value. -/
theorem PromisesOk.future_eq_none {r : Robot} (hr : r.PromisesOk) {p : ℕ} (hp : r.Unsent p) :
    r.future p = none := by
  rw [future, Option.map_eq_none_iff, List.find?_eq_none]
  intro e he
  simpa using hr.unanswered p hp.mem_outstanding e he

end Robot

end RobertMiddleware

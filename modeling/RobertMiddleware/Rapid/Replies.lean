import RobertMiddleware.Commands.Commands
import RobertMiddleware.Rapid.Parsing

/-!
# One response for each request

The middleware reads one response for each request it sends, so a request that is answered twice,
or not at all, shifts every later answer. This file counts the responses in every run of
`parse_message`, whatever the system answers.

A routine is judged by the calls it makes and their answers. Before the response a run is
`Waiting`; an error that leaves a routine then finds it `Failing`. Two things disturb the count:
an `ERR_ROBLIMIT` that reaches the `ERROR` clause of `ExecuteAction`, which answers twice then, and
an error of `ClearPath`, which is raised in that clause and leaves it without an answer.

## Main results

* `serves_performAction` — every command is answered once, or fails before it is answered
* `ends_actionError` — what the `ERROR` clause makes of a failure
* `oneReply_iff` — exactly when `parse_message` returns after one response
-/

namespace RobertMiddleware

namespace Rapid

open Effects

/-! ### Responses and disturbances -/

abbrev Calls := List (Event RapidCalls)

def isReply : Event RapidCalls → Bool
  | ⟨.sendResponse _, _⟩ => true
  | ⟨.sendBinaryResponse _, _⟩ => true
  | _ => false

/-- The number of responses sent. -/
def replies (tr : Calls) : ℕ := tr.countP isReply

/-- The routine returned, and one response was sent before. -/
def OneReply (res : Except Errno Unit) (tr : Calls) : Prop := replies tr = 1 ∧ res = .ok ()

/-- The call was answered with an error. -/
def raised : Event RapidCalls → Option (Primitive × Errno)
  | ⟨.primitive p, r⟩ =>
    match (r : Except Errno p.Answer) with
    | .ok _ => none
    | .error e => some (p, e)
  | _ => none

/-- The functions that only `IsSafeTarget` calls, whose errors end there. -/
def Primitive.isCheck : Primitive → Bool
  | .calcJointT _ => true
  | .calcRobT _ => true
  | _ => false

/-- The primitives that are called neither in the check nor in the `ERROR` clause. -/
def Primitive.isPlain : Primitive → Bool
  | .calcJointT _ => false
  | .calcRobT _ => false
  | .clearPath => false
  | _ => true

/-- An error that upsets the count: one of `ClearPath`, or `ERR_ROBLIMIT` outside the check. -/
def Disturbing (R : RapidSystem) (ev : Event RapidCalls) : Prop :=
  ∃ p e, raised ev = some (p, e) ∧
    (p = .clearPath ∨ p.isCheck = false ∧ e = R.errRobLimit)

def Undisturbed (R : RapidSystem) (tr : Calls) : Prop := ∀ ev ∈ tr, ¬ Disturbing R ev

/-- No response yet, and nothing that will upset the count. -/
def Waiting (R : RapidSystem) (tr : Calls) : Prop := replies tr = 0 ∧ Undisturbed R tr

/-- One response. -/
def Answered (R : RapidSystem) (tr : Calls) : Prop := replies tr = 1 ∧ Undisturbed R tr

/-- The error `e` is on its way, before any response. -/
def Failing (R : RapidSystem) (e : Errno) (tr : Calls) : Prop :=
  replies tr = 0 ∧ (Undisturbed R tr ↔ e ≠ R.errRobLimit)

section Traces

variable {R : RapidSystem} {tr : Calls} {ev : Event RapidCalls}

@[simp] theorem replies_append (tr tr' : Calls) :
    replies (tr ++ tr') = replies tr + replies tr' := List.countP_append

@[simp] theorem replies_singleton (ev : Event RapidCalls) :
    replies [ev] = if isReply ev then 1 else 0 := by
  simp [replies, List.countP_singleton]

@[simp] theorem undisturbed_append_singleton :
    Undisturbed R (tr ++ [ev]) ↔ Undisturbed R tr ∧ ¬ Disturbing R ev := by
  simp [Undisturbed, or_imp, forall_and]

theorem waiting_nil : Waiting R [] := ⟨rfl, by simp [Undisturbed]⟩

/-- Every call but an answer and a primitive that fails keeps the run waiting. -/
theorem Waiting.append (h : Waiting R tr) (hreply : isReply ev = false)
    (hev : ¬ Disturbing R ev) : Waiting R (tr ++ [ev]) := by
  refine ⟨?_, undisturbed_append_singleton.mpr ⟨h.2, hev⟩⟩
  rw [replies_append, replies_singleton, hreply, h.1]
  rfl

theorem not_disturbing_of_raised_eq_none (h : raised ev = none) : ¬ Disturbing R ev := by
  rintro ⟨p, e, hraised, -⟩
  rw [h] at hraised
  contradiction

end Traces

/-! ### Routines and their calls -/

/-- Between two calls the physical state drifts; the record of calls is kept. -/
def Between (s s' : Controller × Calls) : Prop := s.1.Drift s'.1 ∧ s'.2 = s.2

/-- However the calls of `p` are answered, it ends with a result and a record satisfying `Q`, when
it starts with the record `tr`. -/
def Ends {α : Type} (p : Routine α) (Q : Except Errno α → Calls → Prop) (tr : Calls) : Prop :=
  ∀ c, p.Wp rapidSem.traced Between (fun _ _ => True) (fun res s => Q res s.2) (c, tr)

section Rules

variable {α β : Type} {Q Q' : Except Errno α → Calls → Prop} {tr : Calls}

theorem Ends.mono {p : Routine α} (h : Ends p Q tr) (hQ : ∀ res tr', Q res tr' → Q' res tr') :
    Ends p Q' tr :=
  fun c => (h c).mono (fun _ _ => id) fun res s => hQ res s.2

theorem ends_pure {a : α} (h : Q (.ok a) tr) : Ends (.pure a) Q tr := fun _ => h

theorem ends_throw {e : Errno} (h : Q (.error e) tr) : Ends (.throw e) Q tr := fun _ => h

theorem ends_call {op : RapidOp} {k : op.Ret → Routine α}
    (h : ∀ r, Ends (k r) Q (tr ++ [⟨op, r⟩])) : Ends (.call op k) Q tr := by
  rintro c ⟨c₁, tr₁⟩ ⟨-, htr⟩
  refine ⟨trivial, ?_⟩
  rintro r ⟨c₂, tr₂⟩ ⟨-, htr₂⟩
  obtain rfl : tr₁ = tr := htr
  obtain rfl : tr₂ = tr₁ ++ [⟨op, r⟩] := htr₂
  exact h r c₂

theorem ends_bind {p : Routine α} {f : α → Routine β} {Q : Except Errno β → Calls → Prop}
    (h : Ends p (fun res tr' => match res with
      | .ok a => Ends (f a) Q tr'
      | .error e => Q (.error e) tr') tr) : Ends (p.bind f) Q tr := by
  intro c
  refine Prog.wp_bind.mpr ((h c).mono (fun _ _ => id) ?_)
  rintro (e | a) ⟨c', tr'⟩ hQ
  · exact hQ
  · exact hQ c'

theorem ends_tryCatch {p : Routine α} {handler : Errno → Routine α}
    (h : Ends p (fun res tr' => match res with
      | .ok a => Q (.ok a) tr'
      | .error e => Ends (handler e) Q tr') tr) : Ends (p.tryCatch handler) Q tr := by
  intro c
  refine Prog.wp_tryCatch.mpr ((h c).mono (fun _ _ => id) ?_)
  rintro (e | a) ⟨c', tr'⟩ hQ
  · exact hQ c'
  · exact hQ

theorem ends_attempt {p : Primitive} {Q : Except Errno p.Answer → Calls → Prop}
    (hok : ∀ a, Q (.ok a) (tr ++ [⟨.primitive p, Except.ok a⟩]))
    (herror : ∀ e, Q (.error e) (tr ++ [⟨.primitive p, Except.error e⟩])) :
    Ends (attempt p) Q tr :=
  ends_call fun r => match r with
    | .ok a => ends_pure (hok a)
    | .error e => ends_throw (herror e)

end Rules

/-! ### Before the response -/

/-- `p` computes something without answering the client. -/
def Prepares {α : Type} (R : RapidSystem) (p : Routine α) : Prop :=
  ∀ tr, Waiting R tr → Ends p (fun res tr' => match res with
    | .ok _ => Waiting R tr'
    | .error e => Failing R e tr') tr

/-- `p` answers the client once, unless it fails first. -/
def Serves (R : RapidSystem) (p : Routine Unit) : Prop :=
  ∀ tr, Waiting R tr → Ends p (fun res tr' => match res with
    | .ok _ => Answered R tr'
    | .error e => Failing R e tr') tr

section Specs

variable {α : Type} {R : RapidSystem}

theorem prepares_pure (a : α) : Prepares R (.pure a) :=
  fun _ h => ends_pure h

theorem Prepares.bind {β : Type} {p : Routine α} {f : α → Routine β} (h : Prepares R p)
    (hf : ∀ a, Prepares R (f a)) : Prepares R (p.bind f) := by
  refine fun tr htr => ends_bind ((h tr htr).mono ?_)
  rintro (e | a) tr' hQ
  · exact hQ
  · exact hf a tr' hQ

theorem Prepares.serves {p : Routine α} {f : α → Routine Unit} (h : Prepares R p)
    (hf : ∀ a, Serves R (f a)) : Serves R (p.bind f) := by
  refine fun tr htr => ends_bind ((h tr htr).mono ?_)
  rintro (e | a) tr' hQ
  · exact hQ
  · exact hf a tr' hQ

/-- A primitive that fails before the response leaves a failing run. -/
theorem Waiting.failing {tr : Calls} {p : Primitive} (h : Waiting R tr) (hp : p.isPlain = true)
    (e : Errno) :
    Failing R e (tr ++ [⟨.primitive p, Except.error e⟩]) := by
  have hcheck : p.isCheck = false := by cases p <;> first | rfl | contradiction
  have hclear : p ≠ .clearPath := by rintro rfl; contradiction
  refine ⟨?_, ?_⟩
  · rw [replies_append, h.1]
    rfl
  · rw [undisturbed_append_singleton, and_iff_right h.2, not_iff_not]
    constructor
    · rintro ⟨p', e', hraised, hor⟩
      obtain ⟨rfl, rfl⟩ : p = p' ∧ e = e' := by simpa [raised] using hraised
      exact (hor.resolve_left hclear).2
    · intro he
      exact ⟨p, e, rfl, .inr ⟨hcheck, he⟩⟩

theorem prepares_attempt {p : Primitive} (hp : p.isPlain = true) : Prepares R (attempt p) :=
  fun _ htr => ends_attempt (fun _ => htr.append rfl (not_disturbing_of_raised_eq_none rfl))
    fun e => htr.failing hp e

theorem prepares_moveSpeed : Prepares R moveSpeed := fun _ htr =>
  ends_call fun _ => ends_pure (htr.append rfl (not_disturbing_of_raised_eq_none rfl))

theorem prepares_setMoveSpeed (v : Single) : Prepares R (setMoveSpeed v) := fun _ htr =>
  ends_call fun _ => ends_pure (htr.append rfl (not_disturbing_of_raised_eq_none rfl))

theorem prepares_moveZone : Prepares R moveZone := fun _ htr =>
  ends_call fun _ => ends_pure (htr.append rfl (not_disturbing_of_raised_eq_none rfl))

theorem prepares_setMoveZone (z : Zone) : Prepares R (setMoveZone z) := fun _ htr =>
  ends_call fun _ => ends_pure (htr.append rfl (not_disturbing_of_raised_eq_none rfl))

theorem Waiting.answered {tr : Calls} {ev : Event RapidCalls} (h : Waiting R tr)
    (hreply : isReply ev = true) (hev : raised ev = none) : Answered R (tr ++ [ev]) := by
  refine ⟨?_, undisturbed_append_singleton.mpr ⟨h.2, not_disturbing_of_raised_eq_none hev⟩⟩
  rw [replies_append, replies_singleton, hreply, h.1]
  rfl

theorem serves_sendResponse (msg : String) : Serves R (sendResponse msg) := fun _ htr =>
  ends_call fun _ => ends_pure (htr.answered rfl rfl)

theorem serves_sendBinaryResponse (raw : Bytes) : Serves R (sendBinaryResponse raw) :=
  fun _ htr => ends_call fun _ => ends_pure (htr.answered rfl rfl)

/-! ### The check before a motion -/

/-- `p` neither answers the client nor upsets the count, even when it fails. -/
def Harmless (R : RapidSystem) (p : Routine α) : Prop :=
  ∀ tr, Waiting R tr → Ends p (fun _ tr' => Waiting R tr') tr

theorem harmless_pure (a : α) : Harmless R (.pure a) :=
  fun _ h => ends_pure h

theorem Harmless.bind {β : Type} {p : Routine α} {f : α → Routine β} (h : Harmless R p)
    (hf : ∀ a, Harmless R (f a)) : Harmless R (p.bind f) := by
  refine fun tr htr => ends_bind ((h tr htr).mono ?_)
  rintro (e | a) tr' hQ
  · exact hQ
  · exact hf a tr' hQ

theorem harmless_attempt {p : Primitive} (hp : p.isCheck = true) : Harmless R (attempt p) := by
  refine fun tr htr => ends_attempt
    (fun _ => htr.append rfl (not_disturbing_of_raised_eq_none rfl)) fun e => htr.append rfl ?_
  rintro ⟨p', e', hraised, hor⟩
  obtain ⟨rfl, rfl⟩ : p = p' ∧ e = e' := by simpa [raised] using hraised
  rcases hor with rfl | ⟨hcheck, -⟩
  · contradiction
  · exact absurd (hp.symm.trans hcheck) (by decide)

theorem harmless_hasRobTarget (jtarget : Option JointTarget) :
    Harmless R (hasRobTarget jtarget) := by
  cases jtarget with
  | none => exact harmless_pure true
  | some j => exact (harmless_attempt rfl).bind fun _ => harmless_pure true

/-- What is caught leaves no trace. -/
theorem Harmless.prepares {p : Routine α} (h : Harmless R p) (a : α) :
    Prepares R (p.tryCatch fun _ => .pure a) := by
  refine fun tr htr => ends_tryCatch ((h tr htr).mono ?_)
  rintro (e | a) tr' hQ
  · exact ends_pure hQ
  · exact hQ

/-- `IsSafeTarget` never fails. -/
theorem prepares_isSafeTarget (rtarget : Option RobTarget) (jtarget : Option JointTarget) :
    Prepares R (isSafeTarget rtarget jtarget) := by
  refine Harmless.prepares ?_ false
  cases rtarget with
  | none => exact harmless_hasRobTarget jtarget
  | some t =>
    dsimp only
    split
    · exact harmless_pure false
    · exact (harmless_attempt rfl).bind fun _ => harmless_hasRobTarget jtarget

theorem prepares_areSafeTargets (t t2 : RobTarget) : Prepares R (areSafeTargets t t2) := by
  refine (prepares_isSafeTarget (some t) none).bind fun safe => ?_
  split
  · exact prepares_isSafeTarget (some t2) none
  · exact prepares_pure false

/-! ### `ExecuteAction` -/

theorem prepares_moveL (t : RobTarget) : Prepares R (moveL t) :=
  prepares_moveSpeed.bind fun _ => prepares_moveZone.bind fun _ => prepares_attempt (by rfl)

theorem prepares_moveJ (t : RobTarget) : Prepares R (moveJ t) :=
  prepares_moveSpeed.bind fun _ => prepares_moveZone.bind fun _ => prepares_attempt (by rfl)

theorem prepares_moveAbsJ (j : JointTarget) : Prepares R (moveAbsJ j) :=
  prepares_moveSpeed.bind fun _ => prepares_moveZone.bind fun _ => prepares_attempt (by rfl)

theorem prepares_moveC (t2 t : RobTarget) : Prepares R (moveC t2 t) :=
  prepares_moveSpeed.bind fun _ => prepares_moveZone.bind fun _ => prepares_attempt (by rfl)

theorem serves_guardedMove {check : Routine Bool} {move : Routine Unit} {ack : String}
    (hcheck : Prepares R check) (hmove : Prepares R move) :
    Serves R (guardedMove check move ack) := by
  refine hcheck.serves fun safe => ?_
  split
  · exact hmove.serves fun _ => serves_sendResponse ack
  · exact serves_sendResponse _

theorem prepares_offsetTarget (t : RobTarget) : Prepares R (offsetTarget R t) :=
  (prepares_attempt (by rfl)).bind fun _ => prepares_pure _

theorem prepares_speedOutOfRange (speed : ℕ) : Prepares R (speedOutOfRange speed) := by
  rw [speedOutOfRange]
  split
  · exact prepares_pure true
  · exact (prepares_attempt (by rfl)).bind fun _ => prepares_pure _

theorem serves_setSpeed (speed : ℕ) : Serves R (setSpeed speed) := by
  refine (prepares_speedOutOfRange speed).serves fun outOfRange => ?_
  split
  · exact (prepares_attempt (by rfl)).serves fun _ => serves_sendResponse _
  · exact (prepares_setMoveSpeed _).serves fun _ => serves_sendResponse _

theorem serves_handleGetState : Serves R handleGetState :=
  (prepares_attempt (by rfl)).serves fun _ => (prepares_attempt (by rfl)).serves fun _ =>
    (prepares_attempt (by rfl)).serves fun _ => (prepares_attempt (by rfl)).serves fun _ =>
    (prepares_attempt (by rfl)).serves fun _ => prepares_moveSpeed.serves fun _ =>
    prepares_moveZone.serves fun _ => serves_sendBinaryResponse _

/-- Every command is answered once, or fails before it is answered. -/
theorem serves_performAction {args : ActionArgs}
    (hzone : args.actionCmd = "SetZone" → args.zone ≠ none) :
    Serves R (performAction R args) := by
  fun_cases performAction R args
  case case3 t _ =>
    exact serves_guardedMove (prepares_isSafeTarget (some t) none) (prepares_moveL t)
  case case5 t _ =>
    exact serves_guardedMove (prepares_isSafeTarget (some t) none) (prepares_moveJ t)
  case case7 j _ =>
    exact serves_guardedMove (prepares_isSafeTarget none (some j)) (prepares_moveAbsJ j)
  case case9 t t2 _ _ =>
    exact serves_guardedMove (prepares_areSafeTargets t t2) (prepares_moveC t2 t)
  case case11 speed _ => exact serves_setSpeed speed
  case case13 zone _ =>
    exact (prepares_setMoveZone zone).serves fun _ => serves_sendResponse _
  case case14 hcmd hnone => exact absurd hnone (hzone hcmd)
  case case15 _ => exact (prepares_moveAbsJ zeroTarget).serves fun _ => serves_sendResponse _
  case case16 _ => exact serves_handleGetState
  case case17 t _ =>
    exact (prepares_offsetTarget t).serves fun temp =>
      serves_guardedMove (prepares_isSafeTarget (some temp) none) (prepares_moveL temp)
  case case19 t _ =>
    exact (prepares_offsetTarget t).serves fun temp =>
      serves_guardedMove (prepares_isSafeTarget (some temp) none) (prepares_moveJ temp)
  -- the refusals, the pings and the unknown command
  all_goals exact serves_sendResponse _

/-- The end of the `ERROR` clause: one more response, or the error of `ClearPath`. -/
theorem ends_errorResponse (e : Errno) (tr : Calls) :
    Ends (errorResponse e) (fun res tr' => match res with
      | .ok _ => replies tr' = replies tr + 1 ∧ (Undisturbed R tr' ↔ Undisturbed R tr)
      | .error _ => ¬ Undisturbed R tr') tr := by
  refine ends_bind (ends_attempt (fun _ => ends_call fun _ => ends_pure ⟨?_, ?_⟩) fun e' => ?_)
  · rw [replies_append, replies_append]
    rfl
  · rw [undisturbed_append_singleton, undisturbed_append_singleton, and_assoc, and_iff_left]
    exact ⟨not_disturbing_of_raised_eq_none rfl, not_disturbing_of_raised_eq_none rfl⟩
  · rw [undisturbed_append_singleton, not_and_not_right]
    exact fun _ => ⟨.clearPath, e', rfl, .inl rfl⟩

/-- What the `ERROR` clause makes of a failure: one response if nothing upsets the count, and
otherwise two, or none that the routine returns after. -/
theorem ends_actionError {e : Errno} {tr : Calls} (h : Failing R e tr) :
    Ends (actionError R e)
      (fun res tr' => OneReply res tr' ↔ Undisturbed R tr') tr := by
  obtain ⟨hreplies, hundisturbed⟩ := h
  refine ends_bind ?_
  rw [limitResponse]
  split
  · rename_i hlimit
    refine ends_call fun _ => ends_pure ((ends_errorResponse (R := R) e _).mono ?_)
    rintro (e' | _) tr' hQ
    · exact iff_of_false (by simp [OneReply]) hQ
    · obtain ⟨hone, hsame⟩ := hQ
      refine iff_of_false (fun h => ?_) fun h => ?_
      · rw [h.1, replies_append, hreplies] at hone
        exact absurd (show 1 = 2 from hone) (by decide)
      · exact hundisturbed.mp (undisturbed_append_singleton.mp (hsame.mp h)).1 hlimit
  · rename_i hlimit
    refine ends_pure ((ends_errorResponse (R := R) e tr).mono ?_)
    rintro (e' | _) tr' hQ
    · exact iff_of_false (by simp [OneReply]) hQ
    · obtain ⟨hone, hsame⟩ := hQ
      exact iff_of_true ⟨by rw [hone, hreplies], rfl⟩ (hsame.mpr (hundisturbed.mpr hlimit))

/-- `ExecuteAction` returns after one response exactly when nothing upset the count. -/
theorem ends_executeAction {args : ActionArgs}
    (hzone : args.actionCmd = "SetZone" → args.zone ≠ none) {tr : Calls} (htr : Waiting R tr) :
    Ends (executeAction R args)
      (fun res tr' => OneReply res tr' ↔ Undisturbed R tr') tr := by
  have hserves := (prepares_attempt (p := .cTime) (by rfl)).serves fun _ =>
    serves_performAction (R := R) hzone
  refine ends_tryCatch ((hserves tr htr).mono ?_)
  rintro (e | _) tr' hQ
  · exact ends_actionError hQ
  · exact iff_of_true ⟨hQ.1, rfl⟩ hQ.2

end Specs

/-! ### `parse_message` -/

/-- A request to set a zone whose number is none of the eight. -/
def UnknownZone (raw : Bytes) : Prop :=
  commandToString (unpackUsint raw 1) = "SetZone" ∧ 7 < unpackUsint raw 2

theorem ends_parseMessage {R : RapidSystem} {raw : Bytes} {len : ℕ} (hlen : 4 ≤ len) :
    Ends (parseMessage R raw len)
      (fun res tr' => OneReply res tr' ↔ ¬ UnknownZone raw ∧ Undisturbed R tr')
      [] := by
  have hexecute : ¬ UnknownZone raw → ∀ args : ActionArgs,
      (args.actionCmd = "SetZone" → args.zone ≠ none) → Ends (executeAction R args)
        (fun res tr' => OneReply res tr' ↔ ¬ UnknownZone raw ∧ Undisturbed R tr')
        [] := fun hzone args hargs => by
    simpa only [hzone, not_false_eq_true, true_and] using ends_executeAction hargs waiting_nil
  rw [parseMessage, parseMessageWith, if_neg (by omega)]
  by_cases hset : commandToString (unpackUsint raw 1) = "SetZone"
  · have hstatus : commandToString (unpackUsint raw 1) ≠ "GETSTATUS" := by
      rw [hset]
      decide
    simp only [if_neg hstatus, if_pos hset]
    cases hvalue : valueToZone R.errFncNoRet (unpackUsint raw 2) with
    | ok zone =>
      have hzone : ¬ UnknownZone raw := fun h => by
        have herror := (valueToZone_eq_error_iff (e := R.errFncNoRet)).mpr ⟨h.2, rfl⟩
        rw [hvalue] at herror
        contradiction
      exact hexecute hzone _ nofun
    | error e =>
      have hzone : UnknownZone raw := ⟨hset, (valueToZone_eq_error_iff.mp hvalue).1⟩
      exact ends_throw (iff_of_false (by simp [OneReply]) fun h => h.1 hzone)
  · have hzone : ¬ UnknownZone raw := fun h => hset h.1
    simp only [if_neg hset]
    repeat' split
    all_goals exact hexecute hzone _ fun h => absurd h hset

/-- **One response for each request.** For every request of at least four bytes, every state of
the controller and every answer of the system: `parse_message` returns after exactly one response
if and only if the request does not set an unknown zone, no `ERR_ROBLIMIT` is raised outside the
check before a motion, and `ClearPath` does not fail. -/
theorem oneReply_iff {R : RapidSystem} {raw : Bytes} (hlen : 4 ≤ raw.length)
    {c c' : Controller} {res : Except Errno Unit} {tr : Calls}
    (hrun : (parseMessage R raw raw.length).Exec rapidSem.traced Between (c, []) res (c', tr)) :
    OneReply res tr ↔ ¬ UnknownZone raw ∧ Undisturbed R tr :=
  (ends_parseMessage hlen c).exec hrun

/-! #### Runs on the bench -/

/-- The middleware's request for a command without operands. -/
def plainRequest (command : RapidCommandType) : Bytes :=
  ({ RapidRequest.zero with commandId := command.toUInt8 } : RapidRequest).image

/-- The run of `parse_message` on a robot at rest, where the primitives fail as `outcome` says. -/
def benchRun (outcome : Primitive → Option Errno) (raw : Bytes) :
    Except Errno Unit × Controller × Calls :=
  (parseMessage .bench raw raw.length).play (rapidStep outcome) .bench

theorem exec_benchRun (outcome : Primitive → Option Errno) (raw : Bytes) :
    (parseMessage .bench raw raw.length).Exec rapidSem.traced Between (.bench, [])
      (benchRun outcome raw).1 ((benchRun outcome raw).2.1, (benchRun outcome raw).2.2) :=
  Prog.exec_play (rapidSem_rapidStep outcome) (fun s => ⟨.refl s.1, rfl⟩) _ _ []

/-- Motions hit the kinematic limit, and nothing else fails. -/
def limitOnMotion (p : Primitive) : Option Errno :=
  if p.moves then some RapidSystem.bench.errRobLimit else none

/-- `ZERO` with a motion that hits the kinematic limit is answered twice. -/
theorem oneReply_fails :
    ¬ ∀ (R : RapidSystem) (raw : Bytes), raw.length = 188 →
      ∀ (c c' : Controller) (res : Except Errno Unit) (tr : Calls),
        (parseMessage R raw raw.length).Exec rapidSem.traced Between (c, []) res (c', tr) →
          OneReply res tr := by
  intro h
  have hone := (h .bench (plainRequest .zero) (RapidRequest.length_image _) .bench _ _ _
    (exec_benchRun limitOnMotion (plainRequest .zero))).1
  have htwo : replies (benchRun limitOnMotion (plainRequest .zero)).2.2 = 2 := by decide +kernel
  omega

/-- `PINGR` on a robot where nothing fails is answered once. -/
theorem oneReply_iff_pingR :
    OneReply (benchRun (fun _ => none) (plainRequest .pingR)).1
        (benchRun (fun _ => none) (plainRequest .pingR)).2.2 ↔
      ¬ UnknownZone (plainRequest .pingR) ∧
        Undisturbed .bench (benchRun (fun _ => none) (plainRequest .pingR)).2.2 :=
  oneReply_iff (by rw [plainRequest, RapidRequest.length_image]; omega)
    (exec_benchRun (fun _ => none) (plainRequest .pingR))

end Rapid

end RobertMiddleware

import RobertMiddleware.Rapid.Workspace

/-!
# Safe motions

Five commands send the robot to Cartesian targets: the client's, or the current position displaced
by the client's offset, and for `MoveC` two of them. This file follows them through `ExecuteAction`
and `parse_message`, and shows that the workspace check stands before the right points: a request
moves the robot to checked targets only, or the client is refused.

## Main definitions

* `TargetPoint` — the target points of a request
* `Safe` — the motions are safe
* `Refused` — no motion, and a refusal

## Main results

* `emits_performAction` — every command moves safely or refuses
* `emits_executeAction`, `emits_parseMessage` — and so do the routines around it
* `motion_safe` — workspace safety of Cartesian motion
-/

namespace RobertMiddleware

namespace Rapid

open Effects

/-! ### Every command -/

/-- The motions are safe, and the position was reported if it was asked for. -/
structure Safe (R : RapidSystem) (cmd : String) (first second : Option RobTarget) (tr : Calls) :
    Prop where
  motion : SafeMotion (Point R cmd first second tr) tr
  located : ¬ Raised .cRobT tr

/-- No motion and a refusal, or an error of `ClearPath` in the `ERROR` clause, which `CTime` or
`CRobT` led to. -/
structure Refused (tr : Calls) : Prop where
  still : Still tr
  nack : Nack tr ∨ Raised .clearPath tr ∧ (Raised .cTime tr ∨ Raised .cRobT tr)

/-- Every error leaves the routine. -/
def Escapes {α : Type} (p : Routine α) : Prop :=
  p.Emits fun res es => ∀ q, Raised q es → ∃ e, res = .error e

section Commands

variable {α β : Type} {R : RapidSystem} {cmd : String} {first second : Option RobTarget}
  {tr tr' : Calls} {q : Primitive}

theorem Unlocated.not_raised (h : Unlocated tr) : ¬ Raised .cRobT tr :=
  fun ⟨_, hmem⟩ => h _ hmem rfl

theorem Escapes.bind {p : Routine α} {f : α → Routine β} (hp : Escapes p)
    (hf : ∀ a, Escapes (f a)) : Escapes (p.bind f) := by
  refine Prog.emits_bind.mpr (hp.mono ?_)
  rintro (e | a) es hes
  · exact fun q _ => ⟨e, rfl⟩
  · refine (hf a).mono fun res es' hes' q hraised => ?_
    rcases occurs_append.mp hraised with hraised | hraised
    · obtain ⟨e, he⟩ := hes q hraised
      contradiction
    · exact hes' q hraised

theorem escapes_attempt (p : Primitive) : Escapes (attempt p) := fun r =>
  match r with
  | .ok _ => fun _ ⟨_, he⟩ => by cases List.mem_singleton.mp he
  | .error e => fun _ _ => ⟨e, rfl⟩

theorem escapes_handleGetState : Escapes handleGetState :=
  (escapes_attempt .cRobT).bind fun _ => (escapes_attempt .cJointT).bind fun _ =>
    (escapes_attempt .cSpeedOverride).bind fun _ => (escapes_attempt .cTime).bind fun _ =>
    (escapes_attempt .cDate).bind fun _ => fun _ _ _ _ ⟨_, he⟩ => by simp at he

theorem Safe.of_silent (htr : Silent tr) (hP : ∀ t, ¬ Point R cmd first second tr t) :
    Safe R cmd first second tr where
  motion := .of_no_point (fun _ hev => htr.still.targets hev) hP
  located := htr.unlocated.not_raised

/-- What a command may leave: safe motions, or a robot that did not move and either a refusal or
the error of `CRobT`. -/
def Outcome (R : RapidSystem) (args : ActionArgs) (res : Except Errno Unit) (tr : Calls) : Prop :=
  Safe R args.actionCmd args.targetCoords args.circularExtraTarget tr ∨
    Still tr ∧ (res = .ok () ∧ Nack tr ∨ Raised .cRobT tr ∧ ∃ e, res = .error e)

/-- A command without points, which may still move the joints. -/
theorem emits_no_point {args : ActionArgs} {p : Routine Unit}
    (hp : p.Calls (RapidOp.MovesTo fun _ => False)) (hargs : ∀ es t, ¬ args.Point R es t) :
    p.Emits (Outcome R args) := by
  refine hp.emits.mono fun _ es hes => .inl ⟨.of_no_point (fun ev hev => ?_) (hargs es), ?_⟩
  · exact List.eq_nil_iff_forall_not_mem.mpr (hes ev hev).2
  · exact Unlocated.not_raised fun ev hev => (hes ev hev).1

theorem SafeMotion.congr {P P' : RobTarget → Prop} (h : SafeMotion P tr) (hP : ∀ t, P t ↔ P' t) :
    SafeMotion P' tr := by
  obtain rfl : P = P' := funext fun t => propext (hP t)
  exact h

/-- A guarded motion to the points that the calls `tr` before it determine. -/
theorem emits_checkedMove {args : ActionArgs} {P : RobTarget → Prop} {check : Routine Bool}
    {move : Routine Unit} (ack : String) (htr : Still tr) (hlocated : ¬ Raised .cRobT tr)
    (hP : ∀ t, args.Point R tr t ↔ P t)
    (hcheck : Checks P check) (hmove : move.Calls (RapidOp.MovesTo P)) :
    (guardedMove check move ack).Emits fun res es => Outcome R args res (tr ++ es) := by
  refine (emits_guardedMove ack hcheck hmove).mono ?_
  rintro res es ⟨hes, hsafe | ⟨rfl, hstill, hnack⟩⟩
  · refine .inl ⟨(hsafe.append_left htr).congr fun t => ?_, fun hraised => ?_⟩
    · rw [← hP, hes.point_append]
    · exact (occurs_append.mp hraised).elim hlocated hes.not_raised
  · exact .inr ⟨still_append.mpr ⟨htr, hstill⟩, .inl ⟨rfl, hnack.append_left tr⟩⟩

/-- A guarded motion to points that the request determines. -/
theorem emits_directMove {args : ActionArgs} {P : RobTarget → Prop} {check : Routine Bool}
    {move : Routine Unit} (ack : String) (hP : ∀ t, args.Point R [] t ↔ P t)
    (hcheck : Checks P check) (hmove : move.Calls (RapidOp.MovesTo P)) :
    (guardedMove check move ack).Emits (Outcome R args) :=
  emits_checkedMove ack silent_nil.still silent_nil.unlocated.not_raised hP hcheck hmove

/-- A motion to the displaced position. -/
theorem emits_offsetMove {args : ActionArgs} {d : RobTarget}
    {move : RobTarget → Routine Unit} (ack : String)
    (hcmd : args.actionCmd = "MoveLOffs" ∨ args.actionCmd = "MoveJOffs")
    (hd : args.targetCoords = some d)
    (hmove : ∀ t, (move t).Calls (RapidOp.MovesTo (· = t))) :
    ((offsetTarget R d).bind fun temp =>
      guardedMove (isSafeTarget (some temp) none) (move temp) ack).Emits (Outcome R args) := by
  intro r
  cases r with
  | error e =>
    exact .inr ⟨fun ev hev => by rw [List.mem_singleton.mp hev]; rfl,
      .inr ⟨⟨e, List.mem_singleton_self _⟩, e, rfl⟩⟩
  | ok current =>
    have hstill : Still [(⟨.primitive .cRobT, Except.ok current⟩ : Event RapidCalls)] :=
      fun ev hev => by rw [List.mem_singleton.mp hev]; rfl
    have hlocated : ¬ Raised .cRobT [⟨.primitive .cRobT, Except.ok current⟩] :=
      fun ⟨_, he⟩ => by cases List.mem_singleton.mp he
    refine emits_checkedMove ack hstill hlocated (fun t => ?_)
      (checks_isSafeTarget (R.offs current d.trans.x d.trans.y d.trans.z)) (hmove _)
    rw [ActionArgs.Point, hd, point_offset hcmd]
    simp [reported]

theorem emits_refusal {args : ActionArgs} (text : String) :
    (sendResponse ("NACK|" ++ text)).Emits (Outcome R args) := by
  intro _
  exact .inr ⟨(silent_response _).still, .inl ⟨rfl, nack_singleton text⟩⟩

theorem calls_moveAbsJ {Q : RobTarget → Prop} (j : JointTarget) :
    (moveAbsJ j).Calls (RapidOp.MovesTo Q) :=
  (calls_perform idle_moveSpeed.movesTo).bind fun _ =>
    (calls_perform idle_moveZone.movesTo).bind fun _ =>
    calls_attempt ⟨by simp, fun _ hu => absurd hu List.not_mem_nil⟩

theorem calls_guardedMoveAbsJ {Q : RobTarget → Prop} (j : JointTarget) :
    (guardedMove (isSafeTarget none (some j)) (moveAbsJ j) "ACK|MoveAbsJ").Calls
      (RapidOp.MovesTo Q) := by
  have hcheck : (isSafeTarget none (some j)).Calls (RapidOp.MovesTo Q) :=
    Prog.Calls.tryCatch ((calls_attempt (RapidOp.Idle.movesTo ⟨rfl, by simp⟩)).bind fun _ =>
      trivial) fun _ => trivial
  refine hcheck.bind fun safe => ?_
  split
  · exact (calls_moveAbsJ j).bind fun _ => calls_perform (idle_sendResponse _).movesTo
  · exact calls_perform (idle_sendResponse _).movesTo

theorem calls_setSpeed (speed : ℕ) : (setSpeed speed).Calls RapidOp.Idle := by
  have hrange : (speedOutOfRange speed).Calls RapidOp.Idle := by
    rw [speedOutOfRange]
    split
    · trivial
    · exact (calls_attempt ⟨rfl, by simp⟩).bind fun _ => trivial
  refine hrange.bind fun outOfRange => ?_
  split
  · exact (calls_attempt ⟨rfl, by simp⟩).bind fun _ => calls_perform (idle_sendResponse _)
  · exact (calls_perform ⟨rfl, by simp⟩).bind fun _ => calls_perform (idle_sendResponse _)

/-- The status command moves nothing, and an error of `CRobT` leaves it. -/
theorem emits_status {args : ActionArgs} (hcmd : args.actionCmd = "GETSTATUS") :
    handleGetState.Emits (Outcome R args) := by
  have hstill : handleGetState.Calls fun op => RapidOp.moves op = false :=
    (calls_attempt (by rfl)).bind fun _ => (calls_attempt (by rfl)).bind fun _ =>
      (calls_attempt (by rfl)).bind fun _ => (calls_attempt (by rfl)).bind fun _ =>
      (calls_attempt (by rfl)).bind fun _ => (calls_perform (by rfl)).bind fun _ =>
      (calls_perform (by rfl)).bind fun _ => calls_perform (by rfl)
  refine (hstill.emits.and escapes_handleGetState).mono ?_
  rintro res es ⟨hes, hescapes⟩
  by_cases hraised : Raised .cRobT es
  · exact .inr ⟨hes, .inr ⟨hraised, hescapes _ hraised⟩⟩
  · have hes' : Still es := hes
    refine .inl ⟨.of_no_point (fun _ hev => hes'.targets hev) fun t => not_point ?_, hraised⟩
    rw [hcmd]
    decide

/-- **The commands.** Every command moves safely or refuses. -/
theorem emits_performAction {args : ActionArgs} :
    (performAction R args).Emits (Outcome R args) := by
  fun_cases performAction R args
  case case3 hcmd t ht =>
    refine emits_directMove "ACK|MoveL" (fun u => ?_) (checks_isSafeTarget t) (calls_moveL t)
    rw [ActionArgs.Point, ht, point_direct (.inl hcmd)]
  case case5 hcmd t ht =>
    refine emits_directMove "ACK|MoveJ" (fun u => ?_) (checks_isSafeTarget t) (calls_moveJ t)
    rw [ActionArgs.Point, ht, point_direct (.inr hcmd)]
  case case7 hcmd j _ =>
    refine emits_no_point (calls_guardedMoveAbsJ j) fun es t => not_point ?_
    rw [hcmd]
    decide
  case case9 hcmd t t2 ht2 ht =>
    refine emits_directMove "ACK|MoveC" (fun u => ?_) (checks_areSafeTargets t t2)
      (calls_moveC t t2)
    rw [ActionArgs.Point, hcmd, ht, ht2, point_circular]
  case case11 hcmd speed _ =>
    refine emits_no_point ((calls_setSpeed speed).mono fun _ => RapidOp.Idle.movesTo)
      fun es t => not_point ?_
    rw [hcmd]
    decide
  case case13 hcmd zone _ =>
    refine emits_no_point ?_ fun es t => not_point ?_
    · exact (calls_perform (RapidOp.Idle.movesTo ⟨rfl, by simp⟩)).bind fun _ =>
        calls_perform (idle_sendResponse _).movesTo
    · rw [hcmd]
      decide
  case case14 hcmd _ =>
    refine emits_no_point trivial fun es t => not_point ?_
    rw [hcmd]
    decide
  case case15 hcmd =>
    refine emits_no_point ?_ fun es t => not_point ?_
    · exact (calls_moveAbsJ zeroTarget).bind fun _ => calls_perform (idle_sendResponse _).movesTo
    · rw [hcmd]
      decide
  case case16 hcmd => exact emits_status hcmd
  case case17 hcmd t ht => exact emits_offsetMove "ACK|MOVE_L_OFFS" (.inl hcmd) ht calls_moveL
  case case19 hcmd t ht => exact emits_offsetMove "ACK|MOVE_J_OFFS" (.inr hcmd) ht calls_moveJ
  case case2 hcmd =>
    refine emits_no_point (calls_perform (idle_sendResponse _).movesTo) fun es t => not_point ?_
    rw [hcmd]
    decide
  case case1 =>
    exact emits_refusal "This ping should be answered at the middleware level, not here!"
  case case12 => exact emits_refusal "MISSING_SPEED"
  case case21 => exact emits_refusal "UNKNOWN_COMMAND"
  case case4 | case6 | case8 | case10 | case18 | case20 => exact emits_refusal "MISSING_COORDS"

/-- The `ERROR` clause moves nothing and answers, unless `ClearPath` fails. -/
theorem emits_actionError (errno : Errno) :
    (actionError R errno).Emits fun _ es => Silent es ∧ (Nack es ∨ Raised .clearPath es) := by
  have hresponse : (errorResponse errno).Emits fun _ es =>
      Silent es ∧ (Nack es ∨ Raised .clearPath es) := by
    intro r
    cases r with
    | error e => exact ⟨silent_nil.cons ⟨rfl, by simp⟩, .inr ⟨e, List.mem_singleton_self _⟩⟩
    | ok _ =>
      intro _
      refine ⟨(silent_response _).cons ⟨rfl, by simp⟩, .inl ?_⟩
      have hnack := nack_singleton ("ERROR ON EXECUTION: " ++ toString errno)
      rw [← String.append_assoc] at hnack
      exact hnack.append_left [⟨.primitive .clearPath, Except.ok ()⟩]
  refine Prog.emits_bind.mpr ?_
  rw [limitResponse]
  split
  · have hnack := nack_singleton "ERROR ON EXECUTION: Kinematic limit reached."
    exact fun _ => hresponse.mono fun _ es hes =>
      (⟨(silent_response _).append hes.1, .inl (hnack.append_right es)⟩ :
        Silent ([_] ++ es) ∧ (Nack ([_] ++ es) ∨ Raised .clearPath ([_] ++ es)))
  · exact hresponse

theorem Safe.append_silent (h : Safe R cmd first second tr) (htr' : Silent tr') :
    Safe R cmd first second (tr ++ tr') where
  motion := (h.motion.append_right htr'.still).congr fun _ => htr'.unlocated.point_append.symm
  located hraised := (occurs_append.mp hraised).elim h.located htr'.unlocated.not_raised

theorem Safe.silent_append (h : Safe R cmd first second tr) (htr' : Silent tr') :
    Safe R cmd first second (tr' ++ tr) where
  motion := (h.motion.append_left htr'.still).congr fun _ => htr'.unlocated.point_append_left.symm
  located hraised := (occurs_append.mp hraised).elim htr'.unlocated.not_raised h.located

/-- The answer of the `ERROR` clause to an error of `CTime` or `CRobT`. -/
theorem Refused.of_error (htr : Still tr) (hraised : Raised .cTime tr ∨ Raised .cRobT tr)
    (htr' : Silent tr') (hanswer : Nack tr' ∨ Raised .clearPath tr') : Refused (tr ++ tr') where
  still := still_append.mpr ⟨htr, htr'.still⟩
  nack := by
    rcases hanswer with hnack | hclear
    · exact .inl (hnack.append_left tr)
    · exact .inr ⟨hclear.append_left tr,
        hraised.imp (·.append_right tr') (·.append_right tr')⟩

/-- `ExecuteAction` moves safely or refuses. -/
theorem emits_executeAction {args : ActionArgs} :
    (executeAction R args).Emits fun _ es =>
      Safe R args.actionCmd args.targetCoords args.circularExtraTarget es ∨ Refused es := by
  refine Prog.emits_tryCatch.mpr ?_
  intro r
  have htime : Silent [(⟨.primitive .cTime, r⟩ : Event RapidCalls)] :=
    silent_nil.cons ⟨rfl, by simp⟩
  cases r with
  | error e =>
    have hraised : Raised .cTime [⟨.primitive .cTime, Except.error e⟩] :=
      ⟨e, List.mem_singleton_self _⟩
    exact (emits_actionError e).mono fun _ es hes =>
      .inr (.of_error htime.still (.inl hraised) hes.1 hes.2)
  | ok time =>
    refine emits_performAction.mono ?_
    rintro res es (hsafe | ⟨hstill, ⟨rfl, hnack⟩ | ⟨hraised, e, rfl⟩⟩)
    · have hsafe := hsafe.silent_append htime
      cases res with
      | ok _ => exact .inl hsafe
      | error e =>
        exact (emits_actionError e).mono fun _ es' hes' => .inl (hsafe.append_silent hes'.1)
    · exact .inr ⟨still_append.mpr ⟨htime.still, hstill⟩, .inl (hnack.append_left [_])⟩
    · have hstill := still_append.mpr ⟨htime.still, hstill⟩
      exact (emits_actionError e).mono fun _ es' hes' =>
        .inr (.of_error hstill (.inr (hraised.append_left [_])) hes'.1 hes'.2)

end Commands

/-! ### `parse_message` -/

/-- The target points of a request, in a run that makes the calls `tr`. -/
def TargetPoint (R : RapidSystem) (raw : Bytes) (tr : Calls) (t : RobTarget) : Prop :=
  4 ≤ raw.length ∧ Point R (commandToString (unpackUsint raw 1)) (some (parsedTarget raw))
    (some (parsedTarget2 raw)) tr t

section Requests

variable {R : RapidSystem}

theorem Safe.of_point {cmd : String} {first second first' second' : Option RobTarget} {tr : Calls}
    (h : Safe R cmd first second tr)
    (hpoint : ∀ t, Point R cmd first second tr t ↔ Point R cmd first' second' tr t) :
    Safe R cmd first' second' tr :=
  ⟨h.motion.congr hpoint, h.located⟩

/-- `parse_message` moves safely or refuses. -/
theorem emits_parseMessage {raw : Bytes} (hlen : 4 ≤ raw.length) :
    (parseMessage R raw raw.length).Emits fun _ es =>
      Safe R (commandToString (unpackUsint raw 1)) (some (parsedTarget raw))
        (some (parsedTarget2 raw)) es ∨ Refused es := by
  rw [parseMessage, parseMessageWith, if_neg (by omega)]
  generalize commandToString (unpackUsint raw 1) = cmd
  have hother : ∀ args : ActionArgs, args.actionCmd = cmd →
      cmd ∉ ["MoveL", "MoveJ", "MoveC", "MoveLOffs", "MoveJOffs"] →
      (executeAction R args).Emits fun _ es =>
        Safe R cmd (some (parsedTarget raw)) (some (parsedTarget2 raw)) es ∨ Refused es := by
    rintro args rfl hcmd
    exact emits_executeAction.mono fun _ es hes => hes.imp_left fun hsafe =>
      hsafe.of_point fun t => iff_of_false (not_point hcmd) (not_point hcmd)
  dsimp only
  split
  · rename_i hcmd
    exact hother _ rfl (by rw [hcmd]; decide)
  split
  · rename_i hcmd
    have hnone : cmd ∉ ["MoveL", "MoveJ", "MoveC", "MoveLOffs", "MoveJOffs"] := by
      rw [hcmd]
      decide
    cases valueToZone R.errFncNoRet (unpackUsint raw 2) with
    | ok zone => exact hother _ rfl hnone
    | error e => exact .inl (.of_silent silent_nil fun t => not_point hnone)
  split
  · rename_i hcmd
    exact hother _ rfl (by rw [hcmd]; decide)
  split
  · rename_i hcmd
    refine hother _ rfl fun hmem => ?_
    simp only [List.mem_cons, List.not_mem_nil, or_false] at hmem
    rcases hmem with rfl | rfl | rfl | rfl | rfl <;> exact absurd hcmd (by decide)
  split
  · rename_i hcmd
    have hcircular : cmd ≠ "MoveC" := by rcases hcmd with rfl | rfl | rfl | rfl <;> decide
    exact emits_executeAction.mono fun _ es hes => hes.imp_left fun hsafe =>
      hsafe.of_point fun t => point_second hcircular
  split
  · exact emits_executeAction
  · rename_i hdirect hcircular
    refine hother _ rfl fun hmem => ?_
    simp only [List.mem_cons, List.not_mem_nil, or_false] at hmem
    tauto

/-- **Workspace safety.** For every request, every state of the controller and every answer of the
system: a Cartesian motion goes to target points of the request, and each of them is inside the box
and was given joints by `CalcJointT` before the motion. When this fails for one target point, or
the position to displace is not available, the robot is not moved and the client is refused;
only an error of `ClearPath` in the `ERROR` clause can suppress the refusal. -/
theorem motion_safe {raw : Bytes} {c c' : Controller} {res : Except Errno Unit} {tr : Calls}
    (hrun : (parseMessage R raw raw.length).Exec rapidSem.traced Between (c, []) res (c', tr))
    (hnum : ∀ t, TargetPoint R raw tr t → Numeric t) :
    (∀ pre ev post, tr = pre ++ ev :: post → ∀ t ∈ RapidOp.targets ev.1,
      TargetPoint R raw tr t ∧ InBox t ∧ Checked t pre) ∧
    ((∃ t, TargetPoint R raw tr t ∧ ¬ (InBox t ∧ Checked t tr)) ∨ Raised .cRobT tr →
      Refused tr) := by
  by_cases hlen : 4 ≤ raw.length
  · obtain ⟨es, hes, hor⟩ := (emits_parseMessage hlen).exec (fun _ _ henv => henv.2) hrun
    obtain rfl : tr = es := hes
    rcases hor with hsafe | hrefused
    · refine ⟨fun pre ev post htr t ht => ?_, ?_⟩
      · obtain ⟨hpoint, hinside, hchecked⟩ := hsafe.motion.checked htr ht
        have htarget : TargetPoint R raw tr t := ⟨hlen, hpoint⟩
        exact ⟨htarget, isInWorkspace_inBox (hnum t htarget) hinside, hchecked⟩
      · rintro (⟨t, htarget, hfail⟩ | hraised)
        · obtain ⟨hinside, hchecked⟩ := hsafe.motion.point htarget.2
          exact absurd ⟨isInWorkspace_inBox (hnum t htarget) hinside, hchecked⟩ hfail
        · exact absurd hraised hsafe.located
    · refine ⟨fun pre ev post htr t ht => ?_, fun _ => hrefused⟩
      have hmem : ev ∈ tr := htr ▸ List.mem_append_right _ List.mem_cons_self
      rw [hrefused.still.targets hmem] at ht
      exact absurd ht List.not_mem_nil
  · -- a request that is too short is dropped
    rw [parseMessage, parseMessageWith, if_pos (by omega)] at hrun
    obtain ⟨-, hnil⟩ := Prog.exec_pure_iff.mp hrun
    obtain rfl : tr = [] := (Prod.mk.inj hnil).2
    refine ⟨fun pre ev post htr => by simp at htr, ?_⟩
    rintro (⟨t, htarget, -⟩ | ⟨e, he⟩)
    · exact absurd htarget.1 hlen
    · exact absurd he List.not_mem_nil

end Requests

/-! #### A run on the bench -/

/-- The request to move straight to the point `(450, 0, 500)`, which is inside the box. -/
def insideRequest : Bytes :=
  ({ RapidRequest.zero with
      commandId := RapidCommandType.moveL.toUInt8
      target := { RapidRobTarget.zero with
        position := ⟨(Single.ofNat 450).bits, 0, (Single.ofNat 500).bits⟩ } } :
    RapidRequest).image

/-- The target point of the request is a number. -/
theorem insideRequest_numeric {R : RapidSystem} {tr : Calls} {t : RobTarget}
    (h : TargetPoint R insideRequest tr t) : Numeric t := by
  have hcmd : commandToString (unpackUsint insideRequest 1) = "MoveL" := by decide +kernel
  have hpoint := h.2
  rw [hcmd, point_direct (.inl rfl)] at hpoint
  subst hpoint
  exact ⟨by decide +kernel, by decide +kernel, by decide +kernel⟩

/-- The run issues a motion to the point, so the point is inside the box. -/
theorem motion_safe_inside :
    (∃ ev ∈ (benchRun (fun _ => none) insideRequest).2.2,
      parsedTarget insideRequest ∈ RapidOp.targets ev.1) ∧ InBox (parsedTarget insideRequest) := by
  have hany : (benchRun (fun _ => none) insideRequest).2.2.any
      (fun ev => parsedTarget insideRequest ∈ RapidOp.targets ev.1) = true := by decide +kernel
  obtain ⟨ev, hev, htarget⟩ := List.any_eq_true.mp hany
  rw [decide_eq_true_eq] at htarget
  obtain ⟨pre, post, hsplit⟩ := List.append_of_mem hev
  have hsafe := (motion_safe (exec_benchRun (fun _ => none) insideRequest)
    fun _ => insideRequest_numeric).1
  exact ⟨⟨ev, hev, htarget⟩, (hsafe pre ev post hsplit _ htarget).2.1⟩

end Rapid

end RobertMiddleware

import RobertMiddleware.Rapid.Responses
import RobertMiddleware.Rapid.Workspace

/-!
# What an answer says

The client learns of a command by its answer. In `ExecuteAction` the acknowledgement is the last
call of a command, behind the motion or the assignment, and what has an effect is the last call that
may fail. So an acknowledgement means that the command was carried out, once, and a refusal that it
was not: no motion came to its end and no variable was written. A motion may have raised its error
on the way.

This holds of every request and however the calls are answered, for a client that stays connected:
a send does not fail.

## Main definitions

* `effects` — the motions that came to their end, and the assignments
* `Motion`, `Asked` — what an action asks for
* `Verdict` — carried out and acknowledged, or refused

## Main results

* `emits_performAction_verdict`, `emits_executeAction_verdict` — every action comes to a verdict
* `emits_parseMessage_verdict` — and so does every request
* `RapidServer.CountOk.judged` — every answered request comes to a verdict, while its run goes on
-/

namespace RobertMiddleware

namespace Rapid

open Effects

/-! ### Effects -/

/-- The call has ended a motion or written a variable. -/
def effect? : Event RapidCalls → Option RapidOp
  | ⟨.primitive p, r⟩ =>
    match (r : Except Errno p.Answer) with
    | .ok _ => if p.moves then some (.primitive p) else none
    | .error _ => none
  | ⟨.setMoveSpeed v, _⟩ => some (.setMoveSpeed v)
  | ⟨.setMoveZone zone, _⟩ => some (.setMoveZone zone)
  | _ => none

/-- The motions that came to their end, and the assignments. -/
def effects (tr : Calls) : List RapidOp := tr.filterMap effect?

@[simp] theorem effects_nil : effects [] = [] := rfl

@[simp] theorem effects_append (tr tr' : Calls) :
    effects (tr ++ tr') = effects tr ++ effects tr' := List.filterMap_append

@[simp] theorem responsesOf_nil : responsesOf [] = [] := rfl

@[simp] theorem responsesOf_append (tr tr' : Calls) :
    responsesOf (tr ++ tr') = responsesOf tr ++ responsesOf tr' := List.filterMap_append

/-- The call neither answers nor has an effect. -/
def RapidOp.Passive : RapidOp → Prop
  | .primitive p => p.moves = false
  | .moveSpeed | .moveZone => True
  | .sendResponse _ | .sendBinaryResponse _ | .setMoveSpeed _ | .setMoveZone _ => False

/-- No answer so far, and no effect. -/
structure Untouched (tr : Calls) : Prop where
  effects : effects tr = []
  responses : responsesOf tr = []

theorem untouched_nil : Untouched [] := ⟨rfl, rfl⟩

theorem Untouched.append {tr tr' : Calls} (h : Untouched tr) (h' : Untouched tr') :
    Untouched (tr ++ tr') :=
  ⟨by rw [effects_append, h.effects, h'.effects]; rfl,
    by rw [responsesOf_append, h.responses, h'.responses]; rfl⟩

theorem effect?_of_passive {ev : Event RapidCalls} (h : RapidOp.Passive ev.1) :
    effect? ev = none ∧ sentBytes ev = none := by
  obtain ⟨op, r⟩ := ev
  cases op with
  | primitive p =>
    refine ⟨?_, rfl⟩
    cases r with
    | ok a => exact if_neg (by rw [show p.moves = false from h]; decide)
    | error e => rfl
  | moveSpeed | moveZone => exact ⟨rfl, rfl⟩
  | _ => exact h.elim

theorem untouched_of_passive {tr : Calls} (h : ∀ ev ∈ tr, RapidOp.Passive ev.1) : Untouched tr :=
  ⟨List.filterMap_eq_nil_iff.mpr fun ev hev => (effect?_of_passive (h ev hev)).1,
    List.filterMap_eq_nil_iff.mpr fun ev hev => (effect?_of_passive (h ev hev)).2⟩

theorem emits_passive {α : Type} {p : Routine α} (h : p.Calls RapidOp.Passive) :
    p.Emits fun _ es => Untouched es := h.emits.mono fun _ _ => untouched_of_passive

/-! ### What an action asks for -/

/-- The motion of an action, up to the speed and the zone; the calls before it have reported the
position that the client's offset is added to. -/
inductive Motion (R : RapidSystem) (args : ActionArgs) (tr : Calls) :
    (Single → Zone → Primitive) → Prop
  | moveL (t : RobTarget) (hcmd : args.actionCmd = "MoveL") (ht : args.targetCoords = some t) :
      Motion R args tr (.moveL t)
  | moveJ (t : RobTarget) (hcmd : args.actionCmd = "MoveJ") (ht : args.targetCoords = some t) :
      Motion R args tr (.moveJ t)
  | moveAbsJ (j : JointTarget) (hcmd : args.actionCmd = "MoveAbsJ")
      (hj : args.jointTarget = some j) : Motion R args tr (.moveAbsJ j)
  | moveC (t t2 : RobTarget) (hcmd : args.actionCmd = "MoveC") (ht : args.targetCoords = some t)
      (ht2 : args.circularExtraTarget = some t2) : Motion R args tr (.moveC t2 t)
  | moveLOffs (d current : RobTarget) (hcmd : args.actionCmd = "MoveLOffs")
      (hd : args.targetCoords = some d) (hcurrent : ∃ ev ∈ tr, reported ev = some current) :
      Motion R args tr (.moveL (R.offs current d.trans.x d.trans.y d.trans.z))
  | moveJOffs (d current : RobTarget) (hcmd : args.actionCmd = "MoveJOffs")
      (hd : args.targetCoords = some d) (hcurrent : ∃ ev ∈ tr, reported ev = some current) :
      Motion R args tr (.moveJ (R.offs current d.trans.x d.trans.y d.trans.z))
  | zero (hcmd : args.actionCmd = "ZERO") : Motion R args tr (.moveAbsJ zeroTarget)

/-- The effects that an action asks for. A motion uses the speed and the zone that were read. -/
inductive Asked (R : RapidSystem) (args : ActionArgs) (tr : Calls) : List RapidOp → Prop
  | motion (p : Single → Zone → Primitive) (v : Single) (z : Zone)
      (hmotion : Motion R args tr p) (hspeed : ⟨.moveSpeed, v⟩ ∈ tr) (hzone : ⟨.moveZone, z⟩ ∈ tr) :
      Asked R args tr [.primitive (p v z)]
  | speed (speed : ℕ) (hcmd : args.actionCmd = "SetSpeed") (hspeed : args.speed = some speed) :
      Asked R args tr [.setMoveSpeed (Single.ofNat speed)]
  | zone (zone : Zone) (hcmd : args.actionCmd = "SetZone") (hzone : args.zone = some zone) :
      Asked R args tr [.setMoveZone zone]
  | nothing (hcmd : args.actionCmd = "PINGR" ∨ args.actionCmd = "GETSTATUS") : Asked R args tr []

/-- An acknowledgement, or the status. -/
inductive Positive : Bytes → Prop
  | ack (text : String) : Positive (ascii ("ACK|" ++ text))
  | status (c : Controller) : Positive (telemetryBuffer c)

/-- The action was carried out, and acknowledged with the last call. -/
inductive Done (R : RapidSystem) (args : ActionArgs) (tr : Calls) : Prop
  | intro (pre : Calls) (ev : Event RapidCalls) (bytes : Bytes) (htr : tr = pre ++ [ev])
      (hresponses : responsesOf pre = []) (hev : sentBytes ev = some bytes)
      (hpositive : Positive bytes) (hasked : Asked R args pre (effects tr))

/-- Nothing was done, and the answers are refusals. -/
structure Refusal (tr : Calls) : Prop where
  effects : effects tr = []
  nack : ∀ bytes ∈ responsesOf tr, ascii "NACK|" <+: bytes

/-- Carried out and acknowledged, or refused. -/
def Verdict (R : RapidSystem) (args : ActionArgs) (tr : Calls) : Prop := Done R args tr ∨ Refusal tr

/-- `parse_message` passes these arguments on. -/
def Passes (R : RapidSystem) (raw : Bytes) (args : ActionArgs) : Prop :=
  ∀ execute, parseMessageWith R execute raw raw.length = execute args

section Actions

variable {R : RapidSystem} {args : ActionArgs} {tr tr' : Calls} {p : Single → Zone → Primitive}

theorem Motion.mono (h : Motion R args tr p) (htr : tr ⊆ tr') : Motion R args tr' p := by
  have hreported : ∀ {current}, (∃ ev ∈ tr, reported ev = some current) →
      ∃ ev ∈ tr', reported ev = some current := fun ⟨ev, hev, heq⟩ => ⟨ev, htr hev, heq⟩
  cases h with
  | moveL t hcmd ht => exact .moveL t hcmd ht
  | moveJ t hcmd ht => exact .moveJ t hcmd ht
  | moveAbsJ j hcmd hj => exact .moveAbsJ j hcmd hj
  | moveC t t2 hcmd ht ht2 => exact .moveC t t2 hcmd ht ht2
  | moveLOffs d current hcmd hd hcurrent => exact .moveLOffs d current hcmd hd (hreported hcurrent)
  | moveJOffs d current hcmd hd hcurrent => exact .moveJOffs d current hcmd hd (hreported hcurrent)
  | zero hcmd => exact .zero hcmd

theorem Asked.mono {ops : List RapidOp} (h : Asked R args tr ops) (htr : tr ⊆ tr') :
    Asked R args tr' ops := by
  cases h with
  | motion p v z hmotion hspeed hzone =>
    exact .motion p v z (hmotion.mono htr) (htr hspeed) (htr hzone)
  | speed speed hcmd hspeed => exact .speed speed hcmd hspeed
  | zone zone hcmd hzone => exact .zone zone hcmd hzone
  | nothing hcmd => exact .nothing hcmd

theorem Untouched.refusal (h : Untouched tr) : Refusal tr :=
  ⟨h.effects, by rw [h.responses]; exact nofun⟩

theorem Refusal.append (h : Refusal tr) (h' : Refusal tr') : Refusal (tr ++ tr') where
  effects := by
    rw [effects_append, h.effects, h'.effects]
    rfl
  nack := by
    rw [responsesOf_append]
    exact List.forall_mem_append.mpr ⟨h.nack, h'.nack⟩

/-- Calls without effect come first. -/
theorem Verdict.prepend (h : Verdict R args tr') (htr : Untouched tr) :
    Verdict R args (tr ++ tr') := by
  have heffects : effects (tr ++ tr') = effects tr' := by
    rw [effects_append, htr.effects, List.nil_append]
  rcases h with ⟨pre, ev, bytes, rfl, hresponses, hev, hpositive, hasked⟩ | hrefusal
  · refine .inl ⟨tr ++ pre, ev, bytes, (List.append_assoc ..).symm, ?_, hev, hpositive, ?_⟩
    · rw [responsesOf_append, htr.responses, hresponses]
      rfl
    · rw [heffects]
      exact hasked.mono (List.subset_append_right tr pre)
  · exact .inr (htr.refusal.append hrefusal)

/-- What may come of an action before the `ERROR` clause. -/
def Comes (R : RapidSystem) (args : ActionArgs) (res : Except Errno Unit) (tr : Calls) : Prop :=
  match res with
  | .ok () => Verdict R args tr
  | .error _ => Untouched tr

theorem ascii_append (s s' : String) : ascii (s ++ s') = ascii s ++ ascii s' := by
  simp [ascii, String.toList_append]

theorem Comes.prepend {res : Except Errno Unit} (h : Comes R args res tr') (htr : Untouched tr) :
    Comes R args res (tr ++ tr') := by
  cases res with
  | ok a => exact Verdict.prepend h htr
  | error e => exact htr.append h

/-- What comes after calls without effect. -/
theorem emits_bind_passive {α : Type} {p : Routine α} {f : α → Routine Unit}
    (hp : p.Calls RapidOp.Passive) (hf : ∀ a, (f a).Emits (Comes R args)) :
    (p.bind f).Emits (Comes R args) := by
  refine Prog.emits_bind.mpr ((emits_passive hp).mono ?_)
  rintro (e | a) es hes
  · exact hes
  · exact (hf a).mono fun res es' hes' => hes'.prepend hes

theorem refusal_response (text : String) :
    Refusal [(⟨.sendResponse ("NACK|" ++ text), ()⟩ : Event RapidCalls)] := by
  refine ⟨rfl, fun bytes hbytes => ?_⟩
  obtain rfl : bytes = ascii ("NACK|" ++ text) := List.mem_singleton.mp hbytes
  exact ⟨ascii text, (ascii_append ..).symm⟩

theorem emits_refuse (text : String) : (sendResponse ("NACK|" ++ text)).Emits (Comes R args) :=
  fun _ => .inr (refusal_response text)

/-- An acknowledgement after the effects that the action asks for. -/
theorem emits_ack (hresponses : responsesOf tr = []) (hasked : Asked R args tr (effects tr))
    (text : String) :
    (sendResponse ("ACK|" ++ text)).Emits fun res es => Comes R args res (tr ++ es) := by
  intro r
  refine .inl ⟨tr, _, _, rfl, hresponses, rfl, .ack text, ?_⟩
  rw [effects_append, show effects [⟨.sendResponse ("ACK|" ++ text), r⟩] = [] from rfl,
    List.append_nil]
  exact hasked

/-! ### Motions -/

/-- The routine reads the speed and the zone and makes the motion `p`. -/
def Moves (p : Single → Zone → Primitive) (move : Routine Unit) : Prop :=
  move.Emits fun res es => responsesOf es = [] ∧ match res with
    | .ok () => ∃ v z, effects es = [.primitive (p v z)] ∧ ⟨.moveSpeed, v⟩ ∈ es ∧
        ⟨.moveZone, z⟩ ∈ es
    | .error _ => effects es = []

/-- The four motion instructions. -/
theorem moves_of_moves (hp : ∀ v z, (p v z).moves = true)
    {k : ∀ v z, Except Errno (p v z).Answer → Routine Unit}
    (hok : ∀ v z a, k v z (.ok a) = .pure ()) (herror : ∀ v z e, k v z (.error e) = .throw e) :
    Moves p (.call (S := RapidCalls) .moveSpeed fun v => .call (S := RapidCalls) .moveZone fun z =>
      .call (S := RapidCalls) (.primitive (p v z)) (k v z)) := by
  intro v z r
  cases r with
  | ok a =>
    have hend : effect? ⟨.primitive (p v z), Except.ok a⟩ = some (.primitive (p v z)) :=
      if_pos (hp v z)
    rw [hok]
    refine ⟨rfl, v, z, ?_, by simp, by simp⟩
    rw [effects, List.filterMap_cons_none rfl, List.filterMap_cons_none rfl,
      List.filterMap_cons_some hend]
    rfl
  | error e =>
    rw [herror]
    exact ⟨rfl, rfl⟩

theorem moves_moveL (t : RobTarget) : Moves (.moveL t) (moveL t) :=
  moves_of_moves (fun _ _ => rfl) (fun _ _ _ => rfl) fun _ _ _ => rfl

theorem moves_moveJ (t : RobTarget) : Moves (.moveJ t) (moveJ t) :=
  moves_of_moves (fun _ _ => rfl) (fun _ _ _ => rfl) fun _ _ _ => rfl

theorem moves_moveAbsJ (j : JointTarget) : Moves (.moveAbsJ j) (moveAbsJ j) :=
  moves_of_moves (fun _ _ => rfl) (fun _ _ _ => rfl) fun _ _ _ => rfl

theorem moves_moveC (t2 t : RobTarget) : Moves (.moveC t2 t) (moveC t2 t) :=
  moves_of_moves (fun _ _ => rfl) (fun _ _ _ => rfl) fun _ _ _ => rfl

/-- Move, and acknowledge. -/
theorem emits_move {move : Routine Unit} (hmove : Moves p move) (hmotion : Motion R args tr p)
    (htr : Untouched tr) (text : String) :
    (move.bind fun _ => sendResponse ("ACK|" ++ text)).Emits fun res es =>
      Comes R args res (tr ++ es) := by
  refine Prog.emits_bind.mpr (hmove.mono ?_)
  rintro (e | a) es ⟨hresponses, hes⟩
  · exact htr.append ⟨hes, hresponses⟩
  · obtain ⟨v, z, heffects, hspeed, hzone⟩ := hes
    have hsilent : responsesOf (tr ++ es) = [] := by
      rw [responsesOf_append, htr.responses, hresponses]
      rfl
    have hasked : Asked R args (tr ++ es) (effects (tr ++ es)) := by
      rw [effects_append, htr.effects, heffects]
      exact .motion p v z (hmotion.mono (List.subset_append_left tr es))
        (List.mem_append_right _ hspeed) (List.mem_append_right _ hzone)
    exact (emits_ack hsilent hasked text).mono fun res es' hes' => by rwa [← List.append_assoc]

/-- Check, move and acknowledge, or refuse. -/
theorem emits_guardedMove_verdict {check : Routine Bool} {move : Routine Unit}
    (hcheck : check.Calls RapidOp.Passive) (hmove : Moves p move) (hmotion : Motion R args tr p)
    (htr : Untouched tr) (text : String) :
    (guardedMove check move ("ACK|" ++ text)).Emits fun res es =>
      Comes R args res (tr ++ es) := by
  refine Prog.emits_bind.mpr ((emits_passive hcheck).mono ?_)
  rintro (e | safe) es hes
  · exact htr.append hes
  cases safe with
  | true =>
    exact (emits_move hmove (hmotion.mono (List.subset_append_left tr es)) (htr.append hes)
      text).mono fun res es' hes' => by rwa [← List.append_assoc]
  | false =>
    exact (emits_refuse "SINGULARITY_OR_LIMIT").mono
      fun res es' hes' => (hes'.prepend hes).prepend htr

theorem passive_isSafeTarget (rtarget : Option RobTarget) (jtarget : Option JointTarget) :
    (isSafeTarget rtarget jtarget).Calls RapidOp.Passive := by
  have hjoint : (hasRobTarget jtarget).Calls RapidOp.Passive := by
    cases jtarget with
    | none => trivial
    | some j => exact (calls_attempt (by rfl)).bind fun _ => trivial
  refine Prog.Calls.tryCatch ?_ fun _ => trivial
  cases rtarget with
  | none => exact hjoint
  | some t =>
    dsimp only
    split
    · trivial
    · exact (calls_attempt (by rfl)).bind fun _ => hjoint

theorem passive_areSafeTargets (t t2 : RobTarget) :
    (areSafeTargets t t2).Calls RapidOp.Passive := by
  refine (passive_isSafeTarget _ _).bind fun safe => ?_
  split
  · exact passive_isSafeTarget _ _
  · trivial

theorem passive_speedOutOfRange (speed : ℕ) : (speedOutOfRange speed).Calls RapidOp.Passive := by
  rw [speedOutOfRange]
  split
  · trivial
  · exact (calls_attempt (by rfl)).bind fun _ => trivial

/-- A motion to the displaced position. -/
theorem emits_offsetMove_verdict {d : RobTarget} {move : RobTarget → Routine Unit}
    {p : RobTarget → Single → Zone → Primitive} (hmove : ∀ t, Moves (p t) (move t))
    (hmotion : ∀ tr current, (∃ ev ∈ tr, reported ev = some current) →
      Motion R args tr (p (R.offs current d.trans.x d.trans.y d.trans.z))) (text : String) :
    ((offsetTarget R d).bind fun temp =>
      guardedMove (isSafeTarget (some temp) none) (move temp) ("ACK|" ++ text)).Emits
        (Comes R args) := by
  intro r
  have hlocate : Untouched [(⟨.primitive .cRobT, r⟩ : Event RapidCalls)] :=
    untouched_of_passive fun ev hev => by rw [List.mem_singleton.mp hev]; rfl
  cases r with
  | error e => exact hlocate
  | ok current =>
    exact emits_guardedMove_verdict (passive_isSafeTarget _ _) (hmove _)
      (hmotion _ _ ⟨_, List.mem_singleton_self _, rfl⟩) hlocate text

/-! ### Every action -/

/-- Write a variable, and acknowledge. -/
theorem emits_assign {op : RapidOp} (heffect : ∀ r, effect? ⟨op, r⟩ = some op)
    (hsilent : ∀ r, sentBytes ⟨op, r⟩ = none) (hasked : Asked R args [] [op]) (text : String) :
    ((Prog.perform (S := RapidCalls) op).bind fun _ => sendResponse ("ACK|" ++ text)).Emits
      (Comes R args) := by
  intro r
  have hwritten : effects [⟨op, r⟩] = [op] := List.filterMap_cons_some (heffect r)
  have hquiet : responsesOf [⟨op, r⟩] = [] := List.filterMap_cons_none (hsilent r)
  exact emits_ack hquiet (hwritten ▸ hasked.mono (List.nil_subset _)) text

theorem emits_setSpeed {speed : ℕ} (hcmd : args.actionCmd = "SetSpeed")
    (hspeed : args.speed = some speed) : (setSpeed speed).Emits (Comes R args) := by
  refine emits_bind_passive (passive_speedOutOfRange speed) fun outOfRange => ?_
  split
  · exact emits_bind_passive (calls_attempt (by rfl)) fun _ => emits_refuse "SPEED_OUT_OF_RANGE"
  · exact emits_assign (fun _ => rfl) (fun _ => rfl) (.speed speed hcmd hspeed) "SetSpeed"

theorem emits_handleGetState (hcmd : args.actionCmd = "GETSTATUS") :
    handleGetState.Emits (Comes R args) := by
  refine emits_bind_passive (calls_attempt (by rfl)) fun _ =>
    emits_bind_passive (calls_attempt (by rfl)) fun _ =>
    emits_bind_passive (calls_attempt (by rfl)) fun _ =>
    emits_bind_passive (calls_attempt (by rfl)) fun _ =>
    emits_bind_passive (calls_attempt (by rfl)) fun _ =>
    emits_bind_passive (calls_perform (by trivial)) fun _ =>
    emits_bind_passive (calls_perform (by trivial)) fun _ => ?_
  intro r
  exact .inl ⟨[], _, _, rfl, rfl, rfl, .status _, .nothing (.inr hcmd)⟩

/-- **The commands.** Every command is carried out and acknowledged, or refused, or raises its
error with nothing done. -/
theorem emits_performAction_verdict : (performAction R args).Emits (Comes R args) := by
  fun_cases performAction R args
  case case3 hcmd t ht =>
    exact emits_guardedMove_verdict (passive_isSafeTarget _ _) (moves_moveL t)
      (.moveL t hcmd ht) untouched_nil "MoveL"
  case case5 hcmd t ht =>
    exact emits_guardedMove_verdict (passive_isSafeTarget _ _) (moves_moveJ t)
      (.moveJ t hcmd ht) untouched_nil "MoveJ"
  case case7 hcmd j hj =>
    exact emits_guardedMove_verdict (passive_isSafeTarget _ _) (moves_moveAbsJ j)
      (.moveAbsJ j hcmd hj) untouched_nil "MoveAbsJ"
  case case9 hcmd t t2 ht2 ht =>
    exact emits_guardedMove_verdict (passive_areSafeTargets t t2) (moves_moveC t2 t)
      (.moveC t t2 hcmd ht ht2) untouched_nil "MoveC"
  case case11 hcmd speed hspeed => exact emits_setSpeed hcmd hspeed
  case case13 hcmd zone hzone =>
    exact emits_assign (fun _ => rfl) (fun _ => rfl) (.zone zone hcmd hzone) "SetZone"
  case case14 => exact untouched_nil
  case case15 hcmd => exact emits_move (moves_moveAbsJ zeroTarget) (.zero hcmd) untouched_nil "ZERO"
  case case16 hcmd => exact emits_handleGetState hcmd
  case case17 hcmd d hd =>
    exact emits_offsetMove_verdict moves_moveL
      (fun _ current hcurrent => .moveLOffs d current hcmd hd hcurrent) "MOVE_L_OFFS"
  case case19 hcmd d hd =>
    exact emits_offsetMove_verdict moves_moveJ
      (fun _ current hcurrent => .moveJOffs d current hcmd hd hcurrent) "MOVE_J_OFFS"
  case case2 hcmd =>
    have hnothing : Asked R args [] (effects []) := .nothing (.inl hcmd)
    exact emits_ack rfl hnothing "PONGRUWU"
  case case1 =>
    exact emits_refuse "This ping should be answered at the middleware level, not here!"
  case case12 => exact emits_refuse "MISSING_SPEED"
  case case21 => exact emits_refuse "UNKNOWN_COMMAND"
  case case4 | case6 | case8 | case10 | case18 | case20 => exact emits_refuse "MISSING_COORDS"

/-- The `ERROR` clause has no effect, and its answers are refusals. -/
theorem emits_actionError_verdict (errno : Errno) :
    (actionError R errno).Emits fun _ es => Refusal es := by
  have hresponse : (errorResponse errno).Emits fun _ es => Refusal es := by
    intro r
    cases r with
    | error e => exact ⟨rfl, nofun⟩
    | ok _ =>
      intro _
      have hrefusal := refusal_response ("ERROR ON EXECUTION: " ++ toString errno)
      rw [← String.append_assoc] at hrefusal
      have hclear : Refusal [⟨.primitive .clearPath, Except.ok ()⟩] := ⟨rfl, nofun⟩
      exact hclear.append hrefusal
  refine Prog.emits_bind.mpr ?_
  rw [limitResponse]
  split
  · exact fun _ => hresponse.mono fun _ es hes =>
      (refusal_response "ERROR ON EXECUTION: Kinematic limit reached.").append hes
  · exact hresponse

/-- `ExecuteAction` comes to a verdict. -/
theorem emits_executeAction_verdict :
    (executeAction R args).Emits fun _ es => Verdict R args es := by
  refine Prog.emits_tryCatch.mpr ?_
  refine (emits_bind_passive (calls_attempt (by rfl))
    fun _ => @emits_performAction_verdict R args).mono ?_
  rintro (e | a) es hes
  · exact (emits_actionError_verdict e).mono fun _ es' hes' => .inr (hes.refusal.append hes')
  · exact hes

/-! ### Every request -/

variable {raw : Bytes}

/-- `parse_message` calls `ExecuteAction`, or raises the error of `value_to_zone`. -/
theorem passes_or_throws (hlen : 4 ≤ raw.length) : (∃ args, Passes R raw args) ∨
    ∃ e, ∀ execute, parseMessageWith R execute raw raw.length = .throw e := by
  unfold Passes parseMessageWith
  dsimp only
  split_ifs
  · omega
  · exact .inl ⟨_, fun _ => rfl⟩
  · -- the zone is read before `ExecuteAction` is called
    cases hzone : valueToZone R.errFncNoRet (unpackUsint raw 2) with
    | ok zone => exact .inl ⟨_, fun _ => rfl⟩
    | error e => exact .inr ⟨e, fun _ => rfl⟩
  all_goals exact .inl ⟨_, fun _ => rfl⟩

/-- What a run of `parse_message` has done. -/
def Judged (R : RapidSystem) (raw : Bytes) (tr : Calls) : Prop :=
  (∃ args, Passes R raw args ∧ Done R args tr) ∨ Refusal tr

/-- **Every request comes to a verdict.** One that is too short is dropped. -/
theorem emits_parseMessage_verdict :
    (parseMessage R raw raw.length).Emits fun _ es => Judged R raw es := by
  by_cases hlen : 4 ≤ raw.length
  · rcases passes_or_throws hlen with ⟨args, hpasses⟩ | ⟨e, hthrows⟩
    · rw [parseMessage, hpasses]
      exact emits_executeAction_verdict.mono fun _ es hes => hes.imp_left fun hdone =>
        ⟨args, hpasses, hdone⟩
    · rw [parseMessage, hthrows]
      exact .inr untouched_nil.refusal
  · rw [parseMessage, parseMessageWith, if_pos (by omega)]
    exact .inr untouched_nil.refusal

theorem RapidServer.Ran.judged {res : Except Errno Unit} (h : RapidServer.Ran R raw res tr) :
    Judged R raw tr := by
  obtain ⟨c, c', hrun⟩ := h
  obtain ⟨es, heq, hes⟩ := emits_parseMessage_verdict.exec (fun _ _ henv => henv.2) hrun
  obtain rfl : tr = es := heq
  exact hes

/-- The answer is the last call that matters. -/
theorem Judged.of_append {value : Bytes} (h : Judged R raw (tr ++ tr'))
    (hone : responsesOf tr = [value]) : Judged R raw tr := by
  rcases h with ⟨args, hpasses, pre, ev, bytes, htr, hresponses, hev, hpositive, hasked⟩ | hrefusal
  · rcases List.eq_nil_or_concat tr' with rfl | ⟨front, last, rfl⟩
    · rw [List.append_nil] at htr hasked
      exact .inl ⟨args, hpasses, pre, ev, bytes, htr, hresponses, hev, hpositive, hasked⟩
    · -- the answer would be among the calls before the last one
      rw [List.concat_eq_append, ← List.append_assoc] at htr
      obtain ⟨rfl, -⟩ := List.append_inj' htr rfl
      rw [responsesOf_append, hone] at hresponses
      cases hresponses
  · refine .inr ⟨?_, fun bytes hbytes => hrefusal.nack bytes ?_⟩
    · have hnone := hrefusal.effects
      rw [effects_append] at hnone
      exact (List.append_eq_nil_iff.mp hnone).1
    · rw [responsesOf_append]
      exact List.mem_append_left _ hbytes

end Actions

namespace RapidServer

variable {R : RapidSystem} {errSockTimeout : Errno} {s : RapidServer}

/-- **Every answered request comes to a verdict**, also while its run is not over. -/
theorem CountOk.judged (hs : CountOk R errSockTimeout s) {x : Execution} (hx : x ∈ s.taken)
    {value : Bytes} (hone : responsesOf x.calls = [value]) : Judged R x.raw x.calls := by
  rcases List.mem_append.mp hx with hdone | hcurrent
  · obtain ⟨-, ⟨res, hran⟩, -⟩ := hs.executed_once hdone
    exact hran.judged
  · cases hpc : s.pc with
    | parsing conn raw calls rest =>
      rw [hpc] at hcurrent
      obtain rfl := List.mem_singleton.mp hcurrent
      obtain ⟨-, hrunning, -⟩ := hs.current hpc
      obtain ⟨res, ext, -, hran⟩ := hrunning.completes
      exact hran.judged.of_append hone
    | _ =>
      rw [hpc] at hcurrent
      cases hcurrent

end RapidServer

end Rapid

end RobertMiddleware

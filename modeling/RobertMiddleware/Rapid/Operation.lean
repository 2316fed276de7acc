import RobertMiddleware.Rapid.Telemetry

/-!
# Executing an action

`OperationModule.mod`: the checks before a motion, and `ExecuteAction`, which performs one command
and answers the client. The `ERROR` clause of `ExecuteAction` answers too, twice when the error is
`ERR_ROBLIMIT`: the branch that names the kinematic limit goes on to the general answer.
-/

namespace RobertMiddleware

namespace Rapid

open Effects

/-! ### Checks before a motion -/

/-- `IsInWorkspace`, with the corners of the workspace from `MainModule` and a margin of one. -/
def isInWorkspace (target : RobTarget) : Bool :=
  let margin : ℚ := 1
  if target.trans.x.leRat (400 + margin) || target.trans.x.gtRat (800 - margin) then false
  else if target.trans.y.leRat (-400 + margin) || target.trans.y.gtRat (400 - margin) then false
  else if target.trans.z.leRat (300 + margin) || target.trans.z.gtRat (800 - margin) then false
  else true

/-- The second half of `IsSafeTarget`: a joint target must have a Cartesian position. -/
def hasRobTarget : Option JointTarget → Routine Bool
  | some j => do
    let _ ← attempt (.calcRobT j)
    pure true
  | none => pure true

/-- `IsSafeTarget`. Its `ERROR` clause turns every error into an answer. -/
def isSafeTarget (rtarget : Option RobTarget) (jtarget : Option JointTarget) : Routine Bool :=
  Prog.tryCatch
    (match rtarget with
    | some t =>
      if !isInWorkspace t then pure false
      else do
        let _ ← attempt (.calcJointT t)
        hasRobTarget jtarget
    | none => hasRobTarget jtarget)
    fun _ => pure false

/-! ### Motions -/

/-- `MoveL` with the speed and the zone that are set. -/
def moveL (toPoint : RobTarget) : Routine Unit := do
  attempt (.moveL toPoint (← moveSpeed) (← moveZone))

def moveJ (toPoint : RobTarget) : Routine Unit := do
  attempt (.moveJ toPoint (← moveSpeed) (← moveZone))

def moveAbsJ (toPoint : JointTarget) : Routine Unit := do
  attempt (.moveAbsJ toPoint (← moveSpeed) (← moveZone))

def moveC (cirPoint toPoint : RobTarget) : Routine Unit := do
  attempt (.moveC cirPoint toPoint (← moveSpeed) (← moveZone))

/-- The branches under `IF Present(…)`: check, move and acknowledge, or refuse. -/
def guardedMove (check : Routine Bool) (move : Routine Unit) (ack : String) : Routine Unit := do
  if ← check then
    move
    sendResponse ack
  else
    sendResponse "NACK|SINGULARITY_OR_LIMIT"

/-- The current position displaced by the coordinates of `target`. -/
def offsetTarget (R : RapidSystem) (target : RobTarget) : Routine RobTarget := do
  let current ← attempt .cRobT
  pure (R.offs current target.trans.x target.trans.y target.trans.z)

/-- The condition of the case `"MoveC"`; the second target is checked after the first only. -/
def areSafeTargets (t t2 : RobTarget) : Routine Bool := do
  if ← isSafeTarget (some t) none then
    isSafeTarget (some t2) none
  else
    pure false

/-- The joint target `ZERO` of `MainModule`; its external axes are `9E+9`, not in use. -/
def zeroTarget : JointTarget :=
  let unused : Single := ⟨0x50061C46⟩
  ⟨⟨default, default, default, default, default, default⟩,
    ⟨unused, unused, unused, unused, unused, unused⟩⟩

/-! ### `ExecuteAction` -/

/-- The arguments of `ExecuteAction`. -/
structure ActionArgs where
  actionCmd : String
  targetCoords : Option RobTarget := none
  circularExtraTarget : Option RobTarget := none
  jointTarget : Option JointTarget := none
  speed : Option ℕ := none
  zone : Option Zone := none
deriving DecidableEq

/-- The condition of the case `"SetSpeed"`. -/
def speedOutOfRange (speed : ℕ) : Routine Bool :=
  if speed < 5 then pure true
  else do
    let limit ← attempt .maxRobSpeed
    pure (Single.ltRat limit speed)

/-- The case `"SetSpeed"`. The text for the operator evaluates `MaxRobSpeed` once more. -/
def setSpeed (speed : ℕ) : Routine Unit := do
  if ← speedOutOfRange speed then
    let _ ← attempt .maxRobSpeed
    sendResponse "NACK|SPEED_OUT_OF_RANGE"
  else
    setMoveSpeed (Single.ofNat speed)
    sendResponse "ACK|SetSpeed"

/-- The `TEST` of `ExecuteAction`. -/
def performAction (R : RapidSystem) (args : ActionArgs) : Routine Unit :=
  match args.actionCmd with
  | "PING" =>
    sendResponse "NACK|This ping should be answered at the middleware level, not here!"
  | "PINGR" => sendResponse "ACK|PONGRUWU"
  | "MoveL" =>
    match args.targetCoords with
    | some t => guardedMove (isSafeTarget (some t) none) (moveL t) "ACK|MoveL"
    | none => sendResponse "NACK|MISSING_COORDS"
  | "MoveJ" =>
    match args.targetCoords with
    | some t => guardedMove (isSafeTarget (some t) none) (moveJ t) "ACK|MoveJ"
    | none => sendResponse "NACK|MISSING_COORDS"
  | "MoveAbsJ" =>
    match args.jointTarget with
    | some j => guardedMove (isSafeTarget none (some j)) (moveAbsJ j) "ACK|MoveAbsJ"
    | none => sendResponse "NACK|MISSING_COORDS"
  | "MoveC" =>
    match args.targetCoords, args.circularExtraTarget with
    | some t, some t2 =>
      guardedMove (areSafeTargets t t2) (moveC t2 t) "ACK|MoveC"
    | _, _ => sendResponse "NACK|MISSING_COORDS"
  | "SetSpeed" =>
    match args.speed with
    | some speed => setSpeed speed
    | none => sendResponse "NACK|MISSING_SPEED"
  | "SetZone" =>
    match args.zone with
    | some zone => do
      setMoveZone zone
      sendResponse "ACK|SetZone"
    | none => .throw R.errNotPresent
  | "ZERO" => do
    moveAbsJ zeroTarget
    sendResponse "ACK|ZERO"
  | "GETSTATUS" => handleGetState
  | "MoveLOffs" =>
    match args.targetCoords with
    | some t => do
      let temp ← offsetTarget R t
      guardedMove (isSafeTarget (some temp) none) (moveL temp) "ACK|MOVE_L_OFFS"
    | none => sendResponse "NACK|MISSING_COORDS"
  | "MoveJOffs" =>
    match args.targetCoords with
    | some t => do
      let temp ← offsetTarget R t
      guardedMove (isSafeTarget (some temp) none) (moveJ temp) "ACK|MOVE_J_OFFS"
    | none => sendResponse "NACK|MISSING_COORDS"
  | _ => sendResponse "NACK|UNKNOWN_COMMAND"

/-- The branch of the `ERROR` clause that names the kinematic limit. It does not leave the
clause. -/
def limitResponse (R : RapidSystem) (errno : Errno) : Routine Unit :=
  if errno = R.errRobLimit then
    sendResponse "NACK|ERROR ON EXECUTION: Kinematic limit reached."
  else pure ()

/-- What the `ERROR` clause does for every error. -/
def errorResponse (errno : Errno) : Routine Unit := do
  attempt .clearPath
  sendResponse ("NACK|ERROR ON EXECUTION: " ++ toString errno)

/-- The `ERROR` clause of `ExecuteAction`. -/
def actionError (R : RapidSystem) (errno : Errno) : Routine Unit := do
  limitResponse R errno
  errorResponse errno

/-- `ExecuteAction`. Its first text for the operator evaluates `CTime`. -/
def executeAction (R : RapidSystem) (args : ActionArgs) : Routine Unit :=
  Prog.tryCatch
    (do
      let _ ← attempt .cTime
      performAction R args)
    (actionError R)

end Rapid

end RobertMiddleware

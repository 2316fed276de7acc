import RobertMiddleware.Rapid.Operation

/-!
# Reading a request

`ParsingModule.mod`: `parse_message` reads the fields of a request that its command needs and calls
`ExecuteAction` with them. Byte numbers count from one.

`parseMessageWith` takes the routine it calls as a parameter, so that what `parse_message` passes
on can be stated without looking into `ExecuteAction`.
-/

namespace RobertMiddleware

namespace Rapid

/-! ### Fields -/

/-- `parsed_target`. -/
def parsedTarget (raw : Bytes) : RobTarget where
  trans :=
    { x := unpackFloat4 raw 5
      y := unpackFloat4 raw 9
      z := unpackFloat4 raw 13 }
  rot :=
    { q1 := unpackFloat4 raw 17
      q2 := unpackFloat4 raw 21
      q3 := unpackFloat4 raw 25
      q4 := unpackFloat4 raw 29 }
  robconf :=
    { cf1 := unpackDint raw 33
      cf4 := unpackDint raw 37
      cf6 := unpackDint raw 41
      cfx := unpackUdint raw 45 }
  extax :=
    { eaxA := unpackFloat4 raw 49
      eaxB := unpackFloat4 raw 53
      eaxC := unpackFloat4 raw 57
      eaxD := unpackFloat4 raw 61
      eaxE := unpackFloat4 raw 65
      eaxF := unpackFloat4 raw 69 }

/-- `parsed_target2`. -/
def parsedTarget2 (raw : Bytes) : RobTarget where
  trans :=
    { x := unpackFloat4 raw 73
      y := unpackFloat4 raw 77
      z := unpackFloat4 raw 81 }
  rot :=
    { q1 := unpackFloat4 raw 85
      q2 := unpackFloat4 raw 89
      q3 := unpackFloat4 raw 93
      q4 := unpackFloat4 raw 97 }
  robconf :=
    { cf1 := unpackDint raw 101
      cf4 := unpackDint raw 105
      cf6 := unpackDint raw 109
      cfx := unpackUdint raw 113 }
  extax :=
    { eaxA := unpackFloat4 raw 117
      eaxB := unpackFloat4 raw 121
      eaxC := unpackFloat4 raw 125
      eaxD := unpackFloat4 raw 129
      eaxE := unpackFloat4 raw 133
      eaxF := unpackFloat4 raw 137 }

/-- `parsed_joint_target`. -/
def parsedJointTarget (raw : Bytes) : JointTarget where
  robax :=
    { rax1 := unpackFloat4 raw 141
      rax2 := unpackFloat4 raw 145
      rax3 := unpackFloat4 raw 149
      rax4 := unpackFloat4 raw 153
      rax5 := unpackFloat4 raw 157
      rax6 := unpackFloat4 raw 161 }
  extax :=
    { eaxA := unpackFloat4 raw 165
      eaxB := unpackFloat4 raw 169
      eaxC := unpackFloat4 raw 173
      eaxD := unpackFloat4 raw 177
      eaxE := unpackFloat4 raw 181
      eaxF := unpackFloat4 raw 185 }

/-! ### `parse_message` -/

/-- `is_move_command`. -/
def isMoveCommand (cmd : String) : Bool :=
  cmd = "MoveJ" || cmd = "MoveAbsJ" || cmd = "MoveC" || cmd = "MoveL" || cmd = "MoveLOffs" ||
    cmd = "MoveJOffs"

/-- `parse_message`, calling `execute` for `ExecuteAction`. A request of fewer than four bytes is
dropped. The error of `value_to_zone` is raised here, where there is no `ERROR` clause. -/
def parseMessageWith (R : RapidSystem) (execute : ActionArgs → Routine Unit) (raw : Bytes)
    (len : ℕ) : Routine Unit :=
  if len < 4 then pure ()
  else
    let commandStr := commandToString (unpackUsint raw 1)
    if commandStr = "GETSTATUS" then execute { actionCmd := commandStr }
    else if commandStr = "SetZone" then do
      let zone ← orRaise (valueToZone R.errFncNoRet (unpackUsint raw 2))
      execute { actionCmd := commandStr, zone := some zone }
    else if commandStr = "SetSpeed" then
      execute { actionCmd := commandStr, speed := some (unpackUint raw 3) }
    else if !isMoveCommand commandStr then execute { actionCmd := commandStr }
    else if commandStr = "MoveJ" ∨ commandStr = "MoveL" ∨ commandStr = "MoveLOffs" ∨
        commandStr = "MoveJOffs" then
      execute { actionCmd := commandStr, targetCoords := some (parsedTarget raw) }
    else if commandStr = "MoveC" then
      execute
        { actionCmd := commandStr
          targetCoords := some (parsedTarget raw)
          circularExtraTarget := some (parsedTarget2 raw) }
    else execute { actionCmd := commandStr, jointTarget := some (parsedJointTarget raw) }

/-- `parse_message`. -/
def parseMessage (R : RapidSystem) : Bytes → ℕ → Routine Unit :=
  parseMessageWith R (executeAction R)

end Rapid

end RobertMiddleware

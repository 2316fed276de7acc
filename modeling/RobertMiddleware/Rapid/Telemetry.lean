import RobertMiddleware.Rapid.Controller

/-!
# Telemetry

`TelemetryModule.mod`: `HandleGetState` packs the state of the controller into one buffer and
sends it.
-/

namespace RobertMiddleware

namespace Rapid

open ByteLayout

/-- The `PackRawBytes` instructions of `HandleGetState` in order: the byte, counted from one, where
each field starts, and its bytes. -/
def telemetryPacks (c : Controller) : List (ℕ × Bytes) :=
  [(1, packUsint 0),
   (2, packFloat4 c.speedOverride),
   (6, packFloat4 c.moveSpeed),
   (10, packFloat4 (Single.ofNat (zoneToValue c.moveZone))),
   (14, packFloat4 c.robTarget.trans.x),
   (18, packFloat4 c.robTarget.trans.y),
   (22, packFloat4 c.robTarget.trans.z),
   (26, packFloat4 c.robTarget.rot.q1),
   (30, packFloat4 c.robTarget.rot.q2),
   (34, packFloat4 c.robTarget.rot.q3),
   (38, packFloat4 c.robTarget.rot.q4),
   (42, packDint c.robTarget.robconf.cf1),
   (46, packDint c.robTarget.robconf.cf4),
   (50, packDint c.robTarget.robconf.cf6),
   (54, packDint c.robTarget.robconf.cfx),
   (58, packFloat4 c.robTarget.extax.eaxA),
   (62, packFloat4 c.robTarget.extax.eaxB),
   (66, packFloat4 c.robTarget.extax.eaxC),
   (70, packFloat4 c.robTarget.extax.eaxD),
   (74, packFloat4 c.robTarget.extax.eaxE),
   (78, packFloat4 c.robTarget.extax.eaxF),
   (82, packFloat4 c.jointTarget.robax.rax1),
   (86, packFloat4 c.jointTarget.robax.rax2),
   (90, packFloat4 c.jointTarget.robax.rax3),
   (94, packFloat4 c.jointTarget.robax.rax4),
   (98, packFloat4 c.jointTarget.robax.rax5),
   (102, packFloat4 c.jointTarget.robax.rax6),
   (106, packFloat4 c.jointTarget.extax.eaxA),
   (110, packFloat4 c.jointTarget.extax.eaxB),
   (114, packFloat4 c.jointTarget.extax.eaxC),
   (118, packFloat4 c.jointTarget.extax.eaxD),
   (122, packFloat4 c.jointTarget.extax.eaxE),
   (126, packFloat4 c.jointTarget.extax.eaxF),
   (130, c.time.toList),
   (162, c.date.toList)]

/-- The fields of the buffer, at offsets counted from zero. -/
def telemetryFields (c : Controller) : List (ℕ × Bytes) :=
  (telemetryPacks c).map fun pack => (pack.1 - 1, pack.2)

/-- The buffer: each `PackRawBytes` writes its field and extends the buffer to cover it. -/
def telemetryBuffer (c : Controller) : Bytes := writeAll (telemetryFields c) []

/-- `HandleGetState`. -/
def handleGetState : Routine Unit := do
  let currentTarget ← attempt .cRobT
  let currentJoints ← attempt .cJointT
  let speedOverride ← attempt .cSpeedOverride
  let robotTime ← attempt .cTime
  let robotDate ← attempt .cDate
  let vTcp ← moveSpeed
  let zone ← moveZone
  sendBinaryResponse (telemetryBuffer
    { moveSpeed := vTcp
      moveZone := zone
      speedOverride
      robTarget := currentTarget
      jointTarget := currentJoints
      time := robotTime
      date := robotDate })

end Rapid

end RobertMiddleware

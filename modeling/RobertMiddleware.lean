import RobertMiddleware.Internal.Effects
import RobertMiddleware.Internal.Transition
import RobertMiddleware.Internal.EraseLoop
import RobertMiddleware.Internal.Monitor
import RobertMiddleware.Internal.Condition
import RobertMiddleware.Internal.FramedStream
import RobertMiddleware.Internal.Progress
import RobertMiddleware.Core.Data
import RobertMiddleware.Core.ConfParser
import RobertMiddleware.Network.SockComm
import RobertMiddleware.Commands.Decoder
import RobertMiddleware.Commands.TelemetryReads
import RobertMiddleware.Robot.Robot
import RobertMiddleware.Robot.Promises
import RobertMiddleware.Robot.ReplyPairing
import RobertMiddleware.Robot.Sessions
import RobertMiddleware.Robot.Framing
import RobertMiddleware.Robot.Sockets
import RobertMiddleware.Robot.Limits
import RobertMiddleware.Server.Session
import RobertMiddleware.Server.Tasker
import RobertMiddleware.Server.RequestHandler
import RobertMiddleware.Server.Loop
import RobertMiddleware.Server.System
import RobertMiddleware.Server.Moves
import RobertMiddleware.Server.Interference
import RobertMiddleware.Server.SessionLaws
import RobertMiddleware.Server.LockOwnership
import RobertMiddleware.Server.WorkQueue
import RobertMiddleware.Server.ExclusiveControl
import RobertMiddleware.Server.StaleMotion
import RobertMiddleware.Server.Observation
import RobertMiddleware.Server.TaskPhases
import RobertMiddleware.Server.TaskCalls
import RobertMiddleware.Server.TaskLife
import RobertMiddleware.Server.TaskOrder
import RobertMiddleware.Server.TaskChange
import RobertMiddleware.Server.PollRecord
import RobertMiddleware.Server.PollReplies
import RobertMiddleware.Server.Polling
import RobertMiddleware.Server.Admission
import RobertMiddleware.Server.SessionStore
import RobertMiddleware.Server.Unauthenticated
import RobertMiddleware.Server.Activity
import RobertMiddleware.Server.Shutdown
import RobertMiddleware.Server.Restart
import RobertMiddleware.Server.FailedRequests
import RobertMiddleware.Server.TaskLaws
import RobertMiddleware.Server.TaskResponses
import RobertMiddleware.Server.TaskOutcomes
import RobertMiddleware.Server.Origins
import RobertMiddleware.Server.Progress
import RobertMiddleware.Server.Wakeup
import RobertMiddleware.Main
import RobertMiddleware.Rapid.Controller
import RobertMiddleware.Rapid.Telemetry
import RobertMiddleware.Rapid.Operation
import RobertMiddleware.Rapid.Parsing
import RobertMiddleware.Rapid.Replies
import RobertMiddleware.Rapid.MotionRequest
import RobertMiddleware.Rapid.TelemetryStatus
import RobertMiddleware.Rapid.Workspace
import RobertMiddleware.Rapid.SafeMotion
import RobertMiddleware.Rapid.MoveZone
import RobertMiddleware.Rapid.Zones
import RobertMiddleware.Rapid.SpeedRange
import RobertMiddleware.Rapid.Server
import RobertMiddleware.Rapid.Responses
import RobertMiddleware.Rapid.Verdict
import RobertMiddleware.Rapid.Settings
import RobertMiddleware.Rapid.Orders
import RobertMiddleware.Rapid.StatusReport
import RobertMiddleware.Cell.Cell
import RobertMiddleware.Cell.Delivery
import RobertMiddleware.Cell.Answers
import RobertMiddleware.Cell.Plant
import RobertMiddleware.Cell.InOrder
import RobertMiddleware.Cell.Orders
import RobertMiddleware.Cell.Told

import Haptics.AlwaysOn.Trial
import Haptics.Document.Rules
import Haptics.Player
import Haptics.Session
import Haptics.Proofs.Scheduler.Change
import Haptics.Proofs.Scheduler.Settled
import Haptics.Proofs.Scheduler.Operations
import Haptics.Proofs.Scheduler.Conservation
import Haptics.Proofs.Scheduler.Drive
import Haptics.Proofs.Scheduler.SafeBoundary
import Haptics.Proofs.Wire.Packet
import Haptics.Proofs.Document.Event
import Haptics.Proofs.Document.Strict
import Haptics.Proofs.Wire.Transmission
import Haptics.Proofs.Scheduler.Admission
import Haptics.Proofs.Document.Lenient
import Haptics.Proofs.Document.Estimate
import Haptics.Proofs.Scheduler.Packets
import Haptics.Proofs.Scheduler.Streams
import Haptics.Proofs.Scheduler.Delivery
import Haptics.Proofs.Scheduler.Relay
import Haptics.Proofs.Service.Affairs
import Haptics.Proofs.Service.Carriage
import Haptics.Proofs.Player.Order
import Haptics.Proofs.Wire.Records
import Haptics.Proofs.AlwaysOn.Calls
import Haptics.Proofs.Scheduler.Deadlines
import Haptics.Proofs.AlwaysOn.Convergence
import Haptics.Proofs.Actuator.Motor
import Haptics.Proofs.Waveform
import Haptics.Proofs.Scheduler.Precedence
import Haptics.Proofs.Scheduler.Words
import Haptics.Proofs.Scheduler.Load
import Haptics.Proofs.Scheduler.Drain
import Haptics.Proofs.Scheduler.Natural
import Haptics.Proofs.Scheduler.Hands
import Haptics.Proofs.Scheduler.Control
import Haptics.Proofs.Scheduler.Deaths
import Haptics.Proofs.Scheduler.Release
import Haptics.Proofs.Scheduler.Cancelling
import Haptics.Proofs.Scheduler.Entry
import Haptics.Proofs.Scheduler.Acknowledge
import Haptics.Proofs.Player.Whole
import Haptics.Proofs.Wire.Assembly
import Haptics.Proofs.Waveform.Unrolling
import Haptics.Proofs.AlwaysOn.Exactness
import Haptics.Proofs.Document.Compiled
import Haptics.Proofs.AlwaysOn.Retention
import Haptics.Proofs.Document.FirstFailure
import Haptics.Proofs.Player.Version
import Haptics.Proofs.Scheduler.Sessions
import Haptics.Proofs.Listeners
import Haptics.Proofs.Service.Listeners
import Haptics.Proofs.Actuator.Answers
import Haptics.Proofs.Scheduler.Report
import Haptics.Proofs.Scheduler.Cascade

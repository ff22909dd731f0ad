import Volley.Capture
import Volley.Corpus
import Volley.Main
import Volley.Proofs.Capture
import Volley.Proofs.CommandLine.ExitStatus
import Volley.Proofs.Frame.Acceptance
import Volley.Proofs.Frame.Appending
import Volley.Proofs.Frame.Resynchronisation
import Volley.Proofs.Frame.Sequence
import Volley.Proofs.Payload.Sizes
import Volley.Proofs.Pool.Counters
import Volley.Proofs.Pool.Handover
import Volley.Proofs.Pool.Independence
import Volley.Proofs.Pool.Peak
import Volley.Proofs.Random
import Volley.Proofs.Run.Accounting
import Volley.Proofs.Run.Alternating
import Volley.Proofs.Run.Datagrams
import Volley.Proofs.Run.Interruption
import Volley.Proofs.Run.Reconnecting
import Volley.Proofs.Run.Recording
import Volley.Proofs.Scenario.Clocks
import Volley.Proofs.Scenario.Grouping
import Volley.Proofs.Scenario.Increments
import Volley.Proofs.Scenario.Pulling
import Volley.Proofs.Scenario.Sweeping
import Volley.Proofs.Scenario.Volume
import Volley.Proofs.Settings.EventIds
import Volley.Proofs.Settings.Runnable
import Volley.Proofs.Sink.Delivery
import Volley.Proofs.Sink.Release
import Volley.Proofs.Stop
import Volley.Proofs.Supervisor.Backoff
import Volley.Proofs.Supervisor.Interruption
import Volley.Proofs.Supervisor.Lifecycle
import Volley.Proofs.Tally.Partition
import Volley.Sink.Lapsing
import Volley.Sink.Recorder
import Volley.Sink.Script
import Volley.Sink.Tripwire

import SerialLine.Loopback
import SerialLine.Script
import SerialLine.CInterface
import SerialLine.Proofs.Exchange
import SerialLine.Proofs.Session.Agreement
import SerialLine.Proofs.Session.History
import SerialLine.Proofs.Session.Gather
import SerialLine.Proofs.Session.Push
import SerialLine.Proofs.Session.Setters
import SerialLine.Proofs.Session.Input
import SerialLine.Proofs.Session.Output
import SerialLine.Proofs.Loopback.Wire
import SerialLine.Proofs.Loopback.Pipe
import SerialLine.Proofs.Registry.LifeCycle
import SerialLine.Proofs.CInterface.Status
import SerialLine.Proofs.Session.HostLine
import SerialLine.Proofs.Splitting
import SerialLine.Proofs.Loopback.Echo
import SerialLine.Proofs.Loopback.RoundTrip
import SerialLine.Proofs.Registry.Endings
import SerialLine.Proofs.CInterface.Deadline
import SerialLine.Proofs.CInterface.Isolation
import SerialLine.Proofs.Config.Reload
import SerialLine.Proofs.Session.Faults
import SerialLine.Proofs.Loopback.AtOnce
import SerialLine.Proofs.Session.NextFrame
import SerialLine.Proofs.Session.Retry
import SerialLine.Proofs.Session.Flushing
import SerialLine.Proofs.Session.Closing
import SerialLine.Proofs.CInterface.Closing
import SerialLine.Proofs.Session.Batches
import SerialLine.Proofs.Session.Staging
import SerialLine.Proofs.Loopback.Queues
import SerialLine.Proofs.Discovery.Listing
import SerialLine.Proofs.Discovery.Namesakes
import SerialLine.Proofs.Discovery.Resolving
import SerialLine.Proofs.Discovery.Sorting
import SerialLine.Proofs.Json.Grammar
import SerialLine.Proofs.Json.Skipping
import SerialLine.Proofs.Json.Members
import SerialLine.Proofs.Json.Whole
import SerialLine.Proofs.Json.Repeats
import SerialLine.Proofs.Json.Schema
import SerialLine.Proofs.Config.Overrides
import SerialLine.Proofs.Binary64.Rounding
import SerialLine.Proofs.Binary64.Shortest
import SerialLine.Proofs.Binary64.Nearest
import SerialLine.Proofs.Json.Decimals
import SerialLine.Proofs.Settings.Seconds
import SerialLine.Proofs.Config.Timeouts
import SerialLine.Proofs.Json.Results

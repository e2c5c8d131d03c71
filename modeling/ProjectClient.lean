import ProjectClient.ApiError
import ProjectClient.CommandLine.Machine
import ProjectClient.Decimal.Layout
import ProjectClient.Event
import ProjectClient.Failure
import ProjectClient.Files.Disk
import ProjectClient.Flow.System
import ProjectClient.Http.Resource
import ProjectClient.Http.Script
import ProjectClient.Json.Record
import ProjectClient.Json.Writer
import ProjectClient.Kernel.MemoryServer
import ProjectClient.Main
import ProjectClient.Screen.Terminal
import ProjectClient.Session.Basic
import ProjectClient.Session.Server
import ProjectClient.Session.Terminal
import ProjectClient.Text.Quoted
import ProjectClient.Url.Server
import ProjectClient.Wire
import ProjectClient.Proofs.Flow.Deed
import ProjectClient.Proofs.Flow.Past
import ProjectClient.Proofs.Flow.Order
import ProjectClient.Proofs.Flow.Snapshot
import ProjectClient.Proofs.Flow.Stale
import ProjectClient.Proofs.Flow.Progress
import ProjectClient.Proofs.Flow.Course
import ProjectClient.Proofs.Flow.Report
import ProjectClient.Proofs.Url.Path
import ProjectClient.Proofs.Url.Address
import ProjectClient.Proofs.Flow.Alone
import ProjectClient.Proofs.Flow.Schedule
import ProjectClient.Proofs.Kernel.Plain
import ProjectClient.Proofs.Kernel.Mirrors
import ProjectClient.Proofs.Kernel.Turns
import ProjectClient.Proofs.Session.Leads
import ProjectClient.Proofs.Session.Outcome
import ProjectClient.Proofs.Session.Affirmed
import ProjectClient.Proofs.Kernel.Client
import ProjectClient.Proofs.Kernel.Gate
import ProjectClient.Proofs.Kernel.Room
import ProjectClient.Proofs.Wire.Decode
import ProjectClient.Proofs.Kernel.Sides
import ProjectClient.Proofs.Settings.Server
import ProjectClient.Proofs.Wire.Encode
import ProjectClient.Proofs.Kernel.Acts
import ProjectClient.Proofs.Kernel.Pace
import ProjectClient.Proofs.Kernel.Errors
import ProjectClient.Proofs.Session.Causes
import ProjectClient.Proofs.Session.Armed
import ProjectClient.Proofs.Session.Draft
import ProjectClient.Proofs.Settings.Faults
import ProjectClient.Proofs.Settings.Atomic
import ProjectClient.Proofs.Timestamp.Utc
import ProjectClient.Proofs.Timestamp.Verbatim
import ProjectClient.Proofs.Url.Beneath
import ProjectClient.Proofs.Json.Unambiguous
import ProjectClient.Proofs.Json.Ordinals
import ProjectClient.Proofs.Wire.Ordinals
import ProjectClient.Proofs.State.History
import ProjectClient.Proofs.Kernel.Trail
import ProjectClient.Proofs.Kernel.Busy
import ProjectClient.Proofs.Screen.Table

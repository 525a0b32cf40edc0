import TimeIds.Base36.Numeral
import TimeIds.Calendar
import TimeIds.Clock.Manual
import TimeIds.Clock.System
import TimeIds.Alphanumeric.Generator
import TimeIds.Command.Run
import TimeIds.Config
import TimeIds.Disk.FileTree
import TimeIds.Document.Printer
import TimeIds.Document.Reader
import TimeIds.Main
import TimeIds.Node.Draws
import TimeIds.Registry
import TimeIds.Uuid.Generator
import TimeIds.Proofs.Alphanumeric.Acceptance
import TimeIds.Proofs.Alphanumeric.Batch
import TimeIds.Proofs.Alphanumeric.FirstBytes
import TimeIds.Proofs.Alphanumeric.Increasing
import TimeIds.Proofs.Alphanumeric.Order
import TimeIds.Proofs.Alphanumeric.Recovered
import TimeIds.Proofs.Alphanumeric.Unbounded
import TimeIds.Proofs.Base36.Acceptance
import TimeIds.Proofs.Base36.Inverse
import TimeIds.Proofs.Base36.Width
import TimeIds.Proofs.Calendar.Instants
import TimeIds.Proofs.Clock.Increasing
import TimeIds.Proofs.Command.Options
import TimeIds.Proofs.Document.FirstEntries
import TimeIds.Proofs.Node.Interleaved
import TimeIds.Proofs.Node.Order
import TimeIds.Proofs.Node.Text
import TimeIds.Proofs.Registry.AllOrNothing
import TimeIds.Proofs.Registry.Covered
import TimeIds.Proofs.Session.Nodes
import TimeIds.Proofs.Session.ReadOnly
import TimeIds.Proofs.Session.Schedule
import TimeIds.Proofs.Session.Deadline
import TimeIds.Proofs.Session.Environment
import TimeIds.Proofs.Store.History
import TimeIds.Proofs.Uuid.Crash
import TimeIds.Proofs.Uuid.Distinct
import TimeIds.Proofs.Uuid.Independent
import TimeIds.Proofs.Uuid.Parts
import TimeIds.Proofs.Uuid.Restart

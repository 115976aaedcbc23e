import ManagementUnit.Diagnostic
import ManagementUnit.Text.Basic
import ManagementUnit.Network.Basic
import ManagementUnit.Mailbox.Channel
import ManagementUnit.Mailbox.Arguments
import ManagementUnit.Time
import ManagementUnit.Text.Dump
import ManagementUnit.Platform
import ManagementUnit.Table.Scheme
import ManagementUnit.Table.Reader
import ManagementUnit.Session.Basic
import ManagementUnit.Simulation.Chip
import ManagementUnit.Simulation.World
import ManagementUnit.Simulation.Bench
import ManagementUnit.Simulation.Recorder
import ManagementUnit.Proofs.Mailbox.Course
import ManagementUnit.Proofs.Mailbox.Completion
import ManagementUnit.Proofs.Simulation.Trace
import ManagementUnit.Proofs.Simulation.Mailbox
import ManagementUnit.Proofs.Simulation.Abort
import ManagementUnit.Proofs.Table.Provenance
import ManagementUnit.Proofs.Mailbox.Timeout
import ManagementUnit.Proofs.Driver.Length
import ManagementUnit.Proofs.Table.Mappings
import ManagementUnit.Proofs.Table.Throttle
import ManagementUnit.Proofs.Session.Acceptance
import ManagementUnit.Proofs.Session.Course
import ManagementUnit.Proofs.Session.Reference
import ManagementUnit.Proofs.Session.Response
import ManagementUnit.Proofs.Session.Codes
import ManagementUnit.Proofs.Mailbox.Conversation
import ManagementUnit.Proofs.Table.Survey
import ManagementUnit.Proofs.Driver.Gates
import ManagementUnit.Proofs.Driver.Findings
import ManagementUnit.Proofs.Driver.Search
import ManagementUnit.Proofs.Driver.Format
import ManagementUnit.Proofs.Simulation.Standing
import ManagementUnit.Proofs.Simulation.Independence
import ManagementUnit.Proofs.Simulation.Words
import ManagementUnit.Proofs.Table.Closure
import ManagementUnit.Proofs.Simulation.Isolation
import ManagementUnit.Proofs.Simulation.Budget
import ManagementUnit.Proofs.Memory.Physical
import ManagementUnit.Proofs.Table.Resolution
import ManagementUnit.Proofs.Table.Delivery
import ManagementUnit.Proofs.Table.Retry
import ManagementUnit.Proofs.Mailbox.Version
import ManagementUnit.Proofs.Processor.Identity
import ManagementUnit.Proofs.Session.Output
import ManagementUnit.Proofs.Session.Arguments
import ManagementUnit.Proofs.Session.Version
import ManagementUnit.Proofs.Driver.Settings
import ManagementUnit.Proofs.Memory.Coherence
import ManagementUnit.Proofs.Simulation.Books
import ManagementUnit.Proofs.Simulation.Clock

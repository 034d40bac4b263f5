import SchemaHerald.CommandLine.Arguments
import SchemaHerald.CommandLine.Check
import SchemaHerald.CommandLine.Init
import SchemaHerald.CommandLine.Perform
import SchemaHerald.CommandLine.Publish
import SchemaHerald.CommandLine.Transcript
import SchemaHerald.Failure
import SchemaHerald.Files
import SchemaHerald.Files.Tree
import SchemaHerald.MemoryRegistry
import SchemaHerald.Proofs.AfterClose
import SchemaHerald.Proofs.AnyAnswers
import SchemaHerald.Proofs.BackendChecks
import SchemaHerald.Proofs.BatchAccounting
import SchemaHerald.Proofs.BatchLimit
import SchemaHerald.Proofs.BatchProgress
import SchemaHerald.Proofs.BatchRoster
import SchemaHerald.Proofs.BatchSessions
import SchemaHerald.Proofs.BatchTurns
import SchemaHerald.Proofs.Bookkeeping
import SchemaHerald.Proofs.CallsAndTurns
import SchemaHerald.Proofs.CheckedPublishes
import SchemaHerald.Proofs.CloseReports
import SchemaHerald.Proofs.CloseSessions
import SchemaHerald.Proofs.Commitments
import SchemaHerald.Proofs.CompleteTeardown
import SchemaHerald.Proofs.ConcurrentBatches
import SchemaHerald.Proofs.ConfiguredOptions
import SchemaHerald.Proofs.Departures
import SchemaHerald.Proofs.Exclusion
import SchemaHerald.Proofs.FailedCalls
import SchemaHerald.Proofs.InFlight
import SchemaHerald.Proofs.Kinship
import SchemaHerald.Proofs.LaterCloses
import SchemaHerald.Proofs.LayeredSettings
import SchemaHerald.Proofs.Lifecycle
import SchemaHerald.Proofs.ListenerEvents
import SchemaHerald.Proofs.LocalRuns
import SchemaHerald.Proofs.LonePublishes
import SchemaHerald.Proofs.MadeRegistrations
import SchemaHerald.Proofs.MemoryAgreement
import SchemaHerald.Proofs.MemoryBatches
import SchemaHerald.Proofs.MemoryMirror
import SchemaHerald.Proofs.MemoryRecords
import SchemaHerald.Proofs.Numerals
import SchemaHerald.Proofs.OpenHandles
import SchemaHerald.Proofs.OwnRuns
import SchemaHerald.Proofs.PermitRoster
import SchemaHerald.Proofs.PreparedJobs
import SchemaHerald.Proofs.PublishCommand
import SchemaHerald.Proofs.PublishCourse
import SchemaHerald.Proofs.Recoverability
import SchemaHerald.Proofs.RegistrarChanges
import SchemaHerald.Proofs.RegistrarClaims
import SchemaHerald.Proofs.Representation
import SchemaHerald.Proofs.Retries
import SchemaHerald.Proofs.RosterRuns
import SchemaHerald.Proofs.RoundTrips
import SchemaHerald.Proofs.SessionRuns
import SchemaHerald.Proofs.SettingsPrecedence
import SchemaHerald.Proofs.SettingsVersion
import SchemaHerald.Proofs.Substitution
import SchemaHerald.Proofs.TableEntries
import SchemaHerald.Proofs.TaskFrames
import SchemaHerald.Proofs.Teardowns
import SchemaHerald.Proofs.TrimmedNames
import SchemaHerald.Proofs.TrimmedRuns
import SchemaHerald.Proofs.Turns
import SchemaHerald.Proofs.TwinRuns
import SchemaHerald.Proofs.UndisturbedCloses
import SchemaHerald.Proofs.Verdicts
import SchemaHerald.Proofs.WrittenForms
import SchemaHerald.Publisher
import SchemaHerald.Publisher.Move
import SchemaHerald.Publisher.Task
import SchemaHerald.Registrar
import SchemaHerald.Registration
import SchemaHerald.Schema
import SchemaHerald.Session
import SchemaHerald.Session.Memory
import SchemaHerald.Session.Script
import SchemaHerald.Settings
import SchemaHerald.Settings.Check
import SchemaHerald.Settings.Document
import SchemaHerald.Settings.Form
import SchemaHerald.Settings.Layer
import SchemaHerald.Settings.Reference
import SchemaHerald.Table
import SchemaHerald.Text.Blank
import SchemaHerald.Text.Hidden
import SchemaHerald.Text.Numeral
import SchemaHerald.Text.Quoted
import SchemaHerald.Text.Raw
import SchemaHerald.Text.Uuid
import SchemaHerald.Value
import SchemaHerald.Yaml.Cursor
import SchemaHerald.Yaml.Event
import SchemaHerald.Yaml.Fault
import SchemaHerald.Yaml.Layout
import SchemaHerald.Yaml.Node
import SchemaHerald.Yaml.Plain
import SchemaHerald.Yaml.Token
import SchemaHerald.Yaml.Token.Scalar
import SchemaHerald.Yaml.Token.Scan
import SchemaHerald.Main

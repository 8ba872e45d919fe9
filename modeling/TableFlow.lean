import TableFlow.Text.Blank
import TableFlow.Table.Csv
import TableFlow.Script.Fault
import TableFlow.Script.LogicalLine
import TableFlow.Script.Reference
import TableFlow.Text.Lines
import TableFlow.Act
import TableFlow.Backend.Error
import TableFlow.Backend.Executor
import TableFlow.Bulk.Connection
import TableFlow.Bulk.Executor
import TableFlow.Bulk.Http
import TableFlow.Command.Arguments
import TableFlow.Command.Execute
import TableFlow.Command.Files
import TableFlow.Main
import TableFlow.Rehearsal.Engine
import TableFlow.Rehearsal.Service
import TableFlow.Proofs.Bulk.Gate
import TableFlow.Proofs.Bulk.Mutation
import TableFlow.Proofs.Bulk.QueryChunks
import TableFlow.Proofs.Bulk.SessionProtocol
import TableFlow.Proofs.Run.Loop
import TableFlow.Proofs.Script.Nesting
import TableFlow.Proofs.Script.TreeShape
import TableFlow.Proofs.Table.Reading
import TableFlow.Proofs.Table.RoundTrip
import TableFlow.Proofs.Run.Agenda
import TableFlow.Proofs.Json.TextList
import TableFlow.Proofs.Script.Names
import TableFlow.Proofs.Store.Files
import TableFlow.Proofs.Store.Places
import TableFlow.Proofs.Store.Tables
import TableFlow.Proofs.Run.Journal
import TableFlow.Proofs.Run.Course
import TableFlow.Proofs.Run.Expansion
import TableFlow.Proofs.Run.Dependencies
import TableFlow.Proofs.Run.Manifest
import TableFlow.Proofs.Run.Reuse
import TableFlow.Proofs.Run.Record
import TableFlow.Proofs.Run.Isolation
import TableFlow.Proofs.Script.Continuation
import TableFlow.Proofs.Store.Writes
import TableFlow.Proofs.Run.Failure
import TableFlow.Proofs.Run.Preflight
import TableFlow.Proofs.Run.FirstFailure
import TableFlow.Proofs.Script.Inference
import TableFlow.Proofs.Script.References
import TableFlow.Proofs.Script.ReadBack
import TableFlow.Proofs.Script.Comments
import TableFlow.Proofs.Scope.Template
import TableFlow.Proofs.Text.Names
import TableFlow.Proofs.Run.Confinement
import TableFlow.Proofs.Scope.Interpolation
import TableFlow.Proofs.Script.Grammar
import TableFlow.Proofs.Script.Marks
import TableFlow.Proofs.Script.Sources
import TableFlow.Proofs.Script.Stripping
import TableFlow.Proofs.Store.Durability
import TableFlow.Proofs.Run.Cleanup
import TableFlow.Proofs.Run.StandIn
import TableFlow.Proofs.Run.Shapes
import TableFlow.Proofs.Table.FileText
import TableFlow.Proofs.Table.Refusals
import TableFlow.Proofs.Text.Search
import TableFlow.Proofs.Text.Trim
import TableFlow.Proofs.Xml.Elements
import TableFlow.Proofs.Script.Statements
import TableFlow.Proofs.Local.Columns
import TableFlow.Proofs.Bulk.Answers
import TableFlow.Proofs.Bulk.Requests
import TableFlow.Proofs.Script.Listing
import TableFlow.Proofs.Script.Misnesting
import TableFlow.Proofs.Bulk.Rejection

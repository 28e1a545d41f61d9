import Drydock.Duration
import Drydock.Engine.Scripted
import Drydock.Log
import Drydock.Main
import Drydock.Proofs.Run.Foresight
import Drydock.Value.JsonReader
import Drydock.Proofs.Engine.Life
import Drydock.Proofs.Run.Visit
import Drydock.Proofs.Run.Reach
import Drydock.Proofs.Run.Lifecycle
import Drydock.Proofs.Bindings
import Drydock.Proofs.Engine.Deeds
import Drydock.Proofs.Run.Handover
import Drydock.Proofs.Reference
import Drydock.Proofs.Run.Readers
import Drydock.Proofs.Run.Sequence
import Drydock.Proofs.Run.Halt
import Drydock.Proofs.Run.Stopping
import Drydock.Proofs.Run.Bookkeeping
import Drydock.Proofs.Run.Ground
import Drydock.Proofs.Run.Launch
import Drydock.Proofs.Run.Surfacing
import Drydock.Proofs.Run.Environment
import Drydock.Proofs.Expr.Grammar
import Drydock.Proofs.Expr.Soundness
import Drydock.Proofs.Expr.Completeness
import Drydock.Proofs.Expr.Nesting
import Drydock.Proofs.Expr.Lexing
import Drydock.Proofs.Expr.Exactness
import Drydock.Proofs.Expr.Places
import Drydock.Proofs.Expr.Writing
import Drydock.Proofs.Expr.Composition
import Drydock.Proofs.Expr.Overflow
import Drydock.Proofs.Plan.Existence
import Drydock.Proofs.Plan.Reordering
import Drydock.Proofs.Run.Shadow
import Drydock.Proofs.Run.Tidying
import Drydock.Proofs.Expr.References
import Drydock.Proofs.Run.Secrecy
import Drydock.Proofs.Schema.Writing
import Drydock.Proofs.Workflow.RoundTrip
import Drydock.Proofs.Expr.Spelling
import Drydock.Proofs.Expr.Prefixes
import Drydock.Proofs.Expr.Cursor
import Drydock.Proofs.Expr.Discipline
import Drydock.Proofs.Run.Interruption
import Drydock.Proofs.CommandLine.Listing
import Drydock.Proofs.CommandLine.Running
import Drydock.Proofs.Expr.Calls
import Drydock.Proofs.Context
import Drydock.Proofs.Text.Search
import Drydock.Proofs.Template
import Drydock.Proofs.Expr.Format
import Drydock.Proofs.Assignments
import Drydock.Proofs.Run.Composite
import Drydock.Proofs.Git.Cloning
import Drydock.Proofs.Docker.Waiting
import Drydock.Proofs.Action.Cache
import Drydock.Proofs.Graph.Stability
import Drydock.Proofs.Expr.Wrapping
import Drydock.Proofs.Context.Recording
import Drydock.Proofs.Docker.Arguments
import Drydock.Proofs.Git.Address
import Drydock.Proofs.Schema.Unknown
import Drydock.Proofs.Workflow.Unknown
import Drydock.Proofs.Schema.Merging
import Drydock.Proofs.Workflow.Merging
import Drydock.Proofs.Yaml.Loading

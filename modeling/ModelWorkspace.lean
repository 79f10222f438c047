import ModelWorkspace.Bundle
import ModelWorkspace.Catalogue
import ModelWorkspace.Compiler.Command
import ModelWorkspace.Compiler.Message
import ModelWorkspace.Decimal.Shortest
import ModelWorkspace.FileTree
import ModelWorkspace.Folder
import ModelWorkspace.Host.Basic
import ModelWorkspace.Host.Perform
import ModelWorkspace.Host.Scenario
import ModelWorkspace.Host.Schedule
import ModelWorkspace.Host.Script
import ModelWorkspace.Json.Reader
import ModelWorkspace.Json.Record
import ModelWorkspace.Json.Tree
import ModelWorkspace.Json.Value
import ModelWorkspace.Json.Writer
import ModelWorkspace.License
import ModelWorkspace.Lint.QuietPeriod
import ModelWorkspace.Lint.Trigger
import ModelWorkspace.Notice
import ModelWorkspace.Path
import ModelWorkspace.Problem.Diagnostic
import ModelWorkspace.Problem.Failure
import ModelWorkspace.Problem.Plan
import ModelWorkspace.Problem.Reconciler
import ModelWorkspace.Project.Basic
import ModelWorkspace.Project.Declaration
import ModelWorkspace.Project.Discovery
import ModelWorkspace.Project.Metadata
import ModelWorkspace.Proofs.Cascade.Attempts
import ModelWorkspace.Proofs.Cascade.Balance
import ModelWorkspace.Proofs.Cascade.Budget
import ModelWorkspace.Proofs.Cascade.Causes
import ModelWorkspace.Proofs.Cascade.Chronicle
import ModelWorkspace.Proofs.Cascade.Convergence
import ModelWorkspace.Proofs.Cascade.Duty
import ModelWorkspace.Proofs.Cascade.Ending
import ModelWorkspace.Proofs.Cascade.Followers
import ModelWorkspace.Proofs.Cascade.Opening
import ModelWorkspace.Proofs.Cascade.Stages
import ModelWorkspace.Proofs.Catalogue.Advice
import ModelWorkspace.Proofs.Catalogue.Defaults
import ModelWorkspace.Proofs.Catalogue.Spelling
import ModelWorkspace.Proofs.Compiler.Advice
import ModelWorkspace.Proofs.Compiler.CoreModels
import ModelWorkspace.Proofs.Compiler.Platform
import ModelWorkspace.Proofs.Compiler.Refusals
import ModelWorkspace.Proofs.Files.Containment
import ModelWorkspace.Proofs.Files.Modes
import ModelWorkspace.Proofs.Files.Paths
import ModelWorkspace.Proofs.Files.ReadOnly
import ModelWorkspace.Proofs.Files.Writing
import ModelWorkspace.Proofs.Folder.Replacing
import ModelWorkspace.Proofs.Folder.Tags
import ModelWorkspace.Proofs.Host.Commands
import ModelWorkspace.Proofs.Host.Firing
import ModelWorkspace.Proofs.Host.Following
import ModelWorkspace.Proofs.Host.Growing
import ModelWorkspace.Proofs.Host.Keeping
import ModelWorkspace.Proofs.Host.Moves
import ModelWorkspace.Proofs.Host.Reactions
import ModelWorkspace.Proofs.Host.Unscheduled
import ModelWorkspace.Proofs.Json.Equality
import ModelWorkspace.Proofs.Json.RoundTrip
import ModelWorkspace.Proofs.Json.Written
import ModelWorkspace.Proofs.License.Activation
import ModelWorkspace.Proofs.License.Calls
import ModelWorkspace.Proofs.License.Following
import ModelWorkspace.Proofs.License.Stages
import ModelWorkspace.Proofs.License.Turns
import ModelWorkspace.Proofs.Lint.Quiet
import ModelWorkspace.Proofs.Pass.Latest
import ModelWorkspace.Proofs.Pass.Log
import ModelWorkspace.Proofs.Pass.Reconciled
import ModelWorkspace.Proofs.Pass.Runs
import ModelWorkspace.Proofs.Pass.Serial
import ModelWorkspace.Proofs.Pass.Stages
import ModelWorkspace.Proofs.Problem.Planning
import ModelWorkspace.Proofs.Problem.Surface
import ModelWorkspace.Proofs.Project.Declaring
import ModelWorkspace.Proofs.Project.Discovery
import ModelWorkspace.Proofs.Project.Reading
import ModelWorkspace.Proofs.Project.Versions
import ModelWorkspace.Proofs.Session.Arriving
import ModelWorkspace.Proofs.Session.Home
import ModelWorkspace.Proofs.Session.Leaving
import ModelWorkspace.Proofs.Session.Resuming
import ModelWorkspace.Proofs.Session.Scene
import ModelWorkspace.Proofs.Session.Starting
import ModelWorkspace.Proofs.Session.Undone
import ModelWorkspace.Proofs.Setting.Following
import ModelWorkspace.Proofs.Setting.History
import ModelWorkspace.Proofs.Setting.Reacting
import ModelWorkspace.Proofs.Setting.Rewriting
import ModelWorkspace.Proofs.Setting.RoundTrip
import ModelWorkspace.Proofs.Setting.Writing
import ModelWorkspace.Proofs.Startup.Announcing
import ModelWorkspace.Proofs.Startup.Passages
import ModelWorkspace.Proofs.Startup.Repairing
import ModelWorkspace.Proofs.Startup.Restoring
import ModelWorkspace.Proofs.Startup.Turns
import ModelWorkspace.Proofs.Text.Decimal
import ModelWorkspace.Proofs.Text.Pieces
import ModelWorkspace.Proofs.Version.Grammar
import ModelWorkspace.Proofs.Version.Order
import ModelWorkspace.Proofs.Version.Precedence
import ModelWorkspace.Proofs.Version.Printing
import ModelWorkspace.Proofs.Version.Ranges
import ModelWorkspace.Proofs.Version.Reading
import ModelWorkspace.Setting.Feed
import ModelWorkspace.Setting.Follower
import ModelWorkspace.Setting.Key
import ModelWorkspace.Setting.Store
import ModelWorkspace.Setting.Values
import ModelWorkspace.Setting.View
import ModelWorkspace.Text.Blank
import ModelWorkspace.Text.Digits
import ModelWorkspace.Uri.Basic
import ModelWorkspace.Uri.File
import ModelWorkspace.Version.Basic
import ModelWorkspace.Version.Json
import ModelWorkspace.Version.Range
import ModelWorkspace.Version.Reader
import ModelWorkspace.Workbench.Basic
import ModelWorkspace.Workbench.Cascade
import ModelWorkspace.Workbench.Startup

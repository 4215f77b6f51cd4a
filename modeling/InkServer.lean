import InkServer.Client.Handling
import InkServer.Client.Message
import InkServer.Client.Reception
import InkServer.Client.Workspace
import InkServer.CommandLine.Help
import InkServer.CommandLine.Options
import InkServer.CommandLine.Run
import InkServer.Compiler
import InkServer.Compiler.Error
import InkServer.Compiler.Invocation
import InkServer.Compiler.Process
import InkServer.Compiler.Timeout
import InkServer.Config
import InkServer.Diagnostic
import InkServer.Diagnostic.Findings
import InkServer.Diagnostic.Report
import InkServer.Dict
import InkServer.Digest
import InkServer.Documents
import InkServer.Documents.Target
import InkServer.Failure
import InkServer.Failure.Raised
import InkServer.FileSystem
import InkServer.FileSystem.Access
import InkServer.FileSystem.Layout
import InkServer.Json
import InkServer.Log
import InkServer.Main
import InkServer.Mirror
import InkServer.Mirror.Disk
import InkServer.Mirror.Error
import InkServer.Notice
import InkServer.Number.Binary64
import InkServer.Number.Integer
import InkServer.OsError
import InkServer.Path
import InkServer.Path.Normal
import InkServer.Proofs.Compiler.Supervision
import InkServer.Proofs.Config
import InkServer.Proofs.Diagnostic.BestEffort
import InkServer.Proofs.Diagnostic.Printing
import InkServer.Proofs.Diagnostic.Reading
import InkServer.Proofs.Diagnostic.RoundTrip
import InkServer.Proofs.Diagnostic.Spellings
import InkServer.Proofs.Failures.Acts
import InkServer.Proofs.Failures.Operations
import InkServer.Proofs.Failures.Runs
import InkServer.Proofs.FileSystem.Growth
import InkServer.Proofs.FileSystem.Ways
import InkServer.Proofs.Mirror.Apart
import InkServer.Proofs.Mirror.Asked
import InkServer.Proofs.Mirror.Beside
import InkServer.Proofs.Mirror.Calls
import InkServer.Proofs.Mirror.Changes
import InkServer.Proofs.Mirror.Confined
import InkServer.Proofs.Mirror.Contents
import InkServer.Proofs.Mirror.Copies
import InkServer.Proofs.Mirror.Created
import InkServer.Proofs.Mirror.Creation
import InkServer.Proofs.Mirror.Effects
import InkServer.Proofs.Mirror.Extensions
import InkServer.Proofs.Mirror.Faithful
import InkServer.Proofs.Mirror.Kept
import InkServer.Proofs.Mirror.Ledger
import InkServer.Proofs.Mirror.Listing
import InkServer.Proofs.Mirror.Places
import InkServer.Proofs.Mirror.Room
import InkServer.Proofs.Mirror.Sources
import InkServer.Proofs.Mirror.Tending
import InkServer.Proofs.Mirror.Truth
import InkServer.Proofs.Path.Inner
import InkServer.Proofs.Path.Lexical
import InkServer.Proofs.Publisher
import InkServer.Proofs.Scheduler.Deliveries
import InkServer.Proofs.Scheduler.Sights
import InkServer.Proofs.Scheduler.Soundness
import InkServer.Proofs.Scheduler.Trial
import InkServer.Proofs.Scheduler.Turns
import InkServer.Proofs.Schema
import InkServer.Proofs.Server.Acts
import InkServer.Proofs.Server.Bystanders
import InkServer.Proofs.Server.Change
import InkServer.Proofs.Server.Compiles
import InkServer.Proofs.Server.Heard
import InkServer.Proofs.Server.Mirrors
import InkServer.Proofs.Server.Operations
import InkServer.Proofs.Server.Removals
import InkServer.Proofs.Server.Runs
import InkServer.Proofs.Server.Told
import InkServer.Proofs.Server.Versions
import InkServer.Proofs.Server.Workspaces
import InkServer.Proofs.Settings.Usable
import InkServer.Proofs.Subscribers.Delivery
import InkServer.Proofs.Task.Acts
import InkServer.Proofs.Task.Alone
import InkServer.Proofs.Task.Runs
import InkServer.Proofs.Text.Case
import InkServer.Proofs.Work
import InkServer.Proofs.Workspace.Accounts
import InkServer.Proofs.Workspace.Bookkeeping
import InkServer.Proofs.Workspace.Compiled
import InkServer.Proofs.Workspace.Convergence
import InkServer.Proofs.Workspace.Created
import InkServer.Proofs.Workspace.Custodians
import InkServer.Proofs.Workspace.Custody
import InkServer.Proofs.Workspace.Editing
import InkServer.Proofs.Workspace.Edits
import InkServer.Proofs.Workspace.Folders
import InkServer.Proofs.Workspace.Following
import InkServer.Proofs.Workspace.Generations
import InkServer.Proofs.Workspace.Initializing
import InkServer.Proofs.Workspace.Innermost
import InkServer.Proofs.Workspace.Lifecycle
import InkServer.Proofs.Workspace.Moving
import InkServer.Proofs.Workspace.Neighbours
import InkServer.Proofs.Workspace.Order
import InkServer.Proofs.Workspace.Overtaken
import InkServer.Proofs.Workspace.Pace
import InkServer.Proofs.Workspace.Progress
import InkServer.Proofs.Workspace.Quiet
import InkServer.Proofs.Workspace.Registry
import InkServer.Proofs.Workspace.Removed
import InkServer.Proofs.Workspace.Renewing
import InkServer.Proofs.Workspace.Replacement
import InkServer.Proofs.Workspace.Requests
import InkServer.Proofs.Workspace.Settling
import InkServer.Proofs.Workspace.Shutdown
import InkServer.Proofs.Workspace.Sparing
import InkServer.Proofs.Workspace.Summaries
import InkServer.Proofs.Workspace.Superseding
import InkServer.Proofs.Workspace.Together
import InkServer.Proofs.Workspace.Within
import InkServer.Publisher
import InkServer.Scheduler
import InkServer.Scheduler.Run
import InkServer.Scheduler.Script
import InkServer.Schema
import InkServer.Server.Machine
import InkServer.Server.Overview
import InkServer.Server.Run
import InkServer.Server.Setup
import InkServer.Service.Document
import InkServer.Service.Folder
import InkServer.Settings
import InkServer.Settings.Lookup
import InkServer.State
import InkServer.Subscribers
import InkServer.Subscribers.Script
import InkServer.Task
import InkServer.Task.Control
import InkServer.Task.Lock
import InkServer.Task.Session
import InkServer.Text.Basic
import InkServer.Text.Case
import InkServer.Text.CaseTable
import InkServer.Text.Printable
import InkServer.Text.Quoted
import InkServer.Text.Similar
import InkServer.Text.Split
import InkServer.Text.Utf8
import InkServer.Uri
import InkServer.Uri.Host
import InkServer.Value
import InkServer.Workspace
import InkServer.Workspace.Applying
import InkServer.Workspace.Compilation
import InkServer.Workspace.Created
import InkServer.Workspace.Delivery
import InkServer.Workspace.Edit
import InkServer.Workspace.Initialization
import InkServer.Workspace.Lookup
import InkServer.Workspace.Removal
import InkServer.Workspace.Target
import InkServer.Workspace.Writing
import InkServer.Yaml
import InkServer.Yaml.Cursor
import InkServer.Yaml.Error
import InkServer.Yaml.Meaning
import InkServer.Yaml.Text
import InkServer.Yaml.Token

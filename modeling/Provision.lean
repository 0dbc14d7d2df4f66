import Provision.Bundle.Export
import Provision.Bundle.Name
import Provision.Command.Line
import Provision.Command.Run
import Provision.Command.Signature
import Provision.Compile
import Provision.Configuration.Basic
import Provision.Configuration.Load
import Provision.Decimal.Integer
import Provision.Decimal.Real
import Provision.Decimal.Rounding
import Provision.Decimal.Shortest
import Provision.Decimal.Text
import Provision.Disk.Basic
import Provision.Disk.Node
import Provision.Disk.Packing
import Provision.Disk.Path
import Provision.Failure
import Provision.Json.Basic
import Provision.Json.Printer
import Provision.Json.Reader
import Provision.Json.Spelled
import Provision.Log
import Provision.Main
import Provision.Moment
import Provision.Proofs.Bundle.Content
import Provision.Proofs.Bundle.Files
import Provision.Proofs.Bundle.Filling
import Provision.Proofs.Bundle.Gate
import Provision.Proofs.Bundle.Reproducible
import Provision.Proofs.Bundle.Writing
import Provision.Proofs.Bundle.Written
import Provision.Proofs.Decimal.Digits
import Provision.Proofs.Disk.Creation
import Provision.Proofs.Disk.Entries
import Provision.Proofs.Disk.Leaves
import Provision.Proofs.Disk.Operations
import Provision.Proofs.Disk.Paths
import Provision.Proofs.Disk.Replacing
import Provision.Proofs.Disk.Room
import Provision.Proofs.Disk.Shape
import Provision.Proofs.Disk.Showing
import Provision.Proofs.Disk.Sparing
import Provision.Proofs.Disk.Tree
import Provision.Proofs.Disk.Walk
import Provision.Proofs.Json.Alike
import Provision.Proofs.Json.Ordered
import Provision.Proofs.Json.Reading
import Provision.Proofs.Json.RoundTrip
import Provision.Proofs.Json.Shape
import Provision.Proofs.Json.Tokens
import Provision.Proofs.Keyed
import Provision.Proofs.Outcome
import Provision.Proofs.Recipe.Canonical
import Provision.Proofs.Recipe.Decoding
import Provision.Proofs.Recipe.Order
import Provision.Proofs.Recipe.Reordered
import Provision.Proofs.Recipe.RoundTrip
import Provision.Proofs.Script.Advice
import Provision.Proofs.Script.Confinement
import Provision.Proofs.Script.Dependence
import Provision.Proofs.Script.Outline
import Provision.Proofs.Shell.HereDocument
import Provision.Proofs.Shell.Lexing
import Provision.Proofs.Step.Settings
import Provision.Proofs.Store.Changes
import Provision.Proofs.Store.Interleaving
import Provision.Proofs.Store.Isolation
import Provision.Proofs.Store.Ledger
import Provision.Proofs.Store.Names
import Provision.Proofs.Store.Reading
import Provision.Proofs.Store.Refinement
import Provision.Proofs.Store.Saving
import Provision.Proofs.Store.Tree
import Provision.Proofs.Store.Turns
import Provision.Proofs.Text.Pieces
import Provision.Proofs.Timestamp
import Provision.Proofs.Workspace
import Provision.Recipe.Basic
import Provision.Recipe.Decode
import Provision.Recipe.Defect
import Provision.Recipe.Wire
import Provision.Script.Artifacts
import Provision.Script.Fragment
import Provision.Script.Installer
import Provision.Script.Preflight
import Provision.Script.Readme
import Provision.Shell.HereDoc
import Provision.Shell.Quoting
import Provision.Shell.Sed
import Provision.Step.Action
import Provision.Step.Check
import Provision.Step.Kind
import Provision.Step.Setting
import Provision.Store.Basic
import Provision.Store.Fault
import Provision.Store.Save
import Provision.Text.Base64
import Provision.Text.Blank
import Provision.Text.Case
import Provision.Text.Lower
import Provision.Text.Printable
import Provision.Text.Quoted
import Provision.Text.Similarity
import Provision.Text.Utf8
import Provision.Timestamp
import Provision.Web.Api
import Provision.Web.Host
import Provision.Web.Multipart
import Provision.Web.Options
import Provision.Web.Percent
import Provision.Web.Request
import Provision.Web.Route
import Provision.Web.Target
import Provision.Workspace
import Provision.Yaml.Basic
import Provision.Yaml.Block
import Provision.Yaml.Cursor
import Provision.Yaml.Date
import Provision.Yaml.Node
import Provision.Yaml.Plain
import Provision.Yaml.Quoted
import Provision.Yaml.Reader
import Provision.Yaml.Scalar
import Provision.Yaml.Tag
import Provision.Yaml.Token
import Provision.Proofs.Json.Continuing
import Provision.Proofs.Recipe.Identity
import Provision.Proofs.Disk.Sanity
import Provision.Proofs.Store.Succeeding
import Provision.Proofs.Store.Stock
import Provision.Proofs.Disk.Archive
import Provision.Proofs.Bundle.Elsewhere
import Provision.Proofs.Bundle.History
import Provision.Proofs.Bundle.Reach
import Provision.Proofs.Bundle.Remains
import Provision.Proofs.Json.Readable
import Provision.Proofs.Script.Faults
import Provision.Proofs.Script.Sufficiency
import Provision.Proofs.Script.Stamp
import Provision.Proofs.Disk.Bytes
import Provision.Proofs.Store.Listing
import Provision.Proofs.Store.Reloading
import Provision.Proofs.Web.Requests
import Provision.Proofs.Web.Agreement
import Provision.Proofs.Disk.Refusals
import Provision.Proofs.Store.Escapes
import Provision.Proofs.Web.Bodies
import Provision.Proofs.Json.Leading
import Provision.Proofs.Bundle.Verdicts
import Provision.Proofs.Command.Runs
import Provision.Proofs.Command.Preparing
import Provision.Proofs.Web.Contents
import Provision.Proofs.Command.FrontEnds
import Provision.Proofs.Recipe.Sorted
import Provision.Proofs.Script.Variables
import Provision.Proofs.Web.Returned
import Provision.Proofs.Bundle.Aside
import Provision.Proofs.Disk.Making
import Provision.Proofs.Recipe.Rereading
import Provision.Proofs.Store.Keeping
import Provision.Proofs.Web.Leaving
import Provision.Proofs.Bundle.Naming
import Provision.Proofs.Web.Orphans
import Provision.Proofs.Shell.Words
import Provision.Proofs.Shell.Substitution
import Provision.Proofs.Script.Filters
import Provision.Proofs.Shell.Selection
import Provision.Proofs.Disk.Standing
import Provision.Proofs.Disk.Undoing
import Provision.Proofs.Store.Answering
import Provision.Proofs.Store.Failing
import Provision.Proofs.Script.Definitions
import Provision.Proofs.Shell.Probing
import Provision.Proofs.Script.Preflight
import Provision.Proofs.Web.Uploads
import Provision.Proofs.Shell.Glyphs
import Provision.Proofs.Shell.Lists
import Provision.Proofs.Script.Commands
import Provision.Proofs.Store.Publishing
import Provision.Proofs.Web.Replacing
import Provision.Proofs.Bundle.Placement
import Provision.Proofs.Script.Payload
import Provision.Proofs.Shell.Pieces
import Provision.Proofs.Shell.Choices
import Provision.Proofs.Script.Fallbacks
import Provision.Proofs.Configuration.Precedence
import Provision.Proofs.Command.Reading
import Provision.Proofs.Command.Serving
import Provision.Proofs.Shell.Marker
import Provision.Proofs.Shell.Branches
import Provision.Proofs.Script.Wrapping

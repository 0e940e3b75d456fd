import PinKeeper.Cluster.Interface
import PinKeeper.Cluster.Memory
import PinKeeper.Command.Arguments
import PinKeeper.Command.HostName
import PinKeeper.Command.Report
import PinKeeper.Command.Run
import PinKeeper.Dict
import PinKeeper.Error
import PinKeeper.Files.Path
import PinKeeper.Files.Tree
import PinKeeper.Files.Walk
import PinKeeper.Health
import PinKeeper.Http.Client
import PinKeeper.Http.Exchange
import PinKeeper.Http.Framing
import PinKeeper.Http.Listing
import PinKeeper.Http.Message
import PinKeeper.Http.Script
import PinKeeper.Http.Wire
import PinKeeper.Json.Basic
import PinKeeper.Json.Printer
import PinKeeper.Json.Reader
import PinKeeper.Json.Record
import PinKeeper.Main
import PinKeeper.Maintenance.Migrate
import PinKeeper.Maintenance.Rebalance
import PinKeeper.Maintenance.Repair
import PinKeeper.Maintenance.Scan
import PinKeeper.Outline
import PinKeeper.Pin.Basic
import PinKeeper.Pin.State
import PinKeeper.Pin.Wire
import PinKeeper.Placement.Plan
import PinKeeper.Placement.Required
import PinKeeper.Policy.Basic
import PinKeeper.Policy.Document
import PinKeeper.Policy.Format
import PinKeeper.Policy.Store
import PinKeeper.Policy.Validate
import PinKeeper.Proofs.Answers
import PinKeeper.Proofs.Cluster.Memory
import PinKeeper.Proofs.Cluster.Recorded
import PinKeeper.Proofs.Command.Authority
import PinKeeper.Proofs.Command.DryRun
import PinKeeper.Proofs.Command.Environment
import PinKeeper.Proofs.Command.Flag
import PinKeeper.Proofs.Command.Format
import PinKeeper.Proofs.Command.Hostless
import PinKeeper.Proofs.Command.Scene
import PinKeeper.Proofs.Command.Secrecy
import PinKeeper.Proofs.Compositional
import PinKeeper.Proofs.Dict
import PinKeeper.Proofs.Files.Agreement
import PinKeeper.Proofs.Files.Names
import PinKeeper.Proofs.Files.Path
import PinKeeper.Proofs.Files.Tree
import PinKeeper.Proofs.Files.Walk
import PinKeeper.Proofs.Health.Agreement
import PinKeeper.Proofs.Health.Rows
import PinKeeper.Proofs.Health.Verdict
import PinKeeper.Proofs.Http.Address
import PinKeeper.Proofs.Http.Anonymous
import PinKeeper.Proofs.Http.Call
import PinKeeper.Proofs.Http.Download
import PinKeeper.Proofs.Http.Listing
import PinKeeper.Proofs.Http.Query
import PinKeeper.Proofs.Http.Requests
import PinKeeper.Proofs.Http.Resource
import PinKeeper.Proofs.Http.Sizes
import PinKeeper.Proofs.Http.Trace
import PinKeeper.Proofs.Json.Reader
import PinKeeper.Proofs.Json.Record
import PinKeeper.Proofs.Json.Rest
import PinKeeper.Proofs.Maintenance.Account
import PinKeeper.Proofs.Maintenance.Bounds
import PinKeeper.Proofs.Maintenance.Convergence
import PinKeeper.Proofs.Maintenance.Cure
import PinKeeper.Proofs.Maintenance.DryRun
import PinKeeper.Proofs.Maintenance.Forsaken
import PinKeeper.Proofs.Maintenance.History
import PinKeeper.Proofs.Maintenance.Isolation
import PinKeeper.Proofs.Maintenance.Lost
import PinKeeper.Proofs.Maintenance.Migrate
import PinKeeper.Proofs.Maintenance.Parts
import PinKeeper.Proofs.Maintenance.Pass
import PinKeeper.Proofs.Maintenance.Progress
import PinKeeper.Proofs.Maintenance.Rebalance
import PinKeeper.Proofs.Maintenance.Recovery
import PinKeeper.Proofs.Maintenance.Repair
import PinKeeper.Proofs.Maintenance.Retry
import PinKeeper.Proofs.Maintenance.Tags
import PinKeeper.Proofs.Maintenance.Truth
import PinKeeper.Proofs.Maintenance.Union
import PinKeeper.Proofs.Pin.Wire
import PinKeeper.Proofs.Placement.Exact
import PinKeeper.Proofs.Placement.Fewest
import PinKeeper.Proofs.Placement.Greedy
import PinKeeper.Proofs.Placement.Plan
import PinKeeper.Proofs.Placement.Required
import PinKeeper.Proofs.Placement.Resolution
import PinKeeper.Proofs.Placement.Unordered
import PinKeeper.Proofs.Policy.Store
import PinKeeper.Proofs.Policy.Usable
import PinKeeper.Proofs.Retrieve.Attempts
import PinKeeper.Proofs.Retrieve.Sources
import PinKeeper.Proofs.Text.Blank
import PinKeeper.Proofs.Text.Decimal
import PinKeeper.Proofs.Text.Split
import PinKeeper.Proofs.Time.Instant
import PinKeeper.Proofs.Upload.Manifest
import PinKeeper.Proofs.Upload.Outcome
import PinKeeper.Proofs.Upload.Sent
import PinKeeper.Proofs.Web.Form
import PinKeeper.Proofs.Web.Names
import PinKeeper.Proofs.Web.Percent
import PinKeeper.Proofs.Web.Url
import PinKeeper.Retrieve
import PinKeeper.Settings
import PinKeeper.Source
import PinKeeper.Text.Base64
import PinKeeper.Text.Blank
import PinKeeper.Text.ByteSize
import PinKeeper.Text.Column
import PinKeeper.Text.Decimal
import PinKeeper.Text.Encoding
import PinKeeper.Text.Float
import PinKeeper.Text.Hexadecimal
import PinKeeper.Text.Rounding
import PinKeeper.Text.Shown
import PinKeeper.Time.Epoch
import PinKeeper.Time.Instant
import PinKeeper.Toml.Printer
import PinKeeper.Toml.Reader
import PinKeeper.Toml.Source
import PinKeeper.Toml.Value
import PinKeeper.Total
import PinKeeper.Upload
import PinKeeper.Web.Form
import PinKeeper.Web.Percent
import PinKeeper.Web.Url
import PinKeeper.Yaml.Cursor
import PinKeeper.Yaml.Node
import PinKeeper.Yaml.Printer
import PinKeeper.Yaml.Resolve
import PinKeeper.Yaml.Scalar
import PinKeeper.Yaml.Source
import PinKeeper.Yaml.Token

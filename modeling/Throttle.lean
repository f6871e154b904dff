import Throttle.Activity
import Throttle.Batch
import Throttle.CommandLine.LogFilter
import Throttle.CommandLine.Options
import Throttle.CommandLine.Program
import Throttle.CommandLine.Report
import Throttle.Count
import Throttle.Fault
import Throttle.Inspection
import Throttle.Layer.Environment
import Throttle.Layer.Json
import Throttle.Layer.Path
import Throttle.Layer.Toml
import Throttle.Layer.Toml.Literal
import Throttle.Layer.Toml.Moment
import Throttle.Layer.Toml.Table
import Throttle.Layer.Value
import Throttle.Layer.Yaml
import Throttle.Limiter
import Throttle.Main
import Throttle.Number.Binary64
import Throttle.Number.Digits
import Throttle.Number.Literal
import Throttle.Number.Powers
import Throttle.Plan
import Throttle.Proofs.Ledger
import Throttle.Proofs.Limiter.AnyClock
import Throttle.Proofs.Limiter.Desk
import Throttle.Proofs.Limiter.Portions
import Throttle.Proofs.Limiter.Queries
import Throttle.Proofs.Limiter.RateBound
import Throttle.Proofs.Limiter.Reset
import Throttle.Proofs.Limiter.Rush
import Throttle.Proofs.Limiter.Spending
import Throttle.Proofs.Limiter.Twins
import Throttle.Proofs.Limiter.Views
import Throttle.Proofs.Limiter.Words
import Throttle.Proofs.Number.Digits
import Throttle.Proofs.Registry.Callers
import Throttle.Proofs.Registry.Clients
import Throttle.Proofs.Registry.Eviction
import Throttle.Proofs.Registry.Isolation
import Throttle.Proofs.Registry.Overlap
import Throttle.Proofs.Registry.RateBound
import Throttle.Proofs.Registry.Step
import Throttle.Proofs.Registry.Sweeping
import Throttle.Proofs.Registry.Tallies
import Throttle.Proofs.Registry.View
import Throttle.Proofs.Registry.Visitors
import Throttle.Proofs.Scope.Ancestry
import Throttle.Proofs.Scope.Forest
import Throttle.Proofs.Scope.Lineage
import Throttle.Proofs.Settings.Layers
import Throttle.Proofs.Settings.Names
import Throttle.Proofs.Settings.Outline
import Throttle.Proofs.Settings.Usable
import Throttle.Proofs.Settings.Written
import Throttle.Proofs.Sweeper
import Throttle.Proofs.Window.Account
import Throttle.Proofs.Window.Announcement
import Throttle.Proofs.Window.Excess
import Throttle.Proofs.Window.Filling
import Throttle.Proofs.Window.Journal
import Throttle.Proofs.Window.Looks
import Throttle.Proofs.Window.Reset
import Throttle.Proofs.Window.Turning
import Throttle.Proofs.Window.Walk
import Throttle.Proofs.Window.Words
import Throttle.Proofs.World.Attempts
import Throttle.Proofs.World.Batches
import Throttle.Proofs.World.Costs
import Throttle.Proofs.World.Course
import Throttle.Proofs.World.Deeds
import Throttle.Proofs.World.Denials
import Throttle.Proofs.World.Errands
import Throttle.Proofs.World.Limiters
import Throttle.Proofs.World.Onlooker
import Throttle.Proofs.World.Pacing
import Throttle.Proofs.World.Patience
import Throttle.Proofs.World.Races
import Throttle.Proofs.World.Stages
import Throttle.Proofs.World.Stops
import Throttle.Proofs.World.Tasks
import Throttle.Proofs.World.Verdicts
import Throttle.Proofs.World.Vigils
import Throttle.Proofs.World.Waits
import Throttle.Proofs.Yaml.Braces
import Throttle.Proofs.Yaml.Composing
import Throttle.Proofs.Yaml.Lines
import Throttle.Proofs.Yaml.Reading
import Throttle.Proofs.Yaml.Scalars
import Throttle.Registry
import Throttle.Scope
import Throttle.Session.Basic
import Throttle.Session.Reply
import Throttle.Session.Request
import Throttle.Session.Run
import Throttle.Settings.Basic
import Throttle.Settings.Document
import Throttle.Settings.Fault
import Throttle.Settings.File
import Throttle.Settings.Given
import Throttle.Settings.Layers
import Throttle.Settings.Written
import Throttle.Storage
import Throttle.Sweeper
import Throttle.Text.Blank
import Throttle.Text.Json
import Throttle.Text.Letters
import Throttle.Text.Lines
import Throttle.Text.Pieces
import Throttle.Text.Printable
import Throttle.Text.Quoted
import Throttle.Text.Ranges
import Throttle.Text.Utf8
import Throttle.Time
import Throttle.Time.SpanText
import Throttle.Timeline
import Throttle.Window.Basic
import Throttle.Window.Operation
import Throttle.World
import Throttle.Yaml.Dialect
import Throttle.Yaml.Document
import Throttle.Yaml.Node
import Throttle.Yaml.Token
import Throttle.Yaml.Token.Lexer
import Throttle.Yaml.Token.Scalar

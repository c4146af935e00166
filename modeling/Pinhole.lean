import Pinhole.Audit.Clock
import Pinhole.Audit.Event
import Pinhole.Audit.Journal
import Pinhole.Audit.Trail
import Pinhole.CommandLine.Request
import Pinhole.CommandLine.Words
import Pinhole.Config.Check
import Pinhole.Config.EnvFile
import Pinhole.Config.Fault
import Pinhole.Config.Init
import Pinhole.Config.Load
import Pinhole.Config.Settings
import Pinhole.Config.Writer
import Pinhole.Console.Basic
import Pinhole.Console.Colour
import Pinhole.Console.Literal
import Pinhole.Console.Markup
import Pinhole.Console.Page
import Pinhole.Console.Style
import Pinhole.Exec
import Pinhole.Exec.Command
import Pinhole.Failure
import Pinhole.Files.Content
import Pinhole.Files.Fault
import Pinhole.Files.Filing
import Pinhole.Files.Path
import Pinhole.Files.Tree
import Pinhole.Firewall.Holes
import Pinhole.Firewall.Steering
import Pinhole.Firewall.Toolkit
import Pinhole.Flags
import Pinhole.Hole
import Pinhole.Input
import Pinhole.Json.Reader
import Pinhole.Json.Writer
import Pinhole.Main
import Pinhole.Number.Binary64
import Pinhole.Number.Lenient
import Pinhole.Number.Shortest
import Pinhole.Outcome
import Pinhole.Program
import Pinhole.Proofs.Accept
import Pinhole.Proofs.Copies
import Pinhole.Proofs.Exchange
import Pinhole.Proofs.Holes
import Pinhole.Proofs.Ledger
import Pinhole.Proofs.Parallel
import Pinhole.Proofs.Rollback
import Pinhole.Proofs.Service
import Pinhole.Proofs.Steering
import Pinhole.Rule
import Pinhole.Session
import Pinhole.Task
import Pinhole.Task.Desk
import Pinhole.Task.Hold
import Pinhole.Task.Settings
import Pinhole.Task.Steer
import Pinhole.Text.Base64
import Pinhole.Text.Blank
import Pinhole.Text.Columns
import Pinhole.Text.DecimalDigit
import Pinhole.Text.DigitMark
import Pinhole.Text.Hex
import Pinhole.Text.Lower
import Pinhole.Text.Printable
import Pinhole.Text.Quoted
import Pinhole.Text.ShellWord
import Pinhole.Text.Spelling
import Pinhole.Text.Table
import Pinhole.Text.Width
import Pinhole.Unforeseen
import Pinhole.Value
import Pinhole.Yaml.Built
import Pinhole.Yaml.Content
import Pinhole.Yaml.Cursor
import Pinhole.Yaml.Document
import Pinhole.Yaml.Fault
import Pinhole.Yaml.Lexer
import Pinhole.Yaml.Meaning
import Pinhole.Yaml.Node
import Pinhole.Yaml.Reading
import Pinhole.Yaml.Scalar
import Pinhole.Yaml.Source
import Pinhole.Yaml.Tag
import Pinhole.Yaml.Token
import Pinhole.Yaml.Writer
import Pinhole.Proofs.Hold
import Pinhole.Proofs.SetUp
import Pinhole.Proofs.Teardown
import Pinhole.Proofs.Tracked
import Pinhole.Proofs.Tolerance
import Pinhole.Proofs.Shapes
import Pinhole.Proofs.Preview
import Pinhole.Proofs.Attempts
import Pinhole.Proofs.Records
import Pinhole.Proofs.Report
import Pinhole.Proofs.HoldTrail
import Pinhole.Proofs.Answers
import Pinhole.Proofs.Interleaving
import Pinhole.Proofs.Verbosity
import Pinhole.Proofs.Faults
import Pinhole.Proofs.Auditing
import Pinhole.Proofs.Layout
import Pinhole.Proofs.Weaving
import Pinhole.Proofs.Quoted
import Pinhole.Proofs.Plain
import Pinhole.Proofs.Lexing
import Pinhole.Proofs.Sections
import Pinhole.Proofs.Entries
import Pinhole.Proofs.Numerals
import Pinhole.Proofs.Settings
import Pinhole.Proofs.Stored
import Pinhole.Proofs.RoundTrip
import Pinhole.Proofs.Transitions
import Pinhole.Proofs.LeftOpen
import Pinhole.Proofs.Retry
import Pinhole.Proofs.Rotation
import Pinhole.Proofs.RuleWords
import Pinhole.Proofs.Removal
import Pinhole.Proofs.JsonText
import Pinhole.Proofs.JournalLines
import Pinhole.Proofs.Independence
import Pinhole.Proofs.Correlation
import Pinhole.Proofs.SteeringNumerals
import Pinhole.Proofs.LexicalFaults
import Pinhole.Proofs.NodeFaults
import Pinhole.Proofs.Loading
import Pinhole.Proofs.Starting
import Pinhole.Proofs.MarkedText
import Pinhole.Proofs.OneLine
import Pinhole.Proofs.ShownText

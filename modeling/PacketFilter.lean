import PacketFilter.Address
import PacketFilter.Address.Host
import PacketFilter.Audit.Log
import PacketFilter.Audit.Timestamp
import PacketFilter.Backend
import PacketFilter.Backend.Machine
import PacketFilter.Backend.Memory
import PacketFilter.Backend.Playback
import PacketFilter.Command
import PacketFilter.CommandLine
import PacketFilter.CommandLine.Display
import PacketFilter.CommandLine.Refusal
import PacketFilter.CommandLine.Request
import PacketFilter.CommandLine.Scope
import PacketFilter.Config
import PacketFilter.Diff
import PacketFilter.Diff.Script
import PacketFilter.Diff.Slide
import PacketFilter.Digest.Sha256
import PacketFilter.Failure
import PacketFilter.Json
import PacketFilter.Json.Reader
import PacketFilter.Json.Text
import PacketFilter.Listing
import PacketFilter.Listing.LiveRule
import PacketFilter.Main
import PacketFilter.Manifest
import PacketFilter.Plan
import PacketFilter.Proofs.Acceptance
import PacketFilter.Proofs.AcceptedClauses
import PacketFilter.Proofs.AddressText
import PacketFilter.Proofs.AuditTrail
import PacketFilter.Proofs.CanonicalAddresses
import PacketFilter.Proofs.CheckedValues
import PacketFilter.Proofs.CommandRuns
import PacketFilter.Proofs.Comparing
import PacketFilter.Proofs.CompiledClauses
import PacketFilter.Proofs.Continuity
import PacketFilter.Proofs.Convergence
import PacketFilter.Proofs.Converging
import PacketFilter.Proofs.DeclarationOrder
import PacketFilter.Proofs.DeclaredRules
import PacketFilter.Proofs.FileArguments
import PacketFilter.Proofs.FileRules
import PacketFilter.Proofs.FirewallListing
import PacketFilter.Proofs.FixedPoint
import PacketFilter.Proofs.Forecast
import PacketFilter.Proofs.JsonText
import PacketFilter.Proofs.ListedAttributes
import PacketFilter.Proofs.ListedText
import PacketFilter.Proofs.ListingEntries
import PacketFilter.Proofs.ListingReading
import PacketFilter.Proofs.ListingSections
import PacketFilter.Proofs.LiveChains
import PacketFilter.Proofs.LogPrefixes
import PacketFilter.Proofs.ManifestNames
import PacketFilter.Proofs.NetworkText
import PacketFilter.Proofs.NormalForm
import PacketFilter.Proofs.OneLineTexts
import PacketFilter.Proofs.PortEntries
import PacketFilter.Proofs.Pruning
import PacketFilter.Proofs.Rebuilding
import PacketFilter.Proofs.RecentEvents
import PacketFilter.Proofs.RefusedCommands
import PacketFilter.Proofs.RuleOrder
import PacketFilter.Proofs.RuleTexts
import PacketFilter.Proofs.RuleWords
import PacketFilter.Proofs.Saving
import PacketFilter.Proofs.SequencePositions
import PacketFilter.Proofs.SetRecord
import PacketFilter.Proofs.TextLines
import PacketFilter.Proofs.TimestampText
import PacketFilter.Proofs.WordReading
import PacketFilter.Proofs.WordRendering
import PacketFilter.Registry
import PacketFilter.Rule
import PacketFilter.Rule.Flag
import PacketFilter.Rule.Word
import PacketFilter.RuleFile
import PacketFilter.RuleSet
import PacketFilter.Session
import PacketFilter.Spec
import PacketFilter.Spec.Check
import PacketFilter.Spec.Compile
import PacketFilter.System.Document
import PacketFilter.System.Elevation
import PacketFilter.Table
import PacketFilter.Text.Decimal
import PacketFilter.Text.Line
import PacketFilter.Text.Lowercase
import PacketFilter.Userland
import PacketFilter.Userland.Files
import PacketFilter.Userland.LiveRules
import PacketFilter.Userland.Number
import PacketFilter.Userland.Octets
import PacketFilter.Userland.Shell.Arithmetic
import PacketFilter.Userland.Shell.Builtin
import PacketFilter.Userland.Shell.Builtin.Places
import PacketFilter.Userland.Shell.Builtin.Processes
import PacketFilter.Userland.Shell.Builtin.Settings
import PacketFilter.Userland.Shell.Command
import PacketFilter.Userland.Shell.Condition
import PacketFilter.Userland.Shell.Engine
import PacketFilter.Userland.Shell.Evaluation
import PacketFilter.Userland.Shell.Expansion
import PacketFilter.Userland.Shell.Field
import PacketFilter.Userland.Shell.Grammar
import PacketFilter.Userland.Shell.Lexeme
import PacketFilter.Userland.Shell.Lookup
import PacketFilter.Userland.Shell.Printing
import PacketFilter.Userland.Shell.Script
import PacketFilter.Userland.Shell.State
import PacketFilter.Userland.Shell.Token
import PacketFilter.Userland.Tool.Files
import PacketFilter.Userland.Tool.Plain
import PacketFilter.Userland.Tool.Text
import PacketFilter.Userland.World

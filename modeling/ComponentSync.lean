import ComponentSync.Archive.Basic
import ComponentSync.Archive.Tar
import ComponentSync.Archive.Unpack
import ComponentSync.Cli.Failure
import ComponentSync.Cli.Grammar
import ComponentSync.Cli.Parse
import ComponentSync.Cli.Run
import ComponentSync.Cli.Status
import ComponentSync.Cli.Table
import ComponentSync.Cluster.Api
import ComponentSync.Cluster.Client
import ComponentSync.Cluster.Ensure
import ComponentSync.Cluster.Error
import ComponentSync.Cluster.Exec
import ComponentSync.Cluster.Resources
import ComponentSync.Cluster.Scripted
import ComponentSync.Config.Parameters
import ComponentSync.Config.LocalConfig
import ComponentSync.Config.Preference
import ComponentSync.Config.Read
import ComponentSync.Config.Settings
import ComponentSync.Config.Store
import ComponentSync.Data.SortedMap
import ComponentSync.Yaml.Emit
import ComponentSync.Deflate.Compress
import ComponentSync.Deflate.Gzip
import ComponentSync.Deflate.Huffman
import ComponentSync.Deflate.Inflate
import ComponentSync.Deflate.Symbols
import ComponentSync.Deflate.Window
import ComponentSync.Digest.Sha256
import ComponentSync.Glob.Match
import ComponentSync.Glob.Pattern
import ComponentSync.Ignore
import ComponentSync.Index.Basic
import ComponentSync.Index.Json
import ComponentSync.Index.Store
import ComponentSync.Json.Reader
import ComponentSync.Json.Typed
import ComponentSync.Main
import ComponentSync.Number.Double
import ComponentSync.Progress.Console
import ComponentSync.Schema.Unexpected
import ComponentSync.Sync.Error
import ComponentSync.Sync.Plan
import ComponentSync.Sync.Push
import ComponentSync.Sync.Scan
import ComponentSync.Sync.Transfer
import ComponentSync.Sync.Trigger
import ComponentSync.Sync.World
import ComponentSync.Target.Basic
import ComponentSync.Target.Recording
import ComponentSync.Text.Blank
import ComponentSync.Text.Lossy
import ComponentSync.Text.Quoted
import ComponentSync.Text.Width
import ComponentSync.Text.Width.Data
import ComponentSync.Time.Duration
import ComponentSync.Time.Instant
import ComponentSync.Time.Rfc3339
import ComponentSync.Watch.Basic
import ComponentSync.Workspace.Basic
import ComponentSync.Workspace.Change
import ComponentSync.Yaml.Decode
import ComponentSync.Yaml.Document
import ComponentSync.Yaml.Event.Stream
import ComponentSync.Yaml.Mark
import ComponentSync.Yaml.Scalar
import ComponentSync.Yaml.Token
import ComponentSync.Yaml.Token.Cursor
import ComponentSync.Yaml.Token.Property
import ComponentSync.Yaml.Token.Scalar
import ComponentSync.Yaml.Token.Stream
import ComponentSync.Proofs.PushRun
import ComponentSync.Proofs.CallProtocol
import ComponentSync.Proofs.ScanKeys
import ComponentSync.Proofs.ArchiveNames
import ComponentSync.Proofs.Lookup
import ComponentSync.Proofs.IndexCommit
import ComponentSync.Proofs.ForcedPush
import ComponentSync.Proofs.ScanDiff
import ComponentSync.Proofs.Workload
import ComponentSync.Proofs.IgnoreRules
import ComponentSync.Proofs.DeleteScope
import ComponentSync.Proofs.TreeWalk
import ComponentSync.Proofs.ScanSpec
import ComponentSync.Proofs.IgnoredContent
import ComponentSync.Proofs.MomentText
import ComponentSync.Proofs.IndexText
import ComponentSync.Proofs.ShellWords
import ComponentSync.Proofs.CommandOutput
import ComponentSync.Proofs.IndexRoundTrip
import ComponentSync.Proofs.CommitFixpoint
import ComponentSync.Proofs.ComponentObjects
import ComponentSync.Proofs.EnsureResources
import ComponentSync.Proofs.ProgressLines
import ComponentSync.Proofs.Debounce
import ComponentSync.Proofs.RecordedTimes
import ComponentSync.Proofs.YamlBlock
import ComponentSync.Proofs.YamlEvents
import ComponentSync.Proofs.YamlDecode
import ComponentSync.Proofs.ConfigText
import ComponentSync.Proofs.ParameterLaws
import ComponentSync.Proofs.ConfigStore

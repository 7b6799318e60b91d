import JobConfig.CleanerLevel
import JobConfig.Config
import JobConfig.Config.Json
import JobConfig.Config.Mutation
import JobConfig.Config.Mutator
import JobConfig.Config.Overlay
import JobConfig.Config.Validation
import JobConfig.Dynamic.Host
import JobConfig.Dynamic.Object
import JobConfig.Dynamic.Text
import JobConfig.Dynamic.Value
import JobConfig.Error
import JobConfig.Json.Fault
import JobConfig.Json.Reader
import JobConfig.Json.Record
import JobConfig.Json.Value
import JobConfig.Log
import JobConfig.Number.Binary64
import JobConfig.Number.Integer
import JobConfig.Number.Literal
import JobConfig.Number.Shortest
import JobConfig.Proofs.Decimal
import JobConfig.Proofs.Display
import JobConfig.Proofs.Dynamic.Call
import JobConfig.Proofs.Dynamic.Run
import JobConfig.Proofs.Except
import JobConfig.Proofs.Json.Collection
import JobConfig.Proofs.Json.Config
import JobConfig.Proofs.Json.Grammar
import JobConfig.Proofs.Json.Nested
import JobConfig.Proofs.Json.Number
import JobConfig.Proofs.Json.Quoted
import JobConfig.Proofs.Json.Record
import JobConfig.Proofs.Json.Shape
import JobConfig.Proofs.Json.Skim
import JobConfig.Proofs.Json.Skim.Token
import JobConfig.Proofs.Json.Text
import JobConfig.Proofs.Mutator
import JobConfig.Proofs.Overlay
import JobConfig.Proofs.Overlay.Log
import JobConfig.Proofs.Overlay.Merge
import JobConfig.Proofs.Overlay.Outcome
import JobConfig.Proofs.SettingText
import JobConfig.Proofs.SettingText.Collection
import JobConfig.Proofs.SettingText.Content
import JobConfig.Proofs.SettingText.Scalar
import JobConfig.Proofs.SettingsFile
import JobConfig.Proofs.StringMap
import JobConfig.Proofs.Submission.Canonical
import JobConfig.Proofs.Submission.Gate
import JobConfig.Proofs.Submission.Listing
import JobConfig.Proofs.Submission.Payload
import JobConfig.Proofs.Submission.Prefix
import JobConfig.Proofs.Submission.Repair
import JobConfig.Proofs.Submission.Wire
import JobConfig.Proofs.Sync.Divergence
import JobConfig.Proofs.Sync.Forwarding
import JobConfig.Proofs.Sync.Log
import JobConfig.Proofs.Sync.Refresh
import JobConfig.Proofs.Sync.Retry
import JobConfig.Proofs.Sync.Run
import JobConfig.Proofs.Sync.Store
import JobConfig.Proofs.Sync.Trace
import JobConfig.Proofs.Text
import JobConfig.Proofs.Utf8
import JobConfig.Proofs.Utf8.Canonical
import JobConfig.Proofs.Utf8.Order
import JobConfig.Proofs.Yaml.Built
import JobConfig.Proofs.Yaml.Text
import JobConfig.Setting
import JobConfig.Setting.Text
import JobConfig.SettingsFile
import JobConfig.StringMap
import JobConfig.Submission.Fault
import JobConfig.Submission.Payload
import JobConfig.Submission.Wire
import JobConfig.Sync.Config
import JobConfig.Sync.Store
import JobConfig.Text.Blank
import JobConfig.Text.Printable
import JobConfig.Text.Utf8
import JobConfig.Yaml.Cursor
import JobConfig.Yaml.Graph
import JobConfig.Yaml.Node
import JobConfig.Yaml.Node.Reader
import JobConfig.Yaml.Token
import JobConfig.Yaml.Token.Lexer
import JobConfig.Yaml.Token.Scalar
import JobConfig.Yaml.Token.Tag
import JobConfig.Yaml.Value
import JobConfig.Yaml.Value.Builder
import JobConfig.Yaml.Value.Plain

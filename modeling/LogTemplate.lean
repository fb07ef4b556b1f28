import LogTemplate.Address
import LogTemplate.Builtin
import LogTemplate.Catalog
import LogTemplate.Consensus
import LogTemplate.Counters
import LogTemplate.Decimal
import LogTemplate.Digest
import LogTemplate.Flatten
import LogTemplate.Id
import LogTemplate.Input
import LogTemplate.Json.Quote
import LogTemplate.Json.Symbol
import LogTemplate.Json.Tree
import LogTemplate.Json.Value
import LogTemplate.Launch
import LogTemplate.Learner
import LogTemplate.Line
import LogTemplate.Main
import LogTemplate.Miner
import LogTemplate.Placeholder
import LogTemplate.Proofs.Address
import LogTemplate.Proofs.Announced
import LogTemplate.Proofs.ArenaTrie
import LogTemplate.Proofs.Batches
import LogTemplate.Proofs.Buffer
import LogTemplate.Proofs.Cabinet
import LogTemplate.Proofs.Catalog
import LogTemplate.Proofs.Colons
import LogTemplate.Proofs.ColumnKind
import LogTemplate.Proofs.Consensus
import LogTemplate.Proofs.Cover
import LogTemplate.Proofs.Discovery
import LogTemplate.Proofs.FinalDot
import LogTemplate.Proofs.Flatten
import LogTemplate.Proofs.Isolation
import LogTemplate.Proofs.JsonValue
import LogTemplate.Proofs.Layout
import LogTemplate.Proofs.Learner
import LogTemplate.Proofs.Leaves
import LogTemplate.Proofs.Legible
import LogTemplate.Proofs.Line
import LogTemplate.Proofs.Literal
import LogTemplate.Proofs.Longest
import LogTemplate.Proofs.Lossless
import LogTemplate.Proofs.Meaning
import LogTemplate.Proofs.Mining
import LogTemplate.Proofs.Notation
import LogTemplate.Proofs.Permutation
import LogTemplate.Proofs.Piece
import LogTemplate.Proofs.Placeholder
import LogTemplate.Proofs.Produced
import LogTemplate.Proofs.Range
import LogTemplate.Proofs.Readback
import LogTemplate.Proofs.Registration
import LogTemplate.Proofs.Replay
import LogTemplate.Proofs.Retag
import LogTemplate.Proofs.RoundTrip
import LogTemplate.Proofs.Run
import LogTemplate.Proofs.Runs
import LogTemplate.Proofs.Scan
import LogTemplate.Proofs.Search
import LogTemplate.Proofs.Shape
import LogTemplate.Proofs.Slice
import LogTemplate.Proofs.Stable
import LogTemplate.Proofs.Standing
import LogTemplate.Proofs.Store
import LogTemplate.Proofs.Tagged
import LogTemplate.Proofs.Text
import LogTemplate.Proofs.TimeGroups
import LogTemplate.Proofs.Timestamp
import LogTemplate.Proofs.Trie
import LogTemplate.Proofs.Uri
import LogTemplate.Proofs.Vocabulary
import LogTemplate.Proofs.Ways
import LogTemplate.Proofs.Word
import LogTemplate.Proofs.Written
import LogTemplate.Record
import LogTemplate.Regex.Basic
import LogTemplate.Regex.Parse
import LogTemplate.Report
import LogTemplate.Run
import LogTemplate.Scan
import LogTemplate.Search
import LogTemplate.Settings
import LogTemplate.Settings.Parse
import LogTemplate.Stem
import LogTemplate.Store
import LogTemplate.Text.Alphanumeric
import LogTemplate.Text.Basic
import LogTemplate.Text.LowerCase
import LogTemplate.Text.Table
import LogTemplate.Timestamp
import LogTemplate.Token
import LogTemplate.Toml.Document
import LogTemplate.Toml.Field
import LogTemplate.Toml.Scalar
import LogTemplate.Toml.Symbol
import LogTemplate.Toml.Value
import LogTemplate.Trie
import LogTemplate.Vocabulary
import LogTemplate.Word

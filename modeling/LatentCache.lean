import LatentCache.Address
import LatentCache.Bytes
import LatentCache.Cache.Basic
import LatentCache.Cache.Retrieve
import LatentCache.Cache.Stats
import LatentCache.Cache.Store
import LatentCache.Command.Config
import LatentCache.Command.Line
import LatentCache.Command.Smoke
import LatentCache.Digest.Sha256
import LatentCache.Hex
import LatentCache.Host.Basic
import LatentCache.Host.FileTree
import LatentCache.Json.Basic
import LatentCache.Json.Number
import LatentCache.Json.Reader
import LatentCache.Json.Token
import LatentCache.Latent.Basic
import LatentCache.Latent.ElementType
import LatentCache.Latent.Sequence
import LatentCache.Latent.Shape
import LatentCache.Logging.Basic
import LatentCache.Logging.Field
import LatentCache.Logging.Filter
import LatentCache.Main
import LatentCache.Pattern.Basic
import LatentCache.Pattern.Bracket
import LatentCache.Pattern.Escape
import LatentCache.Pattern.Reader
import LatentCache.Pattern.Support
import LatentCache.Record.Codec
import LatentCache.Record.Container
import LatentCache.Record.Layout
import LatentCache.Settings.Basic
import LatentCache.Settings.Document
import LatentCache.Settings.Overlay
import LatentCache.Settings.Summary
import LatentCache.Settings.Variable
import LatentCache.Size
import LatentCache.Storage.Backend
import LatentCache.Storage.Client
import LatentCache.Storage.Kind
import LatentCache.Storage.Mapped
import LatentCache.Storage.Medium
import LatentCache.Storage.PageTree
import LatentCache.Storage.Pages
import LatentCache.Storage.Service
import LatentCache.Storage.ServiceUrl
import LatentCache.Storage.Table
import LatentCache.Storage.Watch
import LatentCache.Text.Character
import LatentCache.Text.Decimal
import LatentCache.Text.Quoted
import LatentCache.Text.Utf8
import LatentCache.Toml.Number
import LatentCache.Toml.Reader
import LatentCache.Toml.Table
import LatentCache.Toml.Text
import LatentCache.Url.Basic
import LatentCache.Url.Host
import LatentCache.Proofs.Bytes
import LatentCache.Proofs.Latent.Blocks
import LatentCache.Proofs.Latent.Extent
import LatentCache.Proofs.Latent.Sequence
import LatentCache.Proofs.Address
import LatentCache.Proofs.Json.Reading
import LatentCache.Proofs.Record.Container
import LatentCache.Proofs.Record.RoundTrip
import LatentCache.Proofs.Cache.Retrieval
import LatentCache.Proofs.Cache.Continuity
import LatentCache.Proofs.Cache.Fleet
import LatentCache.Proofs.Cache.Failure
import LatentCache.Proofs.Cache.Reference
import LatentCache.Proofs.Record.Format
import LatentCache.Proofs.Host.Directories
import LatentCache.Proofs.Storage.Calls
import LatentCache.Proofs.Storage.Opening
import LatentCache.Proofs.Storage.Interruption
import LatentCache.Proofs.Cache.Interruption
import LatentCache.Proofs.Storage.Namespaces
import LatentCache.Proofs.Cache.Counting
import LatentCache.Proofs.Latent.Pieces
import LatentCache.Proofs.Record.Composition
import LatentCache.Proofs.Cache.Coherence
import LatentCache.Proofs.Cache.Decision
import LatentCache.Proofs.Cache.Classification
import LatentCache.Proofs.Latent.Elements
import LatentCache.Proofs.Address.Walk
import LatentCache.Proofs.Latent.Inverse
import LatentCache.Proofs.Cache.Increments
import LatentCache.Proofs.Latent.Grouping
import LatentCache.Proofs.Traversal
import LatentCache.Proofs.Record.Header
import LatentCache.Proofs.Lookup
import LatentCache.Proofs.Record.Framing
import LatentCache.Proofs.Record.Decoding
import LatentCache.Proofs.Record.Delimitation
import LatentCache.Proofs.Cache.TornRecord
import LatentCache.Proofs.Cache.RawRecords
import LatentCache.Proofs.Storage.Writing
import LatentCache.Proofs.Cache.Convergence
import LatentCache.Proofs.Command.Smoke
import LatentCache.Proofs.Command.ExitCodes
import LatentCache.Proofs.Settings.Names
import LatentCache.Proofs.Settings.Overlay
import LatentCache.Proofs.Settings.ReadBack
import LatentCache.Proofs.Settings.Validation
import LatentCache.Proofs.Latent.Patterns
import LatentCache.Proofs.Latent.RangeCheck
import LatentCache.Proofs.Record.Slicing
import LatentCache.Proofs.Address.Uniqueness
import LatentCache.Proofs.Storage.MapSize

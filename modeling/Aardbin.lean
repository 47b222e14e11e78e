import Aardbin.Effect.Program
import Aardbin.Effect.Pool
import Aardbin.Effect.Ownership
import Aardbin.Effect.Transcript
import Aardbin.Effect.Broadcast
import Aardbin.Rust.Text
import Aardbin.Rust.Int64
import Aardbin.I18n
import Aardbin.Views
import Aardbin.Vendor
import Aardbin.Config
import Aardbin.Crypto
import Aardbin.Render
import Aardbin.Db
import Aardbin.Files
import Aardbin.Percent
import Aardbin.Disposition
import Aardbin.Duration
import Aardbin.Store
import Aardbin.Form
import Aardbin.Handlers
import Aardbin.FormText
import Aardbin.PlainVendor
import Aardbin.BlobCodec
import Aardbin.Notify.Unsent
import Aardbin.Rollback
import Aardbin.ApiRecord
import Aardbin.Repost
import Aardbin.Notify.Failures
import Aardbin.Notify.Protocol
import Aardbin.Notify.Announced
import Aardbin.Notify.Delivery
import Aardbin.Custody.Protocol
import Aardbin.FormFiles
import Aardbin.FormLimits
import Aardbin.Custody.Invariant
import Aardbin.Custody.Ledger
import Aardbin.Custody.Orphans
import Aardbin.Custody.AttachmentLimit
import Aardbin.Isolation
import Aardbin.Saving.Protocol
import Aardbin.Saving.LastSave
import Aardbin.Saving.Undecryptable
import Aardbin.Auth.Limiter
import Aardbin.Auth.Session
import Aardbin.Auth.Login
import Aardbin.Auth.Guesses
import Aardbin.Auth.Attempt
import Aardbin.Auth.BruteForce
import Aardbin.Auth.Guard
import Aardbin.Auth.SessionSoundness
import Aardbin.Effect.Serial
import Aardbin.Auth.SlidingWindow
import Aardbin.Auth.RetryAfter
import Aardbin.Rust.Decimal
import Aardbin.Auth.TokenGrammar
import Aardbin.Auth.SessionLifetime
import Aardbin.Paging
import Aardbin.Listing
import Aardbin.Pagination
import Aardbin.PageArithmetic
import Aardbin.PagePartition
import Aardbin.BoundParameters
import Aardbin.UploadForm
import Aardbin.Html
import Aardbin.Templates
import Aardbin.Reachability
import Aardbin.BatchedLookup
import Aardbin.Cookies
import Aardbin.TitleFallback
import Aardbin.Resave
import Aardbin.Effect.Interrupted
import Aardbin.Migration
import Aardbin.Custody.Provenance
import Aardbin.Rust.Pattern
import Aardbin.Effect.Embedding
import Aardbin.Effect.Projection
import Aardbin.Http.OriginGuard
import Aardbin.Http.Handlers
import Aardbin.Http.Router
import Aardbin.Http.Refinement
import Aardbin.Http.Mediation
import Aardbin.Http.Downloads
import Aardbin.Bin.Spec
import Aardbin.Bin.Abstraction
import Aardbin.Bin.Refinement
import Aardbin.Bin.Reads
import Aardbin.Bin.Frame
import Aardbin.Live.Announced
import Aardbin.Live.FreshList
import Aardbin.Live.Tab
import Aardbin.Live.Stream
import Aardbin.Live.Synced
import Aardbin.Live.Convergence
import Aardbin.Http.Lifetime
import Aardbin.Cli.Client
import Aardbin.Cli.Requests
import Aardbin.Cli.Machine
import Aardbin.Cli.RoundTrip

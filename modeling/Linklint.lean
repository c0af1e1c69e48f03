import Linklint.Cli.Args
import Linklint.Cli.ArgsRoundTrip
import Linklint.Cli.Lines
import Linklint.Cli.Policy
import Linklint.Cli.Render
import Linklint.Cli.Run
import Linklint.Cli.RunContract
import Linklint.Compare.CompareUrls
import Linklint.Compare.NormalForm
import Linklint.Compare.Relations
import Linklint.Compare.SuffixList
import Linklint.Data.Brands
import Linklint.Data.CloudMetadata
import Linklint.Data.Confusables
import Linklint.Data.IpRanges
import Linklint.Detectors.AddressKeys
import Linklint.Detectors.AmbiguousNumericHost
import Linklint.Detectors.AsciiHomoglyph
import Linklint.Detectors.BrandHomoglyph
import Linklint.Detectors.Checks
import Linklint.Detectors.ControlChar
import Linklint.Detectors.EncodingObfuscation
import Linklint.Detectors.Homograph
import Linklint.Detectors.IpClassification
import Linklint.Detectors.LocaleCaseCollapse
import Linklint.Detectors.LowByteTruncation
import Linklint.Detectors.OpenRedirectParam
import Linklint.Detectors.RangeReference
import Linklint.Detectors.RedirectAuthority
import Linklint.Enrichment.AdditiveEvidence
import Linklint.Enrichment.Boundary
import Linklint.Enrichment.CacheStore
import Linklint.Enrichment.CacheUse
import Linklint.Enrichment.Causes
import Linklint.Enrichment.Clone
import Linklint.Enrichment.Deadline
import Linklint.Enrichment.Fold
import Linklint.Enrichment.Governor
import Linklint.Enrichment.KeyPrivacy
import Linklint.Enrichment.Lifecycle
import Linklint.Enrichment.Plan
import Linklint.Enrichment.PlanBoard
import Linklint.Enrichment.PlanRuns
import Linklint.Enrichment.PlanSchedule
import Linklint.Enrichment.PlanTurns
import Linklint.Enrichment.Protocol
import Linklint.Enrichment.Reading
import Linklint.Enrichment.Report
import Linklint.Enrichment.Runner
import Linklint.Enrichment.SuppressionAlgebra
import Linklint.Enrichment.TotalBoundary
import Linklint.Inspect
import Linklint.Inspect.AgentMode
import Linklint.Inspect.FailedChecks
import Linklint.Inspect.Isolation
import Linklint.Inspect.NeverThrows
import Linklint.Inspect.Reasons
import Linklint.Js.CodePoints
import Linklint.Js.CodecRoundTrip
import Linklint.Js.Codecs
import Linklint.Js.Date
import Linklint.Js.Host
import Linklint.Js.Json
import Linklint.Js.Number
import Linklint.Js.ParseArgs
import Linklint.Js.Text
import Linklint.Js.Url
import Linklint.Js.Value
import Linklint.Lib.Base128
import Linklint.Lib.BoundedFixpoint
import Linklint.Lib.Custody
import Linklint.Lib.CycleSearch
import Linklint.Lib.Disguise
import Linklint.Lib.ExpiringStore
import Linklint.Lib.GuardedLoop
import Linklint.Lib.Interaction
import Linklint.Lib.Interleaving
import Linklint.Lib.KeyedIndex
import Linklint.Lib.Numeral
import Linklint.Lib.Parallel
import Linklint.Lib.PrefixTable
import Linklint.Lib.StableSort
import Linklint.Lib.Substitution
import Linklint.Lib.SuffixRules
import Linklint.Lib.TimedPotential
import Linklint.Mirrors.AtomicUpdate
import Linklint.Mirrors.Cadence
import Linklint.Mirrors.CredentialBoundary
import Linklint.Mirrors.Csv
import Linklint.Mirrors.CsvRoundTrip
import Linklint.Mirrors.DamagedFeeds
import Linklint.Mirrors.ExactMatching
import Linklint.Mirrors.ExactUrl
import Linklint.Mirrors.FeedLookup
import Linklint.Mirrors.FeedUpdate
import Linklint.Mirrors.MirrorHttp
import Linklint.Mirrors.PhishTank
import Linklint.Mirrors.SnapshotHistory
import Linklint.Mirrors.Urlhaus
import Linklint.Parse.AddressText
import Linklint.Parse.CanonicalIpv6
import Linklint.Parse.Context
import Linklint.Parse.Decode
import Linklint.Parse.InetAton
import Linklint.Parse.Ip
import Linklint.Parse.Ipv6Forms
import Linklint.Parse.LetterCase
import Linklint.Parse.Lossless
import Linklint.Parse.NumericHost
import Linklint.Parse.RawParts
import Linklint.Parse.RawTokens
import Linklint.Parse.Runtime
import Linklint.Parse.StrictQuads
import Linklint.Platform
import Linklint.Policy.Axes
import Linklint.Policy.HostLockdown
import Linklint.Reputation.CleartextRdap
import Linklint.Reputation.DnsState
import Linklint.Reputation.DnsEvidence
import Linklint.Reputation.DnsContract
import Linklint.Reputation.RdapAge
import Linklint.Reputation.RdapAgeFinding
import Linklint.Reputation.RdapBootstrap
import Linklint.Reputation.RdapClient
import Linklint.Resolution.ChainContract
import Linklint.Resolution.ChainReport
import Linklint.Resolution.ChainWalk
import Linklint.Resolution.DivergenceContract
import Linklint.Resolution.DivergenceProbe
import Linklint.Resolution.EmbeddedWrapper
import Linklint.Resolution.MimeSniff
import Linklint.Resolution.OfflineEvidence
import Linklint.Resolution.ProofpointV3
import Linklint.Resolution.RedirectChain
import Linklint.Resolution.Refresh
import Linklint.Resolution.Rescoring
import Linklint.Resolution.WrapperFormats
import Linklint.Resolution.WrapperReport
import Linklint.Resolution.WrapperUnwrap
import Linklint.Schema.Enrich
import Linklint.Schema.EnrichmentGuards
import Linklint.Schema.Options
import Linklint.Schema.ReasonCodes
import Linklint.Schema.Result
import Linklint.Schema.Serialize
import Linklint.Scoring
import Linklint.Sources.Disclosure
import Linklint.Transport.Address
import Linklint.Transport.Decompression
import Linklint.Transport.DerNesting
import Linklint.Transport.FailClosed
import Linklint.Transport.FetchInvariant
import Linklint.Transport.FetchState
import Linklint.Transport.FetchTurns
import Linklint.Transport.NodePorts
import Linklint.Transport.NodePortsClosed
import Linklint.Transport.NodePortsSafety
import Linklint.Transport.OidBody
import Linklint.Transport.Outcome
import Linklint.Transport.Pin
import Linklint.Transport.PinnedFetch
import Linklint.Transport.Request
import Linklint.Transport.SafeSession
import Linklint.Transport.SessionBudgets
import Linklint.Transport.SessionInvariant
import Linklint.Transport.TlsCertificate
import Linklint.Transport.TlsDer
import Linklint.Transport.TlsInspect
import Linklint.Transport.TlsInspectRuns
import Linklint.Transport.Types
import Linklint.Unicode.AceLabels
import Linklint.Unicode.Normalize
import Linklint.Unicode.Punycode
import Linklint.Unicode.PunycodeRoundTrip
import Linklint.Unicode.Skeleton

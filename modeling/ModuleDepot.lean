import ModuleDepot.Archive.CodePage
import ModuleDepot.Archive.Container
import ModuleDepot.Archive.Entry
import ModuleDepot.Archive.Inflate
import ModuleDepot.Archive.Layout
import ModuleDepot.Bytes.Base64
import ModuleDepot.Bytes.Checksum
import ModuleDepot.Bytes.Equality
import ModuleDepot.Bytes.Utf8
import ModuleDepot.Bytes.Word
import ModuleDepot.CommandLine
import ModuleDepot.Coordinate
import ModuleDepot.Database
import ModuleDepot.EscapedPath
import ModuleDepot.Fault
import ModuleDepot.Http.Exchange
import ModuleDepot.Http.MediaType
import ModuleDepot.Http.Message
import ModuleDepot.Http.SocketAddress
import ModuleDepot.Http.Status
import ModuleDepot.Index
import ModuleDepot.Json.Decode
import ModuleDepot.Json.Reader
import ModuleDepot.Json.Value
import ModuleDepot.Json.Writer
import ModuleDepot.Launch
import ModuleDepot.Main
import ModuleDepot.Moment
import ModuleDepot.Origin.OpenProxy
import ModuleDepot.Origin.Page
import ModuleDepot.Origin.Request
import ModuleDepot.Origin.Resolver
import ModuleDepot.Origin.Template
import ModuleDepot.Origin.Transform
import ModuleDepot.Problem
import ModuleDepot.Procedure
import ModuleDepot.Program
import ModuleDepot.Proxy.Call
import ModuleDepot.Proxy.Counter
import ModuleDepot.Proxy.Error
import ModuleDepot.Proxy.ModulePath
import ModuleDepot.Proxy.Reconciler
import ModuleDepot.Proxy.Router
import ModuleDepot.Proxy.State
import ModuleDepot.Registry.Catalog
import ModuleDepot.Registry.Client
import ModuleDepot.Registry.Router
import ModuleDepot.SerialRange
import ModuleDepot.Settings.Basic
import ModuleDepot.Settings.Document
import ModuleDepot.Settings.Environment
import ModuleDepot.Settings.Layer
import ModuleDepot.Settings.Sources
import ModuleDepot.Storage.Archives
import ModuleDepot.Storage.FileStore
import ModuleDepot.Storage.FileTree
import ModuleDepot.Storage.Key
import ModuleDepot.Text.Blank
import ModuleDepot.Text.Digits
import ModuleDepot.Text.Invisible
import ModuleDepot.Text.Quoted
import ModuleDepot.Text.Scalars
import ModuleDepot.Text.Split
import ModuleDepot.Text.Word
import ModuleDepot.Toml.Quoted
import ModuleDepot.Toml.Reader
import ModuleDepot.Toml.Scalar
import ModuleDepot.Toml.Table
import ModuleDepot.Url.Basic
import ModuleDepot.Url.Host
import ModuleDepot.Url.Percent
import ModuleDepot.Url.Punycode
import ModuleDepot.Url.Reader
import ModuleDepot.Version
import ModuleDepot.Width
import ModuleDepot.Wire
import ModuleDepot.Proofs.ArchiveKeys
import ModuleDepot.Proofs.IndexRows
import ModuleDepot.Proofs.ProcedureRuns
import ModuleDepot.Proofs.RangeDiff
import ModuleDepot.Proofs.SerialSets
import ModuleDepot.Proofs.CallEffects
import ModuleDepot.Proofs.ArchiveCustody
import ModuleDepot.Proofs.ProcedureTurns
import ModuleDepot.Proofs.RemovalRace
import ModuleDepot.Proofs.RegistryCycle
import ModuleDepot.Proofs.CatalogOrder
import ModuleDepot.Proofs.CatalogAgreement
import ModuleDepot.Proofs.StaleSerials
import ModuleDepot.Proofs.ArchiveLayout
import ModuleDepot.Proofs.PrivateModules
import ModuleDepot.Proofs.JsonText
import ModuleDepot.Proofs.RangeDiffExchange
import ModuleDepot.Proofs.FileCalls
import ModuleDepot.Proofs.ArchiveFiles
import ModuleDepot.Proofs.ArchiveMap
import ModuleDepot.Proofs.ModulePaths
import ModuleDepot.Proofs.CatalogBatches
import ModuleDepot.Proofs.IndexLedger
import ModuleDepot.Proofs.LinkWalks
import ModuleDepot.Proofs.MadeDirectories
import ModuleDepot.Proofs.Containment
import ModuleDepot.Proofs.Outcomes
import ModuleDepot.Proofs.ReconcileCourses
import ModuleDepot.Proofs.ProxyBooks
import ModuleDepot.Proofs.CycleAccounts
import ModuleDepot.Proofs.ReconcileFrame
import ModuleDepot.Proofs.ServedTransports
import ModuleDepot.Proofs.PercentCoding
import ModuleDepot.Proofs.AddressWeights
import ModuleDepot.Proofs.JoinedPaths
import ModuleDepot.Proofs.OpenProxyAddresses
import ModuleDepot.Proofs.CanonicalRanges
import ModuleDepot.Proofs.ResolutionSteps
import ModuleDepot.Proofs.RequestFields
import ModuleDepot.Proofs.ResolutionFailures
import ModuleDepot.Proofs.TemplateExpansion
import ModuleDepot.Proofs.SpacedTemplates
import ModuleDepot.Proofs.AddressableVersions
import ModuleDepot.Proofs.VersionPrecedence
import ModuleDepot.Proofs.ReplacedEntries
import ModuleDepot.Proofs.WholeWrites
import ModuleDepot.Proofs.RootManifests
import ModuleDepot.Proofs.Utf8Texts
import ModuleDepot.Proofs.WordBytes
import ModuleDepot.Proofs.ReadContainers
import ModuleDepot.Proofs.WrittenContainers
import ModuleDepot.Proofs.IndexedManifests
import ModuleDepot.Proofs.CaseFolding
import ModuleDepot.Proofs.RegistryFallback
import ModuleDepot.Proofs.RemovedArchives
import ModuleDepot.Proofs.ModuleRemoval
import ModuleDepot.Proofs.CycleArchives
import ModuleDepot.Proofs.AddedCoordinates
import ModuleDepot.Proofs.SentHeaders
import ModuleDepot.Proofs.KeyFaults
import ModuleDepot.Proofs.AnsweredStatuses
import ModuleDepot.Proofs.RegistryRequests
import ModuleDepot.Proofs.RepeatedLayout
import ModuleDepot.Proofs.CoveredSerials
import ModuleDepot.Proofs.WrittenCoordinates
import ModuleDepot.Proofs.ProblemRecords
import ModuleDepot.Proofs.VersionLists
import ModuleDepot.Proofs.LeastDeepManifests

import ProxyMonitor.Console.Dashboard
import ProxyMonitor.Console.Details
import ProxyMonitor.Console.Frame
import ProxyMonitor.Console.Input
import ProxyMonitor.Console.Lists
import ProxyMonitor.Directory
import ProxyMonitor.Exposition.Read
import ProxyMonitor.Exposition.Render
import ProxyMonitor.History
import ProxyMonitor.Json.Reader
import ProxyMonitor.Json.Writer
import ProxyMonitor.Main
import ProxyMonitor.Overview
import ProxyMonitor.Rehearsal
import ProxyMonitor.Settings
import ProxyMonitor.Source.File
import ProxyMonitor.Source.Http
import ProxyMonitor.Source.Target
import ProxyMonitor.Proofs.Console.Sessions
import ProxyMonitor.Proofs.Exposition.Stability
import ProxyMonitor.Proofs.PollRuns
import ProxyMonitor.Proofs.Sampling.ReportRequests
import ProxyMonitor.Proofs.Sampling.Shutdown
import ProxyMonitor.Proofs.Portions
import ProxyMonitor.Proofs.Exposition.Statements
import ProxyMonitor.Proofs.Exposition.Assembly
import ProxyMonitor.Proofs.Exposition.Collection
import ProxyMonitor.Proofs.Exposition.SkippedLines
import ProxyMonitor.Proofs.Exposition.Series
import ProxyMonitor.Proofs.Export.Completion
import ProxyMonitor.Proofs.Exposition.Composition
import ProxyMonitor.Proofs.ByteOrder
import ProxyMonitor.Proofs.Reports.Aggregation
import ProxyMonitor.Proofs.Charts.Metrics
import ProxyMonitor.Proofs.Charts.Runs
import ProxyMonitor.Proofs.Feed.Channels
import ProxyMonitor.Proofs.Feed.Delivery
import ProxyMonitor.Proofs.Signs
import ProxyMonitor.Proofs.Charts.Rates
import ProxyMonitor.Proofs.Charts.ElapsedTime
import ProxyMonitor.Proofs.Settings.Layers
import ProxyMonitor.Proofs.Settings.Texts
import ProxyMonitor.Proofs.Sorting.Toggling
import ProxyMonitor.Proofs.Exposition.ImpliedCounts
import ProxyMonitor.Proofs.Distribution.Bars
import ProxyMonitor.Proofs.Sorting.NaturalOrder
import ProxyMonitor.Proofs.Reports.SavedFiles
import ProxyMonitor.Proofs.Reports.Resaving
import ProxyMonitor.Proofs.Console.Inputs
import ProxyMonitor.Proofs.Sampling.PollSpacing
import ProxyMonitor.Proofs.Sampling.Rehearsals
import ProxyMonitor.Proofs.Overview
import ProxyMonitor.Proofs.Exposition.Lookups

import ProxyMonitor.Document
import ProxyMonitor.FetchError
import ProxyMonitor.Report

/-! Sources of proxy data: each of the four kinds of data is fetched or fails on its own. -/

namespace ProxyMonitor

structure SourceData where
  metrics : Except FetchError String
  reports : Except FetchError (List RawReport)
  documents : Except FetchError (List Document)
  info : Except FetchError BuildInfo

end ProxyMonitor

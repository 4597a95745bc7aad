import TrajProxy.Manager.Eviction
import TrajProxy.Manager.Unregistration
import TrajProxy.Archiver.History
import TrajProxy.Sync.Convergence
import TrajProxy.Cache.Isolation
import TrajProxy.Store.BlobPath
import TrajProxy.Pipeline.StoredOnce
import TrajProxy.Infer.Retry
import TrajProxy.Record.Admissible
import TrajProxy.Archiver.Budget
import TrajProxy.Serve.Permits
import TrajProxy.Cache.LongestMatch
import TrajProxy.Direct.Secondary
import TrajProxy.Serve.Arguments
import TrajProxy.Pipeline.Tolerance
import TrajProxy.Record.Tolerance
import TrajProxy.Record.StreamShape
import TrajProxy.Parsers.ReasoningSplit
import TrajProxy.Direct.ToolCallMerge
import TrajProxy.Archiver.Location
import TrajProxy.Filters.ContentSanitizer
import TrajProxy.Store.Lookup
import TrajProxy.Archiver.Partition
import TrajProxy.Observability.RunLabels
import TrajProxy.Observability.ModelLabels
import TrajProxy.Observability.RetryCounts
import TrajProxy.Parsers.HermesParity
import TrajProxy.Archiver.Serial
import TrajProxy.Archiver.Stopping
import TrajProxy.Parsers.Qwen3CoderParity

import VexDB.GraphIndex.PointInsert
import VexDB.GraphIndex.Layering
import VexDB.Sqlite.Reopen
import VexDB.Sqlite.Session
import VexDB.VexFs.Sessions
import VexDB.VexFs.Edits
import VexDB.PgFs.Collecting
import VexDB.PgFs.Restoring
import VexDB.VectorBuffer.CacheSpec
import VexDB.GraphIndex.Flush
import VexDB.GraphIndex.ScanSpec
import VexDB.VectorBuffer.SharedAlloc
import VexDB.VectorBuffer.Compaction
import VexDB.VectorBuffer.SlotGeometry
import VexDB.GraphIndex.ReverseEdges
import VexDB.GraphIndex.BuildMemory
import VexDB.VexFs.Visibility
import VexDB.VexFs.Utf8
import VexDB.VexFs.Usage
import VexDB.DuckDb.FilteredExact
import VexDB.GraphIndex.SearchExact
import VexDB.Gateway.Readdir
import VexDB.FloatVector.Order

import LibRedis.Lib.Decimal
import LibRedis.Lib.Delimited
import LibRedis.Lib.Simulation
import LibRedis.Lib.Resp
import LibRedis.Lib.RespGrammar
import LibRedis.Lib.Scan
import LibRedis.Lib.Places
import LibRedis.Lib.Shards
import LibRedis.Lib.Printf
import LibRedis.Lib.Fifo
import LibRedis.Lib.Grid
import LibRedis.Lib.TreeMaps
import LibRedis.Lib.ForLoops
import LibRedis.Lib.Candidates
import LibRedis.Lib.Heap
import LibRedis.Os
import LibRedis.TcpClientBuffer
import LibRedis.TcpClient
import LibRedis.TcpStream
import LibRedis.ByteStream
import LibRedis.RedisCmd
import LibRedis.RedisProtocol
import LibRedis.Reply
import LibRedis.ReadReply
import LibRedis.ReplyScan
import LibRedis.EncodedScan
import LibRedis.ReadScan
import LibRedis.ReplyFraming
import LibRedis.BulkValues
import LibRedis.TruncatedReply
import LibRedis.ReplyWords
import LibRedis.AcceptedReplies
import LibRedis.Request
import LibRedis.DeclaredTypes
import LibRedis.RespServer
import LibRedis.Pipeline
import LibRedis.PipelinedRuns
import LibRedis.Connection
import LibRedis.TransactionMode
import LibRedis.Redis
import LibRedis.TransactionQueue
import LibRedis.ExecResults
import LibRedis.SelectedDatabase
import LibRedis.RedisTss
import LibRedis.TssDestruction
import LibRedis.ScopedPtr
import LibRedis.RedisBase2
import LibRedis.RedisMethods
import LibRedis.Redis2P
import LibRedis.KeyRouting
import LibRedis.SingleHost
import LibRedis.PartitionedMap
import LibRedis.KeyCommands
import LibRedis.ServerData
import LibRedis.Replicas
import LibRedis.ExecQueue
import LibRedis.AddCommand
import LibRedis.FailedCommand
import LibRedis.StaleErrno
import LibRedis.MultiBulkReaders
import LibRedis.SocketCalls
import LibRedis.WrittenBytes
import LibRedis.DeadConnection
import LibRedis.HostResolver
import LibRedis.FormattedCommand
import LibRedis.Time33
import LibRedis.ReceiveQueue
import LibRedis.BufferGrowth
import LibRedis.BufferMemory
import LibRedis.Layouts
import LibRedis.ReplicaSets
import LibRedis.KeyRows
import LibRedis.Failover
import LibRedis.TableServer
import LibRedis.RandomKey
import LibRedis.OldStyle
import LibRedis.HashRoundTrip
import LibRedis.CommandObjects
import LibRedis.ServerHistory
import LibRedis.Counters
import LibRedis.FallibleMap
import LibRedis.PartitionedServers
import LibRedis.BlockingPop
import LibRedis.WorkQueue
import LibRedis.ReplyMemory
import LibRedis.ReaderMemory
import LibRedis.ClientMemory
import LibRedis.MemoryRuns
import LibRedis.PipelineHistory
import LibRedis.ChosenDatabase
import LibRedis.OneServerMethods
import LibRedis.MethodHistory
import LibRedis.OneServerMap
import LibRedis.SharedServer
import LibRedis.SharedQueue
import LibRedis.TransactionRuns
import LibRedis.SharedTransactions

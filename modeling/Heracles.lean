import Heracles.Business.Retry
import Heracles.Business.StoreFaithful
import Heracles.Base.Decoder
import Heracles.Network.NetConn
import Heracles.Network.TcpConnAsync
import Heracles.Network.Framing
import Heracles.Client.Receiving
import Heracles.Network.SendPath
import Heracles.Network.OpsTimer
import Heracles.Rpc.RpcInstance
import Heracles.Rpc.Codec
import Heracles.Rpc.MonitorTaskService
import Heracles.Base.Timer
import Heracles.Client.RpcClientImpl
import Heracles.Client.CallTimeout
import Heracles.Client.Sending
import Heracles.Client.Pairing
import Heracles.Client.HeraclesClient
import Heracles.Client.Batching
import Heracles.Business.EventRepos
import Heracles.Network.NetConf
import Heracles.Business.Reload
import Heracles.Business.ServiceNames
import Heracles.Business.Partition
import Heracles.Business.Homogeneous
import Heracles.Connect.ConnPool
import Heracles.Base.Grouping
import Heracles.Business.SlotRecords
import Heracles.Business.OrderStats
import Heracles.Business.SlotStored
import Heracles.Business.Groups
import Heracles.Business.Windows
import Heracles.Client.SelectStat
import Heracles.Business.Totals
import Heracles.Business.TwoStores
import Heracles.Business.StoresAgree
import Heracles.Business.Repeatable
import Heracles.Business.SummaryExact
import Heracles.Business.SqlOrder
import Heracles.Business.MetricsScan
import Heracles.Business.FindHandler
import Heracles.Business.ServiceRecovery
import Heracles.Client.Rejection
import Heracles.Client.BatchSize
import Heracles.Business.DefaultSection
import Heracles.Network.Accept
import Heracles.Business.SqlBuffer
import Heracles.Connect.Trim
import Heracles.Utils.Fifo
import Heracles.Utils.TinyTask
import Heracles.Base.SqlLexer
import Heracles.Base.SqlSelect
import Heracles.Rpc.ExecutorConf
import Heracles.Scaffold.ConfHelper
import Heracles.Utils.TimerObject
import Heracles.Business.SqlText
import Heracles.Base.Refine
import Heracles.Base.Serving
import Heracles.Utils.ThreadPool
import Heracles.Utils.PoolStops
import Heracles.Utils.PoolResize
import Heracles.Rpc.Executor
import Heracles.Rpc.ExecutorRuns
import Heracles.Rpc.Dispatcher
import Heracles.Rpc.DispatcherRuns
import Heracles.Client.MonitorRpcClientHelper
import Heracles.Client.Delivery
import Heracles.Base.DoubleChecked
import Heracles.Business.StoreCalls
import Heracles.Business.ReposCalls
import Heracles.Business.Digest
import Heracles.Client.EndToEnd
import Heracles.Client.Setup

import MuduoPlus.ListCut
import MuduoPlus.ListTools
import MuduoPlus.StreamMachine
import MuduoPlus.MemoryBlock
import MuduoPlus.ByteText
import MuduoPlus.Buffer
import MuduoPlus.BufferFifo
import MuduoPlus.BufferGrowth
import MuduoPlus.BufferWrap
import MuduoPlus.HttpRequest
import MuduoPlus.HttpContext
import MuduoPlus.HttpMachine
import MuduoPlus.HttpSegmentation
import MuduoPlus.HttpHead
import MuduoPlus.HttpRaise
import MuduoPlus.HttpRender
import MuduoPlus.HttpRoundTrip
import MuduoPlus.ActionSystem
import MuduoPlus.Channel
import MuduoPlus.TcpConnection
import MuduoPlus.TcpOutput
import MuduoPlus.TcpNotifications
import MuduoPlus.ChannelBooks
import MuduoPlus.ChannelRemoval
import MuduoPlus.EventLoop
import MuduoPlus.EventLoopQueue
import MuduoPlus.InventoryService
import MuduoPlus.InventoryRace
import MuduoPlus.InventoryStock
import MuduoPlus.HttpResponse
import MuduoPlus.HttpServer
import MuduoPlus.HttpDelivery
import MuduoPlus.HttpGiveUp
import MuduoPlus.TcpFileOrder
import MuduoPlus.TcpFileShare
import MuduoPlus.InventoryExec
import MuduoPlus.InventoryLedger
import MuduoPlus.NumberText
import MuduoPlus.OrderRepository
import MuduoPlus.SqlText
import MuduoPlus.OrderSql
import MuduoPlus.CommandProgram
import MuduoPlus.OrderBackend
import MuduoPlus.InputText
import MuduoPlus.OrderCache
import MuduoPlus.Json
import MuduoPlus.JsonText
import MuduoPlus.OrderCreateHandler
import MuduoPlus.OrderCodec
import MuduoPlus.OrderCreateInventory
import MuduoPlus.OrderCreateRecords
import MuduoPlus.OrderService
import MuduoPlus.OrderEventJson
import MuduoPlus.OrderTable
import MuduoPlus.OrderLifecycle
import MuduoPlus.OrderServiceExec
import MuduoPlus.OrderQueryHandler
import MuduoPlus.OrderListing
import MuduoPlus.ProgramPool
import MuduoPlus.OrderCacheRace
import MuduoPlus.TcpWriteInterest
import MuduoPlus.TcpForeignShutdown
import MuduoPlus.PollerMirror
import MuduoPlus.TcpClose
import MuduoPlus.TcpServer
import MuduoPlus.TcpServerTable
import MuduoPlus.MpscQueueRun
import MuduoPlus.AsyncFileSink
import MuduoPlus.LogLocation
import MuduoPlus.SinkStop
import MuduoPlus.SinkFlush
import MuduoPlus.SqlConnPool
import MuduoPlus.SqlPoolShutdown
import MuduoPlus.EventLoopThread
import MuduoPlus.HttpResponseReader
import MuduoPlus.OrderFinality
import MuduoPlus.Session
import MuduoPlus.SessionSafety
import MuduoPlus.SessionDestroyed
import MuduoPlus.SessionCookie
import MuduoPlus.Regex
import MuduoPlus.RegexText
import MuduoPlus.Router
import MuduoPlus.RouterPattern
import MuduoPlus.RouterSelection
import MuduoPlus.RouterInterchange
import MuduoPlus.TlsConnection
import MuduoPlus.TlsPump
import MuduoPlus.HttpTls
import MuduoPlus.SqlStatement
import MuduoPlus.SqlTable
import MuduoPlus.OrderColumns
import MuduoPlus.OrderReadBack
import MuduoPlus.HttpHeadLines
import MuduoPlus.CorsMiddleware
import MuduoPlus.HttpFraming
import MuduoPlus.HttpHeaderCase
import MuduoPlus.MqEventRouter
import MuduoPlus.MqEventExtraction
import MuduoPlus.InventoryRepository
import MuduoPlus.RedisPool
import MuduoPlus.InventoryFaults
import MuduoPlus.InventoryLimits
import MuduoPlus.OrderRollback
import MuduoPlus.OrderCreateFaults
import MuduoPlus.OrderCacheMiss
import MuduoPlus.OrderQuantity
import MuduoPlus.SerialService
import MuduoPlus.TcpStreams
import MuduoPlus.HttpAnswers
import MuduoPlus.HttpService
import MuduoPlus.OrderApplication
import MuduoPlus.OrderCalls
import MuduoPlus.OrderRuns
import MuduoPlus.OrderStored
import MuduoPlus.OrderReadable
import MuduoPlus.SqlChange
import MuduoPlus.SqlExecute
import MuduoPlus.SqlServer
import MuduoPlus.OrderStatements
import MuduoPlus.OrderTexts

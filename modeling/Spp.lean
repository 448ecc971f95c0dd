import Spp.Lib.ByteRegion
import Spp.Lib.Circular
import Spp.ShmMQ.Basic
import Spp.ShmMQ.Record
import Spp.Comm.ConnSet
import Spp.Comm.SockCommu
import Spp.Comm.SockCommuLate
import Spp.Comm.SockCommuRecv
import Spp.Comm.TimerList
import Spp.Comm.TimerListRun
import Spp.Lib.BinaryHeap
import Spp.Lib.Chain
import Spp.Lib.SegmentRing
import Spp.Lib.Words
import Spp.MicroThread.Cache
import Spp.MicroThread.CacheAppend
import Spp.MicroThread.CacheSend
import Spp.MicroThread.EpollProxy
import Spp.MicroThread.HashList
import Spp.MicroThread.HashListChains
import Spp.MicroThread.HashListRun
import Spp.MicroThread.HeapRun
import Spp.MicroThread.MsgSendrcv
import Spp.MicroThread.MsgSendrcvConn
import Spp.Nest.Channel
import Spp.Nest.ChannelRecv
import Spp.Nest.SvrDisp
import Spp.ShmMQ.Concurrent
import Spp.ShmQueue.Basic
import Spp.Comm.Stat
import Spp.Comm.StatRun
import Spp.AsyncFrame.Frame
import Spp.AsyncFrame.FrameRun
import Spp.AsyncFrame.NetHandler
import Spp.AsyncFrame.NetHandlerRun
import Spp.MicroThread.EpollSchedule
import Spp.MicroThread.HeapIndex
import Spp.MicroThread.WriteWait
import Spp.ShmMQ.Bounds
import Spp.ShmQueue.Corrupt
import Spp.ShmQueue.Discard
import Spp.Lib.Loop
import Spp.Lib.Segments
import Spp.MicroThread.CacheRead
import Spp.MicroThread.DispathTcp
import Spp.MicroThread.EpollTimeout
import Spp.MicroThread.HashDestroy
import Spp.Nest.CheckMsg
import Spp.Nest.LoopTimer
import Spp.Nest.LoopTimerIds
import Spp.Nest.MsgCtx
import Spp.Nest.WeightSchedule
import Spp.Lib.Gather
import Spp.MicroThread.WaitSend
import Spp.MicroThread.WaitSendRun
import Spp.Async.SessionRun
import Spp.Comm.ConnFlows
import Spp.Comm.SockCommuBlob
import Spp.Comm.SockCommuDrain
import Spp.Nest.MsgCtxExpire
import Spp.Nest.NestProto
import Spp.Nest.RspCost
import Spp.AsyncFrame.RouteMgr
import Spp.Lib.OrderedMap
import Spp.Nest.AllocPort
import Spp.Nest.ProcMng
import Spp.Nest.SetInfo
import Spp.AsyncFrame.NetMgr
import Spp.Comm.TimeConvert
import Spp.Comm.StatPolicy
import Spp.Comm.StatValues
import Spp.Comm.LogPeriod
import Spp.Comm.StatResult
import Spp.Comm.Report
import Spp.MicroThread.HashPrime
import Spp.MicroThread.ThreadPool
import Spp.Async.ClientOutput
import Spp.ShmMQ.Notify
import Spp.Comm.AttrApi
import Spp.Nest.Link
import Spp.AsyncFrame.StaticRoute

import CpuMonitor.Lib.Buffer
import CpuMonitor.Lib.Run
import CpuMonitor.Lib.Datagrams
import CpuMonitor.Lib.Holding
import CpuMonitor.Lib.Ring
import CpuMonitor.Lib.Text
import CpuMonitor.Lib.Scanf
import CpuMonitor.Lib.Decimal
import CpuMonitor.Lib.Rounding
import CpuMonitor.Lib.Numbering
import CpuMonitor.Lib.Monitor
import CpuMonitor.Network.Message
import CpuMonitor.Network.MessageQueue
import CpuMonitor.Network.QueueCalls
import CpuMonitor.Network.NetConnection
import CpuMonitor.Network.WakeUp
import CpuMonitor.Network.Lifecycle
import CpuMonitor.Network.Teardown
import CpuMonitor.Server.Journal
import CpuMonitor.Server.JournalSpace
import CpuMonitor.Server.JournalShared
import CpuMonitor.Server.JournalReader
import CpuMonitor.Server.JournalContended
import CpuMonitor.Server.JournalTransfer
import CpuMonitor.Server.Export
import CpuMonitor.Server.WaitForConnection
import CpuMonitor.Server.Worker
import CpuMonitor.Server.ProcessCpuUsage
import CpuMonitor.Server.UsageSign
import CpuMonitor.Server.Service
import CpuMonitor.Server.JournalLines
import CpuMonitor.Server.UsageText
import CpuMonitor.Server.JournalEntries
import CpuMonitor.Server.JournalRoom
import CpuMonitor.Server.Classification
import CpuMonitor.Server.Pipeline
import CpuMonitor.Server.Sequential
import CpuMonitor.Server.Flow
import CpuMonitor.Server.Burst
import CpuMonitor.Server.ReplyAddress
import CpuMonitor.Server.Ownership
import CpuMonitor.Server.BufferLedger
import CpuMonitor.Server.Representation
import CpuMonitor.Server.ReadBack
import CpuMonitor.Server.Bounds
import CpuMonitor.Server.Update
import CpuMonitor.Server.Progress
import CpuMonitor.Server.ProcessTree
import CpuMonitor.Server.WorkerLifecycle
import CpuMonitor.Server.Holdings
import CpuMonitor.Server.Link
import CpuMonitor.Client.RequestReply
import CpuMonitor.Client.Lifecycle
import CpuMonitor.Client.CreateContext
import CpuMonitor.Client.SendPid
import CpuMonitor.Client.Program
import CpuMonitor.Client.Node
import CpuMonitor.Client.Printing
import CpuMonitor.Cluster.Exchange
import CpuMonitor.Cluster.Deployment
import CpuMonitor.Cluster.Integrity
import CpuMonitor.Cluster.Counting

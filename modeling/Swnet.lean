import Swnet.Lib.Mem
import Swnet.Lib.Framing
import Swnet.Lib.Runs
import Swnet.Ncb
import Swnet.Tcpal
import Swnet.TcpalSpec
import Swnet.TcpalSafe
import Swnet.Nomem
import Swnet.Reassembly
import Swnet.Write
import Swnet.RoundTrip
import Swnet.Epoll
import Swnet.Fifo
import Swnet.Tx
import Swnet.TxSteps
import Swnet.TxBooks
import Swnet.Drain
import Swnet.SingleWriter
import Swnet.ManyWriters
import Swnet.Link
import Swnet.LinkSteps
import Swnet.Announce
import Swnet.Readable
import Swnet.WakeUp
import Swnet.Shutdown
import Swnet.WriteCall
import Swnet.Lib.Loops
import Swnet.Accept
import Swnet.Lib.Traced
import Swnet.Acts
import Swnet.Establish
import Swnet.Calls
import Swnet.Threads
import Swnet.CloseEvents
import Swnet.IoBlock
import Swnet.Startup
import Swnet.Datagram
import Swnet.Lib.Clist
import Swnet.FifoLinks
import Swnet.Lib.Bytes
import Swnet.Pipe
import Swnet.Registry
import Swnet.Multicast
import Swnet.Arp
import Swnet.ArpSource
import Swnet.RxCalls
import Swnet.Tasks
import Swnet.Lib.Printf
import Swnet.Diagnostics
import Swnet.EcrCalls
import Swnet.EcrLengths
import Swnet.Lib.Channel
import Swnet.WireOrder
import Swnet.Connection
import Swnet.Lib.Lifetime
import Swnet.TxHeap
import Swnet.RxMemory
import Swnet.PoolShutdown
import Swnet.UdpSend
import Swnet.LinkLife
import Swnet.LinkSettled
import Swnet.WriteSteps
import Swnet.Reactor
import Swnet.ReactorSettled

import LinuxWinsock.Addr.Convert
import LinuxWinsock.Events.Mapping
import LinuxWinsock.Events.Reuse
import LinuxWinsock.Events.Signal
import LinuxWinsock.Events.Report
import LinuxWinsock.Events.Closing
import LinuxWinsock.Async.Rollback
import LinuxWinsock.Async.Cancel
import LinuxWinsock.Async.Resolver
import LinuxWinsock.Addr.Literal
import LinuxWinsock.Sockets.Inherit
import LinuxWinsock.Ext.AcceptEx
import LinuxWinsock.Ext.TransmitPackets
import LinuxWinsock.Msg.Atomic
import LinuxWinsock.Msg.Paths
import LinuxWinsock.Startup.Data
import LinuxWinsock.Startup.Count
import LinuxWinsock.Errno
import LinuxWinsock.Addr.Sizing
import LinuxWinsock.Lib.Ledger
import LinuxWinsock.Addr.AddrInfo
import LinuxWinsock.Addr.Copies
import LinuxWinsock.Addr.Wide
import LinuxWinsock.Events.Wait
import LinuxWinsock.Events.WaitAll
import LinuxWinsock.Async.Unlink
import LinuxWinsock.Async.Bounds
import LinuxWinsock.Errno.Confused
import LinuxWinsock.Async.Lengths
import LinuxWinsock.Async.Questions
import LinuxWinsock.Events.Enum
import LinuxWinsock.Ext.TransmitFile
import LinuxWinsock.Ext.FileOffset
import LinuxWinsock.Ext.Descriptors
import LinuxWinsock.Ext.Stale
import LinuxWinsock.Ext.Errors
import LinuxWinsock.Addr.Given
import LinuxWinsock.Ext.ByteOrder
import LinuxWinsock.Ext.Ioctl
import LinuxWinsock.Blocking.Hooks
import LinuxWinsock.Addr.AddrOnly
import LinuxWinsock.Addr.Failed
import LinuxWinsock.Events.FdSet
import LinuxWinsock.Lib.Simulation
import LinuxWinsock.Events.Objects
import LinuxWinsock.Events.Wake
import LinuxWinsock.Lib.Progress
import LinuxWinsock.Startup.Steps
import LinuxWinsock.Startup.Progress
import LinuxWinsock.Events.Ownership
import LinuxWinsock.Events.Monitors
import LinuxWinsock.Async.Threads
import LinuxWinsock.Async.Accounts
import LinuxWinsock.Lib.Fifo
import LinuxWinsock.Msg.Buffers
import LinuxWinsock.Msg.Connection
import LinuxWinsock.Msg.Pipe
import LinuxWinsock.Msg.InOrder
import LinuxWinsock.Sockets.Threads
import LinuxWinsock.Sockets.Refine
import LinuxWinsock.Addr.Lists
import LinuxWinsock.Ext.Transmissions
import LinuxWinsock.Addr.RoundTrip
import LinuxWinsock.LastError.Calls
import LinuxWinsock.LastError.Threads
import LinuxWinsock.Blocking.Threads
import LinuxWinsock.Events.Ready

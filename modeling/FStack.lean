import FStack.Capture.Dump
import FStack.Config.Coverage
import FStack.Config.EalArgs
import FStack.Config.Lists
import FStack.Config.Mask
import FStack.Event.Arming
import FStack.Ipc.Linearity
import FStack.Ipc.Requests
import FStack.Micro.Boundaries
import FStack.Micro.ByteQueue
import FStack.Micro.ForkJoin
import FStack.Micro.HashSize
import FStack.Micro.Isolation
import FStack.Micro.Membership
import FStack.Micro.Punctual
import FStack.Micro.SharedSocket
import FStack.Micro.SysHook
import FStack.Micro.ThreadPool
import FStack.Micro.TimeLimit
import FStack.Nginx.Descriptors
import FStack.Packet.Extension
import FStack.Packet.PortFilter
import FStack.Preload.Answers
import FStack.Preload.Listener
import FStack.Preload.Payload
import FStack.Preload.Responses
import FStack.Receive.Broadcast
import FStack.Receive.Content
import FStack.Receive.Lifetime
import FStack.Receive.Ownership
import FStack.Rss.Reference
import FStack.Syscall.SockAddr
import FStack.Syscall.Vectors
import FStack.Timeout.Stop
import FStack.Transmit.Completion
import FStack.Transmit.PagePool

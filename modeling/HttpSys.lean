import HttpSys.Iocp.Shutdown
import HttpSys.Overlapped.Custody
import HttpSys.Overlapped.Refinement
import HttpSys.Body.Repeat
import HttpSys.Queue.Retention
import HttpSys.Queue.Recycling
import HttpSys.Response.View
import HttpSys.Verb
import HttpSys.Server.Signal
import HttpSys.Server.Concurrency
import HttpSys.Body.Pool
import HttpSys.Body.Growth
import HttpSys.Body.Narrowing
import HttpSys.Queue.Needed
import HttpSys.Queue.Construction
import HttpSys.Queue.Bounds
import HttpSys.Queue.Settling
import HttpSys.Server.Routes
import HttpSys.Server.Lifecycle
import HttpSys.Bench.Load
import HttpSys.Bench.ByteSize
import HttpSys.Iocp.Draining
import HttpSys.Overlapped.Freed
import HttpSys.Queue.Completion
import HttpSys.Body.Session
import HttpSys.Server.Drain
import HttpSys.Overlapped.Reuse
import HttpSys.Response.Echo
import HttpSys.Bench.Sweep
import HttpSys.Server.Promises
import HttpSys.Server.Memory
import HttpSys.Body.Concurrent
import HttpSys.Bench.Stopping

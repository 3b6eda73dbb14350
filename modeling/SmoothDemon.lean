import SmoothDemon.Benchmark.Figures
import SmoothDemon.Benchmark.FrameMetrics
import SmoothDemon.Benchmark.HighResTimer
import SmoothDemon.Benchmark.Percentiles
import SmoothDemon.Benchmark.Reference
import SmoothDemon.Benchmark.RingBuffer
import SmoothDemon.Capture.BufferReturn
import SmoothDemon.Capture.Cleanup
import SmoothDemon.Capture.Deliveries
import SmoothDemon.Capture.FrameTypes
import SmoothDemon.Capture.Handles
import SmoothDemon.Capture.Handovers
import SmoothDemon.Capture.PipeWireCapture
import SmoothDemon.Capture.PortalHandshake
import SmoothDemon.Capture.PortalRequests
import SmoothDemon.Capture.PortalReturns
import SmoothDemon.Capture.PortalSession
import SmoothDemon.Capture.PtsTiming
import SmoothDemon.Capture.Recycling
import SmoothDemon.Capture.Sessions
import SmoothDemon.Capture.Shutdown
import SmoothDemon.Capture.StopReturns
import SmoothDemon.Capture.StreamEvents
import SmoothDemon.Capture.Threads
import SmoothDemon.Capture.Transfers
import SmoothDemon.Compute.OpenCLBuffer
import SmoothDemon.Compute.OpenCLContext
import SmoothDemon.Compute.OpenCLDevice
import SmoothDemon.Compute.OpenCLProfiling
import SmoothDemon.Compute.OpenCLProgram
import SmoothDemon.Compute.VectorAdd
import SmoothDemon.Library.Custody
import SmoothDemon.Library.Decay
import SmoothDemon.Library.Grid
import SmoothDemon.Library.Keys
import SmoothDemon.Library.Ledger
import SmoothDemon.Library.Ranks
import SmoothDemon.Library.Records
import SmoothDemon.Library.Rounding
import SmoothDemon.Library.Run
import SmoothDemon.Library.Samples
import SmoothDemon.Library.Text
import SmoothDemon.Library.While
import SmoothDemon.Monitor.CpuMetrics
import SmoothDemon.Monitor.CpuMonitor
import SmoothDemon.Monitor.CpuTime
import SmoothDemon.Monitor.Drm
import SmoothDemon.Monitor.GpuMonitor
import SmoothDemon.Monitor.GpuProcess
import SmoothDemon.Monitor.GpuTotals
import SmoothDemon.Monitor.MemoryMonitor
import SmoothDemon.Monitor.OnlineCores
import SmoothDemon.Monitor.PidStat
import SmoothDemon.Monitor.ProcStat
import SmoothDemon.Monitor.ProcessMonitor
import SmoothDemon.Monitor.ProcessReport
import SmoothDemon.Monitor.ProcessRuns
import SmoothDemon.Monitor.Procfs
import SmoothDemon.Monitor.Temperature
import SmoothDemon.Pacer.DrawTime
import SmoothDemon.Pacer.Estimate
import SmoothDemon.Pacer.PacedLoop
import SmoothDemon.Pacer.PresentationPacer
import SmoothDemon.Pacer.Schedule
import SmoothDemon.Pacer.TimerDescriptors
import SmoothDemon.Pacer.TimerFd
import SmoothDemon.Pacer.TimerWaits
import SmoothDemon.Pacer.Wakeup
import SmoothDemon.Resource.CpuAffinity
import SmoothDemon.Resource.IOPriority
import SmoothDemon.Resource.ProcessScheduler
import SmoothDemon.Resource.Renice
import SmoothDemon.System.CpuInfo
import SmoothDemon.System.GpuInfo
import SmoothDemon.System.Metadata

import SmartScheduler.CInt
import SmartScheduler.Kernel.Signature
import SmartScheduler.Kernel.Store
import SmartScheduler.Kernel.Sampler
import SmartScheduler.Kernel.Counters
import SmartScheduler.Daemon.State
import SmartScheduler.Daemon.Table
import SmartScheduler.Daemon.Run
import SmartScheduler.Daemon.Cooldown
import SmartScheduler.Daemon.Sink
import SmartScheduler.Daemon.Escalation
import SmartScheduler.Text.Format
import SmartScheduler.Kernel.Procfs
import SmartScheduler.Views.Predictions
import SmartScheduler.Views.Stats
import SmartScheduler.Kernel.Ema
import SmartScheduler.Kernel.Samples
import SmartScheduler.Daemon.Accounting
import SmartScheduler.Daemon.Summary
import SmartScheduler.Ebpf.Map
import SmartScheduler.Ebpf.IoTrace
import SmartScheduler.Ebpf.CpuTrace
import SmartScheduler.Ebpf.MemTrace
import SmartScheduler.Views.TopSpikes
import SmartScheduler.Views.HealthCheck
import SmartScheduler.Views.Monitor
import SmartScheduler.Views.Status
import SmartScheduler.Views.Display
import SmartScheduler.Views.MainLoop
import SmartScheduler.Views.Response

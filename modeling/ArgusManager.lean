import ArgusManager.Bin.MockManager
import ArgusManager.Bin.MockPair
import ArgusManager.Bin.MockPeer
import ArgusManager.Channel.Attach
import ArgusManager.Channel.Connections
import ArgusManager.Channel.Framing
import ArgusManager.Channel.Inbound
import ArgusManager.Channel.Reader
import ArgusManager.Evaluator
import ArgusManager.Evaluator.Hysteresis
import ArgusManager.Float
import ArgusManager.Float.Extremes
import ArgusManager.Float.Parse
import ArgusManager.Lib.Agenda
import ArgusManager.Lib.Changes
import ArgusManager.Lib.Decimal
import ArgusManager.Lib.EntryMap
import ArgusManager.Lib.Lag
import ArgusManager.Lib.Ledger
import ArgusManager.Lib.MaxQueue
import ArgusManager.Lib.Polling
import ArgusManager.Lib.Relaxed
import ArgusManager.Lib.StrScan
import ArgusManager.Lib.Unicode
import ArgusManager.Lib.Walk
import ArgusManager.LuaPolicy
import ArgusManager.LuaPolicy.Axes
import ArgusManager.LuaPolicy.Commands
import ArgusManager.LuaPolicy.Latch
import ArgusManager.LuaPolicy.Pressures
import ArgusManager.LuaPolicy.Reload
import ArgusManager.Main.ClosedLoop
import ArgusManager.Main.Dedup
import ArgusManager.Main.DedupTrace
import ArgusManager.Main.DefaultPolicy
import ArgusManager.Main.DirectiveSize
import ArgusManager.Main.EndToEnd
import ArgusManager.Main.EventLoop
import ArgusManager.Main.Schedule
import ArgusManager.Main.Telemetry
import ArgusManager.Monitor.Compute
import ArgusManager.Monitor.Energy
import ArgusManager.Monitor.External
import ArgusManager.Monitor.GpuProvider
import ArgusManager.Monitor.Levels
import ArgusManager.Monitor.Meminfo
import ArgusManager.Monitor.Memory
import ArgusManager.Monitor.ProcStat
import ArgusManager.Monitor.Sysfs
import ArgusManager.Monitor.Thermal
import ArgusManager.Policy.Tbt
import ArgusManager.Policy.Triggers
import ArgusManager.Scripts.PolicyDefault.Failover
import ArgusManager.Scripts.PolicyDefault.Hosted
import ArgusManager.Scripts.PolicyDefault.Stress
import ArgusManager.Sim.Bytes
import ArgusManager.Sim.Chronology
import ArgusManager.Sim.Clock
import ArgusManager.Sim.Compose
import ArgusManager.Sim.ComposeMaps
import ArgusManager.Sim.ComposeOrder
import ArgusManager.Sim.Compression
import ArgusManager.Sim.Config
import ArgusManager.Sim.Coupling
import ArgusManager.Sim.Delivery
import ArgusManager.Sim.Derived
import ArgusManager.Sim.DerivedLag
import ArgusManager.Sim.DerivedOrder
import ArgusManager.Sim.Dvfs
import ArgusManager.Sim.Expr
import ArgusManager.Sim.Extends
import ArgusManager.Sim.Harness
import ArgusManager.Sim.Heap
import ArgusManager.Sim.Heartbeats
import ArgusManager.Sim.Horizon
import ArgusManager.Sim.Injection
import ArgusManager.Sim.Instants
import ArgusManager.Sim.LagLaws
import ArgusManager.Sim.Noise
import ArgusManager.Sim.Panics
import ArgusManager.Sim.Passive
import ArgusManager.Sim.Physics
import ArgusManager.Sim.Preload
import ArgusManager.Sim.Replay
import ArgusManager.Sim.Runs
import ArgusManager.Sim.SetRule
import ArgusManager.Sim.Split
import ArgusManager.Sim.State
import ArgusManager.Sim.Step
import ArgusManager.Sim.Ticked
import ArgusManager.Sim.Transitions
import ArgusManager.Sim.Twin
import ArgusManager.Sim.Yaml
import ArgusManager.Float.Round

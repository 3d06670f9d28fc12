import Schism.Arm64
import Schism.Boot
import Schism.Console
import Schism.El2Mmu
import Schism.Esr
import Schism.GuestMonitor
import Schism.GuestThreads
import Schism.Guests
import Schism.HostContext
import Schism.Layout
import Schism.Machine
import Schism.Main
import Schism.PageTables
import Schism.Proofs.AgreeProofs
import Schism.Proofs.Arm64Proofs
import Schism.Proofs.AsyncProofs
import Schism.Proofs.BitsProofs
import Schism.Proofs.BootProofs
import Schism.Proofs.CoherenceProofs
import Schism.Proofs.ConsoleProofs
import Schism.Proofs.ContextProofs
import Schism.Proofs.DescriptorProofs
import Schism.Proofs.El1VectorsProofs
import Schism.Proofs.El2BootProofs
import Schism.Proofs.El2CallsProofs
import Schism.Proofs.El2MmuProofs
import Schism.Proofs.EsrProofs
import Schism.Proofs.FrameLawProofs
import Schism.Proofs.GuestProofs
import Schism.Proofs.GuestThreadsProofs
import Schism.Proofs.HostContextProofs
import Schism.Proofs.IsolationProofs
import Schism.Proofs.LoopProofs
import Schism.Proofs.MainProofs
import Schism.Proofs.MonitorProofs
import Schism.Proofs.NoninterferenceProofs
import Schism.Proofs.PageTablesProofs
import Schism.Proofs.PoolProofs
import Schism.Proofs.RangeProofs
import Schism.Proofs.RebuildProofs
import Schism.Proofs.RefinementProofs
import Schism.Proofs.ReportAccessProofs
import Schism.Proofs.RoundRobinProofs
import Schism.Proofs.RunLogProofs
import Schism.Proofs.RunProofs
import Schism.Proofs.S2MmuProofs
import Schism.Proofs.SchedProofs
import Schism.Proofs.SchedRunProofs
import Schism.Proofs.SchedulesProofs
import Schism.Proofs.ServedProofs
import Schism.Proofs.ShadowProofs
import Schism.Proofs.SlotProofs
import Schism.Proofs.Stage2Proofs
import Schism.Proofs.StartProofs
import Schism.Proofs.SurvivalProofs
import Schism.Proofs.SwitchProofs
import Schism.Proofs.SysregProofs
import Schism.Proofs.TaskReportProofs
import Schism.Proofs.ThreadsProofs
import Schism.Proofs.TimeProofs
import Schism.Proofs.TimerProofs
import Schism.Proofs.TranscriptProofs
import Schism.Proofs.TrapProofs
import Schism.Proofs.TvalProofs
import Schism.Proofs.VectorsProofs
import Schism.Proofs.ViewProofs
import Schism.Proofs.WorldSwitchProofs
import Schism.Proofs.XorProofs
import Schism.Proofs.YieldProofs
import Schism.RoundRobin
import Schism.Run
import Schism.RunLog
import Schism.S2Mmu
import Schism.Sched
import Schism.Schedules
import Schism.Switch
import Schism.Threads
import Schism.Trap
import Schism.Vcpu
import Schism.Vectors
import Schism.WorldSwitch

import LinuxWrr.Lib.PrioArray
import LinuxWrr.Lib.Reach
import LinuxWrr.Sched.Types
import LinuxWrr.Sched.Core
import LinuxWrr.Sched.Rep
import LinuxWrr.Sched.Frame
import LinuxWrr.Sched.Move
import LinuxWrr.Sched.Inv
import LinuxWrr.Sched.Run
import LinuxWrr.Sched.RunQueue
import LinuxWrr.Sched.Effect
import LinuxWrr.Sched.Current
import LinuxWrr.Sched.Preempt
import LinuxWrr.Sched.ClassPolicy
import LinuxWrr.Sched.Setscheduler
import LinuxWrr.Lib.RoundRobin
import LinuxWrr.Sched.Shares
import LinuxWrr.Sched.Switch
import LinuxWrr.Group.Hierarchy
import LinuxWrr.Sched.Stage
import LinuxWrr.Sched.Slices
import LinuxWrr.Sched.GroupPath
import LinuxWrr.Sched.Yield
import LinuxWrr.Lib.Stopwatch
import LinuxWrr.Sched.Accounting
import LinuxWrr.Sched.Fork
import LinuxWrr.Sched.Normalize
import LinuxWrr.Sched.Cgroup
import LinuxWrr.Group.HighestPrio
import LinuxWrr.Group.Core
import LinuxWrr.Group.TaskFork
import LinuxWrr.Group.Alloc
import LinuxWrr.Lib.Word
import LinuxWrr.Lib.Pool
import LinuxWrr.Lib.Loop
import LinuxWrr.Rt.Bandwidth
import LinuxWrr.Rt.Runtime
import LinuxWrr.Rt.BandwidthRun
import LinuxWrr.Sched.Hotplug
import LinuxWrr.Lib.Census
import LinuxWrr.Lib.Plist
import LinuxWrr.Rt.PushPull
import LinuxWrr.Rt.Overload
import LinuxWrr.Rt.OverloadInv
import LinuxWrr.Rt.Balance
import LinuxWrr.Rt.Pull
import LinuxWrr.Rt.Push
import LinuxWrr.Wait.Queue
import LinuxWrr.Wait.Completion
import LinuxWrr.Wait.Wakeup
import LinuxWrr.Wait.WakeupInv
import LinuxWrr.Wait.WakeupRun
import LinuxWrr.Lib.Forest
import LinuxWrr.Tg.RtRun
import LinuxWrr.Tg.CfsRun

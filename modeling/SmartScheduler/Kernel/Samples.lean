import SmartScheduler.Kernel.Sampler
import SmartScheduler.Kernel.Ema

/-!
# Sample arithmetic

The three samples and `update_ema` compute in `u64` and `int` with no range check. An
`(int)` cast keeps a value exactly when it is at most `INT_MAX` (`toInt32_natCast_eq_iff`),
and `update_ema` is the floor of `(30 s + 70 e) / 100` exactly when that sum fits
(`updateEma_eq`). Neither is guaranteed: the divisor of `get_cpu_sample` wraps to 0 when
`start_time` is one past `jiffies`, a large `total_vm` casts to a different `int`, and a
memory sample of 419430400 sends the EMA negative (`sampling_arithmetic_wraps`).

`get_cpu_sample` also mixes units: `task->utime`, `task->stime` and `task->start_time` are
nanoseconds, `jiffies` counts timer ticks from `INITIAL_JIFFIES`, and the quotient is scaled
by 100. So the sample is not the documented share `0..10000` of the time since the task
started (`cpu_sample_mixes_units`).
-/

namespace SmartScheduler.Kernel

theorem toInt32_natCast_eq_iff (n : Nat) : toInt32 n = n ↔ (n : Int) ≤ intMax := by
  unfold toInt32 intMax
  omega

def lateStartTask : Task where
  pid := 1
  comm := ['a']
  kthread := false
  exitState := 0
  utime := 0
  stime := 0
  startTime := 1
  totalVm := none
  readBytes := 0
  writeBytes := 0

def hugeVmTask : Task := { lateStartTask with startTime := 0, totalVm := some 1099511627776 }

/-- A user task with `total_vm = 2^32` pages: a memory sample of 419430400, which the cast
keeps. -/
def bigVmTask : Task := { lateStartTask with startTime := 0, totalVm := some 4294967296 }

/-- At `jiffies = 0` a task started at 1 gets the divisor `0 - 1 + 1 = 0`: the tick faults
and has no next state. A `total_vm` of `2^40` pages makes `total_vm * 100 / 1024 =
107374182400`, which the cast turns into 0. And one tick of `bigVmTask` from load stores a
memory EMA of -3019898 for a sample of 419430400 and an old EMA of 0, where the floor of
`(30 s + 70 e) / 100` is 125829120: `30 * 419430400` overflows `int`. -/
theorem sampling_arithmetic_wraps :
    getCpuSample 0 lateStartTask = none ∧
    runTicks false [⟨0, fun _ => true, [lateStartTask]⟩] Store.init = none ∧
    (hugeVmTask.totalVm.map fun vm => (vm * 100 / 1024).toNat) = some 107374182400 ∧
    getMemSample hugeVmTask = 0 ∧
    getMemSample bigVmTask = 419430400 ∧
    ∃ st, runTicks false [⟨0, fun _ => true, [bigVmTask]⟩] Store.init = some st ∧
      st.signatures.map ProcSignature.memEma = [-3019898] ∧
      (30 * 419430400 + 70 * 0) / 100 = (125829120 : Int) := by
  have fault : getCpuSample 0 lateStartTask = none := by decide
  obtain ⟨st, run, signatures⟩ := @runTicks_single false 0 bigVmTask 0 rfl rfl (by decide)
  exact ⟨fault, by simp [runTicks, sampleTimerCallback, sampleTask, fault,
      show lateStartTask.kthread = false from rfl, show lateStartTask.exitState = 0 from rfl],
    by decide, by decide, by decide, st, run, by rw [signatures]; decide, by decide⟩

/-- `INITIAL_JIFFIES` of `<linux/jiffies.h>`, `(unsigned long)(unsigned int)(-300 * HZ)`:
`jiffies` starts five minutes short of its 32-bit wrap. -/
def initialJiffies (hz : Nat) : UInt64 := UInt64.ofNat ((-(300 * hz : Int)) % 4294967296).toNat

def jiffiesAfter (hz nowNs : Nat) : UInt64 :=
  initialJiffies hz + UInt64.ofNat (nowNs * hz / 1000000000)

/-- A user task started `startNs` nanoseconds after boot that has run `cpuNs` nanoseconds:
`start_time`, `utime` and `stime` are nanoseconds in `task_struct`. -/
def nsTask (startNs cpuNs : Nat) : Task :=
  { lateStartTask with startTime := UInt64.ofNat startNs, utime := UInt64.ofNat cpuNs }

/-- The share the comment of `get_cpu_sample` documents, "0-10000 for 0-100%", of the time
since the task started. -/
def documentedCpuShare (cpuNs elapsedNs : Nat) : Nat := 10000 * cpuNs / elapsedNs

/-- With `HZ = 250`, 11 s after boot: a task started at 1 s that has run 5 s has the
documented share 5000 but the sample 151; a task started 4294895046 ns after boot, the
nanosecond count that equals `jiffies`, that has run 0.1 ms has the documented share 0 but
the sample 10000000, and one tick from load gives it a CPU EMA of 3000000. -/
theorem cpu_sample_mixes_units :
    (5000000000 ≤ 11000000000 - 1000000000 ∧
      getCpuSample (jiffiesAfter 250 11000000000) (nsTask 1000000000 5000000000) = some 151 ∧
      documentedCpuShare 5000000000 (11000000000 - 1000000000) = 5000) ∧
    (100000 ≤ 11000000000 - 4294895046 ∧
      getCpuSample (jiffiesAfter 250 11000000000) (nsTask 4294895046 100000) = some 10000000 ∧
      documentedCpuShare 100000 (11000000000 - 4294895046) = 0) ∧
    ∃ st, runTicks false [⟨jiffiesAfter 250 11000000000, fun _ => true,
        [nsTask 4294895046 100000]⟩] Store.init = some st ∧
      st.signatures.map ProcSignature.cpuEma = [3000000] := by
  have sample : getCpuSample (jiffiesAfter 250 11000000000) (nsTask 4294895046 100000) =
      some 10000000 := by decide
  obtain ⟨st, run, signatures⟩ := @runTicks_single false _ _ _ rfl rfl sample
  exact ⟨⟨by decide, by decide, by decide⟩, ⟨by decide, sample, by decide⟩, st, run,
    by rw [signatures]; decide⟩

end SmartScheduler.Kernel

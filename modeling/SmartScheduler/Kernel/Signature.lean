import SmartScheduler.CInt

/-!
# Signatures and the predictor

`struct proc_signature` and `update_signature` of `smartscheduler.c`, with the EMA,
rate-of-change and threshold helpers it calls. `PredictorInv` is what a signature holds
from its creation by `get_or_create_signature` on, whatever samples its updates get: the
rates of change are the exact EMA differences, and the flags are this tick's three strict
threshold tests over `FLAG_ACTIVE`.
-/

namespace SmartScheduler.Kernel

def alpha : Int := 30

def alphaComplement : Int := 100 - alpha

def cpuSpikeThreshold : Int := 2000

def memSpikeThreshold : Int := 1500

def ioSpikeThreshold : Int := 1000

def flagCpuSpikePredicted : UInt32 := 1

def flagMemSpikePredicted : UInt32 := 2

def flagIoSpikePredicted : UInt32 := 4

def flagActive : UInt32 := 128

def taskCommLen : Nat := 16

structure ProcSignature where
  pid : Int
  comm : List Char
  cpuEma : Int
  memEma : Int
  ioEma : Int
  cpuPrev : Int
  memPrev : Int
  ioPrev : Int
  cpuRoc : Int
  memRoc : Int
  ioRoc : Int
  flags : UInt32
  lastUpdate : UInt64
  created : UInt64
  cpuSpikesPredicted : UInt64
  memSpikesPredicted : UInt64
  ioSpikesPredicted : UInt64
  totalSamples : UInt64
  deriving DecidableEq, Repr

def updateEma (oldEma sample : Int) : Int :=
  (toInt32 (alpha * sample + alphaComplement * oldEma)).tdiv 100

def calcRateOfChange (currentVal previous : Int) : Int :=
  toInt32 (currentVal - previous)

def isSpikePredicted (roc threshold : Int) : Bool :=
  decide (roc > threshold)

/-- One `if (is_spike_predicted(roc, threshold))` block of `update_signature`: set the
resource's bit, count the prediction in the signature and in `total_predictions`. -/
def predictSpike (roc threshold : Int) (bit flags : UInt32) (count : UInt64)
    (totalPredictions : Int) : UInt32 × UInt64 × Int :=
  if isSpikePredicted roc threshold then (flags ||| bit, count + 1, atomicInc totalPredictions)
  else (flags, count, totalPredictions)

def newSignature (pid : Int) (comm : List Char) (jiffies : UInt64) : ProcSignature where
  pid := pid
  comm := comm.take (taskCommLen - 1)
  cpuEma := 0
  memEma := 0
  ioEma := 0
  cpuPrev := 0
  memPrev := 0
  ioPrev := 0
  cpuRoc := 0
  memRoc := 0
  ioRoc := 0
  flags := flagActive
  lastUpdate := jiffies
  created := jiffies
  cpuSpikesPredicted := 0
  memSpikesPredicted := 0
  ioSpikesPredicted := 0
  totalSamples := 0

/-- `update_signature(sig, cpu_sample, mem_sample, io_sample)` at time `jiffies`, with the
global `total_predictions` it increments. -/
def updateSignature (jiffies : UInt64) (cpuSample memSample ioSample : Int)
    (sig : ProcSignature) (totalPredictions : Int) : ProcSignature × Int :=
  let cpuEma := updateEma sig.cpuEma cpuSample
  let memEma := updateEma sig.memEma memSample
  let ioEma := updateEma sig.ioEma ioSample
  let cpuRoc := calcRateOfChange cpuEma sig.cpuEma
  let memRoc := calcRateOfChange memEma sig.memEma
  let ioRoc := calcRateOfChange ioEma sig.ioEma
  let cleared := sig.flags &&&
    ~~~(flagCpuSpikePredicted ||| flagMemSpikePredicted ||| flagIoSpikePredicted)
  let cpu := predictSpike cpuRoc cpuSpikeThreshold flagCpuSpikePredicted cleared
    sig.cpuSpikesPredicted totalPredictions
  let mem := predictSpike memRoc memSpikeThreshold flagMemSpikePredicted cpu.1
    sig.memSpikesPredicted cpu.2.2
  let io := predictSpike ioRoc ioSpikeThreshold flagIoSpikePredicted mem.1
    sig.ioSpikesPredicted mem.2.2
  ({ sig with
      cpuPrev := sig.cpuEma, memPrev := sig.memEma, ioPrev := sig.ioEma
      cpuEma, memEma, ioEma, cpuRoc, memRoc, ioRoc
      flags := io.1
      cpuSpikesPredicted := cpu.2.1
      memSpikesPredicted := mem.2.1
      ioSpikesPredicted := io.2.1
      totalSamples := sig.totalSamples + 1
      lastUpdate := jiffies }, io.2.2)

section UpdateFields

variable (jiffies : UInt64) (c m i : Int) (sig : ProcSignature) (total : Int)

@[simp] theorem updateSignature_pid : (updateSignature jiffies c m i sig total).1.pid = sig.pid :=
  rfl

@[simp] theorem updateSignature_comm :
    (updateSignature jiffies c m i sig total).1.comm = sig.comm := rfl

@[simp] theorem updateSignature_cpuPrev :
    (updateSignature jiffies c m i sig total).1.cpuPrev = sig.cpuEma := rfl

@[simp] theorem updateSignature_memPrev :
    (updateSignature jiffies c m i sig total).1.memPrev = sig.memEma := rfl

@[simp] theorem updateSignature_ioPrev :
    (updateSignature jiffies c m i sig total).1.ioPrev = sig.ioEma := rfl

@[simp] theorem updateSignature_cpuEma :
    (updateSignature jiffies c m i sig total).1.cpuEma = updateEma sig.cpuEma c := rfl

@[simp] theorem updateSignature_memEma :
    (updateSignature jiffies c m i sig total).1.memEma = updateEma sig.memEma m := rfl

@[simp] theorem updateSignature_ioEma :
    (updateSignature jiffies c m i sig total).1.ioEma = updateEma sig.ioEma i := rfl

@[simp] theorem updateSignature_cpuRoc : (updateSignature jiffies c m i sig total).1.cpuRoc =
    calcRateOfChange (updateEma sig.cpuEma c) sig.cpuEma := rfl

@[simp] theorem updateSignature_memRoc : (updateSignature jiffies c m i sig total).1.memRoc =
    calcRateOfChange (updateEma sig.memEma m) sig.memEma := rfl

@[simp] theorem updateSignature_ioRoc : (updateSignature jiffies c m i sig total).1.ioRoc =
    calcRateOfChange (updateEma sig.ioEma i) sig.ioEma := rfl

@[simp] theorem updateSignature_totalSamples :
    (updateSignature jiffies c m i sig total).1.totalSamples = sig.totalSamples + 1 := rfl

end UpdateFields

def spikeFlags (cpu mem io : Bool) : UInt32 :=
  flagActive ||| (if cpu then flagCpuSpikePredicted else 0) |||
    (if mem then flagMemSpikePredicted else 0) ||| (if io then flagIoSpikePredicted else 0)

def setBitIf (set : Bool) (bit flags : UInt32) : UInt32 := if set then flags ||| bit else flags

theorem predictSpike_flags (roc threshold : Int) (bit flags : UInt32) (count : UInt64)
    (total : Int) : (predictSpike roc threshold bit flags count total).1 =
      setBitIf (isSpikePredicted roc threshold) bit flags := by
  unfold predictSpike setBitIf
  split <;> rfl

theorem spikeFlags_cleared (cpu mem io : Bool) : spikeFlags cpu mem io &&&
    ~~~(flagCpuSpikePredicted ||| flagMemSpikePredicted ||| flagIoSpikePredicted) = flagActive := by
  cases cpu <;> cases mem <;> cases io <;> decide

theorem spikeFlags_set (cpu mem io : Bool) : setBitIf io flagIoSpikePredicted
    (setBitIf mem flagMemSpikePredicted (setBitIf cpu flagCpuSpikePredicted flagActive)) =
      spikeFlags cpu mem io := by
  cases cpu <;> cases mem <;> cases io <;> decide

theorem spikeFlags_bits (cpu mem io : Bool) :
    (spikeFlags cpu mem io &&& flagCpuSpikePredicted ≠ 0 ↔ cpu = true) ∧
    (spikeFlags cpu mem io &&& flagMemSpikePredicted ≠ 0 ↔ mem = true) ∧
    (spikeFlags cpu mem io &&& flagIoSpikePredicted ≠ 0 ↔ io = true) ∧
    spikeFlags cpu mem io &&& flagActive ≠ 0 ∧
    spikeFlags cpu mem io &&& ~~~(flagActive ||| flagCpuSpikePredicted |||
      flagMemSpikePredicted ||| flagIoSpikePredicted) = 0 := by
  cases cpu <;> cases mem <;> cases io <;> decide

theorem updateSignature_flags (jiffies : UInt64) (c m i : Int) (sig : ProcSignature)
    (total : Int) {cpu mem io : Bool} (flags : sig.flags = spikeFlags cpu mem io) :
    (updateSignature jiffies c m i sig total).1.flags = spikeFlags
      (isSpikePredicted (updateSignature jiffies c m i sig total).1.cpuRoc cpuSpikeThreshold)
      (isSpikePredicted (updateSignature jiffies c m i sig total).1.memRoc memSpikeThreshold)
      (isSpikePredicted (updateSignature jiffies c m i sig total).1.ioRoc ioSpikeThreshold) := by
  simp only [updateSignature, predictSpike_flags, flags, spikeFlags_cleared]
  exact spikeFlags_set _ _ _

def predictionCount (sig : ProcSignature) : Nat :=
  sig.cpuSpikesPredicted.toNat + sig.memSpikesPredicted.toNat + sig.ioSpikesPredicted.toNat

theorem predictSpike_conserves (roc threshold : Int) (bit flags : UInt32) (count : UInt64)
    (total : Int) : (predictSpike roc threshold bit flags count total).2.2 - total ≡
      ((predictSpike roc threshold bit flags count total).2.1.toNat : Int) - count.toNat
        [ZMOD 4294967296] := by
  unfold predictSpike
  split
  · have wrap := atomicInc_modEq total
    have inc := uint64_toNat_add_one count
    unfold Int.ModEq at wrap ⊢
    simp only [inc]
    omega
  · simp [Int.ModEq]

theorem updateSignature_conserves (jiffies : UInt64) (c m i : Int) (sig : ProcSignature)
    (total : Int) : (updateSignature jiffies c m i sig total).2 - total ≡
      (predictionCount (updateSignature jiffies c m i sig total).1 : Int) - predictionCount sig
        [ZMOD 4294967296] := by
  unfold updateSignature predictionCount
  dsimp only
  generalize calcRateOfChange (updateEma sig.cpuEma c) sig.cpuEma = cpuRoc
  generalize calcRateOfChange (updateEma sig.memEma m) sig.memEma = memRoc
  generalize calcRateOfChange (updateEma sig.ioEma i) sig.ioEma = ioRoc
  generalize sig.flags &&& _ = cleared
  have cpu := predictSpike_conserves cpuRoc cpuSpikeThreshold flagCpuSpikePredicted cleared
    sig.cpuSpikesPredicted total
  generalize predictSpike cpuRoc _ _ _ _ total = cpuBlock at cpu ⊢
  have mem := predictSpike_conserves memRoc memSpikeThreshold flagMemSpikePredicted cpuBlock.1
    sig.memSpikesPredicted cpuBlock.2.2
  generalize predictSpike memRoc _ _ _ _ _ = memBlock at mem ⊢
  have io := predictSpike_conserves ioRoc ioSpikeThreshold flagIoSpikePredicted memBlock.1
    sig.ioSpikesPredicted memBlock.2.2
  generalize predictSpike ioRoc _ _ _ _ _ = ioBlock at io ⊢
  unfold Int.ModEq at cpu mem io ⊢
  push_cast
  omega

theorem predictSpike_count (roc threshold : Int) (bit flags : UInt32) (count : UInt64)
    (total : Int) (room : count.toNat + 1 < 18446744073709551616) :
    count.toNat ≤ (predictSpike roc threshold bit flags count total).2.1.toNat ∧
      (predictSpike roc threshold bit flags count total).2.1.toNat ≤ count.toNat + 1 := by
  unfold predictSpike
  split
  · simp only [uint64_toNat_add_one]
    omega
  · simp

def EmaBound (x : Int) : Prop := -21474836 ≤ x ∧ x ≤ 21474836

theorem updateEma_bound (oldEma sample : Int) : EmaBound (updateEma oldEma sample) :=
  tdiv_hundred_bound (toInt32_inInt _)

theorem calcRateOfChange_eq {a b : Int} (ha : EmaBound a) (hb : EmaBound b) :
    calcRateOfChange a b = a - b := by
  unfold EmaBound at ha hb
  exact toInt32_of_inInt (by unfold InInt intMin intMax; omega)

structure PredictorInv (sig : ProcSignature) : Prop where
  cpuEma_bound : EmaBound sig.cpuEma
  memEma_bound : EmaBound sig.memEma
  ioEma_bound : EmaBound sig.ioEma
  cpuRoc_eq : sig.cpuRoc = sig.cpuEma - sig.cpuPrev
  memRoc_eq : sig.memRoc = sig.memEma - sig.memPrev
  ioRoc_eq : sig.ioRoc = sig.ioEma - sig.ioPrev
  flags_eq : sig.flags = spikeFlags (isSpikePredicted sig.cpuRoc cpuSpikeThreshold)
    (isSpikePredicted sig.memRoc memSpikeThreshold) (isSpikePredicted sig.ioRoc ioSpikeThreshold)

theorem newSignature_predictorInv (pid : Int) (comm : List Char) (jiffies : UInt64) :
    PredictorInv (newSignature pid comm jiffies) where
  cpuEma_bound := updateEma_bound 0 0
  memEma_bound := updateEma_bound 0 0
  ioEma_bound := updateEma_bound 0 0
  cpuRoc_eq := rfl
  memRoc_eq := rfl
  ioRoc_eq := rfl
  flags_eq := by
    show flagActive = spikeFlags (isSpikePredicted 0 cpuSpikeThreshold)
      (isSpikePredicted 0 memSpikeThreshold) (isSpikePredicted 0 ioSpikeThreshold)
    decide

theorem updateSignature_predictorInv (jiffies : UInt64) (c m i : Int) {sig : ProcSignature}
    (total : Int) (inv : PredictorInv sig) :
    PredictorInv (updateSignature jiffies c m i sig total).1 where
  cpuEma_bound := updateEma_bound _ _
  memEma_bound := updateEma_bound _ _
  ioEma_bound := updateEma_bound _ _
  cpuRoc_eq := calcRateOfChange_eq (updateEma_bound _ _) inv.cpuEma_bound
  memRoc_eq := calcRateOfChange_eq (updateEma_bound _ _) inv.memEma_bound
  ioRoc_eq := calcRateOfChange_eq (updateEma_bound _ _) inv.ioEma_bound
  flags_eq := updateSignature_flags jiffies c m i sig total inv.flags_eq

/-- The signatures `get_or_create_signature` creates and `update_signature` then updates,
with any samples. -/
inductive SignatureReachable : ProcSignature → Prop
  | create (pid : Int) (comm : List Char) (jiffies : UInt64) :
      SignatureReachable (newSignature pid comm jiffies)
  | update (jiffies : UInt64) (c m i : Int) (total : Int) {sig : ProcSignature} :
      SignatureReachable sig → SignatureReachable (updateSignature jiffies c m i sig total).1

theorem SignatureReachable.predictorInv {sig : ProcSignature} (reachable : SignatureReachable sig) :
    PredictorInv sig := by
  induction reachable with
  | create pid comm jiffies => exact newSignature_predictorInv pid comm jiffies
  | update jiffies c m i total _ ih => exact updateSignature_predictorInv jiffies c m i total ih

/-- What a signature shows after its latest tick: each rate of change is the difference of
its EMA and the EMA it replaced, each spike bit is that rate's strict threshold test,
`FLAG_ACTIVE` is set and no other bit is; and the next update keeps the EMAs it replaces. -/
structure LatestTickFlags (sig : ProcSignature) : Prop where
  cpuRoc_eq : sig.cpuRoc = sig.cpuEma - sig.cpuPrev
  memRoc_eq : sig.memRoc = sig.memEma - sig.memPrev
  ioRoc_eq : sig.ioRoc = sig.ioEma - sig.ioPrev
  cpu_flag : sig.flags &&& flagCpuSpikePredicted ≠ 0 ↔ sig.cpuRoc > cpuSpikeThreshold
  mem_flag : sig.flags &&& flagMemSpikePredicted ≠ 0 ↔ sig.memRoc > memSpikeThreshold
  io_flag : sig.flags &&& flagIoSpikePredicted ≠ 0 ↔ sig.ioRoc > ioSpikeThreshold
  active : sig.flags &&& flagActive ≠ 0
  no_other_bits : sig.flags &&& ~~~(flagActive ||| flagCpuSpikePredicted |||
    flagMemSpikePredicted ||| flagIoSpikePredicted) = 0
  prev_of_update : ∀ jiffies c m i total,
    (updateSignature jiffies c m i sig total).1.cpuPrev = sig.cpuEma ∧
    (updateSignature jiffies c m i sig total).1.memPrev = sig.memEma ∧
    (updateSignature jiffies c m i sig total).1.ioPrev = sig.ioEma

theorem update_flags_reflect_latest_tick {sig : ProcSignature}
    (reachable : SignatureReachable sig) : LatestTickFlags sig := by
  have inv := reachable.predictorInv
  obtain ⟨cpu, mem, io, active, other⟩ := spikeFlags_bits
    (isSpikePredicted sig.cpuRoc cpuSpikeThreshold) (isSpikePredicted sig.memRoc memSpikeThreshold)
    (isSpikePredicted sig.ioRoc ioSpikeThreshold)
  rw [← inv.flags_eq] at cpu mem io active other
  simp only [isSpikePredicted, decide_eq_true_eq] at cpu mem io
  exact ⟨inv.cpuRoc_eq, inv.memRoc_eq, inv.ioRoc_eq, cpu, mem, io, active, other,
    fun _ _ _ _ _ => ⟨rfl, rfl, rfl⟩⟩

theorem cpu_io_burst_flags :
    SignatureReachable (updateSignature 0 30000 0 5000 (newSignature 1 ['a'] 0) 0).1 ∧
      (updateSignature 0 30000 0 5000 (newSignature 1 ['a'] 0) 0).1.flags = 133 ∧
      LatestTickFlags (updateSignature 0 30000 0 5000 (newSignature 1 ['a'] 0) 0).1 :=
  ⟨.update 0 30000 0 5000 0 (.create 1 ['a'] 0), by decide,
    update_flags_reflect_latest_tick (.update 0 30000 0 5000 0 (.create 1 ['a'] 0))⟩

end SmartScheduler.Kernel

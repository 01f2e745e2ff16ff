import SmartScheduler.Views.Predictions

/-!
# The health check's spike check

`check_spikes` of `health_check.c` reads `/proc/smartscheduler/predictions` with the daemon's
`sscanf` format, skips the 4 heading lines, and keeps in `spike_procs[50]` the records with a
`'*'` flag, counting each resource's flags among them; its loop stops once 50 are kept. The
"Active Spikes" check then fails above 10 flags in all, warns above 3, and passes otherwise.

For a reachable store whose comms are words, the processes the check keeps are the first 50
spiking signatures among the first 100 the view lists, and its counts are the spike bits of
those processes (`check_spikes_reports_view`). The flags of spiking signatures past the 50th,
and of those past the view's 100 rows, are not counted.
-/

namespace SmartScheduler

open Text Kernel Daemon

namespace HealthCheck

structure SpikeProc where
  pid : Int
  comm : List Char
  cpuSpike : Bool
  memSpike : Bool
  ioSpike : Bool
  deriving DecidableEq, Repr

def SpikeProc.spiking (sp : SpikeProc) : Bool := sp.cpuSpike || sp.memSpike || sp.ioSpike

inductive CheckStatus
  | fail
  | ok
  | warn
  deriving DecidableEq, Repr

structure CheckResult where
  name : List Char
  status : CheckStatus
  details : List Char
  deriving DecidableEq, Repr

structure SpikeCounts where
  cpuSpikes : Nat
  memSpikes : Nat
  ioSpikes : Nat
  spikeProcs : List SpikeProc

def SpikeCounts.zero : SpikeCounts := ⟨0, 0, 0, []⟩

def spikeProcOf (r : PredictionRecord) : SpikeProc :=
  ⟨r.pid, r.comm.take 31, r.cpuFlag = '*', r.memFlag = '*', r.ioFlag = '*'⟩

/-- The body of `check_spikes`' loop for a line `sscanf` decoded: each `'*'` flag is counted,
and the record is kept when it has one. -/
def noteRecord (c : SpikeCounts) (r : PredictionRecord) : SpikeCounts :=
  let sp := spikeProcOf r
  { cpuSpikes := c.cpuSpikes + if sp.cpuSpike then 1 else 0
    memSpikes := c.memSpikes + if sp.memSpike then 1 else 0
    ioSpikes := c.ioSpikes + if sp.ioSpike then 1 else 0
    spikeProcs := if sp.spiking then c.spikeProcs ++ [sp] else c.spikeProcs }

/-- `while (fgets(line, sizeof(line), f) && spike_proc_count < 50)`, over the lines after the
heading. -/
def spikeLoop (c : SpikeCounts) : List (List Char) → SpikeCounts
  | [] => c
  | line :: lines =>
    if c.spikeProcs.length < 50 then
      match parsePrediction line with
      | some r => spikeLoop (noteRecord c r) lines
      | none => spikeLoop c lines
    else c

def spikeDetails (total cpu mem io procs : Int) : List Char :=
  decimal total ++ " total: ".toList ++ decimal cpu ++ " CPU, ".toList ++ decimal mem ++
    " MEM, ".toList ++ decimal io ++ " I/O across ".toList ++ decimal procs ++ " processes".toList

def spikeVerdict (c : SpikeCounts) : CheckResult :=
  let total := c.cpuSpikes + c.memSpikes + c.ioSpikes
  ⟨"Active Spikes".toList, if total > 10 then .fail else if total > 3 then .warn else .ok,
    spikeDetails total c.cpuSpikes c.memSpikes c.ioSpikes c.spikeProcs.length⟩

/-- `check_spikes()` on the predictions file (`none` when `fopen` fails): the check it adds,
and the processes it leaves in `spike_procs` for `print_spiking_processes`. -/
def checkSpikes : Option (List Char) → CheckResult × List SpikeProc
  | none => (⟨"Active Spikes".toList, .warn, "Cannot read predictions".toList⟩, [])
  | some text =>
    let c := spikeLoop SpikeCounts.zero ((readLines 256 text).drop 4)
    (spikeVerdict c, c.spikeProcs)

structure SpikeCounts.Consistent (c : SpikeCounts) : Prop where
  cpu : c.cpuSpikes = c.spikeProcs.countP SpikeProc.cpuSpike
  mem : c.memSpikes = c.spikeProcs.countP SpikeProc.memSpike
  io : c.ioSpikes = c.spikeProcs.countP SpikeProc.ioSpike
  spiking : ∀ sp ∈ c.spikeProcs, sp.spiking

theorem SpikeCounts.Consistent.zero : SpikeCounts.zero.Consistent :=
  ⟨rfl, rfl, rfl, fun _ h => nomatch h⟩

theorem SpikeCounts.Consistent.noteRecord {c : SpikeCounts} (consistent : c.Consistent)
    (r : PredictionRecord) : (HealthCheck.noteRecord c r).Consistent := by
  have ⟨cpu, mem, io, spiking⟩ := consistent
  by_cases kept : (spikeProcOf r).spiking
  · refine ⟨?_, ?_, ?_, ?_⟩ <;>
      simp only [HealthCheck.noteRecord, kept, if_true, List.countP_append, List.countP_singleton,
        cpu, mem, io, List.mem_append, List.mem_singleton]
    rintro sp (mem | rfl)
    exacts [spiking sp mem, kept]
  · have flags : (spikeProcOf r).cpuSpike = false ∧ (spikeProcOf r).memSpike = false ∧
        (spikeProcOf r).ioSpike = false := by
      simpa [SpikeProc.spiking, not_or, and_assoc] using kept
    refine ⟨?_, ?_, ?_, ?_⟩ <;>
      simp only [HealthCheck.noteRecord, kept, flags, if_false, Bool.false_eq_true, Nat.add_zero,
        cpu, mem, io]
    exact spiking

theorem spikeLoop_spikeProcs :
    ∀ (lines : List (List Char)) (c : SpikeCounts), c.spikeProcs.length ≤ 50 →
      (spikeLoop c lines).spikeProcs = c.spikeProcs ++
        (((lines.filterMap parsePrediction).map spikeProcOf).filter SpikeProc.spiking).take
          (50 - c.spikeProcs.length)
  | [], c, _ => by simp [spikeLoop]
  | line :: lines, c, room => by
    unfold spikeLoop
    split_ifs with below
    · cases parsed : parsePrediction line with
      | none =>
        simp only [List.filterMap_cons, parsed]
        exact spikeLoop_spikeProcs lines c room
      | some r =>
        simp only [List.filterMap_cons, parsed, List.map_cons, List.filter_cons]
        by_cases kept : (spikeProcOf r).spiking
        · have room' : (noteRecord c r).spikeProcs.length ≤ 50 := by
            simp [noteRecord, kept]; omega
          rw [spikeLoop_spikeProcs lines _ room', if_pos kept,
            show 50 - c.spikeProcs.length = 50 - (c.spikeProcs.length + 1) + 1 by omega,
            List.take_succ_cons]
          simp [noteRecord, kept]
        · rw [spikeLoop_spikeProcs lines _ (by simpa [noteRecord, kept] using room), if_neg kept]
          simp [noteRecord, kept]
    · simp [show 50 - c.spikeProcs.length = 0 by omega]

theorem spikeLoop_consistent :
    ∀ (lines : List (List Char)) (c : SpikeCounts), c.Consistent → (spikeLoop c lines).Consistent
  | [], _, consistent => consistent
  | line :: lines, c, consistent => by
    unfold spikeLoop
    split_ifs
    · split
      · exact spikeLoop_consistent lines _ (consistent.noteRecord _)
      · exact spikeLoop_consistent lines c consistent
    · exact consistent

theorem checkSpikes_records {text : List Char} {records : List PredictionRecord}
    (decoded : ((readLines 256 text).drop 4).filterMap parsePrediction = records) :
    checkSpikes (some text) =
      let procs := ((records.map spikeProcOf).filter SpikeProc.spiking).take 50
      (spikeVerdict ⟨procs.countP SpikeProc.cpuSpike, procs.countP SpikeProc.memSpike,
        procs.countP SpikeProc.ioSpike, procs⟩, procs) := by
  have kept := spikeLoop_spikeProcs ((readLines 256 text).drop 4) SpikeCounts.zero (Nat.zero_le _)
  have consistent := spikeLoop_consistent ((readLines 256 text).drop 4) _ SpikeCounts.Consistent.zero
  rw [decoded] at kept
  simp only [checkSpikes]
  generalize spikeLoop SpikeCounts.zero ((readLines 256 text).drop 4) = c at kept consistent
  obtain ⟨cpu, mem, io, -⟩ := consistent
  obtain ⟨cpuSpikes, memSpikes, ioSpikes, procs⟩ := c
  simp only [SpikeCounts.zero, List.nil_append, List.length_nil, Nat.sub_zero] at kept cpu mem io
  subst kept cpu mem io
  rfl

def signatureSpikeProc (sig : ProcSignature) : SpikeProc :=
  ⟨sig.pid, sig.comm, sig.flags &&& flagCpuSpikePredicted ≠ 0,
    sig.flags &&& flagMemSpikePredicted ≠ 0, sig.flags &&& flagIoSpikePredicted ≠ 0⟩

theorem flagChar_eq_star (flags bit : UInt32) : (flagChar flags bit = '*') = (flags &&& bit ≠ 0) := by
  unfold flagChar
  split_ifs with set <;> simp [set]

theorem spikeProcOf_predictionRecord {sig : ProcSignature} (typed : WellTyped sig) :
    spikeProcOf (predictionRecord sig) = signatureSpikeProc sig := by
  simp only [spikeProcOf, predictionRecord, signatureSpikeProc, flagChar_eq_star,
    List.take_of_length_le (typed.comm.trans (by decide : 15 ≤ 31))]

theorem check_spikes_reports_view {ioAccounting : Bool} {st : Store}
    (reachable : Kernel.Reachable ioAccounting st)
    (words : ∀ sig ∈ st.signatures, sig.comm ≠ [] ∧ Solid sig.comm) :
    checkSpikes (some (predictionsShow st)) =
      let procs := (((st.signatures.take 100).map signatureSpikeProc).filter SpikeProc.spiking).take 50
      (spikeVerdict ⟨procs.countP SpikeProc.cpuSpike, procs.countP SpikeProc.memSpike,
        procs.countP SpikeProc.ioSpike, procs⟩, procs) := by
  have decoded := decoded_predictionsShow reachable words le_rfl
  have records : ((st.signatures.take 100).map predictionRecord).map spikeProcOf =
      (st.signatures.take 100).map signatureSpikeProc := by
    rw [List.map_map]
    exact List.map_congr_left fun sig mem =>
      spikeProcOf_predictionRecord (reachable.wellTyped sig (List.mem_of_mem_take mem))
  rw [checkSpikes_records decoded, records]

end HealthCheck

end SmartScheduler

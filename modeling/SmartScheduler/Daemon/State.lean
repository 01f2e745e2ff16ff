import Mathlib

/-!
# The response daemon

`scheduler_daemon.c`: the table of tracked processes, the three spike handlers,
`restore_priorities`, `check_persistent_spikes` and one pass of the main loop.

Every call the daemon makes into its environment gets its answer as an argument: the
reading of each `time(NULL)`, what `getpriority` reports, and whether an Action Sink call
(`setpriority`, the `ionice` command, the `oom_score_adj` write) succeeds. A handler returns
the sink calls it issued, in order, so the trace of calls is part of a run's result
(as in a controller `step : State → Event → State × List Effect`). Logging, colours and the
RoC values `read_roc_values` fetches, which only reach log text, are left out. The daemon's
`int` fields are unbounded integers: signed overflow is undefined behaviour in the daemon,
so the model describes every run that stays defined.
-/

namespace SmartScheduler.Daemon

def maxTracked : Nat := 1024

def persistentCheckInterval : Int := 5

def spikeCpu : Nat := 1
def spikeMem : Nat := 2
def spikeIo : Nat := 4

inductive EscalationLevel
  | none
  | advisory
  | soft
  | hard
  | critical
  deriving DecidableEq, Repr

def EscalationLevel.toNat : EscalationLevel → Nat
  | none => 0
  | advisory => 1
  | soft => 2
  | hard => 3
  | critical => 4

instance : LE EscalationLevel := ⟨fun a b => a.toNat ≤ b.toNat⟩

instance (a b : EscalationLevel) : Decidable (a ≤ b) :=
  inferInstanceAs (Decidable (a.toNat ≤ b.toNat))

inductive Category
  | cpu
  | mem
  | io
  deriving DecidableEq, Repr

/-- The fields of `SpikeConfig` a handler reads; `name` only reaches log text and
`persistent_threshold` is never read. -/
structure SpikeConfig where
  niceBoost : Int
  ioniceClass : Int
  ioniceLevel : Int
  cooldownSecs : Int
  deriving DecidableEq, Repr

def spikeConfigs : Category → SpikeConfig
  | .cpu => ⟨-5, 0, 0, 10⟩
  | .mem => ⟨0, 0, 0, 15⟩
  | .io => ⟨0, 2, 0, 10⟩

structure TrackedProcess where
  pid : Int
  comm : List Char
  originalNice : Int
  currentNice : Int
  adjusted : Bool
  adjustedTime : Int
  lastSeen : Int
  spikeType : Nat
  spikeSamples : Int
  escalation : EscalationLevel
  actionCount : Int
  deriving DecidableEq, Repr

structure Stats where
  cpuAdvisories : Int
  memAdvisories : Int
  ioAdvisories : Int
  cpuBoosts : Int
  memActions : Int
  ioBoosts : Int
  restorations : Int
  escalations : Int
  persistentSpikes : Int
  deriving DecidableEq, Repr

/-- The globals the handlers share: `tracked[0 .. tracked_count)`, `stats` and
`last_persistent_check`. -/
structure DaemonState where
  tracked : List TrackedProcess
  stats : Stats
  lastPersistentCheck : Int
  deriving DecidableEq, Repr

def DaemonState.init (startTime : Int) : DaemonState :=
  ⟨[], ⟨0, 0, 0, 0, 0, 0, 0, 0, 0⟩, startTime⟩

structure Io where
  now : Int
  priority : Option Int
  ok : Bool
  deriving DecidableEq, Repr

inductive SinkCall
  | setNice (pid niceVal : Int)
  | setIoPriority (pid ioprioClass ioprioLevel : Int)
  | oomScoreAdj (pid value : Int)
  deriving DecidableEq, Repr

def SinkCall.pid : SinkCall → Int
  | setNice pid _ => pid
  | setIoPriority pid _ _ => pid
  | oomScoreAdj pid _ => pid

inductive Origin
  | handler (category : Category)
  | restore
  deriving DecidableEq, Repr

structure Issued where
  origin : Origin
  time : Int
  call : SinkCall
  ok : Bool
  deriving DecidableEq, Repr

def getNice (priority : Option Int) : Int := priority.getD 0

def setNice (dryRun : Bool) (origin : Origin) (now : Int) (ok : Bool) (pid niceVal : Int) :
    Bool × List Issued :=
  if dryRun then (true, []) else (ok, [⟨origin, now, .setNice pid niceVal, ok⟩])

def setIoPriority (dryRun : Bool) (now : Int) (ok : Bool) (pid ioprioClass ioprioLevel : Int) :
    Bool × List Issued :=
  if dryRun then (true, [])
  else (ok, [⟨.handler .io, now, .setIoPriority pid ioprioClass ioprioLevel, ok⟩])

def getEscalationLevel (p : TrackedProcess) : EscalationLevel :=
  if p.spikeSamples ≤ 2 then .advisory
  else if p.spikeSamples ≤ 5 then .soft
  else if p.spikeSamples ≤ 10 then .hard
  else .critical

def findTracked (pid : Int) : List TrackedProcess → Option (Nat × TrackedProcess)
  | [] => none
  | p :: ps =>
    if p.pid = pid then some (0, p)
    else (findTracked pid ps).map fun found => (found.1 + 1, found.2)

/-- `add_tracked(pid, comm)`: a zeroed record, or `none` when the table is full. Its own
`time(NULL)` is passed as `now`: every handler overwrites `last_seen` before reading it. -/
def addTracked (now pid : Int) (comm : List Char) (tracked : List TrackedProcess) :
    Option TrackedProcess :=
  if maxTracked ≤ tracked.length then none
  else some ⟨pid, comm.take 31, 0, 0, false, 0, now, 0, 0, .none, 0⟩

/-- `find_tracked`, falling back to `add_tracked` with `created` applied to the new record:
the record's position, the record and the table. -/
def locate (now pid : Int) (comm : List Char) (created : TrackedProcess → TrackedProcess)
    (tracked : List TrackedProcess) : Option (Nat × TrackedProcess × List TrackedProcess) :=
  match findTracked pid tracked with
  | some (i, p) => some (i, p, tracked)
  | none => (addTracked now pid comm tracked).map fun p =>
      (tracked.length, created p, tracked ++ [created p])

/-- What every handler does first to the record: `spike_type |= bit; spike_samples++;
last_seen = now`. -/
def noteSpike (bit : Nat) (now : Int) (p : TrackedProcess) : TrackedProcess :=
  { p with spikeType := p.spikeType ||| bit, spikeSamples := p.spikeSamples + 1, lastSeen := now }

def handleSpike (created : TrackedProcess → TrackedProcess) (bit : Nat)
    (respond : TrackedProcess → Stats → TrackedProcess × Stats × List Issued)
    (now pid : Int) (comm : List Char) (d : DaemonState) : DaemonState × List Issued :=
  match locate now pid comm created d.tracked with
  | none => (d, [])
  | some (i, p, tracked) =>
    let r := respond (noteSpike bit now p) d.stats
    ({ d with tracked := tracked.set i r.1, stats := r.2.1 }, r.2.2)

def cpuNiceBoost (level : EscalationLevel) : Int :=
  let niceBoost := (spikeConfigs .cpu).niceBoost
  let niceBoost := if .hard ≤ level then -10 else niceBoost
  if .critical ≤ level then -15 else niceBoost

def cpuResponse (dryRun : Bool) (io : Io) (pid : Int) (p : TrackedProcess) (stats : Stats) :
    TrackedProcess × Stats × List Issued :=
  let level := getEscalationLevel p
  if level = .advisory then (p, { stats with cpuAdvisories := stats.cpuAdvisories + 1 }, [])
  else if p.adjusted ∧ io.now - p.adjustedTime < (spikeConfigs .cpu).cooldownSecs then
    (p, stats, [])
  else
    let niceBoost := cpuNiceBoost level
    let result := setNice dryRun (.handler .cpu) io.now io.ok pid niceBoost
    if result.1 then
      ({ p with currentNice := niceBoost, adjusted := true, adjustedTime := io.now,
                escalation := level, actionCount := p.actionCount + 1 },
       { stats with cpuBoosts := stats.cpuBoosts + 1,
                    escalations := if .hard ≤ level then stats.escalations + 1
                                   else stats.escalations },
       result.2)
    else (p, stats, result.2)

/-- The rest of `handle_mem_spike`: advisories, and at `CRITICAL` outside dry-run mode the
`oom_score_adj` write, whose result is ignored. -/
def memResponse (dryRun : Bool) (io : Io) (pid : Int) (p : TrackedProcess) (stats : Stats) :
    TrackedProcess × Stats × List Issued :=
  let level := getEscalationLevel p
  if level = .advisory then (p, { stats with memAdvisories := stats.memAdvisories + 1 }, [])
  else if level = .soft then (p, { stats with memAdvisories := stats.memAdvisories + 1 }, [])
  else if .hard ≤ level then
    let stats := { stats with memActions := stats.memActions + 1,
                              persistentSpikes := stats.persistentSpikes + 1 }
    if .critical ≤ level ∧ !dryRun then
      (p, stats, [⟨.handler .mem, io.now, .oomScoreAdj pid 500, io.ok⟩])
    else (p, stats, [])
  else (p, stats, [])

def ioResponse (dryRun : Bool) (io : Io) (pid : Int) (p : TrackedProcess) (stats : Stats) :
    TrackedProcess × Stats × List Issued :=
  let level := getEscalationLevel p
  if level = .advisory then (p, { stats with ioAdvisories := stats.ioAdvisories + 1 }, [])
  else if p.adjusted ∧ io.now - p.adjustedTime < (spikeConfigs .io).cooldownSecs then
    (p, stats, [])
  else
    let ioClass := if .hard ≤ level then 1 else (spikeConfigs .io).ioniceClass
    let ioLevel := if .hard ≤ level then 4 else (spikeConfigs .io).ioniceLevel
    let result := setIoPriority dryRun io.now io.ok pid ioClass ioLevel
    if result.1 then
      ({ p with adjusted := true, adjustedTime := io.now, actionCount := p.actionCount + 1 },
       { stats with ioBoosts := stats.ioBoosts + 1 }, result.2)
    else (p, stats, result.2)

def handleCpuSpike (dryRun : Bool) (io : Io) (pid : Int) (comm : List Char) (d : DaemonState) :
    DaemonState × List Issued :=
  handleSpike (fun p => { p with originalNice := getNice io.priority }) spikeCpu
    (cpuResponse dryRun io pid) io.now pid comm d

def handleMemSpike (dryRun : Bool) (io : Io) (pid : Int) (comm : List Char) (d : DaemonState) :
    DaemonState × List Issued :=
  handleSpike id spikeMem (memResponse dryRun io pid) io.now pid comm d

def handleIoSpike (dryRun : Bool) (io : Io) (pid : Int) (comm : List Char) (d : DaemonState) :
    DaemonState × List Issued :=
  handleSpike id spikeIo (ioResponse dryRun io pid) io.now pid comm d

/-- The body of `restore_priorities`' loop for one record: the record, whether it was
restored, and the call made. -/
def restoreOne (dryRun : Bool) (now : Int) (ok : Bool) (p : TrackedProcess) :
    TrackedProcess × Bool × List Issued :=
  if p.adjusted ∧ now - p.lastSeen > 5 then
    let result := setNice dryRun .restore now ok p.pid p.originalNice
    if result.1 then
      ({ p with adjusted := false, currentNice := p.originalNice, spikeSamples := 0,
                escalation := .none }, true, result.2)
    else (p, false, result.2)
  else (p, false, [])

def restoreAll (dryRun : Bool) (now : Int) :
    (Nat → Bool) → List TrackedProcess → List TrackedProcess × Int × List Issued
  | _, [] => ([], 0, [])
  | ok, p :: ps =>
    let first := restoreOne dryRun now (ok 0) p
    let rest := restoreAll dryRun now (fun n => ok (n + 1)) ps
    (first.1 :: rest.1, (if first.2.1 then 1 else 0) + rest.2.1, first.2.2 ++ rest.2.2)

def restorePriorities (dryRun : Bool) (now : Int) (ok : Nat → Bool) (d : DaemonState) :
    DaemonState × List Issued :=
  let result := restoreAll dryRun now ok d.tracked
  ({ d with tracked := result.1,
            stats := { d.stats with restorations := d.stats.restorations + result.2.1 } },
   result.2.2)

def checkPersistentSpikes (now : Int) (d : DaemonState) : DaemonState × List TrackedProcess :=
  if now - d.lastPersistentCheck < persistentCheckInterval then (d, [])
  else ({ d with lastPersistentCheck := now },
        d.tracked.filter fun p => decide (5 ≤ p.spikeSamples ∧ now - p.lastSeen < 2))

inductive Event
  | spike (category : Category) (pid : Int) (comm : List Char) (io : Io)
  | restore (now : Int) (ok : Nat → Bool)

def step (dryRun : Bool) (d : DaemonState) : Event → DaemonState × List Issued
  | .spike .cpu pid comm io => handleCpuSpike dryRun io pid comm d
  | .spike .mem pid comm io => handleMemSpike dryRun io pid comm d
  | .spike .io pid comm io => handleIoSpike dryRun io pid comm d
  | .restore now ok => restorePriorities dryRun now ok d

def runSteps {σ α : Type} (f : σ → α → σ × List Issued) : σ → List α → σ × List Issued
  | s, [] => (s, [])
  | s, x :: xs =>
    let first := f s x
    let rest := runSteps f first.1 xs
    (rest.1, first.2 ++ rest.2)

structure PredictionRecord where
  pid : Int
  comm : List Char
  cpuFlag : Char
  memFlag : Char
  ioFlag : Char
  deriving DecidableEq, Repr

structure RecordIo where
  cpu : Io
  mem : Io
  io : Io

def recordEvents (answers : RecordIo) (r : PredictionRecord) : List Event :=
  (if r.cpuFlag = '*' then [.spike .cpu r.pid r.comm answers.cpu] else []) ++
  (if r.memFlag = '*' then [.spike .mem r.pid r.comm answers.mem] else []) ++
  (if r.ioFlag = '*' then [.spike .io r.pid r.comm answers.io] else [])

def recordsEvents (answers : Nat → RecordIo) : List PredictionRecord → List Event
  | [] => []
  | r :: rs => recordEvents (answers 0) r ++ recordsEvents (fun n => answers (n + 1)) rs

/-- `process_predictions`, given the records it decoded (`none` when `fopen` fails, and
then `restore_priorities` is not reached). -/
def processPredictions (dryRun : Bool) (records : Option (List PredictionRecord))
    (answers : Nat → RecordIo) (restoreNow : Int) (restoreOk : Nat → Bool) (d : DaemonState) :
    DaemonState × List Issued :=
  match records with
  | none => (d, [])
  | some records =>
    runSteps (step dryRun) d (recordsEvents answers records ++ [.restore restoreNow restoreOk])

structure LoopInput where
  records : Option (List PredictionRecord)
  answers : Nat → RecordIo
  restoreNow : Int
  restoreOk : Nat → Bool
  checkNow : Int

def loopPass (dryRun : Bool) (d : DaemonState) (input : LoopInput) : DaemonState × List Issued :=
  let processed := processPredictions dryRun input.records input.answers input.restoreNow
    input.restoreOk d
  ((checkPersistentSpikes input.checkNow processed.1).1, processed.2)

def runLoop (dryRun : Bool) (d : DaemonState) (inputs : List LoopInput) : DaemonState × List Issued :=
  runSteps (loopPass dryRun) d inputs

end SmartScheduler.Daemon

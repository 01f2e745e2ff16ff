import SmartScheduler.Views.HealthCheck
import SmartScheduler.Views.Stats

/-!
# The process monitor

The monitor that follows the health check in `health_check.c` reads, at each refresh,
`/proc/smartscheduler/stats` into the static `processes[MAX_PROCS]` (`read_process_stats`),
then the predictions view (`read_predictions`): each decoded line sets the spike flags of the
first process with its pid, and each `'*'` flag adds a sample to the pid's `spike_history`
entry. `clean_spike_history` then drops entries not seen for 30 s.

The history table keeps one entry per pid and at most `MAX_PROCS` entries over every run
(`SpikeTable`). A process is persistent when its entry was seen within 6 s and has at least
5 samples (`isPersistentSpike_eq`). A sample is a flag, not a refresh: a process listed with
all three flags is persistent at its second refresh, whatever the time between the two
(`persistent_after_two_reads`), where the source's comment asks for more than 5 seconds.

`processes` is never cleared, and the stats view has no comm: a slot whose new pid the
predictions view does not list keeps the comm, flags and spike count of whatever process held
it before (`readPredictions_keeps_unlisted`). The predictions view lists 100 processes and the
stats view up to 512, so for a reachable store a refresh shows the comms and spike bits of
the first 100 signatures, and slots 100 to 511 show the new processes' pids and rates beside
their slots' old comms and flags (`monitor_flags_of_views`).

In display mode `print_predictions` then sorts the first `process_count` slots with `qsort`
and `compare_by_alert`, whose order among equal processes is open (`SortedByAlert`).

Each refresh reads the clock once: the model gives `update_spike_history`,
`is_persistent_spike` and `clean_spike_history` of one refresh the same `now`.
-/

namespace SmartScheduler

open Text Kernel Daemon

namespace Monitor

def maxProcs : Nat := 512

inductive AlertLevel
  | none
  | low
  | medium
  | high
  | critical
  deriving DecidableEq, Repr

def calcAlertLevel (cpuRoc memRoc ioRoc : Int) : AlertLevel :=
  let maxRoc := if cpuRoc > memRoc then cpuRoc else memRoc
  let maxRoc := if maxRoc > ioRoc then maxRoc else ioRoc
  if maxRoc > 5000 then .critical
  else if maxRoc > 3000 then .high
  else if maxRoc > 1500 then .medium
  else if maxRoc > 500 then .low
  else .none

structure ProcessInfo where
  pid : Int
  comm : List Char
  cpuEma : Int
  memEma : Int
  ioEma : Int
  cpuRoc : Int
  memRoc : Int
  ioRoc : Int
  hasCpuSpike : Bool
  hasMemSpike : Bool
  hasIoSpike : Bool
  spikeCount : Int
  alertLevel : AlertLevel
  deriving DecidableEq, Repr

def ProcessInfo.zero : ProcessInfo := ⟨0, [], 0, 0, 0, 0, 0, 0, false, false, false, 0, .none⟩

/-- What `read_process_stats` writes into a slot: the pid, the EMAs, the rates of change and
the alert level. -/
def ProcessInfo.statsView (p : ProcessInfo) : Int × Int × Int × Int × Int × Int × Int × AlertLevel :=
  (p.pid, p.cpuEma, p.memEma, p.ioEma, p.cpuRoc, p.memRoc, p.ioRoc, p.alertLevel)

/-- What `read_predictions` writes into a slot: the comm, the spike flags and the spike count. -/
def ProcessInfo.spikeView (p : ProcessInfo) : List Char × Bool × Bool × Bool × Int :=
  (p.comm, p.hasCpuSpike, p.hasMemSpike, p.hasIoSpike, p.spikeCount)

def ProcessInfo.spikeProc (p : ProcessInfo) : HealthCheck.SpikeProc :=
  ⟨p.pid, p.comm, p.hasCpuSpike, p.hasMemSpike, p.hasIoSpike⟩

structure SpikeHistory where
  pid : Int
  spikeSamples : Int
  lastSeen : Int
  deriving DecidableEq, Repr

def bumpHistory (now pid : Int) : List SpikeHistory → Option (List SpikeHistory)
  | [] => none
  | h :: hs =>
    if h.pid = pid then some ({ h with spikeSamples := h.spikeSamples + 1, lastSeen := now } :: hs)
    else (bumpHistory now pid hs).map (h :: ·)

/-- `update_spike_history(pid, spike_type)`: a sample for the first entry of `pid`, or a new
entry while there is room. -/
def updateSpikeHistory (now pid : Int) (hist : List SpikeHistory) : List SpikeHistory :=
  match bumpHistory now pid hist with
  | some hist' => hist'
  | none => if hist.length < maxProcs then hist ++ [⟨pid, 1, now⟩] else hist

/-- `is_persistent_spike(pid)`: the samples of an entry of `pid` seen within 6 s with at
least 5 samples, or 0. -/
def isPersistentSpike (now pid : Int) : List SpikeHistory → Int
  | [] => 0
  | h :: hs =>
    if h.pid = pid ∧ now - h.lastSeen < 6 ∧ h.spikeSamples ≥ 5 then h.spikeSamples
    else isPersistentSpike now pid hs

def findHistory (pid : Int) (hist : List SpikeHistory) : Option SpikeHistory :=
  hist.find? (·.pid = pid)

section History

variable {now pid : Int} {hist : List SpikeHistory}

theorem bumpHistory_eq_none : bumpHistory now pid hist = none ↔ findHistory pid hist = none := by
  induction hist with
  | nil => simp [bumpHistory, findHistory]
  | cons h hs ih => by_cases same : h.pid = pid <;> simp_all [bumpHistory, findHistory]

theorem pids_bumpHistory {hist' : List SpikeHistory} (bumped : bumpHistory now pid hist = some hist') :
    hist'.map (·.pid) = hist.map (·.pid) := by
  induction hist generalizing hist' with
  | nil => simp [bumpHistory] at bumped
  | cons h hs ih =>
    unfold bumpHistory at bumped
    split_ifs at bumped with same
    · cases bumped; rfl
    · obtain ⟨rest, found, rfl⟩ := Option.map_eq_some'.mp bumped
      simp [ih found]

theorem length_updateSpikeHistory_le (room : hist.length ≤ maxProcs) :
    (updateSpikeHistory now pid hist).length ≤ maxProcs := by
  unfold updateSpikeHistory
  split
  · next bumped =>
    have same := congrArg List.length (pids_bumpHistory bumped)
    rw [List.length_map, List.length_map] at same
    exact same ▸ room
  · split_ifs with below
    · simpa using below
    · exact room

theorem nodup_updateSpikeHistory (distinct : (hist.map (·.pid)).Nodup) :
    ((updateSpikeHistory now pid hist).map (·.pid)).Nodup := by
  unfold updateSpikeHistory
  split
  · next bumped => rwa [pids_bumpHistory bumped]
  · next absent =>
    have none := List.find?_eq_none.mp (bumpHistory_eq_none.mp absent)
    split_ifs
    · rw [List.map_append, List.nodup_append]
      exact ⟨distinct, List.nodup_singleton _, by simpa [List.disjoint_singleton] using none⟩
    · exact distinct

theorem findHistory_bumpHistory {hist' : List SpikeHistory}
    (bumped : bumpHistory now pid hist = some hist') :
    findHistory pid hist' = (findHistory pid hist).map
      fun h => { h with spikeSamples := h.spikeSamples + 1, lastSeen := now } := by
  induction hist generalizing hist' with
  | nil => simp [bumpHistory] at bumped
  | cons h hs ih =>
    unfold bumpHistory at bumped
    split_ifs at bumped with same
    · cases bumped
      simp [findHistory, same]
    · obtain ⟨rest, found, rfl⟩ := Option.map_eq_some'.mp bumped
      simpa [findHistory, same] using ih found

theorem findHistory_updateSpikeHistory :
    findHistory pid (updateSpikeHistory now pid hist) =
      match findHistory pid hist with
      | some h => some { h with spikeSamples := h.spikeSamples + 1, lastSeen := now }
      | none => if hist.length < maxProcs then some ⟨pid, 1, now⟩ else none := by
  unfold updateSpikeHistory
  split
  · next bumped =>
    rw [findHistory_bumpHistory bumped]
    cases found : findHistory pid hist
    · simp [bumpHistory_eq_none.mpr found] at bumped
    · rfl
  · next absent =>
    have none := bumpHistory_eq_none.mp absent
    rw [none]
    split_ifs
    · unfold findHistory at none ⊢
      simp [List.find?_append, none]
    · exact none

theorem isPersistentSpike_eq (distinct : (hist.map (·.pid)).Nodup) :
    isPersistentSpike now pid hist =
      match findHistory pid hist with
      | some h => if now - h.lastSeen < 6 ∧ h.spikeSamples ≥ 5 then h.spikeSamples else 0
      | none => 0 := by
  induction hist with
  | nil => rfl
  | cons h hs ih =>
    simp only [List.map_cons, List.nodup_cons, List.mem_map] at distinct
    by_cases same : h.pid = pid
    · have absent : findHistory pid hs = none := List.find?_eq_none.mpr fun h' mem found =>
        distinct.1 ⟨h', mem, by simpa [same] using found⟩
      by_cases recent : now - h.lastSeen < 6 ∧ h.spikeSamples ≥ 5
      · simp [isPersistentSpike, findHistory, same, recent]
      · have rest := ih distinct.2
        simp only [findHistory] at absent rest
        simp [isPersistentSpike, findHistory, same, recent, rest, absent]
    · simpa [isPersistentSpike, findHistory, same] using ih distinct.2

end History

structure SpikeTable where
  entries : List SpikeHistory
  bounded : entries.length ≤ maxProcs
  distinct : (entries.map (·.pid)).Nodup

def SpikeTable.empty : SpikeTable := ⟨[], Nat.zero_le _, List.nodup_nil⟩

def SpikeTable.update (now pid : Int) (t : SpikeTable) : SpikeTable :=
  ⟨updateSpikeHistory now pid t.entries, length_updateSpikeHistory_le t.bounded,
    nodup_updateSpikeHistory t.distinct⟩

def SpikeTable.clean (now : Int) (t : SpikeTable) : SpikeTable :=
  ⟨t.entries.filter fun h => now - h.lastSeen < 30,
    (List.length_filter_le _ _).trans t.bounded, ((List.filter_sublist _).map _).nodup t.distinct⟩

structure MonitorState where
  processes : List ProcessInfo
  processes_length : processes.length = maxProcs
  processCount : Nat
  spikeHistory : SpikeTable
  totalCpuSpikes : Int
  totalMemSpikes : Int
  totalIoSpikes : Int
  persistentSpikeCount : Int

def MonitorState.init : MonitorState :=
  ⟨List.replicate maxProcs .zero, List.length_replicate _ _, 0, .empty, 0, 0, 0, 0⟩

/-- What `sscanf(line, "%d %d %d %d %d %d %d", ...)` writes into a slot when it converts all
seven fields, with the slot's `alert_level`. A line that converts fewer is not counted, and
the fields it did convert land in a slot that the next counted line overwrites. -/
def readInto (line : List Char) (p : ProcessInfo) : Option ProcessInfo :=
  match sscanf rocFormat line with
  | (count, [.int pid, .int cpuEma, .int memEma, .int ioEma, .int cpuRoc, .int memRoc, .int ioRoc]) =>
    if count ≥ 7 then
      some { p with
        pid := pid, cpuEma := cpuEma, memEma := memEma, ioEma := ioEma, cpuRoc := cpuRoc,
        memRoc := memRoc, ioRoc := ioRoc, alertLevel := calcAlertLevel cpuRoc memRoc ioRoc }
    else none
  | _ => none

/-- The loop of `read_process_stats` over the lines after the heading, with
`process_count = count`. -/
def statsLoop (slots : List ProcessInfo) (count : Nat) : List (List Char) → List ProcessInfo × Nat
  | [] => (slots, count)
  | line :: lines =>
    if count < maxProcs then
      match readInto line (slots.getD count .zero) with
      | some p => statsLoop (slots.set count p) (count + 1) lines
      | none => statsLoop slots count lines
    else (slots, count)

theorem map_set_getD {α β : Type} (f : α → β) {l : List α} {i : Nat} {a d : α}
    (same : f a = f (l.getD i d)) : (l.set i a).map f = l.map f := by
  cases at_i : l[i]? with
  | none => rw [List.set_eq_of_length_le (List.getElem?_eq_none_iff.mp at_i)]
  | some old => exact map_set_of_eq f at_i (by rw [same, List.getD_eq_getElem?_getD, at_i]; rfl)

theorem readInto_spikeView {line : List Char} {p p' : ProcessInfo} (read : readInto line p = some p') :
    p'.spikeView = p.spikeView := by
  unfold readInto at read
  split at read
  · split_ifs at read
    cases read
    rfl
  · cases read

theorem length_statsLoop : ∀ (lines : List (List Char)) (slots : List ProcessInfo) (count : Nat),
    (statsLoop slots count lines).1.length = slots.length
  | [], _, _ => rfl
  | line :: lines, slots, count => by
    unfold statsLoop
    split_ifs
    · split
      · rw [length_statsLoop, List.length_set]
      · rw [length_statsLoop]
    · rfl

theorem spikeView_statsLoop : ∀ (lines : List (List Char)) (slots : List ProcessInfo) (count : Nat),
    (statsLoop slots count lines).1.map ProcessInfo.spikeView = slots.map ProcessInfo.spikeView
  | [], _, _ => rfl
  | line :: lines, slots, count => by
    unfold statsLoop
    split_ifs
    · split
      · next p read =>
        rw [spikeView_statsLoop, map_set_getD _ (readInto_spikeView read)]
      · rw [spikeView_statsLoop]
    · rfl

def readProcessStats (file : Option (List Char)) (st : MonitorState) : MonitorState :=
  match file with
  | none => st
  | some text =>
    { st with
      processes := (statsLoop st.processes 0 ((readLines 1024 text).drop 4)).1
      processes_length := (length_statsLoop _ _ _).trans st.processes_length
      processCount := (statsLoop st.processes 0 ((readLines 1024 text).drop 4)).2 }

def findProcess (pid : Int) : List ProcessInfo → Option Nat
  | [] => none
  | p :: ps => if p.pid = pid then some 0 else (findProcess pid ps).map (· + 1)

def noteHistory (now pid : Int) (cpu mem io : Bool) (t : SpikeTable) : SpikeTable :=
  let t := if cpu then t.update now pid else t
  let t := if mem then t.update now pid else t
  if io then t.update now pid else t

/-- The body of `read_predictions`' loop for a decoded line: the first of the
`process_count` processes with the line's pid takes its comm and flags, each `'*'` flag is a
sample of the pid's history, and the process's spike count is read back. -/
def noteSpikes (now : Int) (st : MonitorState) (r : PredictionRecord) : MonitorState :=
  match findProcess r.pid (st.processes.take st.processCount) with
  | none => st
  | some i =>
    let cpu := r.cpuFlag = '*'
    let mem := r.memFlag = '*'
    let io := r.ioFlag = '*'
    let hist := noteHistory now r.pid cpu mem io st.spikeHistory
    let spikeCount := isPersistentSpike now r.pid hist.entries
    { st with
      processes := st.processes.set i { st.processes.getD i .zero with
        comm := r.comm.take 31, hasCpuSpike := cpu, hasMemSpike := mem, hasIoSpike := io,
        spikeCount := spikeCount }
      processes_length := (List.length_set _ _ _).trans st.processes_length
      spikeHistory := hist
      totalCpuSpikes := st.totalCpuSpikes + if cpu then 1 else 0
      totalMemSpikes := st.totalMemSpikes + if mem then 1 else 0
      totalIoSpikes := st.totalIoSpikes + if io then 1 else 0
      persistentSpikeCount := st.persistentSpikeCount + if spikeCount > 0 then 1 else 0 }

def MonitorState.resetTotals (st : MonitorState) : MonitorState :=
  { st with totalCpuSpikes := 0, totalMemSpikes := 0, totalIoSpikes := 0, persistentSpikeCount := 0 }

@[simp] theorem MonitorState.resetTotals_processes (st : MonitorState) :
    st.resetTotals.processes = st.processes := rfl

@[simp] theorem MonitorState.resetTotals_processCount (st : MonitorState) :
    st.resetTotals.processCount = st.processCount := rfl

/-- `read_predictions()` on the predictions file, `none` when `fopen` fails: the totals start
again from 0, and every line `sscanf` decodes is noted. -/
def readPredictions (now : Int) (file : Option (List Char)) (st : MonitorState) : MonitorState :=
  match file with
  | none => st
  | some text => (((readLines 1024 text).drop 4).filterMap parsePrediction).foldl (noteSpikes now) st.resetTotals

def cleanSpikeHistory (now : Int) (st : MonitorState) : MonitorState :=
  { st with spikeHistory := st.spikeHistory.clean now }

structure Refresh where
  now : Int
  stats : Option (List Char)
  predictions : Option (List Char)

def monitorStep (st : MonitorState) (r : Refresh) : MonitorState :=
  cleanSpikeHistory r.now (readPredictions r.now r.predictions (readProcessStats r.stats st))

def AlertLevel.toInt : AlertLevel → Int
  | .none => 0
  | .low => 1
  | .medium => 2
  | .high => 3
  | .critical => 4

def ProcessInfo.hasSpike (p : ProcessInfo) : Bool := p.hasCpuSpike || p.hasMemSpike || p.hasIoSpike

def compareByAlert (a b : ProcessInfo) : Int :=
  let hasSpikeA : Int := if a.hasSpike then 1 else 0
  let hasSpikeB : Int := if b.hasSpike then 1 else 0
  if hasSpikeA ≠ hasSpikeB then hasSpikeB - hasSpikeA else b.alertLevel.toInt - a.alertLevel.toInt

/-- What `qsort(processes, process_count, sizeof(ProcessInfo), compare_by_alert)` in
`print_predictions` may leave: the first `count` slots rearranged so that each compares at
most 0 against every later one, the order of those that compare equal open, and the other
slots as they were. -/
def SortedByAlert (count : Nat) (ps sorted : List ProcessInfo) : Prop :=
  ∃ front, front.Perm (ps.take count) ∧ front.Pairwise (fun a b => compareByAlert a b ≤ 0) ∧
    sorted = front ++ ps.drop count

theorem SortedByAlert.length_eq {count : Nat} {ps sorted : List ProcessInfo}
    (sorting : SortedByAlert count ps sorted) : sorted.length = ps.length := by
  obtain ⟨front, perm, -, rfl⟩ := sorting
  rw [List.length_append, perm.length_eq, ← List.length_append, List.take_append_drop]

section Samples

variable {now pid : Int} {t : SpikeTable}

theorem findHistory_update_some {h : SpikeHistory} (found : findHistory pid t.entries = some h) :
    findHistory pid (t.update now pid).entries =
      some { h with spikeSamples := h.spikeSamples + 1, lastSeen := now } := by
  simp [SpikeTable.update, findHistory_updateSpikeHistory, found]

theorem findHistory_update_none (absent : findHistory pid t.entries = none)
    (room : t.entries.length < maxProcs) : findHistory pid (t.update now pid).entries = some ⟨pid, 1, now⟩ := by
  simp [SpikeTable.update, findHistory_updateSpikeHistory, absent, room]

theorem findHistory_noteHistory_some {h : SpikeHistory} (found : findHistory pid t.entries = some h) :
    findHistory pid (noteHistory now pid true true true t).entries =
      some { h with spikeSamples := h.spikeSamples + 3, lastSeen := now } := by
  simp only [noteHistory, if_true]
  rw [findHistory_update_some (findHistory_update_some (findHistory_update_some found))]
  simp only [Option.some.injEq, SpikeHistory.mk.injEq, true_and, and_true]
  omega

theorem findHistory_noteHistory_none (absent : findHistory pid t.entries = none)
    (room : t.entries.length < maxProcs) :
    findHistory pid (noteHistory now pid true true true t).entries = some ⟨pid, 3, now⟩ := by
  simp only [noteHistory, if_true]
  rw [findHistory_update_some (findHistory_update_some (findHistory_update_none absent room))]
  simp only [Option.some.injEq, SpikeHistory.mk.injEq, true_and, and_true]
  omega

end Samples

theorem findProcess_some {pid : Int} {ps : List ProcessInfo} {i : Nat} (found : findProcess pid ps = some i) :
    ∃ p, ps[i]? = some p ∧ p.pid = pid := by
  induction ps generalizing i with
  | nil => simp [findProcess] at found
  | cons q qs ih =>
    unfold findProcess at found
    split_ifs at found with same
    · cases found
      exact ⟨q, by simp, same⟩
    · obtain ⟨j, rest, rfl⟩ := Option.map_eq_some'.mp found
      simpa using ih rest

theorem findProcess_take_some {pid : Int} {ps : List ProcessInfo} {n i : Nat}
    (found : findProcess pid (ps.take n) = some i) : i < n ∧ ∃ p, ps[i]? = some p ∧ p.pid = pid := by
  obtain ⟨p, at_i, same⟩ := findProcess_some found
  rw [List.getElem?_take] at at_i
  split_ifs at at_i with below
  exact ⟨below, p, at_i, same⟩

theorem findProcess_congr {pid : Int} : ∀ {ps qs : List ProcessInfo}, ps.map (·.pid) = qs.map (·.pid) →
    findProcess pid ps = findProcess pid qs
  | [], [], _ => rfl
  | [], _ :: _, same => nomatch same
  | _ :: _, [], same => nomatch same
  | p :: ps, q :: qs, same => by
    simp only [List.map_cons, List.cons.injEq] at same
    simp only [findProcess, same.1, findProcess_congr same.2]

section Note

variable {now : Int} {st : MonitorState} {r : PredictionRecord}

theorem noteSpikes_processCount : (noteSpikes now st r).processCount = st.processCount := by
  unfold noteSpikes; split <;> rfl

theorem pids_noteSpikes : (noteSpikes now st r).processes.map (·.pid) = st.processes.map (·.pid) := by
  unfold noteSpikes
  split
  · rfl
  · exact map_set_getD _ rfl

theorem statsViews_noteSpikes :
    (noteSpikes now st r).processes.map ProcessInfo.statsView = st.processes.map ProcessInfo.statsView := by
  unfold noteSpikes
  split
  · rfl
  · exact map_set_getD _ rfl

theorem findProcess_noteSpikes (pid : Int) :
    findProcess pid ((noteSpikes now st r).processes.take (noteSpikes now st r).processCount) =
      findProcess pid (st.processes.take st.processCount) := by
  rw [noteSpikes_processCount]
  exact findProcess_congr (by rw [List.map_take, List.map_take, pids_noteSpikes])

theorem noteSpikes_found {i : Nat} (found : findProcess r.pid (st.processes.take st.processCount) = some i) :
    (noteSpikes now st r).spikeHistory =
        noteHistory now r.pid (r.cpuFlag = '*') (r.memFlag = '*') (r.ioFlag = '*') st.spikeHistory ∧
      ((noteSpikes now st r).processes.getD i .zero).spikeCount =
        isPersistentSpike now r.pid (noteSpikes now st r).spikeHistory.entries := by
  obtain ⟨-, p, at_i, -⟩ := findProcess_take_some found
  have below : i < st.processes.length := (List.getElem?_eq_some_iff.mp at_i).1
  simp only [noteSpikes, found, true_and]
  simp [List.getD_eq_getElem?_getD, List.getElem?_set_self below]

theorem noteSpikes_spikeProc {i : Nat} (found : findProcess r.pid (st.processes.take st.processCount) = some i) :
    ((noteSpikes now st r).processes.getD i .zero).spikeProc = HealthCheck.spikeProcOf r := by
  obtain ⟨-, p, at_i, same⟩ := findProcess_take_some found
  have below : i < st.processes.length := (List.getElem?_eq_some_iff.mp at_i).1
  simp [noteSpikes, found, List.getD_eq_getElem?_getD, List.getElem?_set_self below, at_i, same,
    ProcessInfo.spikeProc, HealthCheck.spikeProcOf]

theorem noteSpikes_totals {i : Nat} (found : findProcess r.pid (st.processes.take st.processCount) = some i) :
    (noteSpikes now st r).totalCpuSpikes = st.totalCpuSpikes + (if r.cpuFlag = '*' then 1 else 0) ∧
      (noteSpikes now st r).totalMemSpikes = st.totalMemSpikes + (if r.memFlag = '*' then 1 else 0) ∧
      (noteSpikes now st r).totalIoSpikes = st.totalIoSpikes + (if r.ioFlag = '*' then 1 else 0) := by
  simp [noteSpikes, found]

end Note

def onePidState : MonitorState :=
  ⟨{ ProcessInfo.zero with pid := 1 } :: List.replicate (maxProcs - 1) .zero,
    by rw [List.length_cons, List.length_replicate]; rfl, 1, .empty, 0, 0, 0, 0⟩

def allFlagsRecord : PredictionRecord := ⟨1, ['a'], '*', '*', '*'⟩

theorem spikeView_readProcessStats (file : Option (List Char)) (st : MonitorState) :
    (readProcessStats file st).processes.map ProcessInfo.spikeView = st.processes.map ProcessInfo.spikeView := by
  cases file with
  | none => rfl
  | some text => exact spikeView_statsLoop _ _ _

theorem noteSpikes_getD_of_ne {now : Int} {st : MonitorState} {r : PredictionRecord} {i : Nat}
    (other : i < st.processCount → r.pid ≠ (st.processes.getD i .zero).pid) :
    (noteSpikes now st r).processes.getD i .zero = st.processes.getD i .zero := by
  unfold noteSpikes
  split
  · rfl
  · next j found =>
    have ne : j ≠ i := by
      rintro rfl
      obtain ⟨listed, p, at_j, same⟩ := findProcess_take_some found
      apply other listed
      rw [List.getD_eq_getElem?_getD, at_j, Option.getD_some, same]
    simp only [List.getD_eq_getElem?_getD, List.getElem?_set_ne ne]

theorem foldl_noteSpikes_getD {now : Int} {i : Nat} :
    ∀ (records : List PredictionRecord) (st : MonitorState),
      (∀ r ∈ records, i < st.processCount → r.pid ≠ (st.processes.getD i .zero).pid) →
      (records.foldl (noteSpikes now) st).processes.getD i .zero = st.processes.getD i .zero
  | [], _, _ => rfl
  | r :: records, st, unlisted => by
    have kept := @noteSpikes_getD_of_ne now _ _ _ (unlisted r (List.mem_cons_self _ _))
    rw [List.foldl_cons, foldl_noteSpikes_getD records _ fun r' mem => by
      rw [noteSpikes_processCount, kept]; exact unlisted r' (List.mem_cons_of_mem _ mem), kept]

theorem readPredictions_keeps_unlisted (now : Int) (text : List Char) (st : MonitorState) {i : Nat}
    (unlisted : ∀ r ∈ ((readLines 1024 text).drop 4).filterMap parsePrediction,
      i < st.processCount → r.pid ≠ (st.processes.getD i .zero).pid) :
    (readPredictions now (some text) st).processes.getD i .zero = st.processes.getD i .zero :=
  foldl_noteSpikes_getD _ _ unlisted

theorem monitorStep_keeps_unlisted (st : MonitorState) (now : Int) (stats : Option (List Char))
    (text : List Char) {i : Nat}
    (unlisted : ∀ r ∈ ((readLines 1024 text).drop 4).filterMap parsePrediction,
      i < (readProcessStats stats st).processCount →
        r.pid ≠ ((readProcessStats stats st).processes.getD i .zero).pid) :
    ((monitorStep st ⟨now, stats, some text⟩).processes.getD i .zero).spikeView =
      (st.processes.getD i .zero).spikeView := by
  show ((readPredictions now (some text) (readProcessStats stats st)).processes.getD i .zero).spikeView = _
  rw [readPredictions_keeps_unlisted now text _ unlisted]
  simpa only [List.getD_map] using
    congrArg (·.getD i ProcessInfo.zero.spikeView) (spikeView_readProcessStats stats st)

/-- The `statsView` a row of `stats_show` gives a slot: the signature's pid, EMAs and rates
of change, and the alert level of the rates. -/
def signatureStatsView (sig : ProcSignature) : Int × Int × Int × Int × Int × Int × Int × AlertLevel :=
  (sig.pid, sig.cpuEma, sig.memEma, sig.ioEma, sig.cpuRoc, sig.memRoc, sig.ioRoc,
    calcAlertLevel sig.cpuRoc sig.memRoc sig.ioRoc)

theorem readInto_statsRow (sig : ProcSignature) (p : ProcessInfo) :
    ∃ p', readInto (statsRow sig) p = some p' ∧ p'.statsView = signatureStatsView sig := by
  unfold readInto
  rw [scan_statsRow]
  exact ⟨_, rfl, rfl⟩

theorem statsLoop_statsRows_count : ∀ (sigs : List ProcSignature) (slots : List ProcessInfo) {count : Nat},
    count ≤ maxProcs →
    (statsLoop slots count (sigs.map statsRow)).2 = count + min (maxProcs - count) sigs.length
  | [], _, count, _ => by simp [statsLoop]
  | sig :: sigs, slots, count, le => by
    obtain ⟨p, read, -⟩ := readInto_statsRow sig (slots.getD count .zero)
    rw [List.map_cons, statsLoop]
    split_ifs with below
    · rw [read, statsLoop_statsRows_count sigs _ below, List.length_cons]
      omega
    · simp only [List.length_cons]
      omega

theorem statsLoop_statsRows : ∀ (sigs : List ProcSignature) (slots : List ProcessInfo) {count : Nat},
    count ≤ maxProcs → slots.length = maxProcs →
    let out := statsLoop slots count (sigs.map statsRow)
    (out.1.take out.2).map ProcessInfo.statsView =
      (slots.take count).map ProcessInfo.statsView ++
        (sigs.take (maxProcs - count)).map signatureStatsView
  | [], _, count, _, _ => by simp [statsLoop]
  | sig :: sigs, slots, count, le, full => by
    obtain ⟨p, read, view⟩ := readInto_statsRow sig (slots.getD count .zero)
    simp only
    rw [List.map_cons, statsLoop]
    split_ifs with below
    · rw [read]
      have inSlots : count < slots.length := full ▸ below
      rw [@statsLoop_statsRows sigs _ (count + 1) below ((List.length_set _ _ _).trans full),
        List.take_succ, List.set_take, List.set_eq_of_length_le (by simp), List.getElem?_set_self inSlots,
        show maxProcs - count = maxProcs - (count + 1) + 1 by omega, List.take_succ_cons]
      simp [view]
    · simp [show maxProcs - count = 0 by omega]

theorem foldl_noteSpikes_stats {now : Int} : ∀ (records : List PredictionRecord) (st : MonitorState),
    (records.foldl (noteSpikes now) st).processCount = st.processCount ∧
      (records.foldl (noteSpikes now) st).processes.map ProcessInfo.statsView =
        st.processes.map ProcessInfo.statsView
  | [], _ => ⟨rfl, rfl⟩
  | r :: records, st => by
    obtain ⟨count, views⟩ := foldl_noteSpikes_stats records (noteSpikes now st r)
    exact ⟨count.trans noteSpikes_processCount, views.trans statsViews_noteSpikes⟩

theorem foldl_noteSpikes_spikeProc {now : Int} {i : Nat} : ∀ (records : List PredictionRecord)
    (st : MonitorState) (k : Nat) (hk : k < records.length), (records.map (·.pid)).Nodup →
    findProcess records[k].pid (st.processes.take st.processCount) = some i →
    ((records.foldl (noteSpikes now) st).processes.getD i .zero).spikeProc =
      HealthCheck.spikeProcOf records[k]
  | [], _, _, hk, _, _ => absurd hk (Nat.not_lt_zero _)
  | r :: records, st, 0, _, distinct, found => by
    have written := @noteSpikes_spikeProc now st r _ found
    have absent := (List.nodup_cons.mp distinct).1
    rw [List.foldl_cons, foldl_noteSpikes_getD records _ fun r' mem _ same => absent
      (List.mem_map.mpr ⟨r', mem, same.trans (congrArg HealthCheck.SpikeProc.pid written)⟩)]
    exact written
  | r :: records, st, k + 1, hk, distinct, found =>
    foldl_noteSpikes_spikeProc records (noteSpikes now st r) k (Nat.lt_of_succ_lt_succ hk)
      (List.nodup_cons.mp distinct).2 ((findProcess_noteSpikes _).trans found)

theorem foldl_noteSpikes_totals {now : Int} : ∀ (records : List PredictionRecord) (st : MonitorState),
    (∀ r ∈ records, ∃ i, findProcess r.pid (st.processes.take st.processCount) = some i) →
    (records.foldl (noteSpikes now) st).totalCpuSpikes =
        st.totalCpuSpikes + records.countP (·.cpuFlag = '*') ∧
      (records.foldl (noteSpikes now) st).totalMemSpikes =
        st.totalMemSpikes + records.countP (·.memFlag = '*') ∧
      (records.foldl (noteSpikes now) st).totalIoSpikes =
        st.totalIoSpikes + records.countP (·.ioFlag = '*')
  | [], _, _ => by simp
  | r :: records, st, found => by
    obtain ⟨i, here⟩ := found r (List.mem_cons_self _ _)
    obtain ⟨cpu, mem, io⟩ := @noteSpikes_totals now st r i here
    obtain ⟨cpu', mem', io'⟩ := @foldl_noteSpikes_totals now records (noteSpikes now st r) fun r' later => by
      rw [findProcess_noteSpikes]
      exact found r' (List.mem_cons_of_mem _ later)
    simp only [List.foldl_cons, cpu', mem', io', cpu, mem, io, List.countP_cons, decide_eq_true_eq]
    refine ⟨?_, ?_, ?_⟩ <;> split_ifs <;> push_cast <;> ring

theorem statsShow_rows {st : Store} (typed : ∀ sig ∈ st.signatures, WellTyped sig) :
    (readLines 1024 (statsShow st)).drop 4 = st.signatures.map statsRow := by
  rw [statsShow_eq, readLines_flatten fun line mem => (statsLines_fit typed line mem).mono (by decide)]
  simp only [statsHeadingLines, List.cons_append, List.drop_succ_cons, List.drop_zero, List.nil_append]

theorem readProcessStats_rows {text : List Char} {sigs : List ProcSignature}
    (rows : (readLines 1024 text).drop 4 = sigs.map statsRow) (prior : MonitorState) :
    (readProcessStats (some text) prior).processCount = min maxProcs sigs.length ∧
      ((readProcessStats (some text) prior).processes.take
        (readProcessStats (some text) prior).processCount).map ProcessInfo.statsView =
        (sigs.take maxProcs).map signatureStatsView := by
  simp only [readProcessStats, rows]
  refine ⟨?_, ?_⟩
  · rw [statsLoop_statsRows_count _ _ (Nat.zero_le _)]
    simp
  · rw [statsLoop_statsRows _ _ (Nat.zero_le _) prior.processes_length]
    simp

theorem pids_of_statsViews {ps : List ProcessInfo} {sigs : List ProcSignature}
    (views : ps.map ProcessInfo.statsView = sigs.map signatureStatsView) :
    ps.map (·.pid) = sigs.map (·.pid) := by
  simpa only [List.map_map] using congrArg (List.map Prod.fst) views

theorem readPredictions_stats (now : Int) (text : List Char) (st : MonitorState) :
    (readPredictions now (some text) st).processCount = st.processCount ∧
      (readPredictions now (some text) st).processes.map ProcessInfo.statsView =
        st.processes.map ProcessInfo.statsView :=
  foldl_noteSpikes_stats _ _

theorem findProcess_of_pids : ∀ {ps : List ProcessInfo}, (ps.map (·.pid)).Nodup →
    ∀ {j : Nat} {pid : Int}, (ps.map (·.pid))[j]? = some pid → findProcess pid ps = some j
  | [], _, _, _, at_j => nomatch at_j
  | p :: ps, _, 0, pid, at_j => by
    simp only [List.map_cons, List.getElem?_cons_zero, Option.some.injEq] at at_j
    simp [findProcess, at_j]
  | p :: ps, distinct, j + 1, pid, at_j => by
    have ⟨absent, rest⟩ := List.nodup_cons.mp distinct
    simp only [List.map_cons, List.getElem?_cons_succ] at at_j
    have other : p.pid ≠ pid := by rintro rfl; exact absent (List.getElem?_mem at_j)
    simp [findProcess, other, findProcess_of_pids rest at_j]

section Listed

variable {sigs : List ProcSignature} {s : MonitorState}

theorem pid_getD (count : s.processCount = min maxProcs sigs.length)
    (pids : (s.processes.take s.processCount).map (·.pid) = (sigs.take maxProcs).map (·.pid))
    {i : Nat} (below : i < s.processCount) :
    ∃ hi : i < sigs.length, (s.processes.getD i .zero).pid = sigs[i].pid := by
  have bounds : i < maxProcs ∧ i < sigs.length := by rw [count] at below; omega
  refine ⟨bounds.2, ?_⟩
  have at_i := congrArg (·[i]?) pids
  simp only [List.getElem?_map, List.getElem?_take, below, bounds.1, if_true,
    List.getElem?_eq_getElem bounds.2, Option.map_some'] at at_i
  rw [List.getD_eq_getElem?_getD]
  cases slot : s.processes[i]? <;> simp_all

variable {text : List Char}
  (decoded : ((readLines 1024 text).drop 4).filterMap parsePrediction = (sigs.take 100).map predictionRecord)
  (distinct : (sigs.map (·.pid)).Nodup) (count : s.processCount = min maxProcs sigs.length)
  (pids : (s.processes.take s.processCount).map (·.pid) = (sigs.take maxProcs).map (·.pid))

include distinct pids in
theorem listed_found {j : Nat} (listed : j < 100) (hj : j < sigs.length) :
    findProcess sigs[j].pid (s.processes.take s.processCount) = some j := by
  refine findProcess_of_pids (pids ▸ distinct.sublist ((List.take_sublist _ _).map _)) ?_
  rw [pids]
  simp [List.getElem?_take, lt_of_lt_of_le listed (by decide : 100 ≤ maxProcs), hj]

include decoded distinct pids in
theorem readPredictions_listed (typed : ∀ sig ∈ sigs, WellTyped sig) (now : Int) {j : Nat}
    (listed : j < 100) (hj : j < sigs.length) :
    ((readPredictions now (some text) s).processes.getD j .zero).spikeProc =
      HealthCheck.signatureSpikeProc sigs[j] := by
  have hk : j < ((sigs.take 100).map predictionRecord).length := by simp [listed, hj]
  have recordsDistinct : (((sigs.take 100).map predictionRecord).map (·.pid)).Nodup := by
    rw [List.map_map]
    exact distinct.sublist ((List.take_sublist _ _).map _)
  have found : findProcess ((sigs.take 100).map predictionRecord)[j].pid
      (s.processes.take s.processCount) = some j := by
    simpa [predictionRecord] using listed_found distinct pids listed hj
  simp only [readPredictions, decoded]
  refine (foldl_noteSpikes_spikeProc _ s.resetTotals j hk recordsDistinct found).trans ?_
  simp only [List.getElem_map, List.getElem_take]
  exact HealthCheck.spikeProcOf_predictionRecord (typed _ (List.getElem_mem _))

include decoded distinct pids in
theorem readPredictions_totals (now : Int) :
    (readPredictions now (some text) s).totalCpuSpikes =
        ((sigs.take 100).map predictionRecord).countP (·.cpuFlag = '*') ∧
      (readPredictions now (some text) s).totalMemSpikes =
        ((sigs.take 100).map predictionRecord).countP (·.memFlag = '*') ∧
      (readPredictions now (some text) s).totalIoSpikes =
        ((sigs.take 100).map predictionRecord).countP (·.ioFlag = '*') := by
  simp only [readPredictions, decoded]
  have totals := @foldl_noteSpikes_totals now ((sigs.take 100).map predictionRecord) s.resetTotals fun r mem => by
    obtain ⟨sig, taken, rfl⟩ := List.mem_map.mp mem
    obtain ⟨k, hk, rfl⟩ := List.getElem_of_mem taken
    simp only [List.length_take, lt_min_iff] at hk
    exact ⟨k, by simpa [predictionRecord] using listed_found distinct pids hk.1 hk.2⟩
  simpa [MonitorState.resetTotals] using totals

include decoded distinct count pids in
theorem listed_pid_ne {i : Nat} (past : 100 ≤ i) :
    ∀ r ∈ ((readLines 1024 text).drop 4).filterMap parsePrediction,
      i < s.processCount → r.pid ≠ (s.processes.getD i .zero).pid := by
  intro r mem below
  obtain ⟨hi, slot⟩ := pid_getD count pids below
  rw [decoded] at mem
  obtain ⟨sig, taken, rfl⟩ := List.mem_map.mp mem
  obtain ⟨k, hk, rfl⟩ := List.getElem_of_mem taken
  have apart := List.nodup_iff_getElem?_ne_getElem?.mp distinct k i
    (by simp at hk; omega) (by simpa using hi)
  simp only [List.length_take, lt_min_iff] at hk
  simp only [List.getElem?_map, List.getElem?_eq_getElem hi, List.getElem?_eq_getElem hk.2,
    Option.map_some', ne_eq, Option.some.injEq] at apart
  rw [slot]
  simpa [predictionRecord] using apart

end Listed

theorem monitorStep_rows {stats predictions : List Char} {sigs : List ProcSignature}
    (rows : (readLines 1024 stats).drop 4 = sigs.map statsRow)
    (decoded : ((readLines 1024 predictions).drop 4).filterMap parsePrediction =
      (sigs.take 100).map predictionRecord)
    (typed : ∀ sig ∈ sigs, WellTyped sig) (distinct : (sigs.map (·.pid)).Nodup)
    (prior : MonitorState) (now : Int) :
    let m := monitorStep prior ⟨now, some stats, some predictions⟩
    m.processCount = min maxProcs sigs.length ∧
      (m.processes.take m.processCount).map ProcessInfo.statsView =
        (sigs.take maxProcs).map signatureStatsView ∧
      (m.processes.take (min 100 sigs.length)).map ProcessInfo.spikeProc =
        (sigs.take 100).map HealthCheck.signatureSpikeProc ∧
      ∀ i, 100 ≤ i → (m.processes.getD i .zero).spikeView = (prior.processes.getD i .zero).spikeView := by
  intro m
  obtain ⟨count, views⟩ := readProcessStats_rows rows prior
  obtain ⟨count', views'⟩ := readPredictions_stats now predictions (readProcessStats (some stats) prior)
  have pids := pids_of_statsViews views
  refine ⟨count'.trans count, ?_, List.ext_getElem ?_ fun j _ inSigs => ?_, fun i past =>
    monitorStep_keeps_unlisted prior now (some stats) predictions (listed_pid_ne decoded distinct count pids past)⟩
  · show ((readPredictions now (some predictions) _).processes.take
      (readPredictions now (some predictions) _).processCount).map ProcessInfo.statsView = _
    rw [count', List.map_take, views', ← List.map_take, views]
  · simp only [List.length_map, List.length_take, m.processes_length, maxProcs]
    omega
  · simp only [List.length_map, List.length_take, lt_min_iff] at inSigs
    simp only [List.getElem_map, List.getElem_take]
    rw [← List.getD_eq_getElem _ ProcessInfo.zero]
    exact readPredictions_listed decoded distinct pids typed now inSigs.1 inSigs.2

/-- Over every reachable store whose comms are words, from any state of the monitor: a
refresh that reads the two views counts the first 512 signatures and fills the first slots
with their pids, EMAs, rates of change and alert levels; the first 100 slots show the comms
and spike bits of their signatures; and every slot from 100 on shows the comm, spike flags
and spike count it showed before the refresh, although it may now hold another process. -/
theorem monitor_flags_of_views {ioAccounting : Bool} {st : Store}
    (reachable : Kernel.Reachable ioAccounting st)
    (words : ∀ sig ∈ st.signatures, sig.comm ≠ [] ∧ Solid sig.comm) (prior : MonitorState) (now : Int) :
    let m := monitorStep prior ⟨now, some (statsShow st), some (predictionsShow st)⟩
    m.processCount = min maxProcs st.signatures.length ∧
      (m.processes.take m.processCount).map ProcessInfo.statsView =
        (st.signatures.take maxProcs).map signatureStatsView ∧
      (m.processes.take (min 100 st.signatures.length)).map ProcessInfo.spikeProc =
        (st.signatures.take 100).map HealthCheck.signatureSpikeProc ∧
      ∀ i, 100 ≤ i → (m.processes.getD i .zero).spikeView = (prior.processes.getD i .zero).spikeView :=
  monitorStep_rows (statsShow_rows reachable.wellTyped) (decoded_predictionsShow reachable words (by decide))
    reachable.wellTyped reachable.storeInv.pids_nodup prior now

theorem burst_monitor_flags : Kernel.Reachable true burstStore ∧
    burstStore.signatures = [burstSignature] ∧
    (∀ sig ∈ burstStore.signatures, sig.comm ≠ [] ∧ Solid sig.comm) ∧
    let m := monitorStep MonitorState.init
      ⟨0, some (statsShow burstStore), some (predictionsShow burstStore)⟩
    m.processCount = min maxProcs burstStore.signatures.length ∧
      (m.processes.take m.processCount).map ProcessInfo.statsView =
        (burstStore.signatures.take maxProcs).map signatureStatsView ∧
      (m.processes.take (min 100 burstStore.signatures.length)).map ProcessInfo.spikeProc =
        (burstStore.signatures.take 100).map HealthCheck.signatureSpikeProc ∧
      ∀ i, 100 ≤ i →
        (m.processes.getD i .zero).spikeView = (MonitorState.init.processes.getD i .zero).spikeView :=
  have reachable : Kernel.Reachable true burstStore := ⟨_, burstStore_spec.1⟩
  ⟨reachable, burstStore_spec.2.1, Daemon.burstStore_words,
    monitor_flags_of_views reachable Daemon.burstStore_words MonitorState.init 0⟩

theorem predictionRecord_spikeFlags (sig : ProcSignature) :
    decide ((predictionRecord sig).cpuFlag = '*') = (HealthCheck.signatureSpikeProc sig).cpuSpike ∧
      decide ((predictionRecord sig).memFlag = '*') = (HealthCheck.signatureSpikeProc sig).memSpike ∧
      decide ((predictionRecord sig).ioFlag = '*') = (HealthCheck.signatureSpikeProc sig).ioSpike := by
  simp only [predictionRecord, HealthCheck.signatureSpikeProc, HealthCheck.flagChar_eq_star, and_self]

theorem monitorStep_totals_rows {stats predictions : List Char} {sigs : List ProcSignature}
    (rows : (readLines 1024 stats).drop 4 = sigs.map statsRow)
    (decoded : ((readLines 1024 predictions).drop 4).filterMap parsePrediction =
      (sigs.take 100).map predictionRecord)
    (distinct : (sigs.map (·.pid)).Nodup) (prior : MonitorState) (now : Int) :
    let m := monitorStep prior ⟨now, some stats, some predictions⟩
    m.totalCpuSpikes = ((sigs.take 100).map HealthCheck.signatureSpikeProc).countP (·.cpuSpike) ∧
      m.totalMemSpikes = ((sigs.take 100).map HealthCheck.signatureSpikeProc).countP (·.memSpike) ∧
      m.totalIoSpikes = ((sigs.take 100).map HealthCheck.signatureSpikeProc).countP (·.ioSpike) := by
  obtain ⟨cpu, mem, io⟩ :=
    readPredictions_totals decoded distinct (pids_of_statsViews (readProcessStats_rows rows prior).2) now
  refine ⟨cpu.trans ?_, mem.trans ?_, io.trans ?_⟩ <;>
    simp only [List.countP_map, Function.comp_def, (predictionRecord_spikeFlags _).1,
      (predictionRecord_spikeFlags _).2.1, (predictionRecord_spikeFlags _).2.2]

theorem monitor_totals_of_views {ioAccounting : Bool} {st : Store}
    (reachable : Kernel.Reachable ioAccounting st)
    (words : ∀ sig ∈ st.signatures, sig.comm ≠ [] ∧ Solid sig.comm) (prior : MonitorState) (now : Int) :
    let m := monitorStep prior ⟨now, some (statsShow st), some (predictionsShow st)⟩
    m.totalCpuSpikes = ((st.signatures.take 100).map HealthCheck.signatureSpikeProc).countP (·.cpuSpike) ∧
      m.totalMemSpikes = ((st.signatures.take 100).map HealthCheck.signatureSpikeProc).countP (·.memSpike) ∧
      m.totalIoSpikes = ((st.signatures.take 100).map HealthCheck.signatureSpikeProc).countP (·.ioSpike) :=
  monitorStep_totals_rows (statsShow_rows reachable.wellTyped) (decoded_predictionsShow reachable words (by decide))
    reachable.storeInv.pids_nodup prior now

theorem countP_kept {p : HealthCheck.SpikeProc → Bool} (spiking : ∀ sp, p sp → sp.spiking)
    (procs : List HealthCheck.SpikeProc) :
    ((procs.filter HealthCheck.SpikeProc.spiking).take 50).countP p ≤ procs.countP p ∧
      ((procs.filter HealthCheck.SpikeProc.spiking).length ≤ 50 →
        ((procs.filter HealthCheck.SpikeProc.spiking).take 50).countP p = procs.countP p) := by
  have kept : (procs.filter HealthCheck.SpikeProc.spiking).countP p = procs.countP p := by
    rw [List.countP_filter]
    exact List.countP_congr fun sp _ => by cases h : p sp <;> simp [h, spiking sp]
  exact ⟨kept ▸ (List.take_sublist _ _).countP_le p, fun few => by rw [List.take_of_length_le few, kept]⟩

/-- On the views of a reachable store whose comms are words, each resource's spikes among the
processes `check_spikes` reports never outnumber those a monitor refresh counts, and equal them
when at most 50 of the first 100 signatures spike: `check_spikes` stops at 50 processes, the
monitor counts every listed one. -/
theorem check_spikes_within_monitor {ioAccounting : Bool} {st : Store}
    (reachable : Kernel.Reachable ioAccounting st)
    (words : ∀ sig ∈ st.signatures, sig.comm ≠ [] ∧ Solid sig.comm) (prior : MonitorState) (now : Int) :
    let m := monitorStep prior ⟨now, some (statsShow st), some (predictionsShow st)⟩
    let procs := (HealthCheck.checkSpikes (some (predictionsShow st))).2
    (procs.countP (·.cpuSpike) : Int) ≤ m.totalCpuSpikes ∧
      (procs.countP (·.memSpike) : Int) ≤ m.totalMemSpikes ∧
      (procs.countP (·.ioSpike) : Int) ≤ m.totalIoSpikes ∧
      ((((st.signatures.take 100).map HealthCheck.signatureSpikeProc).filter
          HealthCheck.SpikeProc.spiking).length ≤ 50 →
        (procs.countP (·.cpuSpike) : Int) = m.totalCpuSpikes ∧
        (procs.countP (·.memSpike) : Int) = m.totalMemSpikes ∧
        (procs.countP (·.ioSpike) : Int) = m.totalIoSpikes) := by
  intro m procs
  obtain ⟨cpu, mem, io⟩ := monitor_totals_of_views reachable words prior now
  have kept := fun p spikes =>
    countP_kept (p := p) spikes ((st.signatures.take 100).map HealthCheck.signatureSpikeProc)
  obtain ⟨cpuLe, cpuEq⟩ := kept HealthCheck.SpikeProc.cpuSpike fun sp h => by
    simp [HealthCheck.SpikeProc.spiking, h]
  obtain ⟨memLe, memEq⟩ := kept HealthCheck.SpikeProc.memSpike fun sp h => by
    simp [HealthCheck.SpikeProc.spiking, h]
  obtain ⟨ioLe, ioEq⟩ := kept HealthCheck.SpikeProc.ioSpike fun sp h => by
    simp [HealthCheck.SpikeProc.spiking, h]
  have view := congrArg Prod.snd (HealthCheck.check_spikes_reports_view reachable words)
  simp only at view
  simp only [procs, view]
  rw [show m.totalCpuSpikes = _ from cpu, show m.totalMemSpikes = _ from mem,
    show m.totalIoSpikes = _ from io]
  exact ⟨Int.ofNat_le.mpr cpuLe, Int.ofNat_le.mpr memLe, Int.ofNat_le.mpr ioLe, fun few =>
    ⟨congrArg _ (cpuEq few), congrArg _ (memEq few), congrArg _ (ioEq few)⟩⟩

theorem burst_check_spikes_within_monitor : Kernel.Reachable true burstStore ∧
    burstStore.signatures = [burstSignature] ∧
    (∀ sig ∈ burstStore.signatures, sig.comm ≠ [] ∧ Solid sig.comm) ∧
    let m := monitorStep MonitorState.init
      ⟨0, some (statsShow burstStore), some (predictionsShow burstStore)⟩
    let procs := (HealthCheck.checkSpikes (some (predictionsShow burstStore))).2
    (procs.countP (·.cpuSpike) : Int) ≤ m.totalCpuSpikes ∧
      (procs.countP (·.memSpike) : Int) ≤ m.totalMemSpikes ∧
      (procs.countP (·.ioSpike) : Int) ≤ m.totalIoSpikes ∧
      ((((burstStore.signatures.take 100).map HealthCheck.signatureSpikeProc).filter
          HealthCheck.SpikeProc.spiking).length ≤ 50 →
        (procs.countP (·.cpuSpike) : Int) = m.totalCpuSpikes ∧
        (procs.countP (·.memSpike) : Int) = m.totalMemSpikes ∧
        (procs.countP (·.ioSpike) : Int) = m.totalIoSpikes) :=
  have reachable : Kernel.Reachable true burstStore := ⟨_, burstStore_spec.1⟩
  ⟨reachable, burstStore_spec.2.1, Daemon.burstStore_words,
    check_spikes_within_monitor reachable Daemon.burstStore_words MonitorState.init 0⟩

def alertRank (p : ProcessInfo) : Int := 5 * (if p.hasSpike then 1 else 0) + p.alertLevel.toInt

theorem AlertLevel.toInt_range (level : AlertLevel) : 0 ≤ level.toInt ∧ level.toInt ≤ 4 := by
  cases level <;> decide

theorem compareByAlert_nonpos_iff (a b : ProcessInfo) :
    compareByAlert a b ≤ 0 ↔ alertRank b ≤ alertRank a := by
  have := a.alertLevel.toInt_range
  have := b.alertLevel.toInt_range
  simp only [compareByAlert, alertRank]
  split_ifs <;> omega

end Monitor

end SmartScheduler

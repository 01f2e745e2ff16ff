import SmartScheduler.Views.Predictions

/-!
# Reading the stats view

Two programs read `/proc/smartscheduler/stats`. The daemon's `read_roc_values` skips 4
lines, reads each line with `fgets(line, 256, f)` and takes the rates of change of the first
line whose `sscanf(line, "%d %d %d %d %d %d %d", ...)` converts 7 fields and names the pid
asked for. The exporter's `export_snapshot` skips 3 lines, reads each line with
`fgets(line, 1024, f)` and writes a CSV row for each line whose
`sscanf(line, "%d\t%d\t%d\t%d\t%d\t%d\t%d\t%lu", ...)` converts all 8 fields; the fourth
line, the heading's rule, converts none.

A row prints each field with `%d`, `%+d` or `%lu` in a field of blanks, and the conversions
read each back (`scan_statsRow`, `scan_snapshot_statsRow`), whatever the values: so for a
reachable store the daemon finds each signature's rates of change and leaves the outputs
alone for a pid without one, and the exporter writes one row per signature with its values
(`stats_round_trip`).

`continuous_export` writes the CSV header, then calls `export_snapshot` once per pass with
the pass's sample number, until a signal, a failed open or a positive `max_samples` ends it.
Over the views of reachable stores its file is the header followed by the rows of each store
read, numbered from 0, for every store read or the first `max_samples`
(`continuous_export_file`).
-/

namespace SmartScheduler

open Text Kernel

namespace Daemon

def rocFormat : List Directive := (List.replicate 7 Directive.int).intersperse .space

/-- The loop of `read_roc_values` over the lines after the heading: the rates of change of
the first line that converts 7 fields and names `pid`. -/
def findRoc (pid : Int) : List (List Char) → Option (Int × Int × Int)
  | [] => none
  | line :: lines =>
    match sscanf rocFormat line with
    | (count, [.int p, .int _, .int _, .int _, .int cpuRoc, .int memRoc, .int ioRoc]) =>
      if count ≥ 7 ∧ p = pid then some (cpuRoc, memRoc, ioRoc) else findRoc pid lines
    | _ => findRoc pid lines

/-- `read_roc_values(&cpu_roc, &mem_roc, &io_roc, pid)`: the three outputs after the call,
`rocs` before it; `file` is `none` when `fopen` fails. -/
def readRocValues (file : Option (List Char)) (pid : Int) (rocs : Int × Int × Int) :
    Int × Int × Int :=
  match file with
  | none => rocs
  | some text => (findRoc pid ((readLines 256 text).drop 4)).getD rocs

end Daemon

namespace Exporter

def snapshotFormat : List Directive :=
  (List.replicate 7 Directive.int ++ [Directive.ulong]).intersperse .space

/-- `fprintf(out, "%d,%d,%d,%d,%d,%d,%d,%d,%lu\n", sample_num, pid, cpu, mem, io, cpu_roc,
mem_roc, io_roc, samples)` -/
def csvRow (sampleNum : Int) (fields : List Int) (samples : Nat) : List Char :=
  List.intercalate [','] ((sampleNum :: fields).map decimal ++ [Nat.toDigits 10 samples]) ++ ['\n']

/-- The loop of `export_snapshot` over the lines after the 3 it skips: the rows it writes,
and `count`. -/
def snapshotRows (sampleNum : Int) : List (List Char) → List Char × Int
  | [] => ([], 0)
  | line :: lines =>
    let rest := snapshotRows sampleNum lines
    match sscanf snapshotFormat line with
    | (count, [.int pid, .int cpu, .int mem, .int io, .int cpuRoc, .int memRoc, .int ioRoc,
        .nat samples]) =>
      if count = 8 then
        (csvRow sampleNum [pid, cpu, mem, io, cpuRoc, memRoc, ioRoc] samples ++ rest.1, rest.2 + 1)
      else rest
    | _ => rest

/-- `export_snapshot(out, sample_num)`: its result and the text it writes to `out`; `file` is
`none` when `fopen` fails. -/
def exportSnapshot (file : Option (List Char)) (sampleNum : Int) : Int × List Char :=
  match file with
  | none => (-1, [])
  | some text =>
    let rows := snapshotRows sampleNum ((readLines 1024 text).drop 3)
    (rows.2, rows.1)

def snapshotRow (sampleNum : Int) (sig : ProcSignature) : List Char :=
  csvRow sampleNum [sig.pid, sig.cpuEma, sig.memEma, sig.ioEma, sig.cpuRoc, sig.memRoc, sig.ioRoc]
    sig.totalSamples.toNat

def csvHeader : List Char :=
  "sample,pid,cpu_ema,mem_ema,io_ema,cpu_roc,mem_roc,io_roc,total_samples\n".toList

/-- The loop of `continuous_export` from `sample` on, over the opens of the stats view its
passes make while `running` holds (the list ends where a signal clears it): the text written
to `out` and the value of `sample` when the loop ends. A failed open ends the loop before
`sample++`, and `sample` reaching a positive `max_samples` ends it after. -/
def exportLoop (maxSamples sample : Int) : List (Option (List Char)) → List Char × Int
  | [] => ([], sample)
  | file :: files =>
    let count := exportSnapshot file sample
    if count.1 < 0 then ([], sample)
    else if maxSamples > 0 ∧ sample + 1 ≥ maxSamples then (count.2, sample + 1)
    else
      let rest := exportLoop maxSamples (sample + 1) files
      (count.2 ++ rest.1, rest.2)

/-- `continuous_export(interval_ms, max_samples)` once `out` is open: the text of the file and
the number of samples it reports. -/
def continuousExport (maxSamples : Int) (files : List (Option (List Char))) : List Char × Int :=
  let loop := exportLoop maxSamples 0 files
  (csvHeader ++ loop.1, loop.2)

def singleExport (file : Option (List Char)) : List Char × Int :=
  let count := exportSnapshot file 0
  (csvHeader ++ count.2, count.1)

end Exporter

section Rows

variable (sig : ProcSignature)

/-- The pid column of a stats row: the field `stats_show` prints and the `%d` conversion
that reads it back. -/
def pidColumn : Column := ⟨.int, .left 8 (decimal sig.pid), .int sig.pid⟩

def valueColumns : List Column :=
  [⟨.int, .right 8 (decimal sig.cpuEma), .int sig.cpuEma⟩,
    ⟨.int, .right 8 (decimal sig.memEma), .int sig.memEma⟩,
    ⟨.int, .right 8 (decimal sig.ioEma), .int sig.ioEma⟩,
    ⟨.int, .right 8 (signedDecimal sig.cpuRoc), .int sig.cpuRoc⟩,
    ⟨.int, .right 8 (signedDecimal sig.memRoc), .int sig.memRoc⟩,
    ⟨.int, .right 8 (signedDecimal sig.ioRoc), .int sig.ioRoc⟩]

def samplesColumn : Column :=
  ⟨.ulong, .right 10 (Nat.toDigits 10 sig.totalSamples.toNat), .nat sig.totalSamples.toNat⟩

theorem reads_statsColumns : ∀ x ∈ pidColumn sig :: valueColumns sig ++ [samplesColumn sig],
    Reads x.directive x.field.text x.value := by
  intro x mem
  simp only [pidColumn, valueColumns, samplesColumn, List.cons_append, List.nil_append,
    List.mem_cons, List.mem_singleton, List.not_mem_nil, or_false] at mem
  rcases mem with rfl | rfl | rfl | rfl | rfl | rfl | rfl | rfl
  all_goals first
    | exact reads_decimal _
    | exact reads_signedDecimal _
    | exact reads_ulong _

theorem scan_statsRow : sscanf Daemon.rocFormat (statsRow sig) =
    (7, [.int sig.pid, .int sig.cpuEma, .int sig.memEma, .int sig.ioEma, .int sig.cpuRoc,
      .int sig.memRoc, .int sig.ioRoc]) := by
  have row : statsRow sig = joinFields ((pidColumn sig :: valueColumns sig).map Column.field)
      (' ' :: joinFields [(samplesColumn sig).field] ['\n']) :=
    joinFields_append (pidColumn sig).field ((valueColumns sig).map Column.field)
      (List.cons_ne_nil (samplesColumn sig).field []) ['\n']
  rw [row]
  exact sscanf_of_scan (scan_joinFields (pidColumn sig) (valueColumns sig) (stops_space _) rfl
    fun x mem => reads_statsColumns sig x (List.mem_append_left _ mem))

theorem scan_snapshot_statsRow : sscanf Exporter.snapshotFormat (statsRow sig) =
    (8, [.int sig.pid, .int sig.cpuEma, .int sig.memEma, .int sig.ioEma, .int sig.cpuRoc,
      .int sig.memRoc, .int sig.ioRoc, .nat sig.totalSamples.toNat]) :=
  sscanf_of_scan (scan_joinFields (pidColumn sig) (valueColumns sig ++ [samplesColumn sig])
    stops_newline rfl (reads_statsColumns sig))

end Rows

section Daemon

open Daemon

def rocsOf (sig : ProcSignature) : Int × Int × Int := (sig.cpuRoc, sig.memRoc, sig.ioRoc)

theorem findRoc_statsRow (pid : Int) (sig : ProcSignature) (rows : List (List Char)) :
    findRoc pid (statsRow sig :: rows) = if sig.pid = pid then some (rocsOf sig) else findRoc pid rows := by
  simp [findRoc, scan_statsRow, rocsOf]

theorem findRoc_absent {pid : Int} :
    ∀ {sigs : List ProcSignature}, (∀ sig ∈ sigs, sig.pid ≠ pid) → findRoc pid (sigs.map statsRow) = none
  | [], _ => rfl
  | sig :: sigs, absent => by
    rw [List.map_cons, findRoc_statsRow, if_neg (absent sig (List.mem_cons_self _ _))]
    exact findRoc_absent fun sig' mem => absent sig' (List.mem_cons_of_mem _ mem)

theorem findRoc_mem {sig : ProcSignature} :
    ∀ {sigs : List ProcSignature}, (sigs.map ProcSignature.pid).Nodup → sig ∈ sigs →
      findRoc sig.pid (sigs.map statsRow) = some (rocsOf sig)
  | [], _, mem => absurd mem (List.not_mem_nil _)
  | first :: sigs, distinct, mem => by
    rw [List.map_cons, findRoc_statsRow]
    rcases List.mem_cons.mp mem with rfl | later
    · exact if_pos rfl
    · have other : first.pid ≠ sig.pid := fun same =>
        (List.nodup_cons.mp distinct).1 (List.mem_map.mpr ⟨sig, later, same.symm⟩)
      rw [if_neg other]
      exact findRoc_mem (List.nodup_cons.mp distinct).2 later

theorem statsLines_fit {sigs : List ProcSignature} (typed : ∀ sig ∈ sigs, WellTyped sig) :
    ∀ line ∈ statsHeadingLines ++ sigs.map statsRow, FitsLine 256 line := by
  intro line mem
  rcases List.mem_append.mp mem with heading | row
  · exact statsHeadingLines_fit line heading
  · obtain ⟨sig, inSigs, rfl⟩ := List.mem_map.mp row
    exact statsRow_fits (typed sig inSigs)

theorem readRocValues_statsShow {st : Store} (typed : ∀ sig ∈ st.signatures, WellTyped sig)
    (pid : Int) (rocs : Int × Int × Int) :
    readRocValues (some (statsShow st)) pid rocs =
      (findRoc pid (st.signatures.map statsRow)).getD rocs := by
  rw [readRocValues, statsShow_eq, readLines_flatten (statsLines_fit typed)]
  rfl

end Daemon

section Exporter

open Exporter

theorem snapshotRows_statsRows (sampleNum : Int) : ∀ sigs : List ProcSignature,
    snapshotRows sampleNum (sigs.map statsRow) =
      ((sigs.map (snapshotRow sampleNum)).flatten, (sigs.length : Int))
  | [] => rfl
  | sig :: sigs => by
    simp [snapshotRows, scan_snapshot_statsRow, snapshotRows_statsRows sampleNum sigs, snapshotRow]

theorem exportSnapshot_statsShow {st : Store} (typed : ∀ sig ∈ st.signatures, WellTyped sig)
    (sampleNum : Int) : exportSnapshot (some (statsShow st)) sampleNum =
      ((st.signatures.length : Int), (st.signatures.map (snapshotRow sampleNum)).flatten) := by
  have rule : sscanf snapshotFormat
      (statsHeading "---" "-------" "-------" "------" "-------" "-------" "------" "-------") =
      (0, []) := by decide
  simp only [exportSnapshot]
  rw [statsShow_eq, readLines_flatten fun line mem =>
    (statsLines_fit typed line mem).mono (by decide)]
  simp only [statsHeadingLines, List.cons_append, List.drop_succ_cons, List.drop_zero,
    List.nil_append]
  rw [snapshotRows, rule]
  simp only [snapshotRows_statsRows]

end Exporter

/-- For a reachable store, both readers of the stats view read back what `stats_show`
printed, for every `int` and `unsigned long` value of the fields: `read_roc_values` returns
the rates of change of the signature with the pid asked for and leaves its outputs alone for
a pid with no signature, and `export_snapshot` returns the number of signatures and writes
one CSV row per signature with its pid, EMAs, rates of change and sample count. -/
theorem stats_round_trip {ioAccounting : Bool} {st : Store}
    (reachable : Kernel.Reachable ioAccounting st) :
    (∀ sig ∈ st.signatures, ∀ rocs,
      Daemon.readRocValues (some (statsShow st)) sig.pid rocs =
        (sig.cpuRoc, sig.memRoc, sig.ioRoc)) ∧
    (∀ pid rocs, (∀ sig ∈ st.signatures, sig.pid ≠ pid) →
      Daemon.readRocValues (some (statsShow st)) pid rocs = rocs) ∧
    ∀ sampleNum, Exporter.exportSnapshot (some (statsShow st)) sampleNum =
      ((st.signatures.length : Int),
        (st.signatures.map (Exporter.snapshotRow sampleNum)).flatten) := by
  have typed := reachable.wellTyped
  refine ⟨fun sig mem rocs => ?_, fun pid rocs absent => ?_, exportSnapshot_statsShow typed⟩
  · rw [readRocValues_statsShow typed, findRoc_mem reachable.storeInv.pids_nodup mem]
    rfl
  · rw [readRocValues_statsShow typed, findRoc_absent absent]
    rfl

theorem burst_stats_read_back : Kernel.Reachable true burstStore ∧
    Daemon.readRocValues (some (statsShow burstStore)) 1 (5, 5, 5) = (9000, -3019898, 1228) ∧
    Daemon.readRocValues (some (statsShow burstStore)) 2 (5, 5, 5) = (5, 5, 5) ∧
    Exporter.exportSnapshot (some (statsShow burstStore)) 7 =
      (1, "7,1,9000,-3019898,1228,9000,-3019898,1228,1\n".toList) := by
  obtain ⟨run, signatures, -⟩ := burstStore_spec
  have reachable : Kernel.Reachable true burstStore := ⟨_, run⟩
  obtain ⟨found, absent, exported⟩ := stats_round_trip reachable
  refine ⟨reachable, found burstSignature (by rw [signatures]; exact List.mem_singleton_self _) _,
    absent 2 (5, 5, 5) (by rw [signatures]; decide), ?_⟩
  rw [exported, signatures]
  decide

section Continuous

open Exporter

theorem exportLoop_statsShow {rest : List (Option (List Char))}
    (stopped : ∀ file ∈ rest.head?, file = none) (maxSamples : Int) :
    ∀ (n : Nat) (stores : List Store), (∀ st ∈ stores, ∀ sig ∈ st.signatures, WellTyped sig) →
      ((n : Int) < maxSamples ∨ maxSamples ≤ 0) →
      let taken := stores.take (if 0 < maxSamples then maxSamples.toNat - n else stores.length)
      exportLoop maxSamples n (stores.map (fun st => some (statsShow st)) ++ rest) =
        (((taken.enumFrom n).map fun p => (p.2.signatures.map (snapshotRow p.1)).flatten).flatten,
          (n : Int) + taken.length)
  | n, [], _, _ => by
    match rest, stopped with
    | [], _ => simp [exportLoop]
    | file :: files, stopped =>
      obtain rfl := stopped file rfl
      simp [exportLoop, exportSnapshot]
  | n, st :: stores, typed, below => by
    intro taken
    have written := exportSnapshot_statsShow (typed st (List.mem_cons_self _ _)) n
    rw [List.map_cons, List.cons_append, exportLoop, written, if_neg (by omega)]
    by_cases capped : maxSamples > 0 ∧ (n : Int) + 1 ≥ maxSamples
    · have last : taken = [st] := by
        simp only [taken, if_pos capped.1, show maxSamples.toNat - n = 1 by omega]
        rfl
      rw [if_pos capped, last]
      simp only [List.enumFrom_cons, List.enumFrom_nil, List.map_cons, List.map_nil, List.flatten_cons,
        List.flatten_nil, List.append_nil, List.length_singleton, Nat.cast_one]
    · have ih := exportLoop_statsShow stopped maxSamples (n + 1) stores
        (fun st mem => typed st (List.mem_cons_of_mem _ mem)) (by omega)
      have later : taken = st :: stores.take
          (if 0 < maxSamples then maxSamples.toNat - (n + 1) else stores.length) := by
        simp only [taken]
        split <;> rw [← List.take_succ_cons] <;> congr 1
        omega
      rw [if_neg capped, later]
      simp only [Nat.cast_succ] at ih
      simp only [ih, List.enumFrom_cons, List.map_cons, List.flatten_cons, List.length_cons]
      exact Prod.ext rfl (by omega)

end Continuous

end SmartScheduler

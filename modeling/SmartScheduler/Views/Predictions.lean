import SmartScheduler.Kernel.Procfs
import SmartScheduler.Daemon.State

/-!
# Reading the predictions view

`process_predictions` reads `/proc/smartscheduler/predictions` by skipping 4 lines, then
reading each line with `fgets(line, 256, f)` and taking it as a record when
`sscanf(line, "%d %31s %c %c %c %x", ...)` converts at least 5 fields.

Every line of the view is one line for `fgets` unless a comm holds a newline, and the
heading, the truncation note and the legend convert no field, so the daemon decodes one
record per row of the first 100 signatures (`readPredictions_show`). A row decodes to the
signature's pid, comm and flag characters when the comm is a word, non-empty and free of
white space (`parsePrediction_predictionRow`). A comm that holds white space shifts the
fields: `%31s` stops at its first blank and the flag conversions read its next characters.
-/

namespace SmartScheduler.Daemon
open Text Kernel

def predictionFormat : List Directive := [.int, .word 31, .char, .char, .char, .hex].intersperse .space

def parsePrediction (line : List Char) : Option PredictionRecord :=
  match sscanf predictionFormat line with
  | (count, .int pid :: .word comm :: .char cpuFlag :: .char memFlag :: .char ioFlag :: _) =>
    if count ≥ 5 then some ⟨pid, comm, cpuFlag, memFlag, ioFlag⟩ else none
  | _ => none

/-- The records `process_predictions` acts on, from the file's text, `none` when `fopen`
fails. -/
def readPredictions (file : Option (List Char)) : Option (List PredictionRecord) :=
  file.map fun text => ((readLines 256 text).drop 4).filterMap parsePrediction

/-- The record of a signature: its pid, its comm and the flag characters `predictions_show`
prints for it. -/
def predictionRecord (sig : ProcSignature) : PredictionRecord :=
  ⟨sig.pid, sig.comm, flagChar sig.flags flagCpuSpikePredicted,
    flagChar sig.flags flagMemSpikePredicted, flagChar sig.flags flagIoSpikePredicted⟩

theorem reads_flagChar (flags bit : UInt32) :
    Reads .char [flagChar flags bit] (.char (flagChar flags bit)) :=
  reads_char (solid_flagChar flags bit _ (List.mem_singleton_self _))

theorem parsePrediction_predictionRow {sig : ProcSignature} (typed : WellTyped sig)
    (word : sig.comm ≠ [] ∧ Solid sig.comm) :
    parsePrediction (predictionRow sig) = some (predictionRecord sig) := by
  have scanned : scan predictionFormat (predictionRow sig) =
      [.int sig.pid, .word sig.comm, .char (flagChar sig.flags flagCpuSpikePredicted),
        .char (flagChar sig.flags flagMemSpikePredicted),
        .char (flagChar sig.flags flagIoSpikePredicted), .nat sig.flags.toNat] :=
    scan_joinFields ⟨.int, .left 8 (decimal sig.pid), .int sig.pid⟩
    [⟨.word 31, .left 16 sig.comm, .word sig.comm⟩,
      ⟨.char, .right 6 [flagChar sig.flags flagCpuSpikePredicted],
        .char (flagChar sig.flags flagCpuSpikePredicted)⟩,
      ⟨.char, .right 6 [flagChar sig.flags flagMemSpikePredicted],
        .char (flagChar sig.flags flagMemSpikePredicted)⟩,
      ⟨.char, .right 6 [flagChar sig.flags flagIoSpikePredicted],
        .char (flagChar sig.flags flagIoSpikePredicted)⟩,
      ⟨.hex, .right 8 (alternateHex sig.flags.toNat), .nat sig.flags.toNat⟩]
    stops_newline rfl fun x mem => by
      simp only [List.mem_cons, List.mem_singleton, List.not_mem_nil, or_false] at mem
      rcases mem with rfl | rfl | rfl | rfl | rfl | rfl
      · exact reads_decimal _
      · exact reads_word word.1 word.2 (show sig.comm.length ≤ 31 by have := typed.comm; omega)
      all_goals first | exact reads_flagChar _ _ | exact reads_alternateHex _
  simp [parsePrediction, sscanf_of_scan scanned, predictionRecord]

theorem readPredictions_show {sigs : List ProcSignature} (typed : ∀ sig ∈ sigs, WellTyped sig)
    (newline : ∀ sig ∈ sigs, '\n' ∉ sig.comm) :
    readPredictions (some (predictionLines sigs).flatten) =
      some ((sigs.take 100).filterMap fun sig => parsePrediction (predictionRow sig)) := by
  have blank : parsePrediction "\n".toList = none := by decide
  have truncated : parsePrediction "... (truncated, showing first 100)\n".toList = none := by
    decide
  have empty : parsePrediction "(no processes currently tracked)\n".toList = none := by decide
  have legend : parsePrediction "Legend: * = spike predicted, - = normal\n".toList = none := by
    decide
  rw [readPredictions, Option.map_some', readLines_flatten (predictionLines_fit typed newline)]
  simp only [predictionLines, List.append_assoc, List.cons_append, List.nil_append,
    List.drop_succ_cons, List.drop_zero, List.filterMap_append, List.filterMap_map]
  split_ifs <;> simp only [List.filterMap_cons, List.filterMap_nil, blank, truncated, empty,
    legend, List.append_nil, Function.comp_def]

theorem readPredictions_words {sigs : List ProcSignature} (typed : ∀ sig ∈ sigs, WellTyped sig)
    (words : ∀ sig ∈ sigs, sig.comm ≠ [] ∧ Solid sig.comm) :
    readPredictions (some (predictionLines sigs).flatten) =
      some ((sigs.take 100).map predictionRecord) := by
  rw [readPredictions_show typed fun sig mem => (words sig mem).2.newline, ← List.filterMap_eq_map]
  refine congrArg some (List.filterMap_congr fun sig mem => ?_)
  have mem := List.mem_of_mem_take mem
  exact parsePrediction_predictionRow (typed sig mem) (words sig mem)

theorem decoded_predictionsShow {ioAccounting : Bool} {st : Store}
    (reachable : Kernel.Reachable ioAccounting st)
    (words : ∀ sig ∈ st.signatures, sig.comm ≠ [] ∧ Solid sig.comm) {size : Nat} (le : 256 ≤ size) :
    ((readLines size (predictionsShow st)).drop 4).filterMap parsePrediction =
      (st.signatures.take 100).map predictionRecord := by
  have fit := predictionLines_fit reachable.wellTyped fun sig mem => (words sig mem).2.newline
  have decoded := readPredictions_words reachable.wellTyped words
  rw [readPredictions, Option.map_some', Option.some_inj, readLines_flatten fit] at decoded
  rwa [predictionsShow_eq, readLines_flatten fun line mem => (fit line mem).mono le]

theorem burstStore_words : ∀ sig ∈ burstStore.signatures, sig.comm ≠ [] ∧ Solid sig.comm := by
  rw [burstStore_spec.2.1]
  decide

/-- For a reachable store whose comms are words, non-empty and free of white space, the
daemon decodes exactly one record for each of the first 100 signatures `hash_for_each`
visits: its pid and comm, and for each resource `'*'` when the spike bit is set and `'-'`
when it is clear. -/
theorem predictions_round_trip {ioAccounting : Bool} {st : Store}
    (reachable : Kernel.Reachable ioAccounting st)
    (words : ∀ sig ∈ st.signatures, sig.comm ≠ [] ∧ Solid sig.comm) :
    readPredictions (some (predictionsShow st)) =
      some ((st.signatures.take 100).map predictionRecord) := by
  rw [predictionsShow_eq]
  exact readPredictions_words reachable.wellTyped words

def crowdTask (k : Fin 101) : Task where
  pid := k.val + 1
  comm := ['a']
  kthread := false
  exitState := 0
  utime := 0
  stime := 0
  startTime := 0
  totalVm := none
  readBytes := 0
  writeBytes := 0
  pid_inInt := by have := k.isLt; unfold InInt intMin intMax; omega

def crowdedStore : Store :=
  (runTicks false [⟨0, fun _ => true, (List.finRange 101).map crowdTask⟩] Store.init).getD
    Store.init

theorem crowdedStore_spec : Kernel.Reachable false crowdedStore ∧
    crowdedStore.signatures.length = 101 ∧ ∀ sig ∈ crowdedStore.signatures, sig.comm = ['a'] := by
  have distinct : ((List.finRange 101).map crowdTask |>.map Task.pid).Nodup := by
    rw [List.map_map]
    refine (List.nodup_finRange 101).map fun a b same => Fin.ext ?_
    simpa [crowdTask] using same
  obtain ⟨st, tick, -, counted, origin⟩ := @sampleTimerCallback_fresh false 0 (fun _ => true)
    ((List.finRange 101).map crowdTask) Store.init (fun _ => rfl) init_storeInv
    (fun task mem => by
      obtain ⟨k, -, rfl⟩ := List.mem_map.mp mem
      exact ⟨rfl, rfl, show (0 : UInt64) - 0 + 1 ≠ 0 by decide⟩)
    distinct (by simp) (by rw [init_signatures]; simp)
  have run : runTicks false [⟨0, fun _ => true, (List.finRange 101).map crowdTask⟩] Store.init =
      some st := (runTicks_singleton ..).trans tick
  have same : crowdedStore = st := by simp [crowdedStore, run]
  refine ⟨⟨_, same ▸ run⟩, by simpa [same] using counted, fun sig mem => ?_⟩
  rcases origin sig (same ▸ mem) with ⟨old, before, -⟩ | ⟨task, mem, -, comm⟩
  · simp at before
  · obtain ⟨k, -, rfl⟩ := List.mem_map.mp mem
    exact comm.symm

theorem crowded_predictions_decoded :
    (Kernel.Reachable false crowdedStore ∧
      ∀ sig ∈ crowdedStore.signatures, sig.comm ≠ [] ∧ Solid sig.comm) ∧
    readPredictions (some (predictionsShow crowdedStore)) =
      some ((crowdedStore.signatures.take 100).map predictionRecord) := by
  have words : ∀ sig ∈ crowdedStore.signatures, sig.comm ≠ [] ∧ Solid sig.comm :=
    fun sig mem => by rw [crowdedStore_spec.2.2 sig mem]; exact ⟨by simp, by decide⟩
  exact ⟨⟨crowdedStore_spec.1, words⟩, predictions_round_trip crowdedStore_spec.1 words⟩

def starredTask : Task where
  pid := 1
  comm := "a * * *".toList
  kthread := false
  exitState := 0
  utime := 0
  stime := 0
  startTime := 0
  totalVm := none
  readBytes := 0
  writeBytes := 0

def starredStore : Store :=
  (runTicks false [⟨0, fun _ => true, [starredTask]⟩] Store.init).getD Store.init

theorem starredStore_spec : Kernel.Reachable false starredStore ∧
    starredStore.signatures = [(updateSignature 0 0 0 0 (newSignature 1 "a * * *".toList 0) 0).1] := by
  obtain ⟨st, tick, -, counted, -⟩ := @sampleTimerCallback_fresh false 0 (fun _ => true)
    [starredTask] Store.init (fun _ => rfl) init_storeInv
    (fun task mem => by rw [List.mem_singleton.mp mem]; exact ⟨rfl, rfl, by decide⟩) (by simp)
    (by simp) (by rw [init_signatures]; decide)
  have run : runTicks false [⟨0, fun _ => true, [starredTask]⟩] Store.init = some st :=
    (runTicks_singleton ..).trans tick
  have bucket : (runTicks false [⟨0, fun _ => true, [starredTask]⟩] Store.init).map
      (fun st => st.procSignatures (hashMin 1)) =
      some [(updateSignature 0 0 0 0 (newSignature 1 "a * * *".toList 0) 0).1] := by decide
  rw [run, Option.map_some', Option.some_inj] at bucket
  obtain ⟨sig, one⟩ := List.length_eq_one.mp (by rw [counted, init_signatures]; rfl)
  have mem := mem_signatures.mpr ⟨hashMin 1, bucket ▸ List.mem_singleton_self _⟩
  rw [one, List.mem_singleton] at mem
  have same : starredStore = st := by rw [starredStore, run, Option.getD_some]
  exact ⟨⟨_, same ▸ run⟩, by rw [same, one, mem]⟩

/-- Two reachable stores whose views do not decode to one record per signature carrying its
spike bits: 101 signatures decode to 100 records, and a comm holding blanks decodes to three
predicted spikes for a signature whose spike bits are all clear. -/
theorem views_drop_rows_and_split_blank_comms :
    (Kernel.Reachable false crowdedStore ∧ crowdedStore.signatures.length = 101 ∧
      (readPredictions (some (predictionsShow crowdedStore))).map List.length = some 100) ∧
    (Kernel.Reachable false starredStore ∧
      starredStore.signatures.map (fun sig => (sig.pid, sig.flags &&&
        (flagCpuSpikePredicted ||| flagMemSpikePredicted ||| flagIoSpikePredicted))) = [(1, 0)] ∧
      readPredictions (some (predictionsShow starredStore)) = some [⟨1, ['a'], '*', '*', '*'⟩]) := by
  obtain ⟨reachable, counted, comms⟩ := crowdedStore_spec
  have words : ∀ sig ∈ crowdedStore.signatures, sig.comm ≠ [] ∧ Solid sig.comm :=
    fun sig mem => by rw [comms sig mem]; exact ⟨by simp, by decide⟩
  obtain ⟨starred, signatures⟩ := starredStore_spec
  refine ⟨⟨reachable, counted, ?_⟩, ⟨starred, by rw [signatures]; decide, ?_⟩⟩
  · rw [predictionsShow_eq, readPredictions_words reachable.wellTyped words]
    simp [counted]
  · rw [predictionsShow_eq, readPredictions_show starred.wellTyped
      (by rw [signatures]; decide), signatures]
    decide

end SmartScheduler.Daemon

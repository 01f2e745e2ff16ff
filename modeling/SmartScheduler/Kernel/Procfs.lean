import SmartScheduler.Kernel.Sampler
import SmartScheduler.Text.Format

/-!
# The `/proc` views

`predictions_show` and `stats_show` print the store one row per signature, in
`hash_for_each` order, under four lines of heading; `predictions_show` stops after 100 rows.
A signature's fields hold values of their C types (`Reachable.wellTyped`), so every number
a row prints is at most 11 characters long, and every row is one line for a reader's
`fgets(line, 256, f)` unless its comm holds a newline. Each view is the flattening of its
lines (`predictionsShow_eq`, `statsShow_eq`).
-/

namespace SmartScheduler.Kernel
open Text

/-- The fields the views print hold values of their C types: `pid_t` and `int` values, and
a comm of at most `TASK_COMM_LEN - 1` characters. -/
structure WellTyped (sig : ProcSignature) : Prop where
  pid : InInt sig.pid
  comm : sig.comm.length ≤ 15
  cpuEma : InInt sig.cpuEma
  memEma : InInt sig.memEma
  ioEma : InInt sig.ioEma
  cpuRoc : InInt sig.cpuRoc
  memRoc : InInt sig.memRoc
  ioRoc : InInt sig.ioRoc

theorem updateEma_inInt (oldEma sample : Int) : InInt (updateEma oldEma sample) := by
  have := updateEma_bound oldEma sample
  unfold EmaBound at this
  unfold InInt intMin intMax
  omega

theorem newSignature_wellTyped {pid : Int} (pid_inInt : InInt pid) (comm : List Char)
    (jiffies : UInt64) : WellTyped (newSignature pid comm jiffies) where
  pid := pid_inInt
  comm := by simp [newSignature, taskCommLen]
  cpuEma := show InInt 0 by decide
  memEma := show InInt 0 by decide
  ioEma := show InInt 0 by decide
  cpuRoc := show InInt 0 by decide
  memRoc := show InInt 0 by decide
  ioRoc := show InInt 0 by decide

theorem updateSignature_wellTyped (jiffies : UInt64) (c m i total : Int) {sig : ProcSignature}
    (typed : WellTyped sig) : WellTyped (updateSignature jiffies c m i sig total).1 where
  pid := typed.pid
  comm := typed.comm
  cpuEma := updateEma_inInt _ _
  memEma := updateEma_inInt _ _
  ioEma := updateEma_inInt _ _
  cpuRoc := toInt32_inInt _
  memRoc := toInt32_inInt _
  ioRoc := toInt32_inInt _

theorem Reachable.wellTyped {ioAccounting : Bool} {st : Store}
    (reachable : Reachable ioAccounting st) : ∀ sig ∈ st.signatures, WellTyped sig := by
  refine reachable.invariant (P := fun st => ∀ sig ∈ st.signatures, WellTyped sig) (by simp) ?_ ?_
  · intro jiffies ok task st i st' typed created
    rcases getOrCreateSignature_some created with ⟨-, rfl⟩ | ⟨-, -, -, -, rfl⟩
    · exact typed
    · intro sig mem
      rcases mem_signatures_hashAdd.mp mem with rfl | before
      · exact newSignature_wellTyped task.pid_inInt _ _
      · exact typed sig before
  · intro b i jiffies c m io st typed sig mem
    rcases mem_signatures_updateAt mem with before | ⟨old, before, rfl⟩
    · exact typed sig before
    · exact updateSignature_wellTyped _ _ _ _ _ (typed old before)

theorem WellTyped.natAbs_lt {x : Int} (inInt : InInt x) : x.natAbs < 10 ^ 10 := by
  unfold InInt intMin intMax at inInt
  omega

def flagChar (flags bit : UInt32) : Char := if flags &&& bit ≠ 0 then '*' else '-'

theorem solid_flagChar (flags bit : UInt32) : Solid [flagChar flags bit] := by
  simp only [Solid, List.mem_singleton, forall_eq, flagChar]
  split <;> rfl

def predictionsHeading (pid comm cpu mem io flags : String) : List Char :=
  joinFields [.left 8 pid.toList, .left 16 comm.toList, .right 6 cpu.toList, .right 6 mem.toList,
    .right 6 io.toList, .right 8 flags.toList] ['\n']

def predictionRow (sig : ProcSignature) : List Char :=
  joinFields [.left 8 (decimal sig.pid), .left 16 sig.comm,
    .right 6 [flagChar sig.flags flagCpuSpikePredicted],
    .right 6 [flagChar sig.flags flagMemSpikePredicted],
    .right 6 [flagChar sig.flags flagIoSpikePredicted],
    .right 8 (alternateHex sig.flags.toNat)] ['\n']

/-- The `hash_for_each` loop of `predictions_show` with `count` rows printed: the text it
prints and its final `count`. -/
def predictionRows : List ProcSignature → Nat → List Char × Nat
  | [], count => ([], count)
  | sig :: sigs, count =>
    if count + 1 ≥ 100 then
      (predictionRow sig ++ "\n... (truncated, showing first 100)\n".toList, count + 1)
    else
      let rest := predictionRows sigs (count + 1)
      (predictionRow sig ++ rest.1, rest.2)

def predictionsShow (st : Store) : List Char :=
  let rows := predictionRows st.signatures 0
  "=== Current Predictions ===\n\n".toList ++
    predictionsHeading "PID" "COMM" "CPU" "MEM" "I/O" "FLAGS" ++
    predictionsHeading "---" "----" "---" "---" "---" "-----" ++ rows.1 ++
    (if rows.2 = 0 then "(no processes currently tracked)\n".toList else []) ++
    "\nLegend: * = spike predicted, - = normal\n".toList

theorem predictionRows_eq : ∀ (sigs : List ProcSignature) (count : Nat), count < 100 →
    predictionRows sigs count =
      (((sigs.take (100 - count)).map predictionRow).flatten ++
        (if 100 - count ≤ sigs.length then "\n... (truncated, showing first 100)\n".toList
          else []), count + min sigs.length (100 - count))
  | [], count, below => by simp [predictionRows]; omega
  | sig :: sigs, count, below => by
    unfold predictionRows
    split
    case isTrue last =>
      obtain rfl : count = 99 := by omega
      simp
    case isFalse more =>
      rw [predictionRows_eq sigs (count + 1) (by omega)]
      obtain ⟨k, hk⟩ : ∃ k, 100 - count = k + 1 := ⟨99 - count, by omega⟩
      simp only [hk, List.take_succ_cons, List.map_cons, List.flatten_cons, List.append_assoc,
        List.length_cons, Prod.mk.injEq]
      refine ⟨?_, by omega⟩
      have same : 100 - (count + 1) = k := by omega
      simp only [same, Nat.add_le_add_iff_right]

def predictionLines (sigs : List ProcSignature) : List (List Char) :=
  ["=== Current Predictions ===\n".toList, "\n".toList,
    predictionsHeading "PID" "COMM" "CPU" "MEM" "I/O" "FLAGS",
    predictionsHeading "---" "----" "---" "---" "---" "-----"] ++
  (sigs.take 100).map predictionRow ++
  (if 100 ≤ sigs.length then ["\n".toList, "... (truncated, showing first 100)\n".toList]
    else []) ++
  (if sigs = [] then ["(no processes currently tracked)\n".toList] else []) ++
  ["\n".toList, "Legend: * = spike predicted, - = normal\n".toList]

theorem predictionsShow_eq (st : Store) :
    predictionsShow st = (predictionLines st.signatures).flatten := by
  rw [predictionsShow, predictionRows_eq _ 0 (by decide), predictionLines]
  have empty : min st.signatures.length 100 = 0 ↔ st.signatures = [] := by
    simp [← List.length_eq_zero]
  have title : "=== Current Predictions ===\n\n".toList =
      "=== Current Predictions ===\n".toList ++ "\n".toList := rfl
  have note : "\n... (truncated, showing first 100)\n".toList =
      "\n".toList ++ "... (truncated, showing first 100)\n".toList := rfl
  have legend : "\nLegend: * = spike predicted, - = normal\n".toList =
      "\n".toList ++ "Legend: * = spike predicted, - = normal\n".toList := rfl
  simp only [Nat.sub_zero, Nat.zero_add, empty, List.flatten_append, title, note, legend,
    List.flatten_cons, List.flatten_nil, List.append_nil, List.append_assoc]
  split_ifs <;> simp

theorem predictionRow_fits {sig : ProcSignature} (typed : WellTyped sig)
    (newline : '\n' ∉ sig.comm) : FitsLine 256 (predictionRow sig) := by
  have pid := length_decimal_le (WellTyped.natAbs_lt typed.pid) (by decide)
  have flags := length_alternateHex_le (show sig.flags.toNat < 16 ^ 8 from sig.flags.toNat_lt)
    (by decide)
  have comm := typed.comm
  refine fitsLine_joinFields (fun f mem => ?_) ?_
  · simp only [List.mem_cons, List.mem_singleton, List.not_mem_nil, or_false] at mem
    rcases mem with rfl | rfl | rfl | rfl | rfl | rfl
    · exact (solid_decimal _).newline
    · exact newline
    all_goals first | exact (solid_flagChar _ _).newline | exact (solid_alternateHex _).newline
  · refine lt_of_le_of_lt (length_joinFields_le 16 fun f mem => ?_) (by simp)
    simp only [List.mem_cons, List.mem_singleton, List.not_mem_nil, or_false] at mem
    rcases mem with rfl | rfl | rfl | rfl | rfl | rfl <;>
      simp only [Field.width, Field.text, List.length_singleton] <;> omega

theorem predictionLines_fit {sigs : List ProcSignature} (typed : ∀ sig ∈ sigs, WellTyped sig)
    (newline : ∀ sig ∈ sigs, '\n' ∉ sig.comm) : ∀ line ∈ predictionLines sigs, FitsLine 256 line := by
  intro line mem
  simp only [predictionLines, List.mem_append, List.mem_map] at mem
  rcases mem with (((heading | ⟨sig, taken, rfl⟩) | note) | empty) | legend
  · simp only [List.mem_cons, List.mem_singleton, List.not_mem_nil, or_false] at heading
    rcases heading with rfl | rfl | rfl | rfl <;> decide
  · have mem := List.mem_of_mem_take taken
    exact predictionRow_fits (typed sig mem) (newline sig mem)
  · split at note
    · simp only [List.mem_cons, List.mem_singleton, List.not_mem_nil, or_false] at note
      rcases note with rfl | rfl <;> decide
    · exact absurd note (List.not_mem_nil _)
  · split at empty
    · rw [List.mem_singleton.mp empty]; decide
    · exact absurd empty (List.not_mem_nil _)
  · simp only [List.mem_cons, List.mem_singleton, List.not_mem_nil, or_false] at legend
    rcases legend with rfl | rfl <;> decide

def statsHeading (pid cpuEma memEma ioEma cpuRoc memRoc ioRoc samples : String) : List Char :=
  joinFields [.left 8 pid.toList, .right 8 cpuEma.toList, .right 8 memEma.toList,
    .right 8 ioEma.toList, .right 8 cpuRoc.toList, .right 8 memRoc.toList, .right 8 ioRoc.toList,
    .right 10 samples.toList] ['\n']

def statsRow (sig : ProcSignature) : List Char :=
  joinFields [.left 8 (decimal sig.pid), .right 8 (decimal sig.cpuEma),
    .right 8 (decimal sig.memEma), .right 8 (decimal sig.ioEma),
    .right 8 (signedDecimal sig.cpuRoc), .right 8 (signedDecimal sig.memRoc),
    .right 8 (signedDecimal sig.ioRoc), .right 10 (Nat.toDigits 10 sig.totalSamples.toNat)] ['\n']

def statsShow (st : Store) : List Char :=
  "=== Process Statistics ===\n\n".toList ++
    statsHeading "PID" "CPU_EMA" "MEM_EMA" "IO_EMA" "CPU_ROC" "MEM_ROC" "IO_ROC" "SAMPLES" ++
    statsHeading "---" "-------" "-------" "------" "-------" "-------" "------" "-------" ++
    (st.signatures.map statsRow).flatten

def statsHeadingLines : List (List Char) :=
  ["=== Process Statistics ===\n".toList, "\n".toList,
    statsHeading "PID" "CPU_EMA" "MEM_EMA" "IO_EMA" "CPU_ROC" "MEM_ROC" "IO_ROC" "SAMPLES",
    statsHeading "---" "-------" "-------" "------" "-------" "-------" "------" "-------"]

theorem statsShow_eq (st : Store) :
    statsShow st = (statsHeadingLines ++ st.signatures.map statsRow).flatten := by
  have title : "=== Process Statistics ===\n\n".toList =
      "=== Process Statistics ===\n".toList ++ "\n".toList := rfl
  simp only [statsShow, statsHeadingLines, title, List.flatten_append, List.flatten_cons,
    List.flatten_nil, List.append_nil, List.append_assoc]

theorem statsRow_fits {sig : ProcSignature} (typed : WellTyped sig) : FitsLine 256 (statsRow sig) := by
  have pid := length_decimal_le (WellTyped.natAbs_lt typed.pid) (by decide)
  have cpuEma := length_decimal_le (WellTyped.natAbs_lt typed.cpuEma) (by decide)
  have memEma := length_decimal_le (WellTyped.natAbs_lt typed.memEma) (by decide)
  have ioEma := length_decimal_le (WellTyped.natAbs_lt typed.ioEma) (by decide)
  have cpuRoc := length_signedDecimal_le (WellTyped.natAbs_lt typed.cpuRoc) (by decide)
  have memRoc := length_signedDecimal_le (WellTyped.natAbs_lt typed.memRoc) (by decide)
  have ioRoc := length_signedDecimal_le (WellTyped.natAbs_lt typed.ioRoc) (by decide)
  have samples := length_toDigits_le (by decide)
    (show sig.totalSamples.toNat < 10 ^ 20 from lt_trans sig.totalSamples.toNat_lt (by decide))
    (by decide)
  refine fitsLine_joinFields (fun f mem => ?_) ?_
  · simp only [List.mem_cons, List.mem_singleton, List.not_mem_nil, or_false] at mem
    rcases mem with rfl | rfl | rfl | rfl | rfl | rfl | rfl | rfl
    all_goals first
      | exact (solid_decimal _).newline
      | exact (solid_signedDecimal _).newline
      | exact (solid_toDigits (by decide) (by decide) _).newline
  · refine lt_of_le_of_lt (length_joinFields_le 20 fun f mem => ?_) (by simp)
    simp only [List.mem_cons, List.mem_singleton, List.not_mem_nil, or_false] at mem
    rcases mem with rfl | rfl | rfl | rfl | rfl | rfl | rfl | rfl <;>
      simp only [Field.width, Field.text] <;> omega

theorem statsHeadingLines_fit : ∀ line ∈ statsHeadingLines, FitsLine 256 line := by
  intro line mem
  simp only [statsHeadingLines, List.mem_cons, List.mem_singleton, List.not_mem_nil,
    or_false] at mem
  rcases mem with rfl | rfl | rfl | rfl <;> decide

end SmartScheduler.Kernel

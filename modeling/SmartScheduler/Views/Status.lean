import SmartScheduler.Views.HealthCheck
import SmartScheduler.Kernel.Counters

/-!
# The status view and the health check's module check

`status_show` prints the module's uptime, `total_tracked`, `total_predictions` and the
module's constants. Unlike `predictions_show` and `stats_show` it takes no lock: it reads the
two counters with two `atomic_read`s, and the timer may run between them (`StatusPrinted`).

`check_module` of `health_check.c` finds the two counters' lines with `strstr` and reads each
with `sscanf`. On a view whose two reads saw one reachable state it reports that state's
counters (`check_module_reports_snapshot`). A view printed across ticks pairs the tracked count
of one state of the run with the prediction count of that state or a later one, and the check
reports that pair (`check_module_reports_run_counters`). In every reachable state no process
tracked goes with no prediction made, modulo `2 ^ 32` (`no_predictions_without_tracked`), yet a
view read across the first tick over a burst reports 0 processes with 2 predictions.

The details `snprintf` writes, at most 60 characters for `int` counters, fit its 256-byte
buffer, so the model does not truncate them.
-/

namespace SmartScheduler

open Text Kernel HealthCheck

namespace Status

def sampleIntervalMs : Int := 100

def uptimeSecs (hz moduleStartTime jiffies : UInt64) : UInt64 := (jiffies - moduleStartTime) / hz

def uptimeLine (uptime : UInt64) : List Char :=
  "Module uptime:        ".toList ++ Nat.toDigits 10 uptime.toNat ++ " seconds\n".toList

def trackedLine (tracked : Int) : List Char :=
  "Tracked processes:    ".toList ++ decimal tracked ++ "\n".toList

def predictionsLine (predictions : Int) : List Char :=
  "Total predictions:    ".toList ++ decimal predictions ++ "\n".toList

def thresholdLines : List (List Char) :=
  ["Sample interval:      ".toList ++ decimal sampleIntervalMs ++ " ms\n".toList,
    "\n".toList, "=== Thresholds ===\n".toList,
    "CPU spike threshold:  ".toList ++ decimal cpuSpikeThreshold ++ "\n".toList,
    "Memory spike thresh:  ".toList ++ decimal memSpikeThreshold ++ "\n".toList,
    "I/O spike threshold:  ".toList ++ decimal ioSpikeThreshold ++ "\n".toList,
    "EMA alpha:            0.".toList ++ decimal alpha ++ "\n".toList]

def headLines : List (List Char) := ["=== SmartScheduler Status ===\n".toList, "\n".toList]

/-- The lines `status_show` prints, with the uptime and the values its two `atomic_read`s
returned. -/
def statusLines (uptime : UInt64) (tracked predictions : Int) : List (List Char) :=
  headLines ++ uptimeLine uptime :: trackedLine tracked :: predictionsLine predictions :: thresholdLines

def statusShow (uptime : UInt64) (tracked predictions : Int) : List Char :=
  (statusLines uptime tracked predictions).flatten

def trackedLabel : List Char := "Tracked processes:".toList

def predictionsLabel : List Char := "Total predictions:".toList

def scanAfter : List Char → List Char → Option Int
  | [], input =>
    match convert .int input with
    | some (.int v, _) => some v
    | _ => none
  | c :: text, input =>
    if isSpace c then scanAfter text (skipSpace input)
    else
      match input with
      | d :: rest => if c = d then scanAfter text rest else none
      | [] => none

/-- The body of `check_module`'s loop: a line holding a needle sets its variable when `sscanf`
converts. -/
def noteStatusLine (counts : Int × Int) (line : List Char) : Int × Int :=
  (if trackedLabel <:+: line then (scanAfter "Tracked processes: ".toList line).getD counts.1
    else counts.1,
   if predictionsLabel <:+: line then (scanAfter "Total predictions: ".toList line).getD counts.2
    else counts.2)

def moduleDetails (tracked predictions : Int) : List Char :=
  "Tracking ".toList ++ decimal tracked ++ " processes, ".toList ++ decimal predictions ++
    " predictions made".toList

/-- `check_module()`, with whether `stat` finds the status file and the file as `fopen` finds
it: the check it adds, `none` when it adds none. -/
def checkModule (present : Bool) (file : Option (List Char)) : Option CheckResult :=
  if present then
    file.map fun text =>
      let counts := (readLines 256 text).foldl noteStatusLine (0, 0)
      ⟨"Kernel Module".toList, .ok, moduleDetails counts.1 counts.2⟩
  else
    some ⟨"Kernel Module".toList, .fail,
      "Module not loaded - run: sudo insmod kernel/smartscheduler.ko".toList⟩

theorem infix_of_infix_append {needle a d b : List Char} (nonempty : d ≠ [])
    (apart : ∀ c ∈ d, c ∉ needle) (found : needle <:+: a ++ d ++ b) :
    needle <:+: a ∨ needle <:+: b := by
  obtain ⟨s, t, split⟩ := found
  simp only [List.append_assoc] at split
  rcases List.append_eq_append_iff.mp split with ⟨a', rfl, rest⟩ | ⟨c', rfl, rest⟩
  -- the needle starts within `a`
  · rcases List.append_eq_append_iff.mp rest with ⟨x, rfl, -⟩ | ⟨y, rfl, after⟩
    · exact .inl ⟨s, x, by simp⟩
    · cases y with
      | nil => exact .inl ⟨s, [], by simp⟩
      | cons c cs =>
        obtain ⟨e, es, rfl⟩ := List.exists_cons_of_ne_nil nonempty
        obtain ⟨rfl, -⟩ := List.cons.inj after
        exact (apart e (List.mem_cons_self _ _) (List.mem_append_right _ (List.mem_cons_self _ _))).elim
  -- the needle starts after `a`
  · rcases List.append_eq_append_iff.mp rest with ⟨x, rfl, after⟩ | ⟨y, rfl, starts⟩
    · exact .inr ⟨x, t, by simp [after]⟩
    · cases y with
      | nil => exact .inr ⟨[], t, by simpa using starts⟩
      | cons c cs =>
        cases needle with
        | nil => exact .inl List.nil_infix
        | cons n ns =>
          obtain ⟨rfl, -⟩ := List.cons.inj starts
          exact (apart n (List.mem_append_right _ (List.mem_cons_self _ _)) (List.mem_cons_self _ _)).elim

def Numeral (c : Char) : Prop := c = '-' ∨ ∃ d < 10, c = Nat.digitChar d

theorem numeral_toDigits (n : Nat) : ∀ c ∈ Nat.toDigits 10 n, Numeral c := fun c mem =>
  .inr (mem_toDigitsCore (by decide) _ _ c mem)

theorem numeral_decimal (n : Int) : ∀ c ∈ decimal n, Numeral c := by
  unfold decimal
  split
  · rintro c (_ | ⟨_, mem⟩)
    exacts [.inl rfl, numeral_toDigits _ c mem]
  · exact numeral_toDigits _

theorem numeral_not_mem {c : Char} (numeral : Numeral c) : c ∉ trackedLabel ∧ c ∉ predictionsLabel := by
  rcases numeral with rfl | ⟨d, lt, rfl⟩
  · decide
  · interval_cases d <;> decide

theorem not_infix_around {needle pre d post : List Char} (nonempty : d ≠ []) (apart : ∀ c ∈ d, c ∉ needle)
    (pre_absent : ¬ needle <:+: pre) (post_absent : ¬ needle <:+: post) : ¬ needle <:+: pre ++ d ++ post :=
  fun found => (infix_of_infix_append nonempty apart found).elim pre_absent post_absent

theorem noteStatusLine_of_absent {line : List Char} (tracked : ¬ trackedLabel <:+: line)
    (predictions : ¬ predictionsLabel <:+: line) (counts : Int × Int) :
    noteStatusLine counts line = counts := by
  simp [noteStatusLine, tracked, predictions]

theorem foldl_noteStatusLine_of_absent :
    ∀ {lines : List (List Char)}, (∀ line ∈ lines, ¬ trackedLabel <:+: line ∧ ¬ predictionsLabel <:+: line) →
      ∀ counts, lines.foldl noteStatusLine counts = counts
  | [], _, _ => rfl
  | line :: lines, absent, counts => by
    rw [List.foldl_cons, noteStatusLine_of_absent (absent line (List.mem_cons_self _ _)).1
      (absent line (List.mem_cons_self _ _)).2,
      foldl_noteStatusLine_of_absent fun line' mem => absent line' (List.mem_cons_of_mem _ mem)]

theorem headLines_absent :
    ∀ line ∈ headLines, ¬ trackedLabel <:+: line ∧ ¬ predictionsLabel <:+: line := by
  decide

theorem thresholdLines_absent :
    ∀ line ∈ thresholdLines, ¬ trackedLabel <:+: line ∧ ¬ predictionsLabel <:+: line := by
  decide

theorem uptimeLine_absent (uptime : UInt64) :
    ¬ trackedLabel <:+: uptimeLine uptime ∧ ¬ predictionsLabel <:+: uptimeLine uptime :=
  ⟨not_infix_around (toDigits_ne_nil _) (fun c mem => (numeral_not_mem (numeral_toDigits _ c mem)).1)
      (by decide) (by decide),
    not_infix_around (toDigits_ne_nil _) (fun c mem => (numeral_not_mem (numeral_toDigits _ c mem)).2)
      (by decide) (by decide)⟩

theorem scanAfter_decimal (n : Int) : scanAfter [] (skipSpace (decimal n ++ "\n".toList)) = some n := by
  have reads := reads_decimal n
  rw [skipSpace_of_starts (reads.starts.append reads.nonempty _)]
  simp [scanAfter, reads.converts ['\n'] stops_newline]

theorem noteStatusLine_trackedLine (n : Int) (counts : Int × Int) :
    noteStatusLine counts (trackedLine n) = (n, counts.2) := by
  have past : ∀ rest, scanAfter "Tracked processes: ".toList ("Tracked processes:    ".toList ++ rest) =
      scanAfter [] (skipSpace rest) := fun _ => rfl
  have scanned : scanAfter "Tracked processes: ".toList (trackedLine n) = some n := by
    rw [trackedLine, List.append_assoc, past, scanAfter_decimal]
  have found : trackedLabel <:+: trackedLine n :=
    ⟨[], "    ".toList ++ decimal n ++ "\n".toList, by simp only [trackedLine, ← List.append_assoc]; rfl⟩
  have absent : ¬ predictionsLabel <:+: trackedLine n :=
    not_infix_around (reads_decimal n).nonempty
      (fun c mem => (numeral_not_mem (numeral_decimal n c mem)).2) (by decide) (by decide)
  rw [noteStatusLine, if_pos found, if_neg absent, scanned, Option.getD_some]

theorem noteStatusLine_predictionsLine (n : Int) (counts : Int × Int) :
    noteStatusLine counts (predictionsLine n) = (counts.1, n) := by
  have past : ∀ rest, scanAfter "Total predictions: ".toList ("Total predictions:    ".toList ++ rest) =
      scanAfter [] (skipSpace rest) := fun _ => rfl
  have scanned : scanAfter "Total predictions: ".toList (predictionsLine n) = some n := by
    rw [predictionsLine, List.append_assoc, past, scanAfter_decimal]
  have found : predictionsLabel <:+: predictionsLine n :=
    ⟨[], "    ".toList ++ decimal n ++ "\n".toList, by simp only [predictionsLine, ← List.append_assoc]; rfl⟩
  have absent : ¬ trackedLabel <:+: predictionsLine n :=
    not_infix_around (reads_decimal n).nonempty
      (fun c mem => (numeral_not_mem (numeral_decimal n c mem)).1) (by decide) (by decide)
  rw [noteStatusLine, if_neg absent, if_pos found, scanned, Option.getD_some]

theorem foldl_statusLines (uptime : UInt64) (tracked predictions : Int) :
    (statusLines uptime tracked predictions).foldl noteStatusLine (0, 0) = (tracked, predictions) := by
  rw [statusLines, List.foldl_append, foldl_noteStatusLine_of_absent headLines_absent, List.foldl_cons,
    noteStatusLine_of_absent (uptimeLine_absent uptime).1 (uptimeLine_absent uptime).2, List.foldl_cons,
    noteStatusLine_trackedLine, List.foldl_cons, noteStatusLine_predictionsLine,
    foldl_noteStatusLine_of_absent thresholdLines_absent]

theorem fitsLine_around {pre d mid : List Char} (pre_ok : '\n' ∉ pre) (solid : Solid d)
    (mid_ok : '\n' ∉ mid) (short : pre.length + d.length + mid.length < 255) :
    FitsLine 256 (pre ++ d ++ (mid ++ ['\n'])) := by
  refine ⟨?_, ?_⟩
  · rw [← List.append_assoc]
    exact isLine_append_newline (by simp [pre_ok, solid.newline, mid_ok])
  · simp only [List.length_append, List.length_singleton]
    omega

theorem statusLines_fit (uptime : UInt64) {tracked predictions : Int} (trackedInt : InInt tracked)
    (predictionsInt : InInt predictions) : ∀ line ∈ statusLines uptime tracked predictions, FitsLine 256 line := by
  have digits := length_toDigits_le (by decide) (show uptime.toNat < 10 ^ 20 from
    lt_of_lt_of_le uptime.toNat_lt (by decide)) (by decide)
  have trackedDigits := length_decimal_le (WellTyped.natAbs_lt trackedInt) (by decide)
  have predictionsDigits := length_decimal_le (WellTyped.natAbs_lt predictionsInt) (by decide)
  intro line mem
  simp only [statusLines, List.mem_append, List.mem_cons] at mem
  rcases mem with head | rfl | rfl | rfl | rest
  · revert line
    decide
  · show FitsLine 256 ("Module uptime:        ".toList ++ Nat.toDigits 10 uptime.toNat ++
      (" seconds".toList ++ ['\n']))
    exact fitsLine_around (by decide) (solid_toDigits (by decide) (by decide) _) (by decide)
      (by simp only [List.length]; omega)
  · show FitsLine 256 ("Tracked processes:    ".toList ++ decimal tracked ++ ([] ++ ['\n']))
    exact fitsLine_around (by decide) (solid_decimal _) (by decide) (by simp only [List.length]; omega)
  · show FitsLine 256 ("Total predictions:    ".toList ++ decimal predictions ++ ([] ++ ['\n']))
    exact fitsLine_around (by decide) (solid_decimal _) (by decide) (by simp only [List.length]; omega)
  · revert line
    decide

theorem checkModule_statusShow (uptime : UInt64) {tracked predictions : Int} (trackedInt : InInt tracked)
    (predictionsInt : InInt predictions) :
    checkModule true (some (statusShow uptime tracked predictions)) =
      some ⟨"Kernel Module".toList, .ok, moduleDetails tracked predictions⟩ := by
  rw [checkModule, if_pos rfl, Option.map_some', statusShow,
    readLines_flatten (statusLines_fit uptime trackedInt predictionsInt), foldl_statusLines]

/-- On a view whose two reads saw one reachable state, `check_module` reports that state's
counters. -/
theorem check_module_reports_snapshot {ioAccounting : Bool} {st : Store}
    (reachable : Kernel.Reachable ioAccounting st) (uptime : UInt64) :
    checkModule true (some (statusShow uptime st.totalTracked st.totalPredictions)) =
      some ⟨"Kernel Module".toList, .ok, moduleDetails st.totalTracked st.totalPredictions⟩ :=
  checkModule_statusShow uptime reachable.totalTracked_inInt reachable.totalPredictions_inInt

theorem burst_module_reported : Kernel.Reachable true burstStore ∧
    burstStore.totalTracked = 1 ∧ burstStore.totalPredictions = 2 ∧
    checkModule true (some (statusShow 0 burstStore.totalTracked burstStore.totalPredictions)) =
      some ⟨"Kernel Module".toList, .ok, moduleDetails burstStore.totalTracked burstStore.totalPredictions⟩ :=
  have reachable : Kernel.Reachable true burstStore := ⟨_, burstStore_spec.1⟩
  ⟨reachable, burstStore_spec.2.2.1, burstStore_spec.2.2.2, check_module_reports_snapshot reachable 0⟩

/-- What `status_show` may print while the timer runs `ticks` from `st`: `total_tracked` as one
state of the run had it, and `total_predictions` as that state or a later one had it. -/
def StatusPrinted (ioAccounting : Bool) (st : Store) (ticks : List Tick) (uptime : UInt64)
    (text : List Char) : Prop :=
  ∃ i j, i ≤ j ∧ ∃ first later, runTicks ioAccounting (ticks.take i) st = some first ∧
    runTicks ioAccounting (ticks.take j) st = some later ∧
    text = statusShow uptime first.totalTracked later.totalPredictions

end Status

end SmartScheduler

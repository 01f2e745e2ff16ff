import SmartScheduler.Views.Stats

/-!
# The top spikes tool

`top_spikes` reads `/proc/smartscheduler/stats` into `procs[MAX_PROCS]`, sorts it with
`qsort` by the total score or by one rate of change, and prints the first `top_n` records.

`read_stats` keeps at most `MAX_PROCS = 512` records, the first ones the view lists, while
the store holds up to `MAX_TRACKED_PROCS = 4096` signatures. `qsort` is modelled as what any
of its implementations may leave (`Qsorted`): nothing is said about the order of records that
compare equal. The comparators subtract in `int` and the score adds three `abs` in `int`.
For a reachable store the values stay far from overflow: each rate of change is a difference
of two EMAs (`statsProcess_bounded`). The comparators are then a consistent order, and the
rows printed are the top ones of those first 512 records (`top_spikes_ranks_first_records`).
A signature past the first 512 is never ranked, whatever its score
(`top_spikes_misses_late_spike`).
-/

namespace SmartScheduler

open Text Kernel

namespace Kernel

def RocBound (x : Int) : Prop := -42949672 ≤ x ∧ x ≤ 42949672

theorem SignatureReachable.prev_bound {sig : ProcSignature} (reachable : SignatureReachable sig) :
    EmaBound sig.cpuPrev ∧ EmaBound sig.memPrev ∧ EmaBound sig.ioPrev := by
  induction reachable with
  | create pid comm jiffies => simp [newSignature, EmaBound]
  | update jiffies c m i total prior _ =>
    have inv := prior.predictorInv
    exact ⟨inv.cpuEma_bound, inv.memEma_bound, inv.ioEma_bound⟩

theorem SignatureReachable.roc_bound {sig : ProcSignature} (reachable : SignatureReachable sig) :
    RocBound sig.cpuRoc ∧ RocBound sig.memRoc ∧ RocBound sig.ioRoc := by
  have inv := reachable.predictorInv
  obtain ⟨cpuPrev, memPrev, ioPrev⟩ := reachable.prev_bound
  have cpu := inv.cpuEma_bound
  have mem := inv.memEma_bound
  have io := inv.ioEma_bound
  unfold EmaBound at *
  unfold RocBound
  rw [inv.cpuRoc_eq, inv.memRoc_eq, inv.ioRoc_eq]
  omega

end Kernel

namespace TopSpikes

structure Process where
  pid : Int
  cpuEma : Int
  memEma : Int
  ioEma : Int
  cpuRoc : Int
  memRoc : Int
  ioRoc : Int
  score : Int
  deriving DecidableEq, Repr

def maxProcs : Nat := 512

def cAbs (x : Int) : Int := toInt32 |x|

def processScore (cpuRoc memRoc ioRoc : Int) : Int :=
  toInt32 (toInt32 (cAbs cpuRoc + cAbs memRoc) + cAbs ioRoc)

/-- The body of `read_stats`' loop for one line: the record, when `sscanf(line, "%d %d %d %d %d
%d %d", ...)` converts 7 fields. -/
def parseProcess (line : List Char) : Option Process :=
  match sscanf Daemon.rocFormat line with
  | (count, [.int pid, .int cpuEma, .int memEma, .int ioEma, .int cpuRoc, .int memRoc, .int ioRoc]) =>
    if count ≥ 7 then
      some ⟨pid, cpuEma, memEma, ioEma, cpuRoc, memRoc, ioRoc, processScore cpuRoc memRoc ioRoc⟩
    else none
  | _ => none

/-- The loop of `read_stats` over the lines after the 4 it skips, with `proc_count = count`:
`fgets` reads a line, and the loop stops once `proc_count` reaches `MAX_PROCS`. -/
def readProcs (count : Nat) : List (List Char) → List Process
  | [] => []
  | line :: lines =>
    if count < maxProcs then
      match parseProcess line with
      | some p => p :: readProcs (count + 1) lines
      | none => readProcs count lines
    else []

def readStats : Option (List Char) → Option (List Process)
  | none => none
  | some text => some (readProcs 0 ((readLines 256 text).drop 4))

def atoi (s : List Char) : Int :=
  match scanSigned 10 (skipSpace s) with
  | some (negative, n, _) => toInt32 (if negative then -(n : Int) else n)
  | none => 0

inductive Opt
  | n (arg : List Char)
  | c
  | m
  | i
  | s
  | h
  | unknown

inductive SortMode
  | score
  | cpu
  | mem
  | io
  deriving DecidableEq, Repr

structure Settings where
  topN : Int
  sortMode : SortMode

def parseOptions (settings : Settings) : List Opt → Option Settings
  | [] => some settings
  | .n arg :: opts =>
    let topN := atoi arg
    let topN := if topN < 1 then 1 else topN
    let topN := if topN > 100 then 100 else topN
    parseOptions { settings with topN := topN } opts
  | .c :: opts => parseOptions { settings with sortMode := .cpu } opts
  | .m :: opts => parseOptions { settings with sortMode := .mem } opts
  | .i :: opts => parseOptions { settings with sortMode := .io } opts
  | .s :: opts => parseOptions { settings with sortMode := .score } opts
  | .h :: _ => none
  | .unknown :: _ => none

def compareBy (field : Process → Int) (a b : Process) : Int := toInt32 (field b - field a)

def compareByScore := compareBy Process.score

def compareByCpu := compareBy Process.cpuRoc

def compareByMem := compareBy Process.memRoc

def compareByIo := compareBy Process.ioRoc

def SortMode.compare : SortMode → Process → Process → Int
  | .score => compareByScore
  | .cpu => compareByCpu
  | .mem => compareByMem
  | .io => compareByIo

def SortMode.metric : SortMode → Process → Int
  | .score => Process.score
  | .cpu => Process.cpuRoc
  | .mem => Process.memRoc
  | .io => Process.ioRoc

def SortMode.option : SortMode → Opt
  | .score => .s
  | .cpu => .c
  | .mem => .m
  | .io => .i

def Qsorted (cmp : Process → Process → Int) (procs sorted : List Process) : Prop :=
  sorted.Perm procs ∧ sorted.Pairwise fun a b => cmp a b ≤ 0

def printResults (topN : Int) (procs : List Process) : List Process := procs.take topN.toNat

inductive Outcome
  | usage
  | cannotOpen
  | rows (printed : List Process)

def Runs (opts : List Opt) (file : Option (List Char)) (out : Outcome) : Prop :=
  match parseOptions ⟨10, .score⟩ opts with
  | none => out = .usage
  | some settings =>
    match readStats file with
    | none => out = .cannotOpen
    | some procs =>
      ∃ sorted, Qsorted settings.sortMode.compare procs sorted ∧
        out = .rows (printResults settings.topN sorted)

theorem atoi_toDigits {n : Nat} (fits : (n : Int) ≤ intMax) : atoi (Nat.toDigits 10 n) = n := by
  have scanned := @scanSigned_toDigits 10 [] (by decide) (by decide) n (fun _ _ h => nomatch h)
  rw [List.append_nil] at scanned
  simp only [atoi, skipSpace_of_starts (@starts_toDigits 10 (by decide) (by decide) n), scanned,
    Bool.false_eq_true, if_false]
  exact toInt32_of_inInt ⟨by unfold intMin; omega, fits⟩

theorem parseOptions_count_mode {n : Nat} (least : 1 ≤ n) (most : n ≤ 100) (mode : SortMode) :
    parseOptions ⟨10, .score⟩ [.n (Nat.toDigits 10 n), mode.option] = some ⟨n, mode⟩ := by
  have read := atoi_toDigits (n := n) (by unfold intMax; omega)
  cases mode <;> simp [parseOptions, SortMode.option, read] <;> omega

def statsProcess (sig : ProcSignature) : Process :=
  ⟨sig.pid, sig.cpuEma, sig.memEma, sig.ioEma, sig.cpuRoc, sig.memRoc, sig.ioRoc,
    |sig.cpuRoc| + |sig.memRoc| + |sig.ioRoc|⟩

theorem processScore_eq {c m i : Int} (hc : RocBound c) (hm : RocBound m) (hi : RocBound i) :
    processScore c m i = |c| + |m| + |i| := by
  unfold RocBound at hc hm hi
  have ac := abs_le.mpr hc
  have am := abs_le.mpr hm
  have ai := abs_le.mpr hi
  have := abs_nonneg c
  have := abs_nonneg m
  have := abs_nonneg i
  unfold processScore cAbs
  rw [toInt32_of_inInt (x := |c|) (by unfold InInt intMin intMax; omega),
    toInt32_of_inInt (x := |m|) (by unfold InInt intMin intMax; omega),
    toInt32_of_inInt (x := |i|) (by unfold InInt intMin intMax; omega),
    toInt32_of_inInt (x := |c| + |m|) (by unfold InInt intMin intMax; omega),
    toInt32_of_inInt (by unfold InInt intMin intMax; omega)]

theorem parseProcess_statsRow {sig : ProcSignature} (bounded : RocBound sig.cpuRoc ∧
    RocBound sig.memRoc ∧ RocBound sig.ioRoc) : parseProcess (statsRow sig) = some (statsProcess sig) := by
  simp only [parseProcess, scan_statsRow, ge_iff_le, le_refl, if_true]
  rw [processScore_eq bounded.1 bounded.2.1 bounded.2.2]
  rfl

theorem readProcs_statsRows {sigs : List ProcSignature}
    (bounded : ∀ sig ∈ sigs, RocBound sig.cpuRoc ∧ RocBound sig.memRoc ∧ RocBound sig.ioRoc) :
    ∀ count, readProcs count (sigs.map statsRow) = (sigs.take (maxProcs - count)).map statsProcess := by
  induction sigs with
  | nil => intro count; simp [readProcs]
  | cons sig sigs ih =>
    intro count
    simp only [List.map_cons, readProcs]
    split_ifs with room
    · rw [parseProcess_statsRow (bounded sig (List.mem_cons_self _ _)),
        ih (fun s mem => bounded s (List.mem_cons_of_mem _ mem))]
      obtain ⟨k, hk⟩ : ∃ k, maxProcs - count = k + 1 := ⟨maxProcs - count - 1, by omega⟩
      rw [hk, show maxProcs - (count + 1) = k by omega]
      rfl
    · rw [show maxProcs - count = 0 by omega]
      rfl

theorem readStats_statsShow {ioAccounting : Bool} {st : Store} (reachable : Reachable ioAccounting st) :
    readStats (some (statsShow st)) = some ((st.signatures.take maxProcs).map statsProcess) := by
  have typed := reachable.wellTyped
  rw [readStats, statsShow_eq, readLines_flatten (statsLines_fit typed),
    List.drop_left' (show statsHeadingLines.length = 4 from rfl),
    readProcs_statsRows fun sig mem => (reachable.signatureReachable sig mem).roc_bound]
  rfl

theorem statsProcess_bounded {sig : ProcSignature} (reachable : SignatureReachable sig)
    (mode : SortMode) : -128849016 ≤ mode.metric (statsProcess sig) ∧
      mode.metric (statsProcess sig) ≤ 128849016 := by
  obtain ⟨cpu, mem, io⟩ := reachable.roc_bound
  unfold RocBound at cpu mem io
  cases mode <;> simp only [SortMode.metric, statsProcess]
  · rcases abs_cases sig.cpuRoc with ⟨ac, -⟩ | ⟨ac, -⟩ <;>
      rcases abs_cases sig.memRoc with ⟨am, -⟩ | ⟨am, -⟩ <;>
      rcases abs_cases sig.ioRoc with ⟨ai, -⟩ | ⟨ai, -⟩ <;> omega
  all_goals omega

theorem compare_nonpos_iff (mode : SortMode) {a b : Process}
    (ha : -128849016 ≤ mode.metric a ∧ mode.metric a ≤ 128849016)
    (hb : -128849016 ≤ mode.metric b ∧ mode.metric b ≤ 128849016) :
    mode.compare a b ≤ 0 ↔ mode.metric b ≤ mode.metric a := by
  have fits : InInt (mode.metric b - mode.metric a) := by unfold InInt intMin intMax; omega
  cases mode <;> simp only [SortMode.compare, SortMode.metric, compareByScore, compareByCpu,
    compareByMem, compareByIo, compareBy] at fits ⊢ <;> rw [toInt32_of_inInt fits] <;> omega

theorem take_ranks {metric : Process → Int} {sorted : List Process} (n : Nat)
    (ordered : sorted.Pairwise fun a b => metric b ≤ metric a) :
    (sorted.take n).Pairwise (fun a b => metric b ≤ metric a) ∧
      ∀ a ∈ sorted.take n, ∀ b ∈ sorted.drop n, metric b ≤ metric a := by
  rw [← List.take_append_drop n sorted, List.pairwise_append] at ordered
  exact ⟨ordered.1, ordered.2.2⟩

def Quiet (sig : ProcSignature) : Prop :=
  sig.cpuEma = 0 ∧ sig.memEma = 0 ∧ sig.ioEma = 0 ∧ sig.cpuRoc = 0 ∧ sig.memRoc = 0 ∧ sig.ioRoc = 0

theorem sampleTask_idle_quiet {jiffies : UInt64} {ok : Bool} {pid : Int} {fits : InInt pid}
    {st st' : Store} (quiet : ∀ sig ∈ st.signatures, Quiet sig)
    (step : sampleTask false jiffies ok (idleTask pid fits) st = some st') :
    ∀ sig ∈ st'.signatures, Quiet sig := by
  have zero : ∀ c, getCpuSample jiffies (idleTask pid fits) = some c → c = 0 := by
    intro c sample
    simp only [getCpuSample, idleTask] at sample
    split_ifs at sample
    simpa using sample.symm
  have mem0 : getMemSample (idleTask pid fits) = 0 := rfl
  have io0 : getIoSample false (idleTask pid fits) = 0 := rfl
  unfold sampleTask at step
  simp only [show (idleTask pid fits).kthread = false from rfl, Bool.false_eq_true, if_false,
    show (idleTask pid fits).exitState = 0 from rfl, ne_eq, not_true_eq_false] at step
  split at step
  · cases step
  rename_i c sample
  obtain rfl := zero c sample
  split at step
  · cases step
    exact quiet
  rename_i i mid created
  cases step
  have quietMid : ∀ sig ∈ mid.signatures, Quiet sig := by
    rcases getOrCreateSignature_some created with ⟨-, rfl⟩ | ⟨-, -, -, -, rfl⟩
    · exact quiet
    · intro sig mem
      rcases mem_signatures_hashAdd.mp mem with rfl | before
      · simp [Quiet, newSignature]
      · exact quiet sig before
  intro sig mem
  rcases mem_signatures_updateAt mem with before | ⟨old, before, rfl⟩
  · exact quietMid sig before
  · obtain ⟨cpu, mem, io, -, -, -⟩ := quietMid old before
    simp only [Quiet, updateSignature_cpuEma, updateSignature_memEma, updateSignature_ioEma,
      updateSignature_cpuRoc, updateSignature_memRoc, updateSignature_ioRoc, cpu, mem, io, mem0, io0]
    decide

theorem sampleTimerCallback_idle_quiet {jiffies : UInt64} :
    ∀ {kzalloc : Nat → Bool} {tasks : List Task} {st st' : Store},
      (∀ task ∈ tasks, ∃ pid fits, task = idleTask pid fits) → (∀ sig ∈ st.signatures, Quiet sig) →
      sampleTimerCallback false jiffies kzalloc tasks st = some st' → ∀ sig ∈ st'.signatures, Quiet sig
  | _, [], _, _, _, quiet, run => by cases run; exact quiet
  | _, task :: tasks, _, _, idle, quiet, run => by
    obtain ⟨mid, first, rest⟩ := Option.bind_eq_some.mp run
    obtain ⟨pid, fits, rfl⟩ := idle task (List.mem_cons_self _ _)
    exact sampleTimerCallback_idle_quiet (fun t mem => idle t (List.mem_cons_of_mem _ mem))
      (sampleTask_idle_quiet quiet first) rest

def idleCrowd : List Task :=
  (List.finRange 512).map fun k : Fin 512 =>
    idleTask ((k.val : Int) + 138) (by have := k.isLt; unfold InInt intMin intMax; omega)

set_option maxRecDepth 4000 in
theorem idleCrowd_hashes : ∀ k : Nat, k < 512 → hashMin ((k : Int) + 138) ≠ Fin.last 1023 := by
  decide

theorem mem_idleCrowd {task : Task} (mem : task ∈ idleCrowd) :
    ∃ k : Nat, k < 512 ∧ task.pid = (k : Int) + 138 ∧ ∃ fits, task = idleTask ((k : Int) + 138) fits := by
  obtain ⟨k, -, rfl⟩ := List.mem_map.mp mem
  exact ⟨k, k.isLt, rfl, _, rfl⟩

def lateBurstTask : Task where
  pid := 137
  comm := ['a']
  kthread := false
  exitState := 0
  utime := 300
  stime := 0
  startTime := 0
  totalVm := none
  readBytes := 0
  writeBytes := 0

def lateSpikeStore (n : Nat) : Store :=
  (runTicks false [⟨0, fun _ => true, idleCrowd.take n⟩, ⟨0, fun _ => true, [lateBurstTask]⟩]
    Store.init).getD Store.init

theorem lateSpikeStore_spec {n : Nat} (le : n ≤ 512) :
    Kernel.Reachable false (lateSpikeStore n) ∧ ∃ quiet busy,
      (lateSpikeStore n).signatures = quiet ++ [busy] ∧ quiet.length = n ∧
      (∀ sig ∈ quiet, Quiet sig) ∧ busy.cpuRoc = 9000 ∧ busy.memRoc = 0 ∧ busy.ioRoc = 0 := by
  have taken : ∀ task ∈ idleCrowd.take n, task ∈ idleCrowd := fun _ => List.mem_of_mem_take
  have crowdPids : (idleCrowd.map Task.pid).Nodup := by
    have pids : idleCrowd.map Task.pid = (List.finRange 512).map fun k : Fin 512 => (k.val : Int) + 138 := by
      simp only [idleCrowd, List.map_map]
      rfl
    rw [pids]
    exact (List.nodup_finRange 512).map fun a b same => Fin.ext (by omega)
  have length : (idleCrowd.take n).length = n := by
    rw [List.length_take, idleCrowd, List.length_map, List.length_finRange]
    omega
  obtain ⟨st₁, tick₁, inv₁, counted₁, origin₁⟩ := @sampleTimerCallback_fresh false 0 (fun _ => true)
    (idleCrowd.take n) Store.init (fun _ => rfl) init_storeInv
    (fun task mem => by
      obtain ⟨k, -, -, fits, rfl⟩ := mem_idleCrowd (taken task mem)
      exact ⟨rfl, rfl, show (0 : UInt64) - 0 + 1 ≠ 0 by decide⟩)
    (by rw [List.map_take]; exact crowdPids.sublist (List.take_sublist _ _))
    (by simp) (by simp only [init_signatures, List.length_nil, length]; omega)
  have quiet₁ := sampleTimerCallback_idle_quiet (fun task mem => by
      obtain ⟨k, -, -, fits, rfl⟩ := mem_idleCrowd (taken task mem)
      exact ⟨_, fits, rfl⟩) (by simp) tick₁
  have lastEmpty : st₁.procSignatures (Fin.last 1023) = [] := by
    refine List.eq_nil_iff_forall_not_mem.mpr fun sig mem => ?_
    rcases origin₁ sig (mem_signatures.mpr ⟨_, mem⟩) with ⟨old, before, -⟩ | ⟨task, fromTask, pid, -⟩
    · simp at before
    · obtain ⟨k, small, samePid, -⟩ := mem_idleCrowd (taken task fromTask)
      exact idleCrowd_hashes k small (samePid ▸ pid ▸ inv₁.placed _ sig mem)
  obtain ⟨st₂, tick₂, buckets⟩ := @sampleTask_empty_bucket false 0 lateBurstTask st₁ 30000 inv₁ rfl rfl
    (by decide) (show hashMin 137 = Fin.last 1023 by decide ▸ lastEmpty)
    (by simp only [counted₁, init_signatures, List.length_nil, length]; omega)
  rw [show hashMin lateBurstTask.pid = Fin.last 1023 by decide] at buckets
  have run : runTicks false [⟨0, fun _ => true, idleCrowd.take n⟩, ⟨0, fun _ => true, [lateBurstTask]⟩]
      Store.init = some st₂ := by
    simp [runTicks, tick₁, sampleTimerCallback, tick₂]
  have same : lateSpikeStore n = st₂ := by simp [lateSpikeStore, run]
  refine ⟨⟨_, same ▸ run⟩, st₁.signatures, _, same ▸ signatures_update_last lastEmpty _ buckets,
    by simp only [counted₁, init_signatures, List.length_nil, length, zero_add], quiet₁, ?_, ?_, ?_⟩ <;>
    simp only [updateSignature_cpuRoc, updateSignature_memRoc, updateSignature_ioRoc] <;> decide

end TopSpikes

end SmartScheduler

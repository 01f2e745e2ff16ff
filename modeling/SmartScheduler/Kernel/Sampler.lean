import SmartScheduler.Kernel.Store

/-!
# The sampling timer

`sample_timer_callback` walks the process list under `sig_lock`: it skips kernel threads
and zombies, takes the three samples of each remaining task, and updates (creating if
needed) the task's signature. A run of the module is the sequence of its ticks from load.

`get_cpu_sample` divides by `jiffies - start_time + 1` in `u64` arithmetic; a zero divisor
is a division fault, and the tick has no next state.
-/

namespace SmartScheduler.Kernel

structure Task where
  pid : Int
  comm : List Char
  /-- `task->flags & PF_KTHREAD`. -/
  kthread : Bool
  exitState : Int
  utime : UInt64
  stime : UInt64
  startTime : UInt64
  /-- `task->mm->total_vm`, `none` when `task->mm` is `NULL`. -/
  totalVm : Option UInt64
  readBytes : UInt64
  writeBytes : UInt64
  /-- `pid_t` is an `int`. -/
  pid_inInt : InInt pid := by decide
  /-- `task->comm` is a string of at most `TASK_COMM_LEN - 1` characters. -/
  comm_valid : comm.length ≤ 15 ∧ '\x00' ∉ comm := by decide

def getCpuSample (jiffies : UInt64) (task : Task) : Option Int :=
  let totalTime := task.utime + task.stime
  let divisor := jiffies - task.startTime + 1
  if divisor = 0 then none else some (toInt32 (totalTime * 100 / divisor).toNat)

def getMemSample (task : Task) : Int :=
  match task.totalVm with
  | some totalVm => toInt32 (totalVm * 100 / 1024).toNat
  | none => 0

/-- `get_io_sample`; `ioAccounting` is `CONFIG_TASK_IO_ACCOUNTING`. -/
def getIoSample (ioAccounting : Bool) (task : Task) : Int :=
  if ioAccounting then toInt32 ((task.readBytes + task.writeBytes) / 1024).toNat else 0

/-- One iteration of the `for_each_process` loop; `kzallocOk` answers the allocation a new
signature would need. -/
def sampleTask (ioAccounting : Bool) (jiffies : UInt64) (kzallocOk : Bool) (task : Task)
    (st : Store) : Option Store :=
  if task.kthread then some st
  else if task.exitState ≠ 0 then some st
  else
    match getCpuSample jiffies task with
    | none => none
    | some cpuSample =>
      let memSample := getMemSample task
      let ioSample := getIoSample ioAccounting task
      match getOrCreateSignature jiffies kzallocOk task.pid task.comm st with
      | none => some st
      | some (i, st') => some (st'.updateAt (hashMin task.pid) i jiffies cpuSample memSample ioSample)

/-- `sample_timer_callback` over the process list `tasks`; `kzalloc n` answers the
allocation for the `n`-th task. -/
def sampleTimerCallback (ioAccounting : Bool) (jiffies : UInt64) (kzalloc : Nat → Bool) :
    List Task → Store → Option Store
  | [], st => some st
  | task :: tasks, st =>
    (sampleTask ioAccounting jiffies (kzalloc 0) task st).bind
      (sampleTimerCallback ioAccounting jiffies (fun n => kzalloc (n + 1)) tasks)

structure Tick where
  jiffies : UInt64
  kzalloc : Nat → Bool
  tasks : List Task

def runTicks (ioAccounting : Bool) : List Tick → Store → Option Store
  | [], st => some st
  | tick :: ticks, st =>
    (sampleTimerCallback ioAccounting tick.jiffies tick.kzalloc tick.tasks st).bind
      (runTicks ioAccounting ticks)

theorem runTicks_singleton (ioAccounting : Bool) (tick : Tick) (st : Store) :
    runTicks ioAccounting [tick] st =
      sampleTimerCallback ioAccounting tick.jiffies tick.kzalloc tick.tasks st := by
  simp [runTicks]

def Reachable (ioAccounting : Bool) (st : Store) : Prop :=
  ∃ ticks, runTicks ioAccounting ticks Store.init = some st

theorem runTicks_append (ioAccounting : Bool) (xs ys : List Tick) (st : Store) :
    runTicks ioAccounting (xs ++ ys) st = (runTicks ioAccounting xs st).bind (runTicks ioAccounting ys) := by
  induction xs generalizing st with
  | nil => rfl
  | cons tick xs ih => simp only [List.cons_append, runTicks, Option.bind_assoc, List.append_eq, ih]

theorem Reachable.of_run {ioAccounting : Bool} {st st' : Store} {ticks : List Tick}
    (reachable : Reachable ioAccounting st) (run : runTicks ioAccounting ticks st = some st') :
    Reachable ioAccounting st' := by
  obtain ⟨before, loaded⟩ := reachable
  exact ⟨before ++ ticks, by rw [runTicks_append, loaded, Option.some_bind, run]⟩

/-! ## Invariants of runs

An invariant of the store that `get_or_create_signature` and `update_signature` keep holds
along every run. `P n` may also count the task entries sampled so far: each takes at most
one update.
-/

section Runs

variable {P : Nat → Store → Prop}
  (mono : ∀ {n st}, P n st → P (n + 1) st)
  (create : ∀ {n jiffies ok} {task : Task} {st i st'}, P n st →
    getOrCreateSignature jiffies ok task.pid task.comm st = some (i, st') → P n st')
  (update : ∀ {n b i jiffies c m io st}, P n st → P (n + 1) (Store.updateAt b i jiffies c m io st))
include mono create update

theorem sampleTask_preserves {ioAccounting : Bool} {jiffies : UInt64} {ok : Bool} {task : Task}
    {n : Nat} {st st' : Store} (hold : P n st)
    (step : sampleTask ioAccounting jiffies ok task st = some st') : P (n + 1) st' := by
  unfold sampleTask at step
  split at step
  · cases step; exact mono hold
  split at step
  · cases step; exact mono hold
  split at step
  · cases step
  split at step
  · cases step; exact mono hold
  · cases step; exact update (create hold ‹_›)

theorem sampleTimerCallback_preserves {ioAccounting : Bool} {jiffies : UInt64}
    {kzalloc : Nat → Bool} {tasks : List Task} {n : Nat} {st st' : Store} (hold : P n st)
    (tick : sampleTimerCallback ioAccounting jiffies kzalloc tasks st = some st') :
    P (n + tasks.length) st' := by
  induction tasks generalizing kzalloc n st with
  | nil => cases tick; exact hold
  | cons task tasks ih =>
    obtain ⟨mid, first, rest⟩ := Option.bind_eq_some.mp tick
    have := ih (sampleTask_preserves (P := P) mono create update hold first) rest
    rwa [List.length_cons, Nat.add_comm tasks.length, ← Nat.add_assoc]

theorem runTicks_preserves {ioAccounting : Bool} {ticks : List Tick} {n : Nat} {st st' : Store}
    (hold : P n st) (run : runTicks ioAccounting ticks st = some st') :
    P (n + (ticks.map fun tick => tick.tasks.length).sum) st' := by
  induction ticks generalizing n st with
  | nil => cases run; exact hold
  | cons tick ticks ih =>
    obtain ⟨mid, first, rest⟩ := Option.bind_eq_some.mp run
    have := ih (sampleTimerCallback_preserves (P := P) mono create update hold first) rest
    rwa [List.map_cons, List.sum_cons, ← Nat.add_assoc]

end Runs

theorem Reachable.invariant {P : Store → Prop} (init : P Store.init)
    (create : ∀ {jiffies ok} {task : Task} {st i st'}, P st →
      getOrCreateSignature jiffies ok task.pid task.comm st = some (i, st') → P st')
    (update : ∀ {b i jiffies c m io st}, P st → P (Store.updateAt b i jiffies c m io st))
    {ioAccounting : Bool} {st : Store} (reachable : Reachable ioAccounting st) : P st := by
  obtain ⟨ticks, run⟩ := reachable
  exact runTicks_preserves (P := fun _ => P) id create update (n := 0) init run

theorem Reachable.storeInv {ioAccounting : Bool} {st : Store}
    (reachable : Reachable ioAccounting st) : StoreInv st :=
  reachable.invariant init_storeInv getOrCreateSignature_storeInv updateAt_storeInv

theorem getOrCreateSignature_signatureReachable {jiffies : UInt64} {ok : Bool} {pid : Int}
    {comm : List Char} {st st' : Store} {i : Nat}
    (hold : ∀ sig ∈ st.signatures, SignatureReachable sig)
    (created : getOrCreateSignature jiffies ok pid comm st = some (i, st')) :
    ∀ sig ∈ st'.signatures, SignatureReachable sig := by
  rcases getOrCreateSignature_some created with ⟨-, rfl⟩ | ⟨-, -, -, -, rfl⟩
  · exact hold
  · intro sig mem
    rcases mem_signatures_hashAdd.mp mem with rfl | before
    · exact .create _ _ _
    · exact hold sig before

theorem updateAt_signatureReachable {b : Fin 1024} {i : Nat} {jiffies : UInt64} {c m io : Int}
    {st : Store} (hold : ∀ sig ∈ st.signatures, SignatureReachable sig) :
    ∀ sig ∈ (st.updateAt b i jiffies c m io).signatures, SignatureReachable sig := by
  intro sig mem
  rcases mem_signatures_updateAt mem with before | ⟨old, before, rfl⟩
  · exact hold sig before
  · exact .update jiffies c m io st.totalPredictions (hold old before)

theorem Reachable.signatureReachable {ioAccounting : Bool} {st : Store}
    (reachable : Reachable ioAccounting st) : ∀ sig ∈ st.signatures, SignatureReachable sig :=
  reachable.invariant (by simp) getOrCreateSignature_signatureReachable updateAt_signatureReachable

/-- A task the timer samples: a user task that has not exited, whose CPU sample's divisor
`jiffies - start_time + 1` is not zero. -/
def Sampled (jiffies : UInt64) (task : Task) : Prop :=
  task.kthread = false ∧ task.exitState = 0 ∧ jiffies - task.startTime + 1 ≠ 0

def ComesFrom (before : Store) (tasks : List Task) (sig : ProcSignature) : Prop :=
  (∃ old ∈ before.signatures, old.pid = sig.pid ∧ old.comm = sig.comm) ∨
    ∃ task ∈ tasks, task.pid = sig.pid ∧ task.comm.take 15 = sig.comm

theorem signatures_length_updateAt (b : Fin 1024) (i : Nat) (jiffies : UInt64) (c m io : Int)
    (st : Store) : (st.updateAt b i jiffies c m io).signatures.length = st.signatures.length := by
  simpa using congrArg List.length (signatures_pids_updateAt b i jiffies c m io st)

theorem sampleTask_fresh {ioAccounting : Bool} {jiffies : UInt64} {task : Task} {st : Store}
    (inv : StoreInv st) (sampled : Sampled jiffies task)
    (absent : ∀ sig ∈ st.signatures, sig.pid ≠ task.pid) (room : st.signatures.length < 4096) :
    ∃ st', sampleTask ioAccounting jiffies true task st = some st' ∧ StoreInv st' ∧
      st'.signatures.length = st.signatures.length + 1 ∧
      ∀ sig ∈ st'.signatures, ComesFrom st [task] sig := by
  obtain ⟨user, alive, divisor⟩ := sampled
  obtain ⟨cpu, sample⟩ : ∃ cpu, getCpuSample jiffies task = some cpu :=
    Option.isSome_iff_exists.mp (by simp [getCpuSample, divisor])
  have created := inv.getOrCreateSignature_of_absent absent jiffies true task.comm
  rw [if_pos ⟨by rw [inv.count, maxTrackedProcs]; exact_mod_cast room, rfl⟩] at created
  generalize added : ({ st.hashAdd task.pid (newSignature task.pid task.comm jiffies) with
    totalTracked := st.totalTracked + 1 } : Store) = mid at created
  have midInv := getOrCreateSignature_storeInv inv created
  refine ⟨mid.updateAt (hashMin task.pid) 0 jiffies cpu (getMemSample task)
    (getIoSample ioAccounting task), by simp [sampleTask, user, alive, sample, created],
    updateAt_storeInv midInv, ?_, fun sig mem => ?_⟩
  · have grown : st.totalTracked + 1 = mid.signatures.length := by rw [← midInv.count, ← added]
    rw [inv.count] at grown
    rw [signatures_length_updateAt]
    omega
  · subst added
    rcases mem_signatures_updateAt mem with before | ⟨old, before, rfl⟩ <;>
      rcases mem_signatures_hashAdd.mp before with rfl | before
    all_goals first
      | exact .inr ⟨task, List.mem_singleton_self _, rfl, rfl⟩
      | exact .inl ⟨_, before, rfl, rfl⟩

theorem sampleTimerCallback_fresh {ioAccounting : Bool} {jiffies : UInt64} :
    ∀ {kzalloc : Nat → Bool} {tasks : List Task} {st : Store}, (∀ n, kzalloc n = true) →
      StoreInv st → (∀ task ∈ tasks, Sampled jiffies task) → (tasks.map Task.pid).Nodup →
      (∀ task ∈ tasks, ∀ sig ∈ st.signatures, sig.pid ≠ task.pid) →
      st.signatures.length + tasks.length ≤ 4096 →
      ∃ st', sampleTimerCallback ioAccounting jiffies kzalloc tasks st = some st' ∧
        StoreInv st' ∧ st'.signatures.length = st.signatures.length + tasks.length ∧
        ∀ sig ∈ st'.signatures, ComesFrom st tasks sig
  | _, [], st, _, inv, _, _, _, _ =>
    ⟨st, rfl, inv, (Nat.add_zero _).symm, fun sig mem => .inl ⟨sig, mem, rfl, rfl⟩⟩
  | kzalloc, task :: tasks, st, allocates, inv, sampled, distinct, absent, room => by
    obtain ⟨mid, first, midInv, grown, fromFirst⟩ :=
      @sampleTask_fresh ioAccounting jiffies task st inv (sampled task (List.mem_cons_self _ _))
        (absent task (List.mem_cons_self _ _)) (by simp at room; omega)
    have distinct' := List.nodup_cons.mp distinct
    have absentMid : ∀ t ∈ tasks, ∀ sig ∈ mid.signatures, sig.pid ≠ t.pid := by
      intro t mem sig inMid same
      rcases fromFirst sig inMid with ⟨old, before, samePid, -⟩ | ⟨t', mem', samePid, -⟩
      · exact absent t (List.mem_cons_of_mem _ mem) old before (samePid.trans same)
      · obtain rfl := List.mem_singleton.mp mem'
        exact distinct'.1 (List.mem_map.mpr ⟨t, mem, (samePid.trans same).symm⟩)
    obtain ⟨st', rest, inv', counted, fromRest⟩ :=
      @sampleTimerCallback_fresh ioAccounting jiffies (fun n => kzalloc (n + 1)) tasks mid
        (fun n => allocates (n + 1)) midInv (fun t mem => sampled t (List.mem_cons_of_mem _ mem))
        distinct'.2 absentMid (by simp at room; omega)
    refine ⟨st', by simp [sampleTimerCallback, allocates 0, first, rest], inv', by
      simp only [List.length_cons]; omega, fun sig mem => ?_⟩
    rcases fromRest sig mem with ⟨old, inMid, samePid, sameComm⟩ | ⟨t, mem, samePid, sameComm⟩
    · rcases fromFirst old inMid with ⟨older, before, samePid', sameComm'⟩ | ⟨t, mem', samePid', sameComm'⟩
      · exact .inl ⟨older, before, samePid'.trans samePid, sameComm'.trans sameComm⟩
      · exact .inr ⟨t, List.mem_cons.mpr (.inl (List.mem_singleton.mp mem')),
          samePid'.trans samePid, sameComm'.trans sameComm⟩
    · exact .inr ⟨t, List.mem_cons_of_mem _ mem, samePid, sameComm⟩

theorem runTicks_single {ioAccounting : Bool} {jiffies : UInt64} {task : Task} {cpu : Int}
    (user : task.kthread = false) (alive : task.exitState = 0)
    (cpuSample : getCpuSample jiffies task = some cpu) :
    ∃ st, runTicks ioAccounting [⟨jiffies, fun _ => true, [task]⟩] Store.init = some st ∧
      st.signatures = [(updateSignature jiffies cpu (getMemSample task)
        (getIoSample ioAccounting task) (newSignature task.pid task.comm jiffies) 0).1] := by
  have divisor : jiffies - task.startTime + 1 ≠ 0 := fun zero => by
    simp [getCpuSample, zero] at cpuSample
  obtain ⟨st, tick, -, counted, -⟩ := @sampleTimerCallback_fresh ioAccounting jiffies
    (fun _ => true) [task] Store.init (fun _ => rfl) init_storeInv
    (fun t mem => by rw [List.mem_singleton.mp mem]; exact ⟨user, alive, divisor⟩) (by simp)
    (by simp [init_signatures]) (by rw [init_signatures]; simp)
  have computed : sampleTimerCallback ioAccounting jiffies (fun _ => true) [task] Store.init =
      some (({ Store.init.hashAdd task.pid (newSignature task.pid task.comm jiffies) with
        totalTracked := atomicInc 0 } : Store).updateAt (hashMin task.pid) 0 jiffies cpu
          (getMemSample task) (getIoSample ioAccounting task)) := by
    simp [sampleTimerCallback, sampleTask, user, alive, cpuSample, getOrCreateSignature,
      Store.init, findSignature, maxTrackedProcs]
  rw [tick, Option.some_inj] at computed
  have bucket : st.procSignatures (hashMin task.pid) = [(updateSignature jiffies cpu
      (getMemSample task) (getIoSample ioAccounting task) (newSignature task.pid task.comm jiffies) 0).1] := by
    simp [computed, Store.updateAt, Store.hashAdd, Store.init]
  obtain ⟨sig, one⟩ := List.length_eq_one.mp (by rw [counted, init_signatures]; rfl)
  have mem := mem_signatures.mpr ⟨hashMin task.pid, bucket ▸ List.mem_singleton_self _⟩
  rw [one, List.mem_singleton] at mem
  exact ⟨st, (runTicks_singleton ..).trans tick, by rw [one, mem]⟩

def sampledOnce : Task where
  pid := 1
  comm := ['a']
  kthread := false
  exitState := 0
  utime := 0
  stime := 0
  startTime := 0
  totalVm := none
  readBytes := 0
  writeBytes := 0

/-- Pid 1 is sampled, then exits: the second snapshot is empty, and its signature stays. -/
theorem exited_process_keeps_signature :
    ∃ st, runTicks false [⟨0, fun _ => true, [sampledOnce]⟩, ⟨1, fun _ => true, []⟩]
      Store.init = some st ∧ (1 : Int) ∈ st.signatures.map ProcSignature.pid := by
  have bucket : ((runTicks false [⟨0, fun _ => true, [sampledOnce]⟩, ⟨1, fun _ => true, []⟩]
      Store.init).map fun st => (st.procSignatures (hashMin 1)).map ProcSignature.pid) =
      some [1] := by decide
  obtain ⟨st, run, pids⟩ := Option.map_eq_some'.mp bucket
  obtain ⟨sig, inBucket, same⟩ := List.mem_map.mp (pids ▸ List.mem_singleton_self (1 : Int))
  exact ⟨st, run, List.mem_map.mpr ⟨sig, mem_signatures.mpr ⟨_, inBucket⟩, same⟩⟩

def idleTask (pid : Int) (fits : InInt pid := by decide) : Task where
  pid := pid
  comm := ['a']
  kthread := false
  exitState := 0
  utime := 0
  stime := 0
  startTime := 0
  totalVm := none
  readBytes := 0
  writeBytes := 0
  pid_inInt := fits

def burstTask : Task where
  pid := 1
  comm := ['a']
  kthread := false
  exitState := 0
  utime := 300
  stime := 0
  startTime := 0
  totalVm := some 4294967296
  readBytes := 4194304
  writeBytes := 0

def burstStore : Store :=
  (runTicks true [⟨0, fun _ => true, [burstTask]⟩] Store.init).getD Store.init

def burstSignature : ProcSignature where
  pid := 1
  comm := ['a']
  cpuEma := 9000
  memEma := -3019898
  ioEma := 1228
  cpuPrev := 0
  memPrev := 0
  ioPrev := 0
  cpuRoc := 9000
  memRoc := -3019898
  ioRoc := 1228
  flags := 133
  lastUpdate := 0
  created := 0
  cpuSpikesPredicted := 1
  memSpikesPredicted := 0
  ioSpikesPredicted := 1
  totalSamples := 1

theorem burstStore_spec :
    runTicks true [⟨0, fun _ => true, [burstTask]⟩] Store.init = some burstStore ∧
      burstStore.signatures = [burstSignature] ∧ burstStore.totalTracked = 1 ∧
      burstStore.totalPredictions = 2 := by
  obtain ⟨st, run, signatures⟩ := @runTicks_single true 0 burstTask 30000 rfl rfl (by decide)
  have same : burstStore = st := by simp [burstStore, run]
  have predicted : (runTicks true [⟨0, fun _ => true, [burstTask]⟩] Store.init).map
      Store.totalPredictions = some 2 := by decide
  rw [run, Option.map_some', Option.some_inj] at predicted
  have counted := (show Reachable true st from ⟨_, run⟩).storeInv.count
  rw [same, signatures] at *
  exact ⟨run, by decide, counted, predicted⟩

theorem sampleTask_empty_bucket {ioAccounting : Bool} {jiffies : UInt64} {task : Task}
    {st : Store} {cpu : Int} (inv : StoreInv st) (user : task.kthread = false)
    (alive : task.exitState = 0) (cpuSample : getCpuSample jiffies task = some cpu)
    (empty : st.procSignatures (hashMin task.pid) = []) (room : st.signatures.length < 4096) :
    ∃ st', sampleTask ioAccounting jiffies true task st = some st' ∧
      st'.procSignatures = Function.update st.procSignatures (hashMin task.pid)
        [(updateSignature jiffies cpu (getMemSample task) (getIoSample ioAccounting task)
          (newSignature task.pid task.comm jiffies) st.totalPredictions).1] := by
  have below : ¬ st.totalTracked ≥ maxTrackedProcs := by
    rw [inv.count, maxTrackedProcs]
    exact_mod_cast Nat.not_le.mpr room
  refine ⟨({ st.hashAdd task.pid (newSignature task.pid task.comm jiffies) with
    totalTracked := atomicInc st.totalTracked } : Store).updateAt (hashMin task.pid) 0 jiffies cpu
      (getMemSample task) (getIoSample ioAccounting task), by
    simp [sampleTask, user, alive, cpuSample, getOrCreateSignature, empty, findSignature, below], ?_⟩
  simp [Store.updateAt, Store.hashAdd, empty]

/-- What the representation guarantees: unique pids, `total_tracked` counting the signatures
up to `MAX_TRACKED_PROCS`, and `get_or_create_signature` returning the signature of a pid
present, and creating a fresh one for an absent pid only while there is room. -/
structure StoreRepresentation (st : Store) : Prop where
  pids_nodup : (st.signatures.map ProcSignature.pid).Nodup
  count : st.totalTracked = st.signatures.length
  bounded : st.totalTracked ≤ maxTrackedProcs
  existing : ∀ sig ∈ st.signatures, ∀ (jiffies : UInt64) (ok : Bool) (comm : List Char),
    ∃ i, (st.procSignatures (hashMin sig.pid))[i]? = some sig ∧
      getOrCreateSignature jiffies ok sig.pid comm st = some (i, st)
  absent : ∀ pid, (∀ sig ∈ st.signatures, sig.pid ≠ pid) →
    ∀ (jiffies : UInt64) (ok : Bool) (comm : List Char),
      getOrCreateSignature jiffies ok pid comm st =
        if st.totalTracked < maxTrackedProcs ∧ ok = true then
          some (0, { st.hashAdd pid (newSignature pid comm jiffies) with
            totalTracked := st.totalTracked + 1 })
        else none

theorem reachable_store_representation {ioAccounting : Bool} {st : Store}
    (reachable : Reachable ioAccounting st) : StoreRepresentation st := by
  have inv := reachable.storeInv
  refine ⟨inv.pids_nodup, inv.count, ?_, fun sig mem => inv.getOrCreateSignature_of_mem mem,
    fun pid absent => inv.getOrCreateSignature_of_absent absent⟩
  rw [inv.count, maxTrackedProcs]
  exact_mod_cast inv.bounded

theorem burst_store_representation :
    Reachable true burstStore ∧ burstStore.signatures = [burstSignature] ∧
      StoreRepresentation burstStore :=
  have reachable : Reachable true burstStore := ⟨_, burstStore_spec.1⟩
  ⟨reachable, burstStore_spec.2.1, reachable_store_representation reachable⟩

/-- No tick drops a signature: every pid the store tracks before a run it still tracks
after. `remove_signature` has no caller. -/
theorem runTicks_keeps_pids {ioAccounting : Bool} {ticks : List Tick} {st st' : Store}
    (run : runTicks ioAccounting ticks st = some st') :
    ∀ pid ∈ st.signatures.map ProcSignature.pid, pid ∈ st'.signatures.map ProcSignature.pid := by
  refine runTicks_preserves (P := fun _ s => ∀ pid ∈ st.signatures.map ProcSignature.pid,
    pid ∈ s.signatures.map ProcSignature.pid) id ?_ ?_ (n := 0) (fun _ tracked => tracked) run
  · intro n jiffies ok task s i s' hold created pid' tracked
    rcases getOrCreateSignature_some created with ⟨-, rfl⟩ | ⟨-, -, -, -, rfl⟩
    · exact hold pid' tracked
    · obtain ⟨sig, before, rfl⟩ := List.mem_map.mp (hold pid' tracked)
      exact List.mem_map_of_mem _ (mem_signatures_hashAdd.mpr (.inr before))
  · intro n b i jiffies c m io s hold pid' tracked
    rw [signatures_pids_updateAt]
    exact hold pid' tracked

theorem burst_pid_kept_by_next_tick :
    ∃ st', runTicks true [⟨1, fun _ => true, [idleTask 2]⟩] burstStore = some st' ∧
      st'.signatures.length = 2 ∧
      ∀ pid ∈ burstStore.signatures.map ProcSignature.pid, pid ∈ st'.signatures.map ProcSignature.pid := by
  obtain ⟨run, signatures, -⟩ := burstStore_spec
  obtain ⟨st', tick, -, counted, -⟩ := @sampleTimerCallback_fresh true 1 (fun _ => true) [idleTask 2]
    burstStore (fun _ => rfl) (show Reachable true burstStore from ⟨_, run⟩).storeInv
    (fun task mem => by rw [List.mem_singleton.mp mem]; exact ⟨rfl, rfl, by decide⟩) (by simp)
    (by rw [signatures]; decide) (by rw [signatures]; decide)
  have next : runTicks true [⟨1, fun _ => true, [idleTask 2]⟩] burstStore = some st' :=
    (runTicks_singleton ..).trans tick
  exact ⟨st', next, by rw [counted, signatures]; rfl, runTicks_keeps_pids next⟩

end SmartScheduler.Kernel

import SmartScheduler.Views.Display

/-!
# The monitor's main loop

In display mode each pass of `main`'s loop calls `read_process_stats`, `read_predictions` and
`clean_spike_history`, then `print_predictions` sorts the first `process_count` slots with
`qsort`, whose order among equal processes is open: the loop is a relation (`MonitorLoop`),
which every list of refreshes runs.

Over a run the spike history is the only state that carries a process from one refresh to the
next. A process listed with all three spike flags at every refresh gains 3 samples a refresh,
`clean_spike_history` never drops an entry seen by the refresh that cleans, and the slot of the
process, wherever the sort puts it, shows it as persistent from its second refresh on, whatever
the times of the refreshes (`persistent_over_refreshes`).
-/

namespace SmartScheduler

open Text Kernel Daemon

namespace Monitor

def MonitorState.withProcesses (st : MonitorState) (ps : List ProcessInfo) (length : ps.length = maxProcs) :
    MonitorState :=
  { st with processes := ps, processes_length := length }

/-- The main loop in display mode: each refresh reads the two files and cleans the history,
then `print_predictions` sorts the first `process_count` slots. -/
inductive MonitorLoop : MonitorState → List Refresh → MonitorState → Prop
  | done (st : MonitorState) : MonitorLoop st [] st
  | refresh {st final : MonitorState} {r : Refresh} {rs : List Refresh} {sorted : List ProcessInfo}
      (sorting : SortedByAlert (monitorStep st r).processCount (monitorStep st r).processes sorted) :
      MonitorLoop ((monitorStep st r).withProcesses sorted
        (sorting.length_eq.trans (monitorStep st r).processes_length)) rs final →
      MonitorLoop st (r :: rs) final

@[simp] theorem readProcessStats_spikeHistory (file : Option (List Char)) (st : MonitorState) :
    (readProcessStats file st).spikeHistory = st.spikeHistory := by
  cases file <;> rfl

@[simp] theorem MonitorState.resetTotals_spikeHistory (st : MonitorState) :
    st.resetTotals.spikeHistory = st.spikeHistory := rfl

theorem SortedByAlert.exists (count : Nat) (ps : List ProcessInfo) : ∃ sorted, SortedByAlert count ps sorted := by
  let le := fun a b => decide (compareByAlert a b ≤ 0)
  have sorted := @List.sorted_mergeSort _ le
    (fun a b c ab bc => by simp only [le, decide_eq_true_eq, compareByAlert_nonpos_iff] at ab bc ⊢; omega)
    (fun a b => by simp only [le, Bool.or_eq_true, decide_eq_true_eq, compareByAlert_nonpos_iff]; omega)
    (ps.take count)
  exact ⟨_, _, List.mergeSort_perm _ le, sorted.imp (of_decide_eq_true ·), rfl⟩

theorem SortedByAlert.mem_take {count : Nat} {ps sorted : List ProcessInfo}
    (sorting : SortedByAlert count ps sorted) {p : ProcessInfo} (mem : p ∈ ps.take count) :
    p ∈ sorted.take count := by
  obtain ⟨front, perm, -, eq⟩ := sorting
  rw [SortedByAlert.take_eq perm eq]
  exact perm.symm.subset mem

theorem MonitorLoop.exists (st : MonitorState) : ∀ rs, ∃ final, MonitorLoop st rs final
  | [] => ⟨st, .done st⟩
  | r :: rs => by
    obtain ⟨sorted, sorting⟩ := SortedByAlert.exists (monitorStep st r).processCount (monitorStep st r).processes
    obtain ⟨final, loop⟩ := MonitorLoop.exists _ rs
    exact ⟨final, .refresh sorting loop⟩

section Frame

variable {now pid q : Int}

theorem findHistory_bumpHistory_of_ne {hist hist' : List SpikeHistory} (other : q ≠ pid)
    (bumped : bumpHistory now q hist = some hist') : findHistory pid hist' = findHistory pid hist := by
  induction hist generalizing hist' with
  | nil => simp [bumpHistory] at bumped
  | cons h hs ih =>
    unfold bumpHistory at bumped
    split_ifs at bumped with same
    · cases bumped
      simp [findHistory, List.find?_cons, same, other]
    · obtain ⟨rest, found, rfl⟩ := Option.map_eq_some'.mp bumped
      have tail := ih found
      simp only [findHistory] at tail ⊢
      simp only [List.find?_cons, tail]

theorem findHistory_update_of_ne {t : SpikeTable} (other : q ≠ pid) :
    findHistory pid (t.update now q).entries = findHistory pid t.entries := by
  simp only [SpikeTable.update, updateSpikeHistory]
  split
  · next bumped => exact findHistory_bumpHistory_of_ne other bumped
  · split_ifs
    · simp [findHistory, List.find?_append, other]
    · rfl

theorem findHistory_noteHistory_of_ne {t : SpikeTable} {cpu mem io : Bool} (other : q ≠ pid) :
    findHistory pid (noteHistory now q cpu mem io t).entries = findHistory pid t.entries := by
  simp only [noteHistory]
  split_ifs <;> simp only [findHistory_update_of_ne other]

theorem pids_update_subset {t : SpikeTable} {S : List Int} (sub : t.entries.map (·.pid) ⊆ q :: S) :
    (t.update now q).entries.map (·.pid) ⊆ q :: S := by
  simp only [SpikeTable.update, updateSpikeHistory]
  split
  · next bumped => rwa [pids_bumpHistory bumped]
  · split_ifs
    · simpa only [List.map_append, List.append_subset] using ⟨sub, by simp⟩
    · exact sub

theorem pids_noteHistory_subset {t : SpikeTable} {S : List Int} {cpu mem io : Bool}
    (sub : t.entries.map (·.pid) ⊆ q :: S) : (noteHistory now q cpu mem io t).entries.map (·.pid) ⊆ q :: S := by
  simp only [noteHistory]
  split_ifs <;> repeat (first | exact sub | apply pids_update_subset)

theorem findHistory_clean {t : SpikeTable} {h : SpikeHistory} (found : findHistory pid t.entries = some h)
    (recent : now - h.lastSeen < 30) : findHistory pid (t.clean now).entries = some h := by
  simp only [SpikeTable.clean, findHistory] at found ⊢
  generalize t.entries = hist at found ⊢
  induction hist with
  | nil => simp at found
  | cons e es ih =>
    by_cases same : e.pid = pid
    · simp only [List.find?_cons, same, decide_True, Option.some.injEq] at found
      subst found
      simp [List.filter_cons, recent, same]
    · simp only [List.find?_cons, same, decide_False] at found
      by_cases kept : now - e.lastSeen < 30 <;> simp [List.filter_cons, kept, same, ih found]

end Frame

section Fold

variable {now pid : Int}

theorem findHistory_noteSpikes_of_ne {st : MonitorState} {r : PredictionRecord} (other : r.pid ≠ pid) :
    findHistory pid (noteSpikes now st r).spikeHistory.entries = findHistory pid st.spikeHistory.entries := by
  unfold noteSpikes
  split
  · rfl
  · exact findHistory_noteHistory_of_ne other

theorem pids_noteSpikes_subset (st : MonitorState) (r : PredictionRecord) :
    (noteSpikes now st r).spikeHistory.entries.map (·.pid) ⊆ r.pid :: st.spikeHistory.entries.map (·.pid) := by
  unfold noteSpikes
  split
  · exact List.subset_cons_self _ _
  · exact pids_noteHistory_subset (List.subset_cons_self _ _)

theorem findHistory_foldl_noteSpikes_of_ne : ∀ {records : List PredictionRecord} {st : MonitorState},
    (∀ r ∈ records, r.pid ≠ pid) →
    findHistory pid (records.foldl (noteSpikes now) st).spikeHistory.entries =
      findHistory pid st.spikeHistory.entries
  | [], _, _ => rfl
  | r :: _, _, others => by
    rw [List.foldl_cons, findHistory_foldl_noteSpikes_of_ne fun r' mem => others r' (List.mem_cons_of_mem _ mem),
      findHistory_noteSpikes_of_ne (others r (List.mem_cons_self _ _))]

theorem pids_foldl_noteSpikes_subset : ∀ (records : List PredictionRecord) (st : MonitorState),
    (records.foldl (noteSpikes now) st).spikeHistory.entries.map (·.pid) ⊆
      records.map (·.pid) ++ st.spikeHistory.entries.map (·.pid)
  | [], _ => List.Subset.refl _
  | r :: records, st => fun x mem => by
    rcases List.mem_append.mp (pids_foldl_noteSpikes_subset records (noteSpikes now st r) mem) with listed | noted
    · exact List.mem_append_left _ (List.mem_cons_of_mem _ listed)
    · rcases List.mem_cons.mp (pids_noteSpikes_subset st r noted) with rfl | old
      · exact List.mem_append_left _ (List.mem_cons_self _ _)
      · exact List.mem_append_right _ old

theorem length_foldl_noteSpikes_le (records : List PredictionRecord) (st : MonitorState) :
    (records.foldl (noteSpikes now) st).spikeHistory.entries.length ≤
      records.length + st.spikeHistory.entries.length := by
  simpa using ((records.foldl (noteSpikes now) st).spikeHistory.distinct.subperm
    (pids_foldl_noteSpikes_subset records st)).length_le

theorem findProcess_foldl_noteSpikes (pid : Int) : ∀ (records : List PredictionRecord) (st : MonitorState),
    findProcess pid ((records.foldl (noteSpikes now) st).processes.take (records.foldl (noteSpikes now) st).processCount) =
      findProcess pid (st.processes.take st.processCount)
  | [], _ => rfl
  | _ :: records, _ => (findProcess_foldl_noteSpikes pid records _).trans (findProcess_noteSpikes pid)

end Fold

def SamplesBefore (pid n : Int) (t : SpikeTable) : Prop :=
  (∃ seen, findHistory pid t.entries = some ⟨pid, n, seen⟩) ∨
    n = 0 ∧ findHistory pid t.entries = none ∧ t.entries.length + 100 ≤ maxProcs

theorem foldl_noteSpikes_flagged {now n : Int} {pre post : List PredictionRecord} {r : PredictionRecord}
    {st : MonitorState} {j : Nat} (flagged : r.cpuFlag = '*' ∧ r.memFlag = '*' ∧ r.ioFlag = '*')
    (others : ∀ r' ∈ pre ++ post, r'.pid ≠ r.pid) (short : pre.length < 100)
    (found : findProcess r.pid (st.processes.take st.processCount) = some j)
    (before : SamplesBefore r.pid n st.spikeHistory) :
    let m := (pre ++ r :: post).foldl (noteSpikes now) st
    findHistory r.pid m.spikeHistory.entries = some ⟨r.pid, n + 3, now⟩ ∧
      (m.processes.getD j .zero).pid = r.pid ∧
      (m.processes.getD j .zero).spikeCount = if n + 3 < 5 then 0 else n + 3 := by
  intro m
  obtain ⟨cpu, mem, io⟩ := flagged
  let mid := pre.foldl (noteSpikes now) st
  have last : m = post.foldl (noteSpikes now) (noteSpikes now mid r) := by
    simp only [m, mid, List.foldl_append, List.foldl_cons]
  have kept : findHistory r.pid mid.spikeHistory.entries = findHistory r.pid st.spikeHistory.entries :=
    findHistory_foldl_noteSpikes_of_ne fun r' mem => others r' (List.mem_append_left _ mem)
  have found' : findProcess r.pid (mid.processes.take mid.processCount) = some j :=
    (findProcess_foldl_noteSpikes r.pid pre st).trans found
  obtain ⟨hist, count⟩ := @noteSpikes_found now mid r j found'
  have noted : findHistory r.pid (noteSpikes now mid r).spikeHistory.entries = some ⟨r.pid, n + 3, now⟩ := by
    simp only [hist, cpu, mem, io, decide_True]
    rcases before with ⟨seen, entry⟩ | ⟨rfl, absent, room⟩
    · exact findHistory_noteHistory_some (kept.trans entry)
    · have grown : mid.spikeHistory.entries.length ≤ pre.length + st.spikeHistory.entries.length :=
        length_foldl_noteSpikes_le pre st
      rw [findHistory_noteHistory_none (kept.trans absent) (by omega), zero_add]
  have later : ∀ r' ∈ post, r'.pid ≠ r.pid := fun r' mem => others r' (List.mem_append_right _ mem)
  have slot : ((noteSpikes now mid r).processes.getD j .zero).pid = r.pid :=
    congrArg HealthCheck.SpikeProc.pid (noteSpikes_spikeProc found')
  have unchanged : m.processes.getD j .zero = (noteSpikes now mid r).processes.getD j .zero := by
    rw [last]
    exact foldl_noteSpikes_getD post _ fun r' mem _ same => later r' mem (same.trans slot)
  have entry : findHistory r.pid m.spikeHistory.entries = some ⟨r.pid, n + 3, now⟩ := by
    rw [last]
    exact (findHistory_foldl_noteSpikes_of_ne later).trans noted
  refine ⟨entry, unchanged ▸ slot, ?_⟩
  rw [unchanged, count, isPersistentSpike_eq (noteSpikes now mid r).spikeHistory.distinct, noted]
  dsimp only
  rcases lt_or_le (n + 3) 5 with small | big
  · rw [if_neg fun recent => by omega, if_pos small]
  · rw [if_pos ⟨by rw [sub_self]; decide, big⟩, if_neg (by omega)]

theorem getD_mem_take {ps : List ProcessInfo} {i count : Nat} (below : i < count) (inList : i < ps.length) :
    ps.getD i .zero ∈ ps.take count := by
  rw [List.getD_eq_getElem _ _ inList]
  exact List.mem_iff_getElem.mpr ⟨i, by simp [below, inList], List.getElem_take _⟩

/-- A refresh that reads the views of a reachable store whose comms are words, with `pid`'s
signature among the first 100 and its three spike bits set. -/
def ListedSpiking (ioAccounting : Bool) (pid : Int) (r : Refresh) : Prop :=
  ∃ st : Store, Kernel.Reachable ioAccounting st ∧ (∀ sig ∈ st.signatures, sig.comm ≠ [] ∧ Solid sig.comm) ∧
    r.stats = some (statsShow st) ∧ r.predictions = some (predictionsShow st) ∧
    ∃ sig ∈ st.signatures.take 100, sig.pid = pid ∧ sig.flags &&& flagCpuSpikePredicted ≠ 0 ∧
      sig.flags &&& flagMemSpikePredicted ≠ 0 ∧ sig.flags &&& flagIoSpikePredicted ≠ 0

theorem records_split {sigs : List ProcSignature} (distinct : (sigs.map (·.pid)).Nodup) {sig : ProcSignature}
    (taken : sig ∈ sigs.take 100) :
    ∃ pre post, (sigs.take 100).map predictionRecord = pre ++ predictionRecord sig :: post ∧
      pre.length < 100 ∧ ∀ r ∈ pre ++ post, r.pid ≠ (predictionRecord sig).pid := by
  obtain ⟨pre, post, split⟩ := List.append_of_mem (List.mem_map_of_mem predictionRecord taken)
  have nodup : (((sigs.take 100).map predictionRecord).map (·.pid)).Nodup := by
    rw [List.map_map]
    exact distinct.sublist ((List.take_sublist _ _).map _)
  rw [split, List.map_append, List.map_cons, List.nodup_middle, List.nodup_cons, ← List.map_append] at nodup
  have length := congrArg List.length split
  simp only [List.length_map, List.length_take, List.length_append, List.length_cons] at length
  exact ⟨pre, post, split, by omega, fun r mem same => nodup.1 (List.mem_map.mpr ⟨r, mem, same⟩)⟩

theorem monitorStep_views {ioAccounting : Bool} {st : Store} (reachable : Kernel.Reachable ioAccounting st)
    (words : ∀ sig ∈ st.signatures, sig.comm ≠ [] ∧ Solid sig.comm) (prior : MonitorState) (now : Int) :
    monitorStep prior ⟨now, some (statsShow st), some (predictionsShow st)⟩ =
      cleanSpikeHistory now (((st.signatures.take 100).map predictionRecord).foldl (noteSpikes now)
        (readProcessStats (some (statsShow st)) prior).resetTotals) := by
  show cleanSpikeHistory now ((((readLines 1024 (predictionsShow st)).drop 4).filterMap parsePrediction).foldl
    (noteSpikes now) (readProcessStats (some (statsShow st)) prior).resetTotals) = _
  rw [decoded_predictionsShow reachable words (by decide)]

theorem monitorStep_listedSpiking {ioAccounting : Bool} {pid n : Int} {r : Refresh}
    (listed : ListedSpiking ioAccounting pid r) {prior : MonitorState}
    (before : SamplesBefore pid n prior.spikeHistory) :
    let m := monitorStep prior r
    findHistory pid m.spikeHistory.entries = some ⟨pid, n + 3, r.now⟩ ∧
      ∃ p ∈ m.processes.take m.processCount, p.pid = pid ∧
        p.spikeCount = if n + 3 < 5 then 0 else n + 3 := by
  obtain ⟨st, reachable, words, stats, predictions, sig, taken, rfl, cpu, mem, io⟩ := listed
  obtain ⟨now, _, _⟩ := r
  simp only at stats predictions
  subst stats predictions
  obtain ⟨k, hk, at_k⟩ := List.getElem_of_mem taken
  simp only [List.length_take, lt_min_iff, List.getElem_take] at hk at_k
  let s := readProcessStats (some (statsShow st)) prior
  have pids := pids_of_statsViews (readProcessStats_rows (statsShow_rows reachable.wellTyped) prior).2
  have found : findProcess sig.pid (s.resetTotals.processes.take s.resetTotals.processCount) = some k := by
    rw [MonitorState.resetTotals_processes, MonitorState.resetTotals_processCount, ← at_k]
    exact listed_found reachable.storeInv.pids_nodup pids hk.1 hk.2
  obtain ⟨pre, post, split, short, others⟩ := records_split reachable.storeInv.pids_nodup taken
  have flagged : (predictionRecord sig).cpuFlag = '*' ∧ (predictionRecord sig).memFlag = '*' ∧
      (predictionRecord sig).ioFlag = '*' := by
    simp only [predictionRecord, HealthCheck.flagChar_eq_star]
    exact ⟨cpu, mem, io⟩
  have before' : SamplesBefore (predictionRecord sig).pid n s.resetTotals.spikeHistory := by
    rw [MonitorState.resetTotals_spikeHistory, readProcessStats_spikeHistory]
    exact before
  obtain ⟨entry, slot, count⟩ := @foldl_noteSpikes_flagged now n pre post (predictionRecord sig) s.resetTotals k
    flagged others short found before'
  have counted := (@foldl_noteSpikes_stats now (pre ++ predictionRecord sig :: post) s.resetTotals).1
  have below := lt_of_lt_of_eq (findProcess_take_some found).1 counted.symm
  dsimp only
  rw [monitorStep_views reachable words, split]
  refine ⟨findHistory_clean entry (by simp), _, getD_mem_take below ?_, slot, count⟩
  rw [MonitorState.processes_length, maxProcs]
  omega

theorem loop_samples {ioAccounting : Bool} {pid : Int} {start final : MonitorState} {rs : List Refresh}
    (loop : MonitorLoop start rs final) (listed : ∀ r ∈ rs, ListedSpiking ioAccounting pid r) {n : Int}
    (before : SamplesBefore pid n start.spikeHistory) (nonempty : rs ≠ []) :
    findHistory pid final.spikeHistory.entries = some ⟨pid, n + 3 * rs.length, (rs.getLast nonempty).now⟩ ∧
      ∃ p ∈ final.processes.take final.processCount, p.pid = pid ∧
        p.spikeCount = if n + 3 * rs.length < 5 then 0 else n + 3 * rs.length := by
  induction loop generalizing n with
  | done => exact absurd rfl nonempty
  | @refresh st final r rs sorted sorting rest ih =>
    obtain ⟨entry, p, mem, same, count⟩ := monitorStep_listedSpiking (listed r (List.mem_cons_self _ _)) before
    cases rs with
    | nil =>
      cases rest
      exact ⟨by simpa using entry, p, sorting.mem_take mem, same, by simpa using count⟩
    | cons r' rs' =>
      have more := ih (fun r'' mem => listed r'' (List.mem_cons_of_mem _ mem)) (.inl ⟨r.now, entry⟩)
        (List.cons_ne_nil _ _)
      have samples : n + 3 + 3 * ((r' :: rs').length : Int) = n + 3 * ((r :: r' :: rs').length : Int) := by
        simp only [List.length_cons, Nat.cast_add, Nat.cast_one]
        ring
      rw [samples, ← List.getLast_cons (List.cons_ne_nil r' rs')] at more
      exact more

/-- Over every run of the main loop from a state without an entry for `pid` and with room in
the history, in which each refresh reads the views of a reachable store listing `pid` among its
first 100 signatures with all three spike bits: the entry of `pid` holds 3 samples a refresh,
seen at the last one, and the slot of `pid` shows no persistent spike after the first refresh
and all the samples from the second on, whatever the times of the refreshes. -/
theorem persistent_over_refreshes {ioAccounting : Bool} {pid : Int} {start final : MonitorState}
    {rs : List Refresh} (loop : MonitorLoop start rs final)
    (listed : ∀ r ∈ rs, ListedSpiking ioAccounting pid r)
    (fresh : findHistory pid start.spikeHistory.entries = none)
    (room : start.spikeHistory.entries.length + 100 ≤ maxProcs) (nonempty : rs ≠ []) :
    findHistory pid final.spikeHistory.entries = some ⟨pid, 3 * rs.length, (rs.getLast nonempty).now⟩ ∧
      ∃ p ∈ final.processes.take final.processCount, p.pid = pid ∧
        p.spikeCount = if rs.length < 2 then 0 else 3 * rs.length := by
  obtain ⟨entry, p, mem, same, count⟩ := loop_samples loop listed (.inr ⟨rfl, fresh, room⟩) nonempty
  refine ⟨by simpa using entry, p, mem, same, count.trans ?_⟩
  simp only [zero_add]
  split_ifs <;> omega

def stormTask : Task where
  pid := 1
  comm := ['a']
  kthread := false
  exitState := 0
  utime := 300
  stime := 0
  startTime := 0
  totalVm := some 1048576
  readBytes := 4194304
  writeBytes := 0

def stormStore : Store :=
  (runTicks true [⟨0, fun _ => true, [stormTask]⟩] Store.init).getD Store.init

theorem stormStore_spec : Kernel.Reachable true stormStore ∧
    ∃ sig, stormStore.signatures = [sig] ∧ sig.pid = 1 ∧ sig.comm = ['a'] ∧ sig.flags = 135 := by
  obtain ⟨st, run, signatures⟩ := @runTicks_single true 0 stormTask 30000 rfl rfl (by decide)
  have same : stormStore = st := by simp [stormStore, run]
  rw [same]
  exact ⟨⟨_, run⟩, _, signatures, rfl, rfl, by decide⟩

def stormRefresh (now : Int) : Refresh := ⟨now, some (statsShow stormStore), some (predictionsShow stormStore)⟩

theorem stormRefresh_listed (now : Int) : ListedSpiking true 1 (stormRefresh now) := by
  obtain ⟨reachable, sig, signatures, pid, comm, flags⟩ := stormStore_spec
  refine ⟨stormStore, reachable, ?_, rfl, rfl, sig, by simp [signatures], pid, ?_⟩
  · simp only [signatures, List.mem_singleton, forall_eq, comm]
    decide
  · rw [flags]
    decide

theorem storm_persistent_at_second_refresh : ∃ final,
    MonitorLoop MonitorState.init [stormRefresh 0, stormRefresh 1] final ∧
      findHistory 1 final.spikeHistory.entries = some ⟨1, 6, 1⟩ ∧
      ∃ p ∈ final.processes.take final.processCount, p.pid = 1 ∧ p.spikeCount = 6 := by
  obtain ⟨final, loop⟩ := MonitorLoop.exists MonitorState.init [stormRefresh 0, stormRefresh 1]
  have listed : ∀ r ∈ [stormRefresh 0, stormRefresh 1], ListedSpiking true 1 r := by
    simp only [List.mem_cons, List.mem_singleton, List.not_mem_nil, or_false]
    rintro r (rfl | rfl) <;> exact stormRefresh_listed _
  obtain ⟨entry, p, mem, same, count⟩ :=
    persistent_over_refreshes loop listed rfl (by decide) (List.cons_ne_nil _ _)
  exact ⟨final, loop, entry, p, mem, same, count⟩

end Monitor

end SmartScheduler

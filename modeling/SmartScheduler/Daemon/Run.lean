import SmartScheduler.Daemon.Table

/-!
# Runs of the daemon

`runSteps` folds a step over its inputs: the events of one `process_predictions` call, or
the passes of the main loop. An invariant of the state and of the calls issued so far, kept
by one step, holds over every run (`runSteps_trace`, after `run_safe` of a pure controller),
and one pass of the main loop keeps whatever its events keep, since
`check_persistent_spikes` leaves the table alone (`loopPass_trace`).
-/

namespace SmartScheduler.Daemon

section Lift

variable {σ α : Type} (f : σ → α → σ × List Issued)

theorem runSteps_preserves (P : σ → Prop) (preserves : ∀ s x, P s → P (f s x).1) :
    ∀ (xs : List α) (s : σ), P s → P (runSteps f s xs).1
  | [], _, h => h
  | x :: xs, s, h => runSteps_preserves P preserves xs _ (preserves s x h)

theorem runSteps_history (P : List α → σ → Prop) (preserves : ∀ seen s x, P seen s → P (seen ++ [x]) (f s x).1) :
    ∀ (xs : List α) (seen : List α) (s : σ), P seen s → P (seen ++ xs) (runSteps f s xs).1
  | [], seen, _, h => by simpa using h
  | x :: xs, seen, s, h => by
    simpa using runSteps_history P preserves xs (seen ++ [x]) _ (preserves seen s x h)

theorem runSteps_append (s : σ) (xs ys : List α) :
    (runSteps f s (xs ++ ys)).1 = (runSteps f (runSteps f s xs).1 ys).1 := by
  induction xs generalizing s with
  | nil => rfl
  | cons x xs ih => exact ih _

theorem runSteps_calls_nil (quiet : ∀ s x, (f s x).2 = []) :
    ∀ (xs : List α) (s : σ), (runSteps f s xs).2 = []
  | [], _ => rfl
  | x :: xs, s => by simp [runSteps, quiet, runSteps_calls_nil quiet xs]

theorem runSteps_trace (Inv : σ → List Issued → Prop) (Allowed : List Issued → Issued → Prop)
    (preserves : ∀ s trace x, Inv s trace → Inv (f s x).1 (trace ++ (f s x).2))
    (emits : ∀ s trace x, Inv s trace →
      ∀ before a after, (f s x).2 = before ++ a :: after → Allowed (trace ++ before) a) :
    ∀ (xs : List α) (s : σ) (trace : List Issued), Inv s trace →
      Inv (runSteps f s xs).1 (trace ++ (runSteps f s xs).2) ∧
      ∀ before a after, (runSteps f s xs).2 = before ++ a :: after → Allowed (trace ++ before) a
  | [], s, trace, h => ⟨by simpa [runSteps] using h, fun before a after eq => by
      simp [runSteps] at eq⟩
  | x :: xs, s, trace, h => by
    obtain ⟨last, later⟩ :=
      runSteps_trace Inv Allowed preserves emits xs _ _ (preserves s trace x h)
    refine ⟨by simpa [runSteps] using last, fun before a after eq => ?_⟩
    simp only [runSteps] at eq
    rcases List.append_eq_append_iff.mp eq with ⟨mid, rfl, rest⟩ | ⟨mid, first, tail⟩
    · simpa using later mid a after rest
    · cases mid with
      | nil =>
        simp only [List.append_nil, List.nil_append] at first tail
        subst first
        simpa using later [] a after tail.symm
      | cons b mid =>
        simp only [List.cons_append, List.cons.injEq] at tail
        obtain ⟨rfl, rfl⟩ := tail
        exact emits s trace x h before a mid first

end Lift

theorem checkPersistentSpikes_tracked (now : Int) (d : DaemonState) :
    (checkPersistentSpikes now d).1.tracked = d.tracked := by
  unfold checkPersistentSpikes; split <;> rfl

section Steps

variable {dryRun : Bool} {d : DaemonState}

theorem handleSpike_tableInv {created : TrackedProcess → TrackedProcess} {bit : Nat}
    {respond : TrackedProcess → Stats → TrackedProcess × Stats × List Issued} {now pid : Int}
    {comm : List Char} (inv : TableInv d.tracked) (created_pid : ∀ p, (created p).pid = p.pid)
    (respond_pid : ∀ p stats, (respond p stats).1.pid = p.pid) :
    TableInv (handleSpike created bit respond now pid comm d).1.tracked := by
  rcases handleSpike_cases inv created_pid respond_pid with
    ⟨-, -, eq⟩ | ⟨p, after, -, -, replaces, eq⟩ <;> rw [eq]
  · exact inv
  · exact replaces.inv

theorem handleSpike_found {created : TrackedProcess → TrackedProcess} {bit : Nat}
    {respond : TrackedProcess → Stats → TrackedProcess × Stats × List Issued} {now pid : Int}
    {comm : List Char} {i : Nat} {p : TrackedProcess} (found : findTracked pid d.tracked = some (i, p)) :
    (handleSpike created bit respond now pid comm d).1.tracked =
      d.tracked.set i (respond (noteSpike bit now p) d.stats).1 := by
  simp [handleSpike, locate, found]

theorem step_tableInv (event : Event) (inv : TableInv d.tracked) :
    TableInv (step dryRun d event).1.tracked := by
  cases event with
  | spike c pid comm io =>
    cases c
    · exact handleSpike_tableInv inv (fun _ => rfl) fun p stats =>
        (cpuResponse_keeps dryRun io pid p stats).1
    · exact handleSpike_tableInv inv (fun _ => rfl) fun p stats => by
        rw [memResponse_keeps]
    · exact handleSpike_tableInv inv (fun _ => rfl) fun p stats =>
        (ioResponse_keeps dryRun io pid p stats).1
  | restore now ok => exact restorePriorities_tableInv inv

theorem handleSpike_calls_nil {created : TrackedProcess → TrackedProcess} {bit : Nat}
    {respond : TrackedProcess → Stats → TrackedProcess × Stats × List Issued} {now pid : Int}
    {comm : List Char} (quiet : ∀ p stats, (respond p stats).2.2 = []) :
    (handleSpike created bit respond now pid comm d).2 = [] := by
  unfold handleSpike; split
  · rfl
  · exact quiet _ _

theorem restoreAll_dryRun (now : Int) :
    ∀ (ok : Nat → Bool) (tracked : List TrackedProcess), (restoreAll true now ok tracked).2.2 = []
  | _, [] => rfl
  | ok, p :: ps => by
    have first : (restoreOne true now (ok 0) p).2.2 = [] := by
      simp only [restoreOne, setNice]; split_ifs <;> rfl
    simp [restoreAll, first, restoreAll_dryRun now _ ps]

theorem step_dryRun (d : DaemonState) (event : Event) : (step true d event).2 = [] := by
  cases event with
  | spike c pid comm io =>
    cases c <;> refine handleSpike_calls_nil fun p stats => ?_
    · simp only [cpuResponse, setNice]; split_ifs <;> rfl
    · simp only [memResponse]; split_ifs <;> simp_all
    · simp only [ioResponse, setIoPriority]; split_ifs <;> rfl
  | restore now ok => exact restoreAll_dryRun now ok d.tracked

theorem runLoop_dryRun (d : DaemonState) (inputs : List LoopInput) :
    (runLoop true d inputs).2 = [] := by
  refine runSteps_calls_nil _ (fun d input => ?_) inputs d
  show (processPredictions true input.records _ _ _ d).2 = []
  unfold processPredictions; split
  · rfl
  · exact runSteps_calls_nil _ step_dryRun _ _

theorem loopPass_preserves (P : List TrackedProcess → Prop)
    (preserves : ∀ d event, P d.tracked → P (step dryRun d event).1.tracked)
    (input : LoopInput) (h : P d.tracked) : P (loopPass dryRun d input).1.tracked := by
  show P (checkPersistentSpikes _ _).1.tracked
  rw [checkPersistentSpikes_tracked]
  unfold processPredictions; split
  · exact h
  · exact runSteps_preserves _ (fun d : DaemonState => P d.tracked) (fun d e h => preserves d e h) _ d h

theorem loopPass_trace (Inv : DaemonState → List Issued → Prop)
    (Allowed : List Issued → Issued → Prop)
    (tableOnly : ∀ d d' trace, d'.tracked = d.tracked → Inv d trace → Inv d' trace)
    (preserves : ∀ d trace event, Inv d trace →
      Inv (step dryRun d event).1 (trace ++ (step dryRun d event).2))
    (emits : ∀ d trace event, Inv d trace → ∀ before a after,
      (step dryRun d event).2 = before ++ a :: after → Allowed (trace ++ before) a) :
    (∀ d trace input, Inv d trace →
      Inv (loopPass dryRun d input).1 (trace ++ (loopPass dryRun d input).2)) ∧
    (∀ d trace input, Inv d trace → ∀ before a after,
      (loopPass dryRun d input).2 = before ++ a :: after → Allowed (trace ++ before) a) := by
  have processed : ∀ d trace (input : LoopInput), Inv d trace →
      let r := processPredictions dryRun input.records input.answers input.restoreNow
        input.restoreOk d
      Inv r.1 (trace ++ r.2) ∧
      ∀ before a after, r.2 = before ++ a :: after → Allowed (trace ++ before) a := by
    intro d trace input h
    unfold processPredictions; split
    · exact ⟨by simpa using h, fun before a after eq => by simp at eq⟩
    · exact runSteps_trace _ Inv Allowed preserves emits _ d trace h
  refine ⟨fun d trace input h => ?_, fun d trace input h => (processed d trace input h).2⟩
  exact tableOnly _ _ _ (checkPersistentSpikes_tracked _ _) (processed d trace input h).1

end Steps

def Reachable (dryRun : Bool) (d : DaemonState) : Prop :=
  ∃ startTime inputs, (runLoop dryRun (DaemonState.init startTime) inputs).1 = d

theorem Reachable.tracked {dryRun : Bool} {d : DaemonState} {P : List TrackedProcess → Prop}
    (reachable : Reachable dryRun d) (init : P [])
    (preserves : ∀ d event, P d.tracked → P (step dryRun d event).1.tracked) : P d.tracked := by
  obtain ⟨startTime, inputs, rfl⟩ := reachable
  exact runSteps_preserves _ (fun d : DaemonState => P d.tracked)
    (fun d input h => loopPass_preserves P preserves input h) inputs _ init

/-- Over every run of the daemon, in or out of dry-run mode, the table holds at most
`MAX_TRACKED` records with pairwise distinct pids. So the record `find_tracked` returns is
the only one of its pid, and a CPU, MEM or I/O spike of a tracked pid rewrites that record in
place, leaving every other entry as it was. -/
theorem tracked_table_unique {dryRun : Bool} {d : DaemonState} (reachable : Reachable dryRun d) :
    (d.tracked.map TrackedProcess.pid).Nodup ∧ d.tracked.length ≤ maxTracked ∧
    (∀ pid i p, findTracked pid d.tracked = some (i, p) → ∀ q ∈ d.tracked, q.pid = pid → q = p) ∧
    ∀ c pid comm io i p, findTracked pid d.tracked = some (i, p) →
      ∃ q : TrackedProcess, q.pid = pid ∧
        (step dryRun d (.spike c pid comm io)).1.tracked = d.tracked.set i q := by
  have inv := reachable.tracked (P := TableInv) tableInv_nil fun d event h => step_tableInv event h
  refine ⟨inv.nodup, inv.bounded, fun pid i p found q hq same => ?_,
    fun c pid comm io i p found => ?_⟩
  · obtain ⟨at_i, rfl⟩ := findTracked_some found
    exact inv.eq_of_pid hq (List.mem_iff_getElem?.mpr ⟨i, at_i⟩) same
  · obtain ⟨-, rfl⟩ := findTracked_some found
    cases c
    · exact ⟨_, (cpuResponse_keeps dryRun io p.pid (noteSpike spikeCpu io.now p) d.stats).1,
        handleSpike_found found⟩
    · exact ⟨_, by rw [memResponse_keeps]; rfl, handleSpike_found found⟩
    · exact ⟨_, (ioResponse_keeps dryRun io p.pid (noteSpike spikeIo io.now p) d.stats).1,
        handleSpike_found found⟩

def allSpikesPass : LoopInput :=
  ⟨some [⟨1, ['a'], '*', '*', '*'⟩], fun _ => ⟨⟨0, some 0, true⟩, ⟨0, some 0, true⟩, ⟨0, some 0, true⟩⟩,
   0, fun _ => true, 0⟩

theorem all_spikes_share_one_record :
    Reachable false (runLoop false (DaemonState.init 0) [allSpikesPass]).1 ∧
    (runLoop false (DaemonState.init 0) [allSpikesPass]).1.tracked.map TrackedProcess.pid = [1] ∧
    ((runLoop false (DaemonState.init 0) [allSpikesPass]).1.tracked.map TrackedProcess.pid).Nodup ∧
    (runLoop false (DaemonState.init 0) [allSpikesPass]).1.tracked.length ≤ maxTracked ∧
    (∀ pid i p, findTracked pid (runLoop false (DaemonState.init 0) [allSpikesPass]).1.tracked =
      some (i, p) → ∀ q ∈ (runLoop false (DaemonState.init 0) [allSpikesPass]).1.tracked,
        q.pid = pid → q = p) ∧
    ∀ c pid comm io i p,
      findTracked pid (runLoop false (DaemonState.init 0) [allSpikesPass]).1.tracked = some (i, p) →
      ∃ q : TrackedProcess, q.pid = pid ∧
        (step false (runLoop false (DaemonState.init 0) [allSpikesPass]).1
          (.spike c pid comm io)).1.tracked =
          (runLoop false (DaemonState.init 0) [allSpikesPass]).1.tracked.set i q :=
  have reachable : Reachable false (runLoop false (DaemonState.init 0) [allSpikesPass]).1 :=
    ⟨0, [allSpikesPass], rfl⟩
  ⟨reachable, by decide, tracked_table_unique reachable⟩

end SmartScheduler.Daemon

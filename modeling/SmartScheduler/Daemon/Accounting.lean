import SmartScheduler.Daemon.Cooldown
import SmartScheduler.Daemon.Escalation

/-!
# Action accounting

The CPU and I/O handlers count an action only when their call reports `ACTION_SUCCESS`: a
failed call leaves the record and the statistics as they were (`cpuResponse_failed`,
`ioResponse_failed`). Outside dry-run mode, every record's `action_count` is therefore the
number of successful CPU and I/O calls on its pid over the whole run
(`actionCount_counts_actions`).

The MEM handler is accounted differently. At `HARD` and above it counts `mem_actions` and
`persistent_spikes` before it writes `oom_score_adj`, and it ignores the result of
`system()`; it never touches `action_count`. In dry-run mode `set_nice` reports success with
no call, so a CPU boost is counted that nothing carried out (`accounting_ignores_call_results`).
-/

namespace SmartScheduler.Daemon

instance (c : Category) (pid : Int) (a : Issued) : Decidable (a.ActionOn c pid) :=
  inferInstanceAs (Decidable (a.origin = .handler c ∧ a.call.pid = pid ∧ a.ok = true))

instance (pid : Int) (a : Issued) : Decidable (a.Throttled pid) :=
  inferInstanceAs (Decidable (a.ActionOn .cpu pid ∨ a.ActionOn .io pid))

def actionsOn (pid : Int) (calls : List Issued) : Int :=
  (calls.countP fun a => decide (a.Throttled pid) : Nat)

section Counting

variable {pid : Int} {calls : List Issued}

@[simp] theorem actionsOn_nil : actionsOn pid [] = 0 := rfl

theorem actionsOn_append (xs ys : List Issued) :
    actionsOn pid (xs ++ ys) = actionsOn pid xs + actionsOn pid ys := by
  simp [actionsOn, List.countP_append]

theorem actionsOn_eq_zero (none : ∀ a ∈ calls, ¬ a.Throttled pid) : actionsOn pid calls = 0 := by
  simpa [actionsOn, List.countP_eq_zero] using none

theorem actionsOn_of_ne (others : ∀ a ∈ calls, a.call.pid ≠ pid) : actionsOn pid calls = 0 :=
  actionsOn_eq_zero fun a ha throttled => others a ha (throttled.elim (·.2.1) (·.2.1))

theorem actionsOn_of_origin (origin : ∀ a ∈ calls, a.origin ≠ .handler .cpu ∧ a.origin ≠ .handler .io) :
    actionsOn pid calls = 0 :=
  actionsOn_eq_zero fun a ha throttled =>
    throttled.elim (fun h => (origin a ha).1 h.1) (fun h => (origin a ha).2 h.1)

end Counting

section Responses

variable (dryRun : Bool) (io : Io) (pid : Int) (p : TrackedProcess) (stats : Stats)

theorem SinkResult.ok_of_failed {origin : Origin} {now pid : Int} {result : Bool × List Issued}
    (sink : SinkResult origin now pid result) {a : Issued} (ha : a ∈ result.2)
    (notOk : a.ok = false) : result.1 = false :=
  (sink.calls a ha).2.2.2.symm.trans notOk

theorem SinkResult.response_failed {origin : Origin} {now pid : Int} {result : Bool × List Issued}
    (sink : SinkResult origin now pid result) {p p' : TrackedProcess} {stats s' : Stats}
    {a : Issued} (ha : a ∈ (if result.1 then (p', s', result.2) else (p, stats, result.2)).2.2)
    (notOk : a.ok = false) :
    (if result.1 then (p', s', result.2) else (p, stats, result.2)).1 = p ∧
      (if result.1 then (p', s', result.2) else (p, stats, result.2)).2.1 = stats := by
  have called : a ∈ result.2 := by split at ha <;> exact ha
  rw [if_neg (by simp [sink.ok_of_failed called notOk])]
  exact ⟨rfl, rfl⟩

theorem cpuResponse_failed (failed : ∃ a ∈ (cpuResponse dryRun io pid p stats).2.2, a.ok = false) :
    (cpuResponse dryRun io pid p stats).1 = p ∧ (cpuResponse dryRun io pid p stats).2.1 = stats := by
  obtain ⟨a, ha, notOk⟩ := failed
  unfold cpuResponse at ha ⊢
  by_cases advisory : getEscalationLevel p = .advisory
  · simp [advisory] at ha
  by_cases cooling : p.adjusted ∧ io.now - p.adjustedTime < (spikeConfigs .cpu).cooldownSecs
  · simp only [advisory, cooling, if_false, if_true]; exact ⟨rfl, rfl⟩
  simp only [advisory, cooling, if_false] at ha ⊢
  exact (setNice_result ..).response_failed ha notOk

theorem ioResponse_failed (failed : ∃ a ∈ (ioResponse dryRun io pid p stats).2.2, a.ok = false) :
    (ioResponse dryRun io pid p stats).1 = p ∧ (ioResponse dryRun io pid p stats).2.1 = stats := by
  obtain ⟨a, ha, notOk⟩ := failed
  unfold ioResponse at ha ⊢
  by_cases advisory : getEscalationLevel p = .advisory
  · simp [advisory] at ha
  by_cases cooling : p.adjusted ∧ io.now - p.adjustedTime < (spikeConfigs .io).cooldownSecs
  · simp only [advisory, cooling, if_false, if_true]; exact ⟨rfl, rfl⟩
  simp only [advisory, cooling, if_false] at ha ⊢
  exact (setIoPriority_result ..).response_failed ha notOk

theorem cpuResponse_counts :
    (cpuResponse false io pid p stats).1.actionCount =
      p.actionCount + actionsOn pid (cpuResponse false io pid p stats).2.2 := by
  unfold cpuResponse
  by_cases advisory : getEscalationLevel p = .advisory
  · simp [advisory]
  by_cases cooling : p.adjusted ∧ io.now - p.adjustedTime < (spikeConfigs .cpu).cooldownSecs
  · simp [advisory, cooling]
  cases ok : io.ok <;>
    simp [advisory, cooling, setNice, ok, actionsOn, Issued.Throttled, Issued.ActionOn, SinkCall.pid]

theorem ioResponse_counts :
    (ioResponse false io pid p stats).1.actionCount =
      p.actionCount + actionsOn pid (ioResponse false io pid p stats).2.2 := by
  unfold ioResponse
  by_cases advisory : getEscalationLevel p = .advisory
  · simp [advisory]
  by_cases cooling : p.adjusted ∧ io.now - p.adjustedTime < (spikeConfigs .io).cooldownSecs
  · simp [advisory, cooling]
  cases ok : io.ok <;>
    simp [advisory, cooling, setIoPriority, ok, actionsOn, Issued.Throttled, Issued.ActionOn,
      SinkCall.pid]

theorem memResponse_counts :
    (memResponse dryRun io pid p stats).1.actionCount =
      p.actionCount + actionsOn pid (memResponse dryRun io pid p stats).2.2 := by
  rw [memResponse_keeps, actionsOn_of_origin, Int.add_zero]
  intro a ha
  rw [((memResponse_throttles dryRun io pid p stats).calls a ha).1]
  exact ⟨by decide, by decide⟩

end Responses

theorem restoreOne_actionCount (dryRun : Bool) (now : Int) (b : Bool) (p : TrackedProcess) :
    (restoreOne dryRun now b p).1.actionCount = p.actionCount := by
  simp only [restoreOne]; split_ifs <;> rfl

/-- Every record's `action_count` is the number of successful CPU and I/O calls on its pid in
the trace, and no call on an untracked pid was one. -/
structure ActionInv (d : DaemonState) (trace : List Issued) : Prop where
  table : TableInv d.tracked
  counted : ∀ p ∈ d.tracked, p.actionCount = actionsOn p.pid trace
  untracked : ∀ pid, (∀ p ∈ d.tracked, p.pid ≠ pid) → actionsOn pid trace = 0

section Handler

variable {c : Category} {io : Io} {pid : Int} {comm : List Char}
  {created : TrackedProcess → TrackedProcess} {bit : Nat}
  {respond : TrackedProcess → Stats → TrackedProcess × Stats × List Issued}
  {d : DaemonState} {trace : List Issued}

theorem handleSpike_actionInv (inv : ActionInv d trace)
    (created_pid : ∀ p, (created p).pid = p.pid)
    (created_count : ∀ p, (created p).actionCount = p.actionCount)
    (respond_pid : ∀ p stats, (respond p stats).1.pid = p.pid)
    (throttles : ∀ p stats, Throttles c io pid p (respond p stats))
    (counts : ∀ p stats,
      (respond p stats).1.actionCount = p.actionCount + actionsOn pid (respond p stats).2.2) :
    let r := handleSpike created bit respond io.now pid comm d
    ActionInv r.1 (trace ++ r.2) := by
  rcases @handleSpike_cases pid io.now comm created bit respond d inv.table created_pid respond_pid
    with ⟨-, -, eq⟩ | ⟨p, after, origin, rfl, replaces, eq⟩
  · simpa only [eq, List.append_nil] using inv
  simp only [eq]
  set r := respond (noteSpike bit io.now p) d.stats with hr
  have r_pid : r.1.pid = p.pid := by rw [hr, respond_pid]; rfl
  have on_pid : ∀ a ∈ r.2.2, a.call.pid = p.pid := fun a ha => ((throttles _ _).calls a ha).2.1
  -- the count of the record the handler acted on, before it acted
  have before : p.actionCount = actionsOn p.pid trace := by
    rcases origin with old | ⟨fresh, p₀, added, rfl⟩
    · exact inv.counted p old
    · rw [created_count, inv.untracked _ fresh, (addTracked_eq_some.mp added).2]
  have others : ∀ q, q ≠ p.pid → actionsOn q (trace ++ r.2.2) = actionsOn q trace := fun q ne => by
    rw [actionsOn_append, actionsOn_of_ne fun a ha same => ne (same.symm.trans (on_pid a ha)), Int.add_zero]
  refine ⟨replaces.inv, fun y hy => ?_, fun q untracked => ?_⟩
  · rcases (replaces.mem y).mp hy with ⟨old, ne⟩ | rfl
    · rw [others _ (r_pid ▸ ne), inv.counted y old]
    · rw [counts, r_pid, actionsOn_append, ← before]; rfl
  · have ne : q ≠ p.pid := fun same => untracked r.1 ((replaces.mem _).mpr (.inr rfl)) (r_pid.trans same.symm)
    rw [others q ne, inv.untracked q fun x hx same => ?_]
    by_cases mine : x.pid = p.pid
    · exact ne (same ▸ mine)
    · exact untracked x ((replaces.mem x).mpr (.inl ⟨hx, r_pid ▸ mine⟩)) same

end Handler

theorem restorePriorities_actionInv {dryRun : Bool} {now : Int} {ok : Nat → Bool} {d : DaemonState}
    {trace : List Issued} (inv : ActionInv d trace) :
    let r := restorePriorities dryRun now ok d
    ActionInv r.1 (trace ++ r.2) := by
  have restoring : ∀ q, actionsOn q (restorePriorities dryRun now ok d).2 = 0 := fun q =>
    actionsOn_of_origin fun a ha => by
      obtain ⟨p, -, b, hb⟩ := restoreAll_calls ok ha
      simp only [restoreOne, setNice] at hb
      split_ifs at hb <;> simp_all
  refine ⟨restorePriorities_tableInv inv.table, fun y hy => ?_, fun q untracked => ?_⟩
  · obtain ⟨p, hp, i, rfl, -⟩ := restoreAll_mem ok hy
    rw [actionsOn_append, restoring, Int.add_zero, restoreOne_actionCount,
      (restoreOne_keeps dryRun now _ p).1, inv.counted p hp]
  · rw [actionsOn_append, restoring, Int.add_zero]
    refine inv.untracked q fun x hx same => ?_
    obtain ⟨i, mem, -⟩ := @restoreAll_of_mem now d.tracked dryRun ok x hx
    exact untracked _ mem ((restoreOne_keeps dryRun now _ x).1.trans same)

theorem step_actionInv {d : DaemonState} {trace : List Issued} (event : Event)
    (inv : ActionInv d trace) : ActionInv (step false d event).1 (trace ++ (step false d event).2) := by
  cases event with
  | spike c pid comm io =>
    cases c
    · exact handleSpike_actionInv inv (fun _ => rfl) (fun _ => rfl)
        (fun p stats => (cpuResponse_keeps false io pid p stats).1) (cpuResponse_throttles false io pid)
        (cpuResponse_counts io pid)
    · exact handleSpike_actionInv inv (fun _ => rfl) (fun _ => rfl)
        (fun p stats => by rw [memResponse_keeps]) (memResponse_throttles false io pid)
        (memResponse_counts false io pid)
    · exact handleSpike_actionInv inv (fun _ => rfl) (fun _ => rfl)
        (fun p stats => (ioResponse_keeps false io pid p stats).1) (ioResponse_throttles false io pid)
        (ioResponse_counts io pid)
  | restore now ok => exact restorePriorities_actionInv inv

/-- Outside dry-run mode, over every run of the daemon, each tracked process's
`action_count` is the number of successful CPU and I/O calls on its pid. -/
theorem actionCount_counts_actions (startTime : Int) (inputs : List LoopInput) :
    ∀ p ∈ (runLoop false (DaemonState.init startTime) inputs).1.tracked,
      p.actionCount = actionsOn p.pid (runLoop false (DaemonState.init startTime) inputs).2 := by
  have lifted := loopPass_trace ActionInv (fun _ _ => True)
    (fun d d' trace same inv => ⟨same ▸ inv.table, same ▸ inv.counted, same ▸ inv.untracked⟩)
    (fun _ _ event inv => step_actionInv event inv) (fun _ _ _ _ _ _ _ _ => trivial)
  have init : ActionInv (DaemonState.init startTime) [] :=
    ⟨tableInv_nil, (fun _ h => nomatch h), fun _ _ => rfl⟩
  simpa using (runSteps_trace _ ActionInv (fun _ _ => True) lifted.1 lifted.2 inputs _ [] init).1.counted

theorem two_boosts_counted :
    let inputs := [cpuSpikePass 0 true, cpuSpikePass 0 true, cpuSpikePass 0 true, cpuSpikePass 10 true]
    (runLoop false (DaemonState.init 0) inputs).1.tracked.map (fun p => (p.pid, p.actionCount)) =
        [(1, 2)] ∧
      ∀ p ∈ (runLoop false (DaemonState.init 0) inputs).1.tracked,
        p.actionCount = actionsOn p.pid (runLoop false (DaemonState.init 0) inputs).2 :=
  ⟨rfl, actionCount_counts_actions 0 _⟩

def failingMemPass : LoopInput :=
  { memPass 0 true with answers := fun _ => ⟨⟨0, some 0, false⟩, ⟨0, some 0, false⟩, ⟨0, some 0, false⟩⟩ }

set_option maxRecDepth 8000 in
/-- Ten MEM spikes of pid 1 and an eleventh whose `oom_score_adj` write fails: the failed
call still raises `mem_actions` from 5 to 6. Eleven spikes whose write succeeds leave
`action_count` at 0. In dry-run mode three CPU spikes make no call and count one action. -/
theorem accounting_ignores_call_results :
    (runLoop false (DaemonState.init 0) (List.replicate 10 (memPass 0 true) ++ [failingMemPass])).2 =
        [⟨.handler .mem, 0, .oomScoreAdj 1 500, false⟩] ∧
      (runLoop false (DaemonState.init 0) (List.replicate 10 (memPass 0 true))).1.stats.memActions = 5 ∧
      (runLoop false (DaemonState.init 0)
        (List.replicate 10 (memPass 0 true) ++ [failingMemPass])).1.stats.memActions = 6 ∧
    (runLoop false (DaemonState.init 0) (List.replicate 11 (memPass 0 true))).2 =
        [⟨.handler .mem, 0, .oomScoreAdj 1 500, true⟩] ∧
      (runLoop false (DaemonState.init 0) (List.replicate 11 (memPass 0 true))).1.tracked.map
        TrackedProcess.actionCount = [0] ∧
    (runLoop true (DaemonState.init 0) (List.replicate 3 (cpuSpikePass 0 true))).2 = [] ∧
      (runLoop true (DaemonState.init 0) (List.replicate 3 (cpuSpikePass 0 true))).1.tracked.map
        TrackedProcess.actionCount = [1] := by
  refine ⟨?_, ?_, ?_, ?_, ?_, ?_, ?_⟩ <;> decide

end SmartScheduler.Daemon

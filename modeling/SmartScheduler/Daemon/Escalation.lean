import SmartScheduler.Daemon.Cooldown

/-!
# Escalation

`get_escalation_level` is a monotone function of `spike_samples`, but the stored
`escalation` is written only by a successful CPU boost (the level it applied) and by
restoration. What holds of every reachable record is `EscalationOk`: a set escalation is at
least `SOFT`, no higher than the spike count implies, and set only while the process is
adjusted (`reachable_escalationOk`). So at the end of a pass whose restorations all
succeed, every process quiet for more than 5 s is unadjusted with escalation `NONE`
(`quiet_processes_end_unadjusted`); its `spike_samples` is reset only if it had been
adjusted, so a process the daemon never adjusted keeps counting spikes across quiet gaps
(`sparse_mem_spikes_reach_oom`), and a process whose spikes never led to a CPU boost keeps
escalation `NONE` whatever its count (`mem_spikes_leave_escalation_none`).
-/

namespace SmartScheduler.Daemon

theorem EscalationLevel.le_def {a b : EscalationLevel} : a ≤ b ↔ a.toNat ≤ b.toNat := Iff.rfl

theorem getEscalationLevel_mono {p q : TrackedProcess} (le : p.spikeSamples ≤ q.spikeSamples) :
    getEscalationLevel p ≤ getEscalationLevel q := by
  simp only [getEscalationLevel, EscalationLevel.le_def]
  split_ifs <;> simp only [EscalationLevel.toNat] <;> omega

theorem soft_le_getEscalationLevel {p : TrackedProcess}
    (notAdvisory : getEscalationLevel p ≠ .advisory) : .soft ≤ getEscalationLevel p := by
  simp only [getEscalationLevel, EscalationLevel.le_def] at notAdvisory ⊢
  split_ifs at notAdvisory ⊢ <;> simp_all [EscalationLevel.toNat]

def EscalationOk (p : TrackedProcess) : Prop :=
  p.escalation ≠ .none →
    p.adjusted = true ∧ .soft ≤ p.escalation ∧ p.escalation ≤ getEscalationLevel p

section Records

variable {p : TrackedProcess}

theorem EscalationOk.of_none (none : p.escalation = .none) : EscalationOk p :=
  fun set => absurd none set

theorem EscalationOk.noteSpike (ok : EscalationOk p) (bit : Nat) (now : Int) :
    EscalationOk (noteSpike bit now p) := fun set =>
  let ⟨adjusted, soft, le⟩ := ok set
  ⟨adjusted, soft,
    Nat.le_trans le (getEscalationLevel_mono (show p.spikeSamples ≤ p.spikeSamples + 1 by omega))⟩

theorem EscalationOk.after_cpuResponse (ok : EscalationOk p) (dryRun : Bool) (io : Io) (pid : Int)
    (stats : Stats) : EscalationOk (cpuResponse dryRun io pid p stats).1 := by
  simp only [cpuResponse]
  split_ifs with advisory <;> try exact ok
  all_goals exact fun _ => ⟨rfl, soft_le_getEscalationLevel advisory, Nat.le_refl _⟩

theorem EscalationOk.after_ioResponse (ok : EscalationOk p) (dryRun : Bool) (io : Io) (pid : Int)
    (stats : Stats) : EscalationOk (ioResponse dryRun io pid p stats).1 := by
  simp only [ioResponse]
  split_ifs <;> try exact ok
  all_goals exact fun set => ⟨rfl, (ok set).2⟩

theorem EscalationOk.after_restoreOne (ok : EscalationOk p) (dryRun : Bool) (now : Int) (b : Bool) :
    EscalationOk (restoreOne dryRun now b p).1 := by
  simp only [restoreOne]
  split_ifs <;> first | exact ok | exact EscalationOk.of_none rfl

end Records

theorem handleSpike_escalationOk {d : DaemonState} {created : TrackedProcess → TrackedProcess}
    {bit : Nat} {respond : TrackedProcess → Stats → TrackedProcess × Stats × List Issued}
    {now pid : Int} {comm : List Char} (table : TableInv d.tracked)
    (ok : ∀ p ∈ d.tracked, EscalationOk p)
    (created_pid : ∀ p, (created p).pid = p.pid)
    (created_escalation : ∀ p, (created p).escalation = p.escalation)
    (respond_pid : ∀ p stats, (respond p stats).1.pid = p.pid)
    (respond_ok : ∀ p stats, EscalationOk p → EscalationOk (respond p stats).1) :
    ∀ y ∈ (handleSpike created bit respond now pid comm d).1.tracked, EscalationOk y := by
  rcases @handleSpike_cases pid now comm created bit respond d table created_pid respond_pid with
    ⟨-, -, eq⟩ | ⟨p, after, origin, -, replaces, eq⟩ <;> rw [eq]
  · exact ok
  intro y hy
  rcases (replaces.mem y).mp hy with ⟨old, -⟩ | rfl
  · exact ok y old
  refine respond_ok _ _ (EscalationOk.noteSpike ?_ _ _)
  rcases origin with old | ⟨-, p₀, added, rfl⟩
  · exact ok p old
  · exact EscalationOk.of_none
      ((created_escalation p₀).trans (by rw [(addTracked_eq_some.mp added).2]))

theorem step_escalationOk {dryRun : Bool} {d : DaemonState} (event : Event)
    (inv : TableInv d.tracked ∧ ∀ p ∈ d.tracked, EscalationOk p) :
    TableInv (step dryRun d event).1.tracked ∧
      ∀ p ∈ (step dryRun d event).1.tracked, EscalationOk p := by
  refine ⟨step_tableInv event inv.1, ?_⟩
  cases event with
  | spike c pid comm io =>
    cases c
    · exact handleSpike_escalationOk inv.1 inv.2 (fun _ => rfl) (fun _ => rfl)
        (fun p stats => (cpuResponse_keeps dryRun io pid p stats).1)
        (fun p stats ok => ok.after_cpuResponse dryRun io pid stats)
    · exact handleSpike_escalationOk inv.1 inv.2 (fun _ => rfl) (fun _ => rfl)
        (fun p stats => by rw [memResponse_keeps]) (fun p stats ok => by rwa [memResponse_keeps])
    · exact handleSpike_escalationOk inv.1 inv.2 (fun _ => rfl) (fun _ => rfl)
        (fun p stats => (ioResponse_keeps dryRun io pid p stats).1)
        (fun p stats ok => ok.after_ioResponse dryRun io pid stats)
  | restore now ok =>
    intro y hy
    obtain ⟨p, hp, i, rfl, -⟩ := restoreAll_mem ok hy
    exact (inv.2 p hp).after_restoreOne dryRun now _

theorem reachable_escalationOk {dryRun : Bool} {d : DaemonState} (reachable : Reachable dryRun d) :
    TableInv d.tracked ∧ ∀ p ∈ d.tracked, EscalationOk p :=
  reachable.tracked (P := fun tracked => TableInv tracked ∧ ∀ p ∈ tracked, EscalationOk p)
    ⟨tableInv_nil, fun _ h => absurd h (List.not_mem_nil _)⟩ fun _ event => step_escalationOk event

/-- At the end of a pass that reads the predictions file and whose restorations all succeed,
every tracked process quiet for more than 5 s is unadjusted, with escalation `NONE`. -/
theorem quiet_processes_end_unadjusted {dryRun : Bool} {d : DaemonState} {input : LoopInput}
    {records : List PredictionRecord} (reachable : Reachable dryRun d)
    (opened : input.records = some records) (succeeds : ∀ i, input.restoreOk i = true) :
    ∀ p ∈ (loopPass dryRun d input).1.tracked, input.restoreNow - p.lastSeen > 5 →
      p.adjusted = false ∧ p.escalation = .none := by
  intro y hy quiet
  have handled := runSteps_preserves _
    (fun d : DaemonState => TableInv d.tracked ∧ ∀ p ∈ d.tracked, EscalationOk p)
    (fun d event inv => @step_escalationOk dryRun d event inv)
    (recordsEvents input.answers records) d (reachable_escalationOk reachable)
  change y ∈ (checkPersistentSpikes _ _).1.tracked at hy
  rw [checkPersistentSpikes_tracked] at hy
  simp only [processPredictions, opened, runSteps_append] at hy
  obtain ⟨p, hp, i, rfl, -⟩ := restoreAll_mem _ hy
  rw [succeeds i] at quiet ⊢
  by_cases due : p.adjusted = true ∧ input.restoreNow - p.lastSeen > 5
  · cases dryRun <;> simp [restoreOne, setNice, due.1, due.2]
  · have unchanged : (restoreOne dryRun input.restoreNow true p).1 = p := by
      simp [restoreOne, due]
    rw [unchanged] at quiet ⊢
    have adjusted : p.adjusted = false := by simpa [quiet] using due
    refine ⟨adjusted, ?_⟩
    by_contra set
    exact absurd (handled.2 p hp set).1 (by simp [adjusted])

def cpuBoostPass : LoopInput :=
  ⟨some [⟨1, ['a'], '*', '-', '-'⟩],
   fun _ => ⟨⟨0, some 0, true⟩, ⟨0, some 0, true⟩, ⟨0, some 0, true⟩⟩, 0, fun _ => true, 0⟩

def quietPass : LoopInput :=
  ⟨some [⟨1, ['a'], '-', '-', '-'⟩],
   fun _ => ⟨⟨10, some 0, true⟩, ⟨10, some 0, true⟩, ⟨10, some 0, true⟩⟩, 10, fun _ => true, 10⟩

theorem boosted_then_quiet_restored :
    Reachable false (runLoop false (DaemonState.init 0) [cpuBoostPass, cpuBoostPass, cpuBoostPass]).1 ∧
      (runLoop false (DaemonState.init 0) [cpuBoostPass, cpuBoostPass, cpuBoostPass]).1.tracked.map
        (fun p => (p.pid, p.adjusted, p.escalation)) = [(1, true, .soft)] ∧
      (loopPass false (runLoop false (DaemonState.init 0) [cpuBoostPass, cpuBoostPass,
        cpuBoostPass]).1 quietPass).2 = [⟨.restore, 10, .setNice 1 0, true⟩] ∧
      quietPass.records = some [⟨1, ['a'], '-', '-', '-'⟩] ∧ (∀ i, quietPass.restoreOk i = true) ∧
      ∀ p ∈ (loopPass false (runLoop false (DaemonState.init 0) [cpuBoostPass, cpuBoostPass,
          cpuBoostPass]).1 quietPass).1.tracked,
        quietPass.restoreNow - p.lastSeen > 5 → p.adjusted = false ∧ p.escalation = .none :=
  have reachable : Reachable false (runLoop false (DaemonState.init 0)
      [cpuBoostPass, cpuBoostPass, cpuBoostPass]).1 := ⟨0, _, rfl⟩
  ⟨reachable, by rfl, by rfl, rfl, fun _ => rfl,
    quiet_processes_end_unadjusted reachable rfl fun _ => rfl⟩

def sparseMemSpikes (n : Nat) : List LoopInput :=
  (List.range n).flatMap fun k => [memPass (20 * k) true, memPass (20 * k + 10) false]

set_option maxRecDepth 8000 in
/-- A MEM spike at 0 s and a quiet pass at 10 s leave pid 1 quiet for 10 s with
`spike_samples = 1`; eleven spikes 20 s apart, each followed by such a gap, end in an
`oom_score_adj` write. -/
theorem sparse_mem_spikes_reach_oom :
    (runLoop false (DaemonState.init 0) (sparseMemSpikes 1)).1.tracked.map
        (fun p => (p.pid, p.lastSeen, p.spikeSamples)) = [(1, 0, 1)] ∧
    (runLoop false (DaemonState.init 0) (sparseMemSpikes 11)).2 =
      [⟨.handler .mem, 200, .oomScoreAdj 1 500, true⟩] := by
  constructor <;> decide

set_option maxRecDepth 8000 in
/-- Eleven passes at 0 s with a MEM spike of pid 1: the spike count implies `CRITICAL`, the
stored escalation is `NONE`. -/
theorem mem_spikes_leave_escalation_none :
    (runLoop false (DaemonState.init 0) (List.replicate 11 (memPass 0 true))).1.tracked.map
        (fun p => (p.spikeSamples, getEscalationLevel p, p.escalation)) =
      [(11, .critical, .none)] := by
  decide

end SmartScheduler.Daemon

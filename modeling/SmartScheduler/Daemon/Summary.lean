import SmartScheduler.Daemon.Accounting

/-!
# The daemon's summary

When the daemon stops, `print_summary` reports `tracked_count` and the counters of `stats`.
Over every run, in or out of dry-run mode, these counters balance against the table
(`SummaryInv`): the CPU and I/O boosts add up to the records' `action_count`s, the
restorations and the records still adjusted add up to at most the boosts, every escalation
was counted with a CPU boost, and `persistent_spikes` equals `mem_actions`
(`summary_counters_balance`). Outside dry-run mode the boosts and the restorations are
exactly the successful calls of each kind in the trace, and `oom_score_adj` was written at
most `mem_actions` times (`summary_counts_calls`).

Each response is summarised once by what it does to the counters (`Counted`, and
`Reported` for the calls it makes), the loop of `restore_priorities` by what it does to the
adjusted records, and the main loop by `runLoop_trace`, which lifts an invariant of the
table and the statistics over every run.
-/

namespace SmartScheduler.Daemon

def TrackedProcess.held (p : TrackedProcess) : Int := if p.adjusted then 1 else 0

def succeeded (origin : Origin) (calls : List Issued) : Int :=
  (calls.countP fun a => decide (a.origin = origin) && a.ok : Nat)

def memWrites (calls : List Issued) : Int :=
  (calls.countP fun a => decide (a.origin = .handler .mem) : Nat)

@[simp] theorem succeeded_nil (origin : Origin) : succeeded origin [] = 0 := rfl

@[simp] theorem succeeded_append (origin : Origin) (xs ys : List Issued) :
    succeeded origin (xs ++ ys) = succeeded origin xs + succeeded origin ys := by
  simp [succeeded, List.countP_append]

@[simp] theorem memWrites_nil : memWrites [] = 0 := rfl

@[simp] theorem memWrites_append (xs ys : List Issued) :
    memWrites (xs ++ ys) = memWrites xs + memWrites ys := by
  simp [memWrites, List.countP_append]

theorem held_nonneg (p : TrackedProcess) : 0 ≤ p.held := by
  unfold TrackedProcess.held; split <;> decide

@[simp] theorem noteSpike_actionCount (bit : Nat) (now : Int) (p : TrackedProcess) :
    (noteSpike bit now p).actionCount = p.actionCount := rfl

@[simp] theorem noteSpike_held (bit : Nat) (now : Int) (p : TrackedProcess) :
    (noteSpike bit now p).held = p.held := rfl

structure SummaryInv (d : DaemonState) : Prop where
  actions : (d.tracked.map (·.actionCount)).sum = d.stats.cpuBoosts + d.stats.ioBoosts
  restorations :
    d.stats.restorations + (d.tracked.map (·.held)).sum ≤ d.stats.cpuBoosts + d.stats.ioBoosts
  escalations : d.stats.escalations ≤ d.stats.cpuBoosts
  persistent : d.stats.persistentSpikes = d.stats.memActions

structure SummaryTrace (d : DaemonState) (trace : List Issued) : Prop where
  cpu : d.stats.cpuBoosts = succeeded (.handler .cpu) trace
  io : d.stats.ioBoosts = succeeded (.handler .io) trace
  restorations : d.stats.restorations = succeeded .restore trace
  memWrites : memWrites trace ≤ d.stats.memActions

theorem summaryInv_init (startTime : Int) : SummaryInv (DaemonState.init startTime) :=
  ⟨rfl, le_rfl, le_rfl, rfl⟩

theorem summaryTrace_init (startTime : Int) : SummaryTrace (DaemonState.init startTime) [] :=
  ⟨rfl, rfl, rfl, le_rfl⟩

/-- What a response does to the counters: the boosts it counts are those it adds to the
record's `action_count`; it sets `adjusted` only with a boost; it counts no restoration,
escalates only with a CPU boost, and moves `persistent_spikes` with `mem_actions`. -/
structure Counted (p : TrackedProcess) (stats : Stats) (r : TrackedProcess × Stats × List Issued) :
    Prop where
  actions : r.1.actionCount - p.actionCount =
    r.2.1.cpuBoosts + r.2.1.ioBoosts - (stats.cpuBoosts + stats.ioBoosts)
  held : r.1.held ≤ p.held + (r.2.1.cpuBoosts + r.2.1.ioBoosts - (stats.cpuBoosts + stats.ioBoosts))
  restorations : r.2.1.restorations = stats.restorations
  escalations : r.2.1.escalations - stats.escalations ≤ r.2.1.cpuBoosts - stats.cpuBoosts
  persistent : r.2.1.persistentSpikes - stats.persistentSpikes = r.2.1.memActions - stats.memActions

/-- What a response outside dry-run mode reports of its calls: each successful call is one
count of its kind, and each `oom_score_adj` write comes with a counted memory action. -/
structure Reported (stats : Stats) (r : TrackedProcess × Stats × List Issued) : Prop where
  cpu : r.2.1.cpuBoosts = stats.cpuBoosts + succeeded (.handler .cpu) r.2.2
  io : r.2.1.ioBoosts = stats.ioBoosts + succeeded (.handler .io) r.2.2
  restorations : r.2.1.restorations = stats.restorations + succeeded .restore r.2.2
  memWrites : stats.memActions + memWrites r.2.2 ≤ r.2.1.memActions

section Responses

variable (dryRun : Bool) (io : Io) (pid : Int) (p : TrackedProcess) (stats : Stats)

theorem cpuResponse_counted : Counted p stats (cpuResponse dryRun io pid p stats) := by
  have := held_nonneg p
  simp only [cpuResponse]
  split_ifs <;> constructor <;> simp [TrackedProcess.held] <;> omega

theorem memResponse_counted : Counted p stats (memResponse dryRun io pid p stats) := by
  simp only [memResponse]
  split_ifs <;> constructor <;> simp

theorem ioResponse_counted : Counted p stats (ioResponse dryRun io pid p stats) := by
  have := held_nonneg p
  simp only [ioResponse]
  split_ifs <;> constructor <;> simp [TrackedProcess.held] <;> omega

theorem cpuResponse_reported : Reported stats (cpuResponse false io pid p stats) := by
  unfold cpuResponse
  by_cases advisory : getEscalationLevel p = .advisory
  · constructor <;> simp [advisory, succeeded, memWrites]
  by_cases cooling : p.adjusted ∧ io.now - p.adjustedTime < (spikeConfigs .cpu).cooldownSecs
  · constructor <;> simp [advisory, cooling, succeeded, memWrites]
  cases ok : io.ok <;> constructor <;> simp [advisory, cooling, setNice, ok, succeeded, memWrites]

theorem memResponse_reported : Reported stats (memResponse false io pid p stats) := by
  simp only [memResponse]
  split_ifs <;> constructor <;> simp [succeeded, memWrites]

theorem ioResponse_reported : Reported stats (ioResponse false io pid p stats) := by
  unfold ioResponse
  by_cases advisory : getEscalationLevel p = .advisory
  · constructor <;> simp [advisory, succeeded, memWrites]
  by_cases cooling : p.adjusted ∧ io.now - p.adjustedTime < (spikeConfigs .io).cooldownSecs
  · constructor <;> simp [advisory, cooling, succeeded, memWrites]
  cases ok : io.ok <;> constructor <;> simp [advisory, cooling, setIoPriority, ok, succeeded, memWrites]

end Responses

theorem sum_map_set (f : TrackedProcess → Int) {l : List TrackedProcess} {i : Nat}
    {p : TrackedProcess} (at_i : l[i]? = some p) (x : TrackedProcess) :
    ((l.set i x).map f).sum = (l.map f).sum - f p + f x := by
  obtain ⟨bound, rfl⟩ := List.getElem?_eq_some_iff.mp at_i
  rw [List.map_set, List.sum_set', dif_pos (by simpa using bound), List.getElem_map]
  ring

section Handler

variable {now pid : Int} {comm : List Char} {created : TrackedProcess → TrackedProcess}
  {tracked tracked' : List TrackedProcess} {i : Nat} {p : TrackedProcess}

theorem locate_eq_some (located : locate now pid comm created tracked = some (i, p, tracked')) :
    tracked'[i]? = some p ∧ (tracked' = tracked ∨
      ∃ p₀, addTracked now pid comm tracked = some p₀ ∧ p = created p₀ ∧ tracked' = tracked ++ [p]) := by
  unfold locate at located
  split at located
  · rename_i found
    cases located
    exact ⟨(findTracked_some found).1, .inl rfl⟩
  · obtain ⟨p₀, added, eq⟩ := Option.map_eq_some'.mp located
    cases eq
    exact ⟨by simp, .inr ⟨p₀, added, rfl, rfl⟩⟩

theorem locate_sum (f : TrackedProcess → Int) (created_f : ∀ p₀, f (created p₀) = f p₀)
    (zeroed : ∀ p₀, addTracked now pid comm tracked = some p₀ → f p₀ = 0)
    (located : locate now pid comm created tracked = some (i, p, tracked')) :
    (tracked'.map f).sum = (tracked.map f).sum := by
  rcases (locate_eq_some located).2 with rfl | ⟨p₀, added, rfl, rfl⟩
  · rfl
  · simp [created_f, zeroed p₀ added]

variable {bit : Nat} {respond : TrackedProcess → Stats → TrackedProcess × Stats × List Issued}
  {d : DaemonState}

theorem handleSpike_located :
    handleSpike created bit respond now pid comm d = (d, []) ∨
      ∃ q, (handleSpike created bit respond now pid comm d).1.stats =
          (respond (noteSpike bit now q) d.stats).2.1 ∧
        (handleSpike created bit respond now pid comm d).2 =
          (respond (noteSpike bit now q) d.stats).2.2 ∧
        ∀ f : TrackedProcess → Int, (∀ p₀, f (created p₀) = f p₀) →
          (∀ p₀, addTracked now pid comm d.tracked = some p₀ → f p₀ = 0) →
          ((handleSpike created bit respond now pid comm d).1.tracked.map f).sum =
            (d.tracked.map f).sum - f q + f (respond (noteSpike bit now q) d.stats).1 := by
  unfold handleSpike
  cases located : locate now pid comm created d.tracked with
  | none => exact .inl rfl
  | some ipt =>
    obtain ⟨i, q, tracked'⟩ := ipt
    refine .inr ⟨q, rfl, rfl, fun f created_f zeroed => ?_⟩
    rw [sum_map_set f (locate_eq_some located).1, locate_sum f created_f zeroed located]

theorem handleSpike_summaryInv (inv : SummaryInv d)
    (created_actions : ∀ p₀, (created p₀).actionCount = p₀.actionCount)
    (created_held : ∀ p₀, (created p₀).held = p₀.held)
    (counted : ∀ q stats, Counted q stats (respond q stats)) :
    SummaryInv (handleSpike created bit respond now pid comm d).1 := by
  rcases handleSpike_located with same | ⟨q, stats, -, sums⟩
  · rw [same]; exact inv
  have zeroed : ∀ p₀, addTracked now pid comm d.tracked = some p₀ →
      p₀.actionCount = 0 ∧ p₀.held = 0 := fun p₀ added => by
    rw [(addTracked_eq_some.mp added).2]; exact ⟨rfl, rfl⟩
  have actions := sums (·.actionCount) created_actions fun p₀ h => (zeroed p₀ h).1
  have held := sums (·.held) created_held fun p₀ h => (zeroed p₀ h).2
  obtain ⟨c₁, c₂, c₃, c₄, c₅⟩ := counted (noteSpike bit now q) d.stats
  simp only [noteSpike_actionCount, noteSpike_held] at c₁ c₂
  obtain ⟨inv₁, inv₂, inv₃, inv₄⟩ := inv
  refine ⟨?_, ?_, ?_, ?_⟩ <;> simp only [stats, actions, held] <;> omega

theorem handleSpike_summaryTrace {trace : List Issued} (inv : SummaryTrace d trace)
    (reported : ∀ q stats, Reported stats (respond q stats)) :
    SummaryTrace (handleSpike created bit respond now pid comm d).1
      (trace ++ (handleSpike created bit respond now pid comm d).2) := by
  rcases handleSpike_located with same | ⟨q, stats, calls, -⟩
  · rw [same, List.append_nil]; exact inv
  obtain ⟨r₁, r₂, r₃, r₄⟩ := reported (noteSpike bit now q) d.stats
  obtain ⟨inv₁, inv₂, inv₃, inv₄⟩ := inv
  refine ⟨?_, ?_, ?_, ?_⟩ <;> simp only [stats, calls, succeeded_append, memWrites_append] <;> omega

end Handler

section Restoration

variable (dryRun : Bool) (now : Int)

theorem restoreOne_held (b : Bool) (p : TrackedProcess) :
    (if (restoreOne dryRun now b p).2.1 then 1 else 0) + (restoreOne dryRun now b p).1.held =
      p.held := by
  unfold restoreOne
  by_cases stale : p.adjusted ∧ now - p.lastSeen > 5
  · cases ok : (setNice dryRun .restore now b p.pid p.originalNice).1 <;>
      simp [stale, ok, TrackedProcess.held]
  · simp [stale]

theorem restoreOne_reported (b : Bool) (p : TrackedProcess) :
    succeeded .restore (restoreOne false now b p).2.2 =
        (if (restoreOne false now b p).2.1 then 1 else 0) ∧
      (∀ c, succeeded (.handler c) (restoreOne false now b p).2.2 = 0) ∧
      memWrites (restoreOne false now b p).2.2 = 0 := by
  unfold restoreOne setNice
  by_cases stale : p.adjusted ∧ now - p.lastSeen > 5
  · cases b <;> simp [stale, succeeded, memWrites]
  · simp [stale, succeeded, memWrites]

theorem restoreAll_held : ∀ (ok : Nat → Bool) (ps : List TrackedProcess),
    (restoreAll dryRun now ok ps).2.1 + ((restoreAll dryRun now ok ps).1.map (·.held)).sum =
        (ps.map (·.held)).sum ∧
      ((restoreAll dryRun now ok ps).1.map (·.actionCount)).sum = (ps.map (·.actionCount)).sum
  | _, [] => by simp [restoreAll]
  | ok, p :: ps => by
    obtain ⟨held, actions⟩ := restoreAll_held (fun n => ok (n + 1)) ps
    have one := restoreOne_held dryRun now (ok 0) p
    simp only [restoreAll, List.map_cons, List.sum_cons, restoreOne_actionCount, actions, and_true]
    omega

theorem restoreAll_reported : ∀ (ok : Nat → Bool) (ps : List TrackedProcess),
    succeeded .restore (restoreAll false now ok ps).2.2 = (restoreAll false now ok ps).2.1 ∧
      (∀ c, succeeded (.handler c) (restoreAll false now ok ps).2.2 = 0) ∧
      memWrites (restoreAll false now ok ps).2.2 = 0
  | _, [] => by simp [restoreAll]
  | ok, p :: ps => by
    obtain ⟨restored, handlers, writes⟩ := restoreAll_reported (fun n => ok (n + 1)) ps
    obtain ⟨restored₁, handlers₁, writes₁⟩ := restoreOne_reported now (ok 0) p
    simp [restoreAll, restored, restored₁, writes, writes₁, handlers, handlers₁]

variable {dryRun now} {ok : Nat → Bool} {d : DaemonState}

theorem restorePriorities_summaryInv (inv : SummaryInv d) :
    SummaryInv (restorePriorities dryRun now ok d).1 := by
  obtain ⟨held, actions⟩ := restoreAll_held dryRun now ok d.tracked
  obtain ⟨inv₁, inv₂, inv₃, inv₄⟩ := inv
  refine ⟨?_, ?_, inv₃, inv₄⟩ <;> simp only [restorePriorities, actions] <;> omega

theorem restorePriorities_summaryTrace {trace : List Issued} (inv : SummaryTrace d trace) :
    SummaryTrace (restorePriorities false now ok d).1 (trace ++ (restorePriorities false now ok d).2) := by
  obtain ⟨restored, handlers, writes⟩ := restoreAll_reported now ok d.tracked
  obtain ⟨inv₁, inv₂, inv₃, inv₄⟩ := inv
  refine ⟨?_, ?_, ?_, ?_⟩ <;>
    simp only [restorePriorities, succeeded_append, memWrites_append, restored, handlers, writes] <;>
    omega

end Restoration

theorem step_summaryInv {dryRun : Bool} {d : DaemonState} (event : Event) (inv : SummaryInv d) :
    SummaryInv (step dryRun d event).1 := by
  cases event with
  | spike c pid comm io =>
    cases c
    · exact handleSpike_summaryInv inv (fun _ => rfl) (fun _ => rfl) (cpuResponse_counted dryRun io pid)
    · exact handleSpike_summaryInv inv (fun _ => rfl) (fun _ => rfl) (memResponse_counted dryRun io pid)
    · exact handleSpike_summaryInv inv (fun _ => rfl) (fun _ => rfl) (ioResponse_counted dryRun io pid)
  | restore now ok => exact restorePriorities_summaryInv inv

theorem step_summaryTrace {d : DaemonState} {trace : List Issued} (event : Event)
    (inv : SummaryTrace d trace) : SummaryTrace (step false d event).1 (trace ++ (step false d event).2) := by
  cases event with
  | spike c pid comm io =>
    cases c
    · exact handleSpike_summaryTrace inv (cpuResponse_reported io pid)
    · exact handleSpike_summaryTrace inv (memResponse_reported io pid)
    · exact handleSpike_summaryTrace inv (ioResponse_reported io pid)
  | restore now ok => exact restorePriorities_summaryTrace inv

theorem checkPersistentSpikes_stats (now : Int) (d : DaemonState) :
    (checkPersistentSpikes now d).1.stats = d.stats := by
  unfold checkPersistentSpikes; split_ifs <;> rfl

theorem runLoop_trace {dryRun : Bool} (Inv : DaemonState → List Issued → Prop)
    (seen : ∀ d d' trace, d'.tracked = d.tracked → d'.stats = d.stats → Inv d trace → Inv d' trace)
    (preserves : ∀ d trace event, Inv d trace →
      Inv (step dryRun d event).1 (trace ++ (step dryRun d event).2))
    (inputs : List LoopInput) (d : DaemonState) (trace : List Issued) (inv : Inv d trace) :
    Inv (runLoop dryRun d inputs).1 (trace ++ (runLoop dryRun d inputs).2) := by
  refine (runSteps_trace _ Inv (fun _ _ => True) (fun d trace input h => ?_)
    (fun _ _ _ _ _ _ _ _ => trivial) inputs d trace inv).1
  show Inv (checkPersistentSpikes input.checkNow (processPredictions dryRun input.records
      input.answers input.restoreNow input.restoreOk d).1).1
    (trace ++ (processPredictions dryRun input.records input.answers input.restoreNow
      input.restoreOk d).2)
  refine seen _ _ _ (checkPersistentSpikes_tracked _ _) (checkPersistentSpikes_stats _ _) ?_
  unfold processPredictions; split
  · simpa using h
  · exact (runSteps_trace _ Inv (fun _ _ => True) preserves (fun _ _ _ _ _ _ _ _ => trivial) _ d
      trace h).1

theorem SummaryInv.of_eq {d d' : DaemonState} (tracked : d'.tracked = d.tracked)
    (stats : d'.stats = d.stats) (inv : SummaryInv d) : SummaryInv d' := by
  obtain ⟨inv₁, inv₂, inv₃, inv₄⟩ := inv
  constructor <;> simp only [tracked, stats] <;> assumption

theorem countP_adjusted (tracked : List TrackedProcess) :
    (tracked.countP (·.adjusted) : Int) = (tracked.map (·.held)).sum := by
  induction tracked with
  | nil => rfl
  | cons p ps ih =>
    rw [List.countP_cons, List.map_cons, List.sum_cons, ← ih, TrackedProcess.held]
    split <;> simp [add_comm]

/-- Over every run of the daemon, in or out of dry-run mode, the counters `print_summary`
reports balance against the table: the CPU and I/O boosts add up to the records'
`action_count`s; the restorations and the records still adjusted add up to at most the
boosts, since only a boost sets `adjusted` and only a restoration clears it; every
escalation was counted with a CPU boost; and `persistent_spikes` equals `mem_actions`. -/
theorem summary_counters_balance (dryRun : Bool) (startTime : Int) (inputs : List LoopInput) :
    let d := (runLoop dryRun (DaemonState.init startTime) inputs).1
    (d.tracked.map (·.actionCount)).sum = d.stats.cpuBoosts + d.stats.ioBoosts ∧
      d.stats.restorations + d.tracked.countP (·.adjusted) ≤ d.stats.cpuBoosts + d.stats.ioBoosts ∧
      d.stats.escalations ≤ d.stats.cpuBoosts ∧ d.stats.persistentSpikes = d.stats.memActions := by
  have inv := @runLoop_trace dryRun (fun d _ => SummaryInv d)
    (fun _ _ _ tracked stats inv => inv.of_eq tracked stats)
    (fun _ _ event inv => step_summaryInv event inv)
    inputs _ [] (summaryInv_init startTime)
  exact ⟨inv.actions, countP_adjusted _ ▸ inv.restorations, inv.escalations, inv.persistent⟩

/-- Outside dry-run mode, over every run of the daemon: the CPU boosts, I/O boosts and
restorations `print_summary` reports are exactly the successful calls of each kind the
daemon made, and the MEM handler wrote `oom_score_adj` at most `mem_actions` times. -/
theorem summary_counts_calls (startTime : Int) (inputs : List LoopInput) :
    let r := runLoop false (DaemonState.init startTime) inputs
    r.1.stats.cpuBoosts = succeeded (.handler .cpu) r.2 ∧
      r.1.stats.ioBoosts = succeeded (.handler .io) r.2 ∧
      r.1.stats.restorations = succeeded .restore r.2 ∧ memWrites r.2 ≤ r.1.stats.memActions := by
  have inv := runLoop_trace SummaryTrace
    (fun d d' _ _ stats inv => ⟨stats ▸ inv.cpu, stats ▸ inv.io, stats ▸ inv.restorations,
      stats ▸ inv.memWrites⟩)
    (fun _ _ event inv => step_summaryTrace event inv) inputs _ [] (summaryTrace_init startTime)
  exact ⟨inv.cpu, inv.io, inv.restorations, inv.memWrites⟩

end SmartScheduler.Daemon

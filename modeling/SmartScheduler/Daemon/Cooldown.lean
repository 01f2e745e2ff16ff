import SmartScheduler.Daemon.Run

/-!
# Cooldown

A successful call of the CPU or I/O handler on a pid sets `adjusted` and stamps
`adjusted_time`. Until a successful restoration clears `adjusted`, both handlers act on the
pid again only once `cooldown_secs` have passed since that stamp. So any two successful CPU
or I/O actions on a pid with no successful restoration between them are at least the
cooldown apart (`successful_actions_respect_cooldown`). A failed call stamps nothing, and
the handler tries again on the next pass.

`handle_mem_spike` never reads the cooldown: at `CRITICAL` it writes `oom_score_adj` on every
pass that reports the spike, one second apart if the passes are (`mem_writes_ignore_cooldown`).
-/

namespace SmartScheduler.Daemon

def Issued.ActionOn (c : Category) (pid : Int) (a : Issued) : Prop :=
  a.origin = .handler c ∧ a.call.pid = pid ∧ a.ok = true

def Issued.Throttled (pid : Int) (a : Issued) : Prop :=
  a.ActionOn .cpu pid ∨ a.ActionOn .io pid

def Issued.Restores (pid : Int) (a : Issued) : Prop :=
  a.origin = .restore ∧ a.call.pid = pid ∧ a.ok = true

def Pending (pid : Int) (trace : List Issued) (a : Issued) : Prop :=
  ∃ before after, trace = before ++ a :: after ∧ a.Throttled pid ∧ ∀ b ∈ after, ¬ b.Restores pid

theorem Issued.ActionOn.throttled {c : Category} {pid : Int} {a : Issued}
    (action : a.ActionOn c pid) (notMem : c ≠ .mem) : a.Throttled pid := by
  cases c
  · exact .inl action
  · exact absurd rfl notMem
  · exact .inr action

theorem Pending.of_append {pid : Int} {trace calls : List Issued} {a : Issued}
    (pending : Pending pid (trace ++ calls) a) :
    (Pending pid trace a ∧ ∀ b ∈ calls, ¬ b.Restores pid) ∨ Pending pid calls a := by
  obtain ⟨before, after, eq, throttled, quiet⟩ := pending
  rcases List.append_eq_append_iff.mp eq with ⟨mid, -, rest⟩ | ⟨mid, first, tail⟩
  · exact .inr ⟨mid, after, rest, throttled, quiet⟩
  · cases mid with
    | nil => exact .inr ⟨[], after, by simpa using tail.symm, throttled, quiet⟩
    | cons b mid =>
      simp only [List.cons_append, List.cons.injEq] at tail
      obtain ⟨rfl, rfl⟩ := tail
      exact .inl ⟨⟨before, mid, first, throttled, fun b hb => quiet b (List.mem_append_left _ hb)⟩,
        fun b hb => quiet b (List.mem_append_right _ hb)⟩

/-- What a handler's response does to the record `p` it acts on, as far as cooldown goes:
it makes at most one call, on `pid`, as the handler of `c`; either `adjusted` and
`adjusted_time` stay and no call is a successful CPU or I/O action, or the cooldown of `c`
had elapsed and the record is stamped adjusted at the handler's time. -/
structure Throttles (c : Category) (io : Io) (pid : Int) (p : TrackedProcess)
    (r : TrackedProcess × Stats × List Issued) : Prop where
  calls : ∀ a ∈ r.2.2, a.origin = .handler c ∧ a.call.pid = pid ∧ a.time = io.now
  single : r.2.2.length ≤ 1
  adjusts : (r.1.adjusted = p.adjusted ∧ r.1.adjustedTime = p.adjustedTime ∧
      ∀ a ∈ r.2.2, ¬ a.Throttled pid) ∨
    (r.1.adjusted = true ∧ r.1.adjustedTime = io.now ∧
      ¬(p.adjusted ∧ io.now - p.adjustedTime < (spikeConfigs c).cooldownSecs))

structure SinkResult (origin : Origin) (now pid : Int) (result : Bool × List Issued) : Prop where
  calls : ∀ a ∈ result.2, a.origin = origin ∧ a.call.pid = pid ∧ a.time = now ∧ a.ok = result.1
  single : result.2.length ≤ 1

theorem setNice_result (dryRun : Bool) (origin : Origin) (now : Int) (ok : Bool) (pid v : Int) :
    SinkResult origin now pid (setNice dryRun origin now ok pid v) := by
  unfold setNice; split <;> constructor <;> simp [SinkCall.pid]

theorem setIoPriority_result (dryRun : Bool) (now : Int) (ok : Bool) (pid ioClass ioLevel : Int) :
    SinkResult (.handler .io) now pid (setIoPriority dryRun now ok pid ioClass ioLevel) := by
  unfold setIoPriority; split <;> constructor <;> simp [SinkCall.pid]

theorem Issued.Throttled.ok {pid : Int} {a : Issued} (throttled : a.Throttled pid) : a.ok = true :=
  throttled.elim (·.2.2) (·.2.2)

namespace Throttles

variable {c : Category} {io : Io} {pid : Int} {p : TrackedProcess} {s : Stats}
  {result : Bool × List Issued}

theorem quiet : Throttles c io pid p (p, s, []) :=
  ⟨(fun _ h => nomatch h), Nat.zero_le _, .inl ⟨rfl, rfl, (fun _ h => nomatch h)⟩⟩

theorem failed (sink : SinkResult (.handler c) io.now pid result) (failed : result.1 ≠ true) :
    Throttles c io pid p (p, s, result.2) :=
  ⟨fun a ha => (sink.calls a ha).imp_right (·.imp_right (·.1)), sink.single,
    .inl ⟨rfl, rfl, fun a ha throttled => failed ((sink.calls a ha).2.2.2.symm.trans throttled.ok)⟩⟩

theorem stamped {q : TrackedProcess} (sink : SinkResult (.handler c) io.now pid result)
    (elapsed : ¬(p.adjusted ∧ io.now - p.adjustedTime < (spikeConfigs c).cooldownSecs))
    (adjusted : q.adjusted = true) (time : q.adjustedTime = io.now) :
    Throttles c io pid p (q, s, result.2) :=
  ⟨fun a ha => (sink.calls a ha).imp_right (·.imp_right (·.1)), sink.single,
    .inr ⟨adjusted, time, elapsed⟩⟩

end Throttles

section Responses

variable (dryRun : Bool) (io : Io) (pid : Int) (p : TrackedProcess) (stats : Stats)

theorem cpuResponse_throttles : Throttles .cpu io pid p (cpuResponse dryRun io pid p stats) := by
  simp only [cpuResponse]
  split_ifs <;> first
    | exact .quiet
    | exact .stamped (setNice_result ..) ‹_› rfl rfl
    | exact .failed (setNice_result ..) ‹_›

theorem memResponse_throttles : Throttles .mem io pid p (memResponse dryRun io pid p stats) := by
  simp only [memResponse]
  split_ifs
  any_goals exact .quiet
  refine ⟨?_, Nat.le_refl _, .inl ⟨rfl, rfl, ?_⟩⟩ <;>
    simp [Issued.Throttled, Issued.ActionOn, SinkCall.pid]

theorem ioResponse_throttles : Throttles .io io pid p (ioResponse dryRun io pid p stats) := by
  simp only [ioResponse]
  split_ifs <;> first
    | exact .quiet
    | exact .stamped (setIoPriority_result ..) ‹_› rfl rfl
    | exact .failed (setIoPriority_result ..) ‹_›

end Responses

theorem restoreOne_calls {dryRun : Bool} {now : Int} {b : Bool} {p : TrackedProcess} {a : Issued}
    (mem : a ∈ (restoreOne dryRun now b p).2.2) :
    a = ⟨.restore, now, .setNice p.pid p.originalNice, b⟩ := by
  simp only [restoreOne, setNice] at mem
  split_ifs at mem <;> simp_all

theorem restoreOne_cases (now : Int) (b : Bool) (p : TrackedProcess) :
    (restoreOne false now b p).1 = p ∨ ∃ a ∈ (restoreOne false now b p).2.2, a.Restores p.pid := by
  simp only [restoreOne, setNice, Bool.false_eq_true, ↓reduceIte]
  split_ifs with stale ok
  · exact .inr ⟨_, List.mem_singleton_self _, rfl, rfl, ok⟩
  · exact .inl rfl
  · exact .inl rfl

structure CooldownInv (d : DaemonState) (trace : List Issued) : Prop where
  table : TableInv d.tracked
  pending : ∀ pid a, Pending pid trace a →
    ∃ p ∈ d.tracked, p.pid = pid ∧ p.adjusted ∧ a.time ≤ p.adjustedTime

def Spaced (before : List Issued) (a : Issued) : Prop :=
  ∀ c pid, c ≠ .mem → a.ActionOn c pid → ∀ b, Pending pid before b →
    b.time + (spikeConfigs c).cooldownSecs ≤ a.time

theorem cooldownSecs_nonneg (c : Category) : 0 ≤ (spikeConfigs c).cooldownSecs := by
  cases c <;> decide

section Handler

variable {c : Category} {io : Io} {pid : Int} {comm : List Char}
  {created : TrackedProcess → TrackedProcess} {bit : Nat}
  {respond : TrackedProcess → Stats → TrackedProcess × Stats × List Issued}
  {d : DaemonState} {trace : List Issued}

theorem handleSpike_cooldown (inv : CooldownInv d trace)
    (created_pid : ∀ p, (created p).pid = p.pid)
    (respond_pid : ∀ p stats, (respond p stats).1.pid = p.pid)
    (throttles : ∀ p stats, Throttles c io pid p (respond p stats)) :
    let r := handleSpike created bit respond io.now pid comm d
    CooldownInv r.1 (trace ++ r.2) ∧
      ∀ before a after, r.2 = before ++ a :: after → Spaced (trace ++ before) a := by
  rcases @handleSpike_cases pid io.now comm created bit respond d inv.table created_pid respond_pid
    with ⟨-, -, eq⟩ | ⟨p, after, origin, rfl, replaces, eq⟩
  · simp only [eq, List.append_nil]
    exact ⟨inv, fun before a after eq => by simp at eq⟩
  simp only [eq]
  set r := respond (noteSpike bit io.now p) d.stats with hr
  have th := throttles (noteSpike bit io.now p) d.stats
  rw [← hr] at th
  have r_pid : r.1.pid = p.pid := by rw [hr, respond_pid]; rfl
  have r_mem : r.1 ∈ after := (replaces.mem _).mpr (.inr rfl)
  -- a record of the pid before the handler ran is the record it acted on
  have found : ∀ y ∈ d.tracked, y.pid = p.pid → y = p := by
    intro y hy same
    rcases origin with old | ⟨fresh, -⟩
    · exact inv.table.eq_of_pid hy old same
    · exact absurd same (fresh y hy)
  have cooled : ∀ a ∈ r.2.2, a.Throttled p.pid →
      r.1.adjusted = true ∧ r.1.adjustedTime = io.now ∧
        ¬(p.adjusted ∧ io.now - p.adjustedTime < (spikeConfigs c).cooldownSecs) := by
    intro a ha throttled
    rcases th.adjusts with ⟨-, -, none⟩ | cooled
    · exact absurd throttled (none a ha)
    · simpa using cooled
  refine ⟨⟨replaces.inv, fun q a pending => ?_⟩, fun before a rest eq => ?_⟩
  · rcases Pending.of_append pending with ⟨old, quiet⟩ | ⟨_, _, eq, throttled, -⟩
    · obtain ⟨y, hy, rfl, adjusted, le⟩ := inv.pending q a old
      by_cases same : y.pid = p.pid
      · obtain rfl := found y hy same
        refine ⟨r.1, r_mem, same ▸ r_pid, ?_⟩
        rcases th.adjusts with ⟨adj, time, -⟩ | ⟨adj, time, cool⟩
        · simp only [noteSpike_adjusted, noteSpike_adjustedTime] at adj time
          exact ⟨adj ▸ adjusted, time ▸ le⟩
        · simp only [noteSpike_adjusted, noteSpike_adjustedTime, adjusted, true_and, not_lt] at cool
          have := cooldownSecs_nonneg c
          exact ⟨adj, by omega⟩
      · exact ⟨y, (replaces.mem y).mpr (.inl ⟨hy, r_pid ▸ same⟩), rfl, adjusted, le⟩
    · have ha : a ∈ r.2.2 := eq ▸ List.mem_append_right _ (List.mem_cons_self _ _)
      have hq : q = p.pid := (th.calls a ha).2.1 ▸ (throttled.elim (·.2.1) (·.2.1)).symm
      subst hq
      obtain ⟨adj, time, -⟩ := cooled a ha throttled
      exact ⟨r.1, r_mem, r_pid, adj, by rw [time, (th.calls a ha).2.2]⟩
  · have ha : a ∈ r.2.2 := eq ▸ List.mem_append_right _ (List.mem_cons_self _ _)
    have first : before = [] := by
      have := congrArg List.length eq
      simp only [List.length_append, List.length_cons] at this
      exact List.eq_nil_of_length_eq_zero (by have := th.single; omega)
    subst first
    intro c' q notMem action b pending
    obtain ⟨call_origin, call_pid, call_time⟩ := th.calls a ha
    obtain rfl : c' = c := Origin.handler.inj (action.1.symm.trans call_origin)
    obtain rfl : q = p.pid := action.2.1.symm.trans call_pid
    obtain ⟨-, -, cool⟩ := cooled a ha (action.throttled notMem)
    obtain ⟨y, hy, same, adjusted, le⟩ := inv.pending _ b (by simpa using pending)
    obtain rfl := found y hy same
    simp only [adjusted, true_and, not_lt] at cool
    omega

end Handler

theorem restorePriorities_cooldown {now : Int} {ok : Nat → Bool} {d : DaemonState}
    {trace : List Issued} (inv : CooldownInv d trace) :
    let r := restorePriorities false now ok d
    CooldownInv r.1 (trace ++ r.2) ∧
      ∀ before a after, r.2 = before ++ a :: after → Spaced (trace ++ before) a := by
  have restoring : ∀ a ∈ (restorePriorities false now ok d).2, a.origin = .restore := by
    intro a ha
    obtain ⟨p, -, b, hb⟩ := restoreAll_calls ok ha
    rw [restoreOne_calls hb]
  refine ⟨⟨restorePriorities_tableInv inv.table, fun q a pending => ?_⟩,
    fun before a after eq c pid _ action => ?_⟩
  · rcases Pending.of_append pending with ⟨old, quiet⟩ | ⟨_, _, eq, throttled, -⟩
    · obtain ⟨y, hy, rfl, adjusted, le⟩ := inv.pending _ a old
      obtain ⟨i, mem, calls⟩ := @restoreAll_of_mem now d.tracked false ok y hy
      rcases restoreOne_cases now (ok i) y with same | ⟨call, hcall, restores⟩
      · exact ⟨y, same ▸ mem, rfl, adjusted, le⟩
      · exact absurd restores (quiet call (calls call hcall))
    · have := restoring a (eq ▸ List.mem_append_right _ (List.mem_cons_self _ _))
      rcases throttled with ⟨h, -⟩ | ⟨h, -⟩ <;> rw [h] at this <;> cases this
  · have := restoring a (eq ▸ List.mem_append_right _ (List.mem_cons_self _ _))
    rw [action.1] at this
    cases this

theorem step_cooldown {d : DaemonState} {trace : List Issued} (event : Event)
    (inv : CooldownInv d trace) :
    CooldownInv (step false d event).1 (trace ++ (step false d event).2) ∧
      ∀ before a after, (step false d event).2 = before ++ a :: after →
        Spaced (trace ++ before) a := by
  cases event with
  | spike c pid comm io =>
    cases c
    · exact handleSpike_cooldown inv (fun _ => rfl)
        (fun p stats => (cpuResponse_keeps false io pid p stats).1) (cpuResponse_throttles false io pid)
    · exact handleSpike_cooldown inv (fun _ => rfl)
        (fun p stats => by rw [memResponse_keeps]) (memResponse_throttles false io pid)
    · exact handleSpike_cooldown inv (fun _ => rfl)
        (fun p stats => (ioResponse_keeps false io pid p stats).1) (ioResponse_throttles false io pid)
  | restore now ok => exact restorePriorities_cooldown inv

theorem cooldownInv_init (startTime : Int) : CooldownInv (DaemonState.init startTime) [] :=
  ⟨tableInv_nil, fun _ _ ⟨_, _, eq, _⟩ => by simp at eq⟩

/-- Any two successful CPU actions, or two successful I/O actions, on a pid with no
successful restoration of the pid between them are at least the category's
`cooldown_secs` apart, over every run of the daemon. -/
theorem successful_actions_respect_cooldown {dryRun : Bool} {startTime : Int}
    {inputs : List LoopInput} {c : Category} {pid : Int} {before between after : List Issued}
    {first second : Issued} (throttled : c ≠ .mem)
    (trace : (runLoop dryRun (DaemonState.init startTime) inputs).2 =
      before ++ first :: between ++ second :: after)
    (first_action : first.ActionOn c pid) (second_action : second.ActionOn c pid)
    (no_restoration : ∀ a ∈ between, ¬ a.Restores pid) :
    (spikeConfigs c).cooldownSecs ≤ second.time - first.time := by
  cases dryRun
  · have lifted := loopPass_trace CooldownInv Spaced
      (fun d d' trace same inv => ⟨same ▸ inv.table, fun q a pending => same ▸ inv.pending q a pending⟩)
      (fun _ _ event inv => (step_cooldown event inv).1)
      (fun _ _ event inv => (step_cooldown event inv).2)
    have spaced := (runSteps_trace _ CooldownInv Spaced lifted.1 lifted.2 inputs _ []
      (cooldownInv_init startTime)).2 (before ++ first :: between) second after
      trace
    have := spaced c pid throttled second_action first
      ⟨before, between, rfl, first_action.throttled throttled, no_restoration⟩
    omega
  · rw [runLoop_dryRun] at trace
    simp at trace

def cpuSpikePass (now : Int) (ok : Bool) : LoopInput :=
  ⟨some [⟨1, ['a'], '*', '-', '-'⟩], fun _ => ⟨⟨now, some 0, ok⟩, ⟨now, some 0, ok⟩, ⟨now, some 0, ok⟩⟩,
   now, fun _ => ok, now⟩

theorem cpu_boosts_ten_seconds_apart :
    (runLoop false (DaemonState.init 0)
        [cpuSpikePass 0 true, cpuSpikePass 0 true, cpuSpikePass 0 true, cpuSpikePass 10 true]).2 =
      [⟨.handler .cpu, 0, .setNice 1 (-5), true⟩, ⟨.handler .cpu, 10, .setNice 1 (-5), true⟩] ∧
    (spikeConfigs .cpu).cooldownSecs ≤ 10 - 0 :=
  have run : (runLoop false (DaemonState.init 0)
      [cpuSpikePass 0 true, cpuSpikePass 0 true, cpuSpikePass 0 true, cpuSpikePass 10 true]).2 =
      [⟨.handler .cpu, 0, .setNice 1 (-5), true⟩, ⟨.handler .cpu, 10, .setNice 1 (-5), true⟩] := by
    rfl
  ⟨run, successful_actions_respect_cooldown (c := .cpu) (by decide)
    (run.trans (rfl : _ = [] ++ _ :: [] ++ _ :: [])) ⟨rfl, rfl, rfl⟩ ⟨rfl, rfl, rfl⟩ (by simp)⟩

def memPass (now : Int) (spiking : Bool) : LoopInput :=
  ⟨some [⟨1, ['a'], '-', if spiking then '*' else '-', '-'⟩],
   fun _ => ⟨⟨now, some 0, true⟩, ⟨now, some 0, true⟩, ⟨now, some 0, true⟩⟩, now, fun _ => true, now⟩

set_option maxRecDepth 8000 in
/-- Twelve passes one second apart, each with a MEM spike of pid 1: the eleventh and the
twelfth are `CRITICAL` and write `oom_score_adj` at 10 s and at 11 s, one second apart, where
`spike_configs[1].cooldown_secs` is 15. -/
theorem mem_writes_ignore_cooldown :
    (runLoop false (DaemonState.init 0) ((List.range 12).map fun k => memPass (k : Int) true)).2 =
      [⟨.handler .mem, 10, .oomScoreAdj 1 500, true⟩, ⟨.handler .mem, 11, .oomScoreAdj 1 500, true⟩] ∧
    (11 : Int) - 10 < (spikeConfigs .mem).cooldownSecs :=
  ⟨by rfl, by decide⟩

end SmartScheduler.Daemon

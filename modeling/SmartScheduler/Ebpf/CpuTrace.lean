import SmartScheduler.CInt
import SmartScheduler.Ebpf.Map

/-!
# CPU tracing program

`cpu_trace.bpf.c` keeps one `cpu_stats` entry per thread in `cpu_stats_map`, written by the
`sched_switch` and `sched_wakeup` tracepoints and deleted at `sched_process_exit`.

What a thread's switches mean is the `Schedule` machine: a switch-in starts a slice on a
CPU, a switch-out ends it, and the on-CPU time is the sum of the ended slices. Once a
thread's entry exists, the entry follows its schedule over every run of the programs
(`cpu_entry_accounting`): `total_runtime_ns` is the on-CPU time since the entry was
created, and the voluntary and involuntary counts add up to the switch-outs since then. But
`switch_count` also counts the switch-in that created an entry, so for such a thread it is
one more than the switch-outs (`switch_count_counts_creating_switch_in`).
-/

namespace SmartScheduler.Ebpf

structure CpuStats where
  totalRuntimeNs : UInt64
  switchCount : UInt64
  wakeupCount : UInt64
  lastSwitchTime : UInt64
  voluntarySwitches : UInt64
  involuntarySwitches : UInt64
  deriving DecidableEq, Repr

def CpuStats.zero : CpuStats := ⟨0, 0, 0, 0, 0, 0⟩

abbrev CpuStatsMap := BpfHashMap UInt32 CpuStats 10240

def switchedOut (prevState : Int) (now : UInt64) (s : CpuStats) : CpuStats :=
  let s := if s.lastSwitchTime > 0 then
      { s with totalRuntimeNs := s.totalRuntimeNs + (now - s.lastSwitchTime) }
    else s
  let s := { s with switchCount := s.switchCount + 1 }
  if prevState ≠ 0 then { s with voluntarySwitches := s.voluntarySwitches + 1 }
  else { s with involuntarySwitches := s.involuntarySwitches + 1 }

def switchedInNew (now : UInt64) : CpuStats :=
  { CpuStats.zero with lastSwitchTime := now, switchCount := 1 }

def switchedIn (now : UInt64) (s : CpuStats) : CpuStats := { s with lastSwitchTime := now }

def wokenUpNew (now : UInt64) : CpuStats :=
  { CpuStats.zero with wakeupCount := 1, lastSwitchTime := now }

def wokenUp (s : CpuStats) : CpuStats := { s with wakeupCount := s.wakeupCount + 1 }

def switchOutPrev (prevPid : UInt32) (prevState : Int) (now : UInt64) (m : CpuStatsMap) :
    CpuStatsMap :=
  if prevPid ≠ 0 then m.modifyElem prevPid (switchedOut prevState now) else m

def switchInNext (nextPid : UInt32) (now : UInt64) (m : CpuStatsMap) : CpuStatsMap :=
  if nextPid ≠ 0 then
    match m.lookupElem nextPid with
    | none => m.updateElem nextPid (switchedInNew now)
    | some _ => m.modifyElem nextPid (switchedIn now)
  else m

def traceSchedSwitch (prevPid nextPid : UInt32) (prevState : Int) (now : UInt64)
    (m : CpuStatsMap) : CpuStatsMap :=
  if prevPid = 0 ∧ nextPid = 0 then m
  else switchInNext nextPid now (switchOutPrev prevPid prevState now m)

def traceSchedWakeup (pid : UInt32) (now : UInt64) (m : CpuStatsMap) : CpuStatsMap :=
  if pid = 0 then m
  else match m.lookupElem pid with
    | none => m.updateElem pid (wokenUpNew now)
    | some _ => m.modifyElem pid wokenUp

def traceProcessExit (pid : UInt32) (m : CpuStatsMap) : CpuStatsMap := m.deleteElem pid

inductive CpuEvent
  | schedSwitch (prevPid nextPid : UInt32) (prevState : Int) (now : UInt64)
  | schedWakeup (pid : UInt32) (now : UInt64)
  | processExit (pid : UInt32)

def cpuStep (m : CpuStatsMap) : CpuEvent → CpuStatsMap
  | .schedSwitch prevPid nextPid prevState now => traceSchedSwitch prevPid nextPid prevState now m
  | .schedWakeup pid now => traceSchedWakeup pid now m
  | .processExit pid => traceProcessExit pid m

def cpuRun (m : CpuStatsMap) (events : List CpuEvent) : CpuStatsMap := events.foldl cpuStep m

inductive CpuCall
  | switchOut (prevState : Int) (now : UInt64)
  | switchIn (now : UInt64)
  | wakeup (now : UInt64)
  deriving DecidableEq, Repr

def CpuEvent.callsOf (p : UInt32) : CpuEvent → List CpuCall
  | .schedSwitch prevPid nextPid prevState now =>
    (if prevPid = p then [.switchOut prevState now] else []) ++
      (if nextPid = p then [.switchIn now] else [])
  | .schedWakeup pid now => if pid = p then [.wakeup now] else []
  | .processExit _ => []

def CpuCall.onEntry (s : CpuStats) : CpuCall → CpuStats
  | .switchOut prevState now => switchedOut prevState now s
  | .switchIn now => switchedIn now s
  | .wakeup _ => wokenUp s

theorem traceSchedSwitch_eq (prevPid nextPid : UInt32) (prevState : Int) (now : UInt64)
    (m : CpuStatsMap) :
    traceSchedSwitch prevPid nextPid prevState now m =
      switchInNext nextPid now (switchOutPrev prevPid prevState now m) := by
  unfold traceSchedSwitch
  split_ifs with idle
  · simp [switchInNext, switchOutPrev, idle.1, idle.2]
  · rfl

section Entry

variable {p : UInt32} {m : CpuStatsMap} {s : CpuStats}

theorem lookupElem_switchOutPrev (hp : p ≠ 0) (prevPid : UInt32) (prevState : Int) (now : UInt64) :
    (switchOutPrev prevPid prevState now m).lookupElem p =
      (m.lookupElem p).map fun s => if prevPid = p then switchedOut prevState now s else s := by
  unfold switchOutPrev
  by_cases same : prevPid = p
  · subst same
    simp [hp]
  · split_ifs <;> simp [BpfHashMap.lookupElem_modifyElem_of_ne _ _ same, same]

theorem length_switchOutPrev (prevPid : UInt32) (prevState : Int) (now : UInt64) :
    (switchOutPrev prevPid prevState now m).entries.length = m.entries.length := by
  unfold switchOutPrev
  split_ifs <;> simp [BpfHashMap.modifyElem, length_modifyEntry]

theorem lookupElem_switchInNext_self (hp : p ≠ 0) (now : UInt64) :
    (switchInNext p now m).lookupElem p =
      match m.lookupElem p with
      | none => if m.entries.length < 10240 then some (switchedInNew now) else none
      | some s => some (switchedIn now s) := by
  unfold switchInNext
  rw [if_pos hp]
  cases found : m.lookupElem p
  · by_cases room : m.entries.length < 10240 <;>
      simp [BpfHashMap.lookupElem_updateElem, found, room, Nat.not_le.mpr, Nat.not_lt.mp]
  · simp [found]

theorem lookupElem_switchInNext_of_ne {nextPid : UInt32} (ne : nextPid ≠ p) (now : UInt64) :
    (switchInNext nextPid now m).lookupElem p = m.lookupElem p := by
  unfold switchInNext
  split_ifs
  · split
    · rw [BpfHashMap.lookupElem_updateElem, if_neg ne]
    · rw [BpfHashMap.lookupElem_modifyElem_of_ne _ _ ne]
  · rfl

theorem cpuStep_creates_on_switch (hp : p ≠ 0) (absent : m.lookupElem p = none)
    (room : m.entries.length < 10240) (prevPid : UInt32) (prevState : Int) (now : UInt64) :
    (cpuStep m (.schedSwitch prevPid p prevState now)).lookupElem p = some (switchedInNew now) := by
  simp only [cpuStep, traceSchedSwitch_eq, lookupElem_switchInNext_self hp,
    lookupElem_switchOutPrev hp, absent, Option.map_none', length_switchOutPrev, room, if_true]

theorem cpuStep_creates_on_wakeup (hp : p ≠ 0) (absent : m.lookupElem p = none)
    (room : m.entries.length < 10240) (now : UInt64) :
    (cpuStep m (.schedWakeup p now)).lookupElem p = some (wokenUpNew now) := by
  simp [cpuStep, traceSchedWakeup, hp, absent, BpfHashMap.lookupElem_updateElem, Nat.not_le.mpr room]

theorem cpuStep_entry (hp : p ≠ 0) (found : m.lookupElem p = some s) {e : CpuEvent}
    (alive : e ≠ .processExit p) :
    (cpuStep m e).lookupElem p = some ((e.callsOf p).foldl CpuCall.onEntry s) := by
  cases e with
  | schedSwitch prevPid nextPid prevState now =>
    simp only [cpuStep, traceSchedSwitch_eq, CpuEvent.callsOf]
    by_cases next : nextPid = p
    · subst next
      rw [lookupElem_switchInNext_self hp, lookupElem_switchOutPrev hp, found]
      by_cases prev : prevPid = nextPid <;> simp [prev, CpuCall.onEntry]
    · rw [lookupElem_switchInNext_of_ne next, lookupElem_switchOutPrev hp, found]
      by_cases prev : prevPid = p <;> simp [prev, next, CpuCall.onEntry]
  | schedWakeup pid now =>
    by_cases same : pid = p
    · subst same
      simp [cpuStep, traceSchedWakeup, CpuEvent.callsOf, hp, found, CpuCall.onEntry]
    · simp only [cpuStep, traceSchedWakeup, CpuEvent.callsOf, same, if_false, List.foldl_nil]
      split_ifs
      · exact found
      · split
        · rw [BpfHashMap.lookupElem_updateElem, if_neg same, found]
        · rw [BpfHashMap.lookupElem_modifyElem_of_ne _ _ same, found]
  | processExit pid =>
    have ne : pid ≠ p := by rintro rfl; exact alive rfl
    simp [cpuStep, traceProcessExit, BpfHashMap.lookupElem_deleteElem, ne, found, CpuEvent.callsOf]

end Entry

structure Schedule where
  runningSince : Option UInt64
  onCpu : UInt64
  voluntary : Nat
  involuntary : Nat
  wakeups : Nat
  deriving DecidableEq, Repr

def Schedule.started (t : UInt64) : Schedule := ⟨some t, 0, 0, 0, 0⟩

def Schedule.woken (running : Bool) (t : UInt64) : Schedule :=
  ⟨if running then some t else none, 0, 0, 0, 1⟩

def Schedule.step (σ : Schedule) : CpuCall → Schedule
  | .switchIn t => { σ with runningSince := some t }
  | .switchOut prevState t =>
    { σ with runningSince := none
             onCpu := σ.onCpu + (match σ.runningSince with | some start => t - start | none => 0)
             voluntary := σ.voluntary + if prevState ≠ 0 then 1 else 0
             involuntary := σ.involuntary + if prevState ≠ 0 then 0 else 1 }
  | .wakeup _ => { σ with wakeups := σ.wakeups + 1 }

def Schedule.run (σ : Schedule) (calls : List CpuCall) : Schedule := calls.foldl Schedule.step σ

def CpuCall.Allowed (σ : Schedule) : CpuCall → Prop
  | .switchIn t => σ.runningSince = none ∧ 0 < t
  | .switchOut _ _ => σ.runningSince.isSome
  | .wakeup _ => True

def Schedule.Alternates : Schedule → List CpuCall → Prop
  | _, [] => True
  | σ, c :: cs => c.Allowed σ ∧ Alternates (σ.step c) cs

theorem Schedule.alternates_append (σ : Schedule) (xs ys : List CpuCall) :
    σ.Alternates (xs ++ ys) ↔ σ.Alternates xs ∧ (σ.run xs).Alternates ys := by
  induction xs generalizing σ with
  | nil => simp [Schedule.Alternates, Schedule.run]
  | cons c cs ih => simp [Schedule.Alternates, Schedule.run, ih, and_assoc]

structure Refines (created : Nat) (σ : Schedule) (s : CpuStats) : Prop where
  runtime : s.totalRuntimeNs = σ.onCpu
  voluntary : s.voluntarySwitches.toNat = σ.voluntary % 18446744073709551616
  involuntary : s.involuntarySwitches.toNat = σ.involuntary % 18446744073709551616
  switchCount : s.switchCount.toNat = (σ.voluntary + σ.involuntary + created) % 18446744073709551616
  wakeups : s.wakeupCount.toNat = σ.wakeups % 18446744073709551616
  since : ∀ t, σ.runningSince = some t → s.lastSwitchTime = t ∧ 0 < t

theorem Refines.started {t : UInt64} (pos : 0 < t) :
    Refines 1 (Schedule.started t) (switchedInNew t) :=
  ⟨rfl, rfl, rfl, rfl, rfl, fun _ same => ⟨Option.some.inj same ▸ rfl, Option.some.inj same ▸ pos⟩⟩

theorem Refines.woken {running : Bool} {t : UInt64} (pos : running → 0 < t) :
    Refines 0 (Schedule.woken running t) (wokenUpNew t) := by
  refine ⟨rfl, rfl, rfl, rfl, rfl, fun t' same => ?_⟩
  cases running
  · cases same
  · obtain rfl := Option.some.inj same
    exact ⟨rfl, pos rfl⟩

theorem Refines.step {created : Nat} {σ : Schedule} {s : CpuStats} (r : Refines created σ s)
    {c : CpuCall} (allowed : c.Allowed σ) : Refines created (σ.step c) (CpuCall.onEntry s c) := by
  cases c with
  | switchIn t =>
    obtain ⟨-, pos⟩ := allowed
    exact ⟨r.runtime, r.voluntary, r.involuntary, r.switchCount, r.wakeups,
      fun _ same => ⟨Option.some.inj same ▸ rfl, Option.some.inj same ▸ pos⟩⟩
  | switchOut prevState t =>
    obtain ⟨start, running⟩ := Option.isSome_iff_exists.mp allowed
    obtain ⟨last, pos⟩ := r.since start running
    have := r.switchCount
    by_cases voluntary : prevState ≠ 0 <;>
      constructor <;>
      simp [Schedule.step, CpuCall.onEntry, switchedOut, pos, running, voluntary, last,
        r.runtime, r.voluntary, r.involuntary, r.wakeups, uint64_toNat_add_one] <;>
      omega
  | wakeup t =>
    exact ⟨r.runtime, r.voluntary, r.involuntary, r.switchCount,
      by simp [Schedule.step, CpuCall.onEntry, wokenUp, uint64_toNat_add_one, r.wakeups], r.since⟩

theorem Refines.steps {created : Nat} :
    ∀ {σ : Schedule} {s : CpuStats} (calls : List CpuCall), Refines created σ s →
      σ.Alternates calls → Refines created (σ.run calls) (calls.foldl CpuCall.onEntry s)
  | _, _, [], r, _ => r
  | _, _, _ :: calls, r, ⟨allowed, rest⟩ => Refines.steps calls (r.step allowed) rest

theorem cpuRun_refines {p : UInt32} (hp : p ≠ 0) {created : Nat} :
    ∀ (events : List CpuEvent) (m : CpuStatsMap) (σ : Schedule) (s : CpuStats),
      m.lookupElem p = some s → Refines created σ s → CpuEvent.processExit p ∉ events →
      σ.Alternates (events.flatMap (CpuEvent.callsOf p)) →
      ∃ s', (cpuRun m events).lookupElem p = some s' ∧
        Refines created (σ.run (events.flatMap (CpuEvent.callsOf p))) s'
  | [], _, σ, s, found, r, _, _ => ⟨s, found, r⟩
  | e :: events, m, σ, s, found, r, alive, alternates => by
    rw [List.flatMap_cons, Schedule.alternates_append] at alternates
    have entry := cpuStep_entry hp found fun h => alive (h ▸ List.mem_cons_self _ _)
    obtain ⟨s', found', r'⟩ := cpuRun_refines hp events _ _ _ entry
      (r.steps _ alternates.1) (fun h => alive (List.mem_cons_of_mem _ h)) alternates.2
    refine ⟨s', found', ?_⟩
    rwa [List.flatMap_cons, Schedule.run, List.foldl_append]

inductive Creates (p : UInt32) : CpuEvent → Nat → Schedule → Prop
  | switchIn (prevPid : UInt32) (prevState : Int) (t : UInt64) (pos : 0 < t) :
      Creates p (.schedSwitch prevPid p prevState t) 1 (.started t)
  | wakeup (running : Bool) (t : UInt64) (pos : running → 0 < t) :
      Creates p (.schedWakeup p t) 0 (.woken running t)

/-- Over every run of the programs: once the first traced event of a thread `p ≠ 0` finds
room and creates its entry, and while the thread's switch-ins and switch-outs alternate,
the entry follows the thread's schedule (`Refines`) until the thread exits.
`total_runtime_ns` is its on-CPU time since the entry was created, the voluntary and
involuntary counts are its switch-outs, and `switch_count` is their sum plus one if a
switch-in created the entry. -/
theorem cpu_entry_accounting {p : UInt32} (hp : p ≠ 0) {m : CpuStatsMap} {first : CpuEvent}
    {created : Nat} {σ : Schedule} {events : List CpuEvent} (absent : m.lookupElem p = none)
    (room : m.entries.length < 10240) (creates : Creates p first created σ)
    (alive : CpuEvent.processExit p ∉ events)
    (alternates : σ.Alternates (events.flatMap (CpuEvent.callsOf p))) :
    ∃ s, (cpuRun m (first :: events)).lookupElem p = some s ∧
      Refines created (σ.run (events.flatMap (CpuEvent.callsOf p))) s := by
  cases creates with
  | switchIn prevPid prevState t pos =>
    exact cpuRun_refines hp events _ _ _ (cpuStep_creates_on_switch hp absent room prevPid prevState t)
      (Refines.started pos) alive alternates
  | wakeup running t pos =>
    exact cpuRun_refines hp events _ _ _ (cpuStep_creates_on_wakeup hp absent room t)
      (Refines.woken pos) alive alternates

theorem switched_in_then_out_accounted :
    (1 : UInt32) ≠ 0 ∧ (BpfHashMap.empty : CpuStatsMap).lookupElem 1 = none ∧
      (BpfHashMap.empty : CpuStatsMap).entries.length < 10240 ∧
      Creates 1 (.schedSwitch 0 1 0 10) 1 (.started 10) ∧
      CpuEvent.processExit 1 ∉ [CpuEvent.schedSwitch 1 0 0 20] ∧
      (Schedule.started 10).Alternates ([CpuEvent.schedSwitch 1 0 0 20].flatMap (CpuEvent.callsOf 1)) ∧
      ∃ s, (cpuRun .empty [.schedSwitch 0 1 0 10, .schedSwitch 1 0 0 20]).lookupElem 1 = some s ∧
        Refines 1 ((Schedule.started 10).run
          ([CpuEvent.schedSwitch 1 0 0 20].flatMap (CpuEvent.callsOf 1))) s :=
  have creates : Creates 1 (.schedSwitch 0 1 0 10) 1 (.started 10) := .switchIn 0 0 10 (by decide)
  have alive : CpuEvent.processExit 1 ∉ [CpuEvent.schedSwitch 1 0 0 20] := by simp
  have alternates : (Schedule.started 10).Alternates
      ([CpuEvent.schedSwitch 1 0 0 20].flatMap (CpuEvent.callsOf 1)) := ⟨rfl, trivial⟩
  ⟨by decide, rfl, by decide, creates, alive, alternates,
    cpu_entry_accounting (by decide) rfl (by decide) creates alive alternates⟩

/-- From load, thread 1 is switched in at 10 ns and preempted at 20 ns: one switch-out,
involuntary, after 10 ns on the CPU, yet `switch_count` is 2. -/
theorem switch_count_counts_creating_switch_in :
    [CpuEvent.schedSwitch 0 1 0 10, .schedSwitch 1 0 0 20].flatMap (CpuEvent.callsOf 1) =
        [.switchIn 10, .switchOut 0 20] ∧
      ((cpuRun .empty [.schedSwitch 0 1 0 10, .schedSwitch 1 0 0 20]).lookupElem 1).map
        (fun s => (s.switchCount, s.voluntarySwitches, s.involuntarySwitches, s.totalRuntimeNs)) =
        some (2, 0, 1, 10) := by
  constructor <;> decide

end SmartScheduler.Ebpf

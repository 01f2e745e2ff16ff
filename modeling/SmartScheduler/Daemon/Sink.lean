import SmartScheduler.Daemon.Cooldown

/-!
# The Action Sink

The daemon together with what its calls change: for each pid a nice value, an I/O class and
level (`ionice`) and an `oom_score_adj`. Only the daemon changes the sink, every call
succeeds and `getpriority` reads the sink's nice value (`withSink`).

`restore_priorities` sets the pid's nice value back to the record's `original_nice`. Only
`handle_cpu_spike` reads it from the sink when it creates a record, before the daemon has acted
on the pid; a record the MEM or I/O handler creates keeps `add_tracked`'s 0
(`restoration_sets_recorded_nice`). The I/O class and level and `oom_score_adj` are not
restored: an I/O-boosted process at nice 10 is restored to nice 0 in I/O class 2
(`restoration_renices_to_zero`).
-/

namespace SmartScheduler.Daemon

structure Sched where
  nice : Int
  ioClass : Int
  ioLevel : Int
  oomScoreAdj : Int
  deriving DecidableEq, Repr

def SinkCall.apply : SinkCall → (Int → Sched) → Int → Sched
  | .setNice pid niceVal, sink => Function.update sink pid { sink pid with nice := niceVal }
  | .setIoPriority pid ioprioClass ioprioLevel, sink =>
    Function.update sink pid { sink pid with ioClass := ioprioClass, ioLevel := ioprioLevel }
  | .oomScoreAdj pid value, sink => Function.update sink pid { sink pid with oomScoreAdj := value }

def applyCalls (sink : Int → Sched) (calls : List Issued) : Int → Sched :=
  calls.foldl (fun sink a => if a.ok then a.call.apply sink else sink) sink

inductive Occurrence
  | spike (category : Category) (pid : Int) (comm : List Char) (now : Int)
  | restore (now : Int)

def Occurrence.event (sink : Int → Sched) : Occurrence → Event
  | .spike c pid comm now => .spike c pid comm ⟨now, some (sink pid).nice, true⟩
  | .restore now => .restore now fun _ => true

def withSink (dryRun : Bool) (x : DaemonState × (Int → Sched)) (o : Occurrence) :
    (DaemonState × (Int → Sched)) × List Issued :=
  let r := step dryRun x.1 (o.event x.2)
  ((r.1, applyCalls x.2 r.2), r.2)

def firstSpike (pid : Int) : List Occurrence → Option Category
  | [] => none
  | .spike c q _ _ :: rest => if q = pid then some c else firstSpike pid rest
  | .restore _ :: rest => firstSpike pid rest

theorem firstSpike_append (pid : Int) (history rest : List Occurrence) :
    firstSpike pid (history ++ rest) = (firstSpike pid history).or (firstSpike pid rest) := by
  induction history with
  | nil => rfl
  | cons o history ih =>
    cases o with
    | spike c q comm now => by_cases h : q = pid <;> simp [firstSpike, h, ih]
    | restore now => simpa [firstSpike] using ih

theorem firstSpike_append_of_ne_none {pid : Int} {history : List Occurrence}
    (seen : firstSpike pid history ≠ none) (rest : List Occurrence) :
    firstSpike pid (history ++ rest) = firstSpike pid history := by
  rw [firstSpike_append]
  cases h : firstSpike pid history
  · exact absurd h seen
  · rfl

/-- The `original_nice` a record of `pid` holds once `history` has been handled: what
`getpriority` read before any action when the pid's first spike was a CPU spike, and
`add_tracked`'s 0 otherwise. -/
def recordedNice (sink₀ : Int → Sched) (history : List Occurrence) (pid : Int) : Int :=
  if firstSpike pid history = some .cpu then (sink₀ pid).nice else 0

theorem SinkCall.apply_of_ne {call : SinkCall} {q : Int} (ne : call.pid ≠ q) (sink : Int → Sched) :
    call.apply sink q = sink q := by
  cases call <;> exact Function.update_noteq (Ne.symm ne) _ _

theorem applyCalls_of_ne {q : Int} {calls : List Issued}
    (others : ∀ a ∈ calls, a.ok = true → a.call.pid ≠ q) (sink : Int → Sched) :
    applyCalls sink calls q = sink q := by
  induction calls generalizing sink with
  | nil => rfl
  | cons a rest ih =>
    simp only [applyCalls, List.foldl_cons] at ih ⊢
    rw [ih (fun b hb => others b (List.mem_cons_of_mem _ hb))]
    split
    · exact SinkCall.apply_of_ne (others a (List.mem_cons_self _ _) ‹_›) sink
    · rfl

theorem applyCalls_setNice {q v : Int} {calls : List Issued}
    (setsNice : ∀ a ∈ calls, a.call.pid = q → a.call = .setNice q v)
    (some_ok : ∃ a ∈ calls, a.ok = true ∧ a.call.pid = q) (sink : Int → Sched) :
    applyCalls sink calls q = { sink q with nice := v } := by
  induction calls generalizing sink with
  | nil => simp at some_ok
  | cons a rest ih =>
    simp only [applyCalls, List.foldl_cons] at ih ⊢
    have later := fun b hb => setsNice b (List.mem_cons_of_mem a hb)
    by_cases hit : a.ok = true ∧ a.call.pid = q
    · have updated : (if a.ok then a.call.apply sink else sink) q = { sink q with nice := v } := by
        rw [if_pos hit.1, setsNice a (List.mem_cons_self _ _) hit.2]
        simp [SinkCall.apply]
      by_cases again : ∃ b ∈ rest, b.ok = true ∧ b.call.pid = q
      · rw [ih later again, updated]
      · push_neg at again
        rw [← updated]
        exact applyCalls_of_ne (fun b hb ok => again b hb ok) _
    · obtain ⟨b, hb, found⟩ := some_ok
      rcases List.mem_cons.mp hb with rfl | hb
      · exact absurd found hit
      · have missed : (if a.ok then a.call.apply sink else sink) q = sink q := by
          split
          · exact SinkCall.apply_of_ne (fun same => hit ⟨‹_›, same⟩) sink
          · rfl
        rw [ih later ⟨b, hb, found⟩, missed]

structure SinkInv (sink₀ : Int → Sched) (history : List Occurrence)
    (x : DaemonState × (Int → Sched)) : Prop where
  table : TableInv x.1.tracked
  untouched : ∀ q, (∀ p ∈ x.1.tracked, p.pid ≠ q) → x.2 q = sink₀ q
  spiked : ∀ p ∈ x.1.tracked, firstSpike p.pid history ≠ none
  waiting : ∀ q, firstSpike q history ≠ none →
    (∃ p ∈ x.1.tracked, p.pid = q) ∨ maxTracked ≤ x.1.tracked.length
  original : ∀ p ∈ x.1.tracked, p.originalNice = recordedNice sink₀ history p.pid

theorem sinkInv_init (sink₀ : Int → Sched) (startTime : Int) :
    SinkInv sink₀ [] (DaemonState.init startTime, sink₀) :=
  ⟨tableInv_nil, fun _ _ => rfl, fun _ h => absurd h (List.not_mem_nil _),
   fun _ h => absurd rfl h, fun _ h => absurd h (List.not_mem_nil _)⟩

theorem firstSpike_spike_of_ne {q pid : Int} (ne : q ≠ pid) (history : List Occurrence)
    (c : Category) (comm : List Char) (now : Int) :
    firstSpike q (history ++ [.spike c pid comm now]) = firstSpike q history := by
  simp [firstSpike_append, firstSpike, Ne.symm ne]

namespace SinkInv

variable {sink₀ : Int → Sched} {history : List Occurrence} {x : DaemonState × (Int → Sched)}

theorem spiked_append (inv : SinkInv sink₀ history x) {y : TrackedProcess} (hy : y ∈ x.1.tracked)
    (rest : List Occurrence) : firstSpike y.pid (history ++ rest) = firstSpike y.pid history :=
  firstSpike_append_of_ne_none (inv.spiked y hy) rest

theorem original_append (inv : SinkInv sink₀ history x) {y : TrackedProcess} (hy : y ∈ x.1.tracked)
    (rest : List Occurrence) : y.originalNice = recordedNice sink₀ (history ++ rest) y.pid := by
  rw [recordedNice, inv.spiked_append hy, inv.original y hy, recordedNice]

theorem unseen (inv : SinkInv sink₀ history x) {q : Int} (untracked : ∀ y ∈ x.1.tracked, y.pid ≠ q)
    (room : x.1.tracked.length < maxTracked) : firstSpike q history = none := by
  by_contra seen
  rcases inv.waiting q seen with ⟨y, hy, same⟩ | full
  · exact untracked y hy same
  · exact absurd full (not_le.mpr room)

theorem spike_of_full (inv : SinkInv sink₀ history x) (full : maxTracked ≤ x.1.tracked.length)
    (c : Category) (pid : Int) (comm : List Char) (now : Int) :
    SinkInv sink₀ (history ++ [.spike c pid comm now]) x :=
  ⟨inv.table, inv.untouched, fun y hy => (inv.spiked_append hy _).trans_ne (inv.spiked y hy),
   fun _ _ => .inr full, fun y hy => inv.original_append hy _⟩

end SinkInv

section Handler

variable {sink₀ : Int → Sched} {history : List Occurrence} {d : DaemonState}
  {sink : Int → Sched} {c : Category} {pid now : Int} {comm : List Char}
  {created : TrackedProcess → TrackedProcess} {bit : Nat}
  {respond : TrackedProcess → Stats → TrackedProcess × Stats × List Issued}

theorem handleSpike_sinkInv (inv : SinkInv sink₀ history (d, sink))
    (created_pid : ∀ p, (created p).pid = p.pid)
    (respond_keeps : ∀ p stats,
      (respond p stats).1.pid = p.pid ∧ (respond p stats).1.originalNice = p.originalNice)
    (respond_calls : ∀ p stats, ∀ a ∈ (respond p stats).2.2, a.call.pid = pid)
    (created_nice : ∀ p, (created p).originalNice =
      if c = .cpu then (sink pid).nice else p.originalNice) :
    let r := handleSpike created bit respond now pid comm d
    SinkInv sink₀ (history ++ [.spike c pid comm now]) (r.1, applyCalls sink r.2) := by
  rcases @handleSpike_cases pid now comm created bit respond d inv.table created_pid
      (fun p stats => (respond_keeps p stats).1) with
    ⟨-, full, eq⟩ | ⟨p, after, origin, rfl, replaces, eq⟩
  · simpa only [eq] using inv.spike_of_full full c pid comm now
  simp only [eq]
  set x := (respond (noteSpike bit now p) d.stats).1
  have x_pid : x.pid = p.pid := (respond_keeps _ _).1
  have x_nice : x.originalNice = p.originalNice := (respond_keeps _ _).2
  have x_mem : x ∈ after := (replaces.mem x).mpr (.inr rfl)
  have old : ∀ y ∈ d.tracked, y.pid ≠ p.pid → y ∈ after := fun y hy ne =>
    (replaces.mem y).mpr (.inl ⟨hy, x_pid ▸ ne⟩)
  refine ⟨replaces.inv, fun q untracked => ?_, fun y hy => ?_, fun q seen => ?_,
    fun y hy => ?_⟩
  · have hq : p.pid ≠ q := fun same => untracked x x_mem (x_pid.trans same)
    exact (applyCalls_of_ne (fun a ha _ => (respond_calls _ _ a ha).symm ▸ hq) sink).trans
      (inv.untouched q fun y hy same => untracked y (old y hy (same ▸ hq.symm)) same)
  · by_cases same : y.pid = p.pid
    · simp [same, firstSpike_append, firstSpike]
    · have hy' := replaces.mem_of_ne hy (x_pid ▸ same)
      exact (inv.spiked_append hy' _).trans_ne (inv.spiked y hy')
  · by_cases hq : q = p.pid
    · exact .inl ⟨x, x_mem, x_pid.trans hq.symm⟩
    · rw [firstSpike_spike_of_ne hq] at seen
      rcases inv.waiting q seen with ⟨y, hy, rfl⟩ | full
      · exact .inl ⟨y, old y hy hq, rfl⟩
      · exact .inr (full.trans replaces.grows)
  · by_cases same : y.pid = p.pid
    · obtain rfl := replaces.eq_of_pid hy (same.trans x_pid.symm)
      rw [x_nice, x_pid]
      rcases origin with hp | ⟨fresh, p₀, added, rfl⟩
      · exact inv.original_append hp _
      · have unseen := inv.unseen fresh (addTracked_eq_some.mp added).1
        have zero : p₀.originalNice = 0 := by rw [(addTracked_eq_some.mp added).2]
        rw [created_nice p₀, zero, recordedNice, firstSpike_append, unseen, ← inv.untouched _ fresh]
        cases c <;> simp [firstSpike]
    · exact inv.original_append (replaces.mem_of_ne hy (x_pid ▸ same)) _

end Handler

theorem restorePriorities_sinkInv {sink₀ : Int → Sched} {history : List Occurrence}
    {d : DaemonState} {sink : Int → Sched} {dryRun : Bool} {now : Int}
    (inv : SinkInv sink₀ history (d, sink)) :
    let r := restorePriorities dryRun now (fun _ => true) d
    SinkInv sink₀ (history ++ [.restore now]) (r.1, applyCalls sink r.2) := by
  have same : ∀ q, firstSpike q (history ++ [.restore now]) = firstSpike q history := by
    simp [firstSpike_append, firstSpike]
  have lengths := congrArg List.length
    (@restoreAll_pids now d.tracked dryRun fun _ => true)
  simp only [List.length_map] at lengths
  refine ⟨restorePriorities_tableInv inv.table, fun q untracked => ?_, fun y hy => ?_,
    fun q seen => ?_, fun y hy => ?_⟩
  · have before : ∀ p ∈ d.tracked, p.pid ≠ q := fun p hp same => by
      obtain ⟨i, mem, -⟩ := @restoreAll_of_mem now d.tracked dryRun (fun _ => true) p hp
      exact untracked _ mem ((restoreOne_keeps _ _ _ _).1.trans same)
    refine (applyCalls_of_ne (fun a ha _ => ?_) sink).trans (inv.untouched q before)
    obtain ⟨p, hp, b, hb⟩ := restoreAll_calls _ ha
    rw [restoreOne_calls hb]
    exact before p hp
  · obtain ⟨p, hp, i, rfl, -⟩ := restoreAll_mem _ hy
    rw [same, (restoreOne_keeps _ _ _ _).1]
    exact inv.spiked p hp
  · rw [same] at seen
    rcases inv.waiting q seen with ⟨p, hp, rfl⟩ | full
    · obtain ⟨i, mem, -⟩ := @restoreAll_of_mem now d.tracked dryRun (fun _ => true) p hp
      exact .inl ⟨_, mem, (restoreOne_keeps _ _ _ _).1⟩
    · exact .inr (lengths ▸ full)
  · obtain ⟨p, hp, i, rfl, -⟩ := restoreAll_mem _ hy
    rw [(restoreOne_keeps _ _ _ _).1, (restoreOne_keeps _ _ _ _).2, recordedNice, same]
    exact inv.original p hp

theorem withSink_sinkInv (dryRun : Bool) {sink₀ : Int → Sched} {history : List Occurrence}
    {x : DaemonState × (Int → Sched)} (o : Occurrence) (inv : SinkInv sink₀ history x) :
    SinkInv sink₀ (history ++ [o]) (withSink dryRun x o).1 := by
  obtain ⟨d, sink⟩ := x
  cases o with
  | spike c pid comm now =>
    cases c
    · exact handleSpike_sinkInv inv (fun _ => rfl) (cpuResponse_keeps dryRun _ pid)
        (fun p stats a ha => ((cpuResponse_throttles dryRun _ pid p stats).calls a ha).2.1)
        (fun _ => rfl)
    · exact handleSpike_sinkInv inv (fun _ => rfl)
        (fun p stats => by rw [memResponse_keeps]; exact ⟨rfl, rfl⟩)
        (fun p stats a ha => ((memResponse_throttles dryRun _ pid p stats).calls a ha).2.1)
        (fun _ => rfl)
    · exact handleSpike_sinkInv inv (fun _ => rfl) (ioResponse_keeps dryRun _ pid)
        (fun p stats a ha => ((ioResponse_throttles dryRun _ pid p stats).calls a ha).2.1)
        (fun _ => rfl)
  | restore now => exact restorePriorities_sinkInv inv

/-- Outside dry-run mode, whenever `restore_priorities` restores a tracked process, the pid's
nice value afterwards is the record's `original_nice`: its nice value from before the daemon's
first action when its first spike was a CPU spike, and 0 otherwise. The rest of its sink entry
stays as the daemon left it. -/
theorem restoration_sets_recorded_nice {sink₀ : Int → Sched} {startTime now : Int}
    {history : List Occurrence} {p : TrackedProcess}
    (tracked : p ∈ (runSteps (withSink false) (DaemonState.init startTime, sink₀) history).1.1.tracked)
    (quiet : p.adjusted = true ∧ now - p.lastSeen > 5) :
    (withSink false (runSteps (withSink false) (DaemonState.init startTime, sink₀) history).1
        (.restore now)).1.2 p.pid =
      { (runSteps (withSink false) (DaemonState.init startTime, sink₀) history).1.2 p.pid with
          nice := recordedNice sink₀ history p.pid } := by
  generalize before_eq : (runSteps (withSink false) (DaemonState.init startTime, sink₀) history).1
    = before at tracked ⊢
  have inv : SinkInv sink₀ history before := by
    simpa [before_eq] using runSteps_history _ (SinkInv sink₀)
      (fun _ _ o h => withSink_sinkInv false o h) history [] _ (sinkInv_init sink₀ startTime)
  show applyCalls before.2 (restoreAll false now (fun _ => true) before.1.tracked).2.2 p.pid = _
  obtain ⟨i, -, calls⟩ := @restoreAll_of_mem now before.1.tracked false (fun _ => true) p tracked
  have restoring : (⟨.restore, now, .setNice p.pid p.originalNice, true⟩ : Issued) ∈
      (restoreOne false now true p).2.2 := by
    simp [restoreOne, setNice, quiet.1, quiet.2]
  rw [← inv.original p tracked]
  refine applyCalls_setNice (fun a ha same => ?_) ⟨_, calls _ restoring, rfl, rfl⟩ _
  obtain ⟨y, hy, b, hb⟩ := restoreAll_calls _ ha
  rw [restoreOne_calls hb] at same ⊢
  obtain rfl := inv.table.eq_of_pid hy tracked same
  rfl

def threeCpuPasses : List Occurrence :=
  [.spike .cpu 1 ['a'] 0, .restore 0, .spike .cpu 1 ['a'] 0, .restore 0,
   .spike .cpu 1 ['a'] 0, .restore 0]

theorem cpu_restoration_returns_nice :
    (⟨1, ['a'], 10, -5, true, 0, 0, 1, 3, .soft, 1⟩ : TrackedProcess) ∈
      (runSteps (withSink false) (DaemonState.init 0, fun _ => ⟨10, 0, 0, 0⟩) threeCpuPasses).1.1.tracked ∧
    (true = true ∧ (6 : Int) - 0 > 5) ∧ recordedNice (fun _ => ⟨10, 0, 0, 0⟩) threeCpuPasses 1 = 10 ∧
    (withSink false (runSteps (withSink false) (DaemonState.init 0, fun _ => ⟨10, 0, 0, 0⟩)
        threeCpuPasses).1 (.restore 6)).1.2 1 =
      { (runSteps (withSink false) (DaemonState.init 0, fun _ => ⟨10, 0, 0, 0⟩)
          threeCpuPasses).1.2 1 with nice := recordedNice (fun _ => ⟨10, 0, 0, 0⟩) threeCpuPasses 1 } :=
  have tracked : (⟨1, ['a'], 10, -5, true, 0, 0, 1, 3, .soft, 1⟩ : TrackedProcess) ∈
      (runSteps (withSink false) (DaemonState.init 0, fun _ => ⟨10, 0, 0, 0⟩) threeCpuPasses).1.1.tracked := by
    decide
  ⟨tracked, ⟨rfl, by decide⟩, rfl, restoration_sets_recorded_nice tracked ⟨rfl, by decide⟩⟩

/-- The sink before the daemon acts: every process at nice 10, in I/O class 0 and with
`oom_score_adj` 0. -/
def niceTen : Int → Sched := fun _ => ⟨10, 0, 0, 0⟩

def ioSpikes : List Occurrence := [.spike .io 1 ['a'] 0, .spike .io 1 ['a'] 0, .spike .io 1 ['a'] 0]

def memThenCpuSpikes : List Occurrence :=
  [.spike .mem 1 ['a'] 0, .spike .cpu 1 ['a'] 0, .spike .cpu 1 ['a'] 0]

/-- Restoring pid 1 at 6 s after `ioSpikes` renices it from 10 to 0 and leaves it in I/O
class 2; after `memThenCpuSpikes` it renices it from -5 to 0. Before the daemon's first action
its sink entry was `niceTen 1`, nice 10 in I/O class 0. -/
theorem restoration_renices_to_zero :
    niceTen 1 = ⟨10, 0, 0, 0⟩ ∧
    (runSteps (withSink false) (DaemonState.init 0, niceTen) ioSpikes).1.2 1 = ⟨10, 2, 0, 0⟩ ∧
    (withSink false (runSteps (withSink false) (DaemonState.init 0, niceTen) ioSpikes).1
      (.restore 6)).1.2 1 = ⟨0, 2, 0, 0⟩ ∧
    (runSteps (withSink false) (DaemonState.init 0, niceTen) memThenCpuSpikes).1.2 1 = ⟨-5, 0, 0, 0⟩ ∧
    (withSink false (runSteps (withSink false) (DaemonState.init 0, niceTen) memThenCpuSpikes).1
      (.restore 6)).1.2 1 = ⟨0, 0, 0, 0⟩ := by
  refine ⟨rfl, ?_, ?_, ?_, ?_⟩ <;> decide

end SmartScheduler.Daemon

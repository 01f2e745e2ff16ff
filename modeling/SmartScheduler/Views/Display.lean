import SmartScheduler.Views.Monitor

/-!
# The monitor's display

After each refresh, `print_predictions` sorts the first `process_count` slots with `qsort`
and `compare_by_alert`, then walks them in that order: outside `-a` mode it skips a slot
with alert level `NONE` and no spike flag, and stops once `show_top_n` rows are printed; with
`-a` it prints every slot. For every order `qsort` may leave, the rows are the first
`show_top_n` active slots, every active slot is among the rows or ranks no higher than each
of them, and `-a` prints every slot (`print_predictions_shows_top`).

On the views of a reachable store whose comms are words, each of the first 100 slots shows the
spike flags and the alert level of one signature. The module sets a spike bit exactly when the
rate of change crosses its threshold (2000, 1500 and 1000), and `calc_alert_level` grades the
largest rate of change (above 500, 1500, 3000 and 5000), so a CPU or MEM spike comes with an
alert of at least `MEDIUM` and an I/O spike with at least `LOW` (`listed_spikes_alerted`):
the table never shows a listed spike at alert level `NONE`.

`print_stats_summary` and `print_advisories` then count over the sorted slots, so the order
`qsort` left does not matter (`SortedByAlert.summaries_eq`). The alert level comes from the
stats view, fresh in every slot, so the `Active` count is the number of signatures with a
rate of change above 500. The spike flags are fresh only in the first 100 slots, so the
advisory counts are the store's spikes at each alert level when it holds at most 100
signatures (`summaries_count_predicted_alerts`); past that, a slot's flags may be those of the
process the slot held before.
-/

namespace SmartScheduler

open Text Kernel Daemon

namespace Monitor

/-- A slot `print_predictions` prints outside `-a` mode: an alert level above `NONE`, or a
spike flag. -/
def ProcessInfo.active (p : ProcessInfo) : Bool := decide (p.alertLevel ≠ .none) || p.hasSpike

/-- The loop of `print_predictions` over the sorted slots, `shown` rows printed so far: the
slots it prints a row for. -/
def displayLoop (showAll : Bool) (showTopN shown : Int) : List ProcessInfo → List ProcessInfo
  | [] => []
  | p :: ps =>
    if showAll || decide (shown < showTopN) then
      if !showAll && decide (p.alertLevel = .none) && !p.hasCpuSpike && !p.hasMemSpike &&
          !p.hasIoSpike then displayLoop showAll showTopN shown ps
      else p :: displayLoop showAll showTopN (shown + 1) ps
    else []

/-- The rows `print_predictions` prints from the slots `ps` after its `qsort` of the first
`count`. -/
def printedRows (showAll : Bool) (showTopN : Int) (count : Nat) (ps : List ProcessInfo) :
    List ProcessInfo :=
  displayLoop showAll showTopN 0 (ps.take count)

theorem skipped_iff (p : ProcessInfo) :
    (decide (p.alertLevel = .none) && !p.hasCpuSpike && !p.hasMemSpike && !p.hasIoSpike) =
      !p.active := by
  simp only [ProcessInfo.active, ProcessInfo.hasSpike, ne_eq, decide_not, Bool.not_or,
    Bool.not_not, Bool.and_assoc]

theorem displayLoop_active (showTopN : Int) :
    ∀ (ps : List ProcessInfo) (shown : Int),
      displayLoop false showTopN shown ps = (ps.filter ProcessInfo.active).take (showTopN - shown).toNat
  | [], _ => by simp [displayLoop]
  | p :: ps, shown => by
    unfold displayLoop
    by_cases room : shown < showTopN
    · have left : (showTopN - shown).toNat = (showTopN - (shown + 1)).toNat + 1 := by omega
      cases active : p.active <;>
        simp [room, skipped_iff, active, List.filter_cons, displayLoop_active showTopN ps, left]
    · rw [if_neg (by simpa using room), Int.toNat_eq_zero.mpr (by omega), List.take_zero]

theorem displayLoop_all (showTopN : Int) :
    ∀ (ps : List ProcessInfo) (shown : Int), displayLoop true showTopN shown ps = ps
  | [], _ => rfl
  | p :: ps, shown => by simp [displayLoop, displayLoop_all showTopN ps]

theorem SortedByAlert.take_eq {count : Nat} {ps sorted front : List ProcessInfo}
    (perm : front.Perm (ps.take count)) (eq : sorted = front ++ ps.drop count) :
    sorted.take count = front := by
  rw [eq, List.take_append_eq_append_take, List.take_of_length_le (by
    rw [perm.length_eq]; exact List.length_take_le _ _)]
  have : count - front.length = 0 ∨ ps.drop count = [] := by
    rw [perm.length_eq, List.length_take]
    by_cases short : count ≤ ps.length
    · exact .inl (by omega)
    · exact .inr (List.drop_eq_nil_of_le (by omega))
  rcases this with zero | empty
  · rw [zero, List.take_zero, List.append_nil]
  · rw [empty, List.take_nil, List.append_nil]

/-- For every order `qsort` may leave the first `count` slots in: outside `-a` mode,
`print_predictions` prints `min(show_top_n, #active)` rows, all of them active, and an active
slot it does not print ranks no higher than any printed one (a spike first, then the alert
level); with `-a` it prints each of the first `count` slots once. -/
theorem print_predictions_shows_top {count : Nat} {ps sorted : List ProcessInfo}
    (sorting : SortedByAlert count ps sorted) (showTopN : Int) :
    let rows := printedRows false showTopN count sorted
    rows.length = min showTopN.toNat ((ps.take count).countP ProcessInfo.active) ∧
      (∀ p ∈ rows, p.active) ∧
      (∀ p ∈ rows, ∀ q ∈ ps.take count, q.active → q ∉ rows → alertRank q ≤ alertRank p) ∧
      (printedRows true showTopN count sorted).Perm (ps.take count) := by
  obtain ⟨front, perm, ordered, eq⟩ := sorting
  have taken := SortedByAlert.take_eq perm eq
  simp only [printedRows, taken, displayLoop_active, displayLoop_all, sub_zero]
  have ranked : (front.filter ProcessInfo.active).Pairwise fun a b => compareByAlert a b ≤ 0 :=
    ordered.sublist (List.filter_sublist _)
  rw [← List.take_append_drop showTopN.toNat (front.filter ProcessInfo.active),
    List.pairwise_append] at ranked
  refine ⟨?_, fun p mem => (List.mem_filter.mp (List.mem_of_mem_take mem)).2,
    fun p shown q slot active hidden => ?_, perm⟩
  · rw [List.length_take, ← List.countP_eq_length_filter, perm.countP_eq]
  · have kept : q ∈ front.filter ProcessInfo.active := List.mem_filter.mpr ⟨perm.mem_iff.mpr slot, active⟩
    rw [← List.take_append_drop showTopN.toNat (front.filter ProcessInfo.active)] at kept
    rcases List.mem_append.mp kept with early | late
    · exact absurd early hidden
    · exact (compareByAlert_nonpos_iff p q).mp (ranked.2.2 p shown q late)

def quietHigh : ProcessInfo := { ProcessInfo.zero with pid := 1, alertLevel := .high }

def spikingMedium : ProcessInfo :=
  { ProcessInfo.zero with pid := 2, hasCpuSpike := true, alertLevel := .medium }

theorem spike_ranks_before_alert :
    SortedByAlert 2 [quietHigh, spikingMedium] [spikingMedium, quietHigh] ∧
      let rows := printedRows false 1 2 [spikingMedium, quietHigh]
      rows.length = min (1 : Int).toNat (([quietHigh, spikingMedium].take 2).countP ProcessInfo.active) ∧
        (∀ p ∈ rows, p.active) ∧
        (∀ p ∈ rows, ∀ q ∈ [quietHigh, spikingMedium].take 2, q.active → q ∉ rows →
          alertRank q ≤ alertRank p) ∧
        (printedRows true 1 2 [spikingMedium, quietHigh]).Perm ([quietHigh, spikingMedium].take 2) :=
  have sorting : SortedByAlert 2 [quietHigh, spikingMedium] [spikingMedium, quietHigh] :=
    ⟨[spikingMedium, quietHigh], List.Perm.swap _ _ _, by decide, rfl⟩
  ⟨sorting, print_predictions_shows_top sorting 1⟩

theorem calcAlertLevel_toInt (cpuRoc memRoc ioRoc : Int) :
    (AlertLevel.critical.toInt ≤ (calcAlertLevel cpuRoc memRoc ioRoc).toInt ↔
        5000 < cpuRoc ∨ 5000 < memRoc ∨ 5000 < ioRoc) ∧
      (AlertLevel.high.toInt ≤ (calcAlertLevel cpuRoc memRoc ioRoc).toInt ↔
        3000 < cpuRoc ∨ 3000 < memRoc ∨ 3000 < ioRoc) ∧
      (AlertLevel.medium.toInt ≤ (calcAlertLevel cpuRoc memRoc ioRoc).toInt ↔
        1500 < cpuRoc ∨ 1500 < memRoc ∨ 1500 < ioRoc) ∧
      (AlertLevel.low.toInt ≤ (calcAlertLevel cpuRoc memRoc ioRoc).toInt ↔
        500 < cpuRoc ∨ 500 < memRoc ∨ 500 < ioRoc) := by
  have pick : ∀ a b : Int, (if a > b then a else b) = max a b := fun a b => by split_ifs <;> omega
  have top : ∀ bound : Int, bound < max (max cpuRoc memRoc) ioRoc ↔
      bound < cpuRoc ∨ bound < memRoc ∨ bound < ioRoc := fun bound => by
    simp only [lt_max_iff, or_assoc]
  simp only [calcAlertLevel, pick, ← top]
  generalize max (max cpuRoc memRoc) ioRoc = t
  split_ifs <;> simp only [AlertLevel.toInt] <;> omega

theorem predictorInv_spikeBits {sig : ProcSignature} (inv : PredictorInv sig) :
    (sig.flags &&& flagCpuSpikePredicted ≠ 0 ↔ cpuSpikeThreshold < sig.cpuRoc) ∧
      (sig.flags &&& flagMemSpikePredicted ≠ 0 ↔ memSpikeThreshold < sig.memRoc) ∧
      (sig.flags &&& flagIoSpikePredicted ≠ 0 ↔ ioSpikeThreshold < sig.ioRoc) := by
  obtain ⟨cpu, mem, io, -⟩ := spikeFlags_bits (isSpikePredicted sig.cpuRoc cpuSpikeThreshold)
    (isSpikePredicted sig.memRoc memSpikeThreshold) (isSpikePredicted sig.ioRoc ioSpikeThreshold)
  rw [inv.flags_eq, cpu, mem, io]
  simp only [isSpikePredicted, decide_eq_true_eq, gt_iff_lt, and_self]

theorem exists_of_map_eq_map {α β γ δ : Type} {f : α → γ} {g : β → γ} {f' : α → δ}
    {g' : β → δ} : ∀ {l : List α} {s : List β}, l.map f = s.map g → l.map f' = s.map g' →
      ∀ a ∈ l, ∃ b ∈ s, f a = g b ∧ f' a = g' b
  | [], _, _, _, _, mem => nomatch mem
  | _ :: _, [], same, _, _, _ => nomatch same
  | a :: l, b :: s, same, same', x, mem => by
    simp only [List.map_cons, List.cons.injEq] at same same'
    rcases List.mem_cons.mp mem with rfl | later
    · exact ⟨b, List.mem_cons_self _ _, same.1, same'.1⟩
    · obtain ⟨c, hc, e, e'⟩ := exists_of_map_eq_map same.2 same'.2 x later
      exact ⟨c, List.mem_cons_of_mem _ hc, e, e'⟩

theorem spikes_alerted_of_rows {m : MonitorState} {sigs : List ProcSignature}
    (count : m.processCount = min maxProcs sigs.length)
    (stats : (m.processes.take m.processCount).map ProcessInfo.statsView =
      (sigs.take maxProcs).map signatureStatsView)
    (spikes : (m.processes.take (min 100 sigs.length)).map ProcessInfo.spikeProc =
      (sigs.take 100).map HealthCheck.signatureSpikeProc)
    (kept : ∀ sig ∈ sigs, PredictorInv sig) :
    ∀ p ∈ m.processes.take (min 100 sigs.length),
      ((p.hasCpuSpike ∨ p.hasMemSpike) → AlertLevel.medium.toInt ≤ p.alertLevel.toInt) ∧
        (p.hasIoSpike → AlertLevel.low.toInt ≤ p.alertLevel.toInt) := by
  intro p listed
  have leading : (m.processes.take (min 100 sigs.length)).map ProcessInfo.statsView =
      (sigs.take 100).map signatureStatsView := by
    have taken := congrArg (List.take (min 100 sigs.length)) stats
    have first : sigs.take (min 100 sigs.length) = sigs.take 100 := by
      rw [← List.take_take, List.take_length]
    rwa [← List.map_take, ← List.map_take, List.take_take, List.take_take, count,
      show min (min 100 sigs.length) (min maxProcs sigs.length) = min 100 sigs.length by
        simp only [maxProcs]; omega,
      show min (min 100 sigs.length) maxProcs = min 100 sigs.length by simp only [maxProcs]; omega,
      first] at taken
  obtain ⟨sig, mem, view, spike⟩ := exists_of_map_eq_map leading spikes p listed
  obtain ⟨cpu, memBit, io⟩ := predictorInv_spikeBits (kept sig (List.mem_of_mem_take mem))
  have alert : p.alertLevel = calcAlertLevel sig.cpuRoc sig.memRoc sig.ioRoc :=
    congrArg (·.2.2.2.2.2.2.2) view
  have flags := congrArg (fun sp : HealthCheck.SpikeProc => (sp.cpuSpike, sp.memSpike, sp.ioSpike)) spike
  simp only [ProcessInfo.spikeProc, HealthCheck.signatureSpikeProc, Prod.mk.injEq] at flags
  obtain ⟨-, -, medium, low⟩ := calcAlertLevel_toInt sig.cpuRoc sig.memRoc sig.ioRoc
  simp only [cpuSpikeThreshold, memSpikeThreshold, ioSpikeThreshold] at cpu memBit io
  rw [alert, medium, low, flags.1, flags.2.1, flags.2.2]
  simp only [decide_eq_true_eq, cpu, memBit, io]
  omega

/-- Over every reachable store whose comms are words, from any state of the monitor: after a
refresh that reads the two views, each of the first 100 slots with a CPU or MEM spike flag
has an alert level of at least `MEDIUM`, and each with an I/O spike flag at least `LOW`. -/
theorem listed_spikes_alerted {ioAccounting : Bool} {st : Store}
    (reachable : Kernel.Reachable ioAccounting st)
    (words : ∀ sig ∈ st.signatures, sig.comm ≠ [] ∧ Solid sig.comm) (prior : MonitorState) (now : Int) :
    let m := monitorStep prior ⟨now, some (statsShow st), some (predictionsShow st)⟩
    ∀ p ∈ m.processes.take (min 100 st.signatures.length),
      ((p.hasCpuSpike ∨ p.hasMemSpike) → AlertLevel.medium.toInt ≤ p.alertLevel.toInt) ∧
        (p.hasIoSpike → AlertLevel.low.toInt ≤ p.alertLevel.toInt) :=
  have rows := monitorStep_rows (statsShow_rows reachable.wellTyped)
    (decoded_predictionsShow reachable words (by decide)) reachable.wellTyped
    reachable.storeInv.pids_nodup prior now
  spikes_alerted_of_rows rows.1 rows.2.1 rows.2.2.1
    fun sig mem => (reachable.signatureReachable sig mem).predictorInv

theorem burst_spikes_alerted :
    Kernel.Reachable true burstStore ∧ burstStore.signatures = [burstSignature] ∧
      (∀ sig ∈ burstStore.signatures, sig.comm ≠ [] ∧ Solid sig.comm) ∧
      let m := monitorStep MonitorState.init
        ⟨0, some (statsShow burstStore), some (predictionsShow burstStore)⟩
      ∀ p ∈ m.processes.take (min 100 burstStore.signatures.length),
        ((p.hasCpuSpike ∨ p.hasMemSpike) → AlertLevel.medium.toInt ≤ p.alertLevel.toInt) ∧
          (p.hasIoSpike → AlertLevel.low.toInt ≤ p.alertLevel.toInt) :=
  have reachable : Kernel.Reachable true burstStore := ⟨_, burstStore_spec.1⟩
  ⟨reachable, burstStore_spec.2.1, Daemon.burstStore_words,
    listed_spikes_alerted reachable Daemon.burstStore_words MonitorState.init 0⟩

/-- The two counts `print_advisories` keeps for one resource, whose spike flag `spike` reads:
the slots with the flag and an alert level of at least `CRITICAL`, and the slots with the flag
and a level of at least `HIGH` below that. -/
def advisoryCounts (spike : ProcessInfo → Bool) (ps : List ProcessInfo) : Int × Int :=
  ((ps.countP fun p => spike p && decide (AlertLevel.critical.toInt ≤ p.alertLevel.toInt) : Nat),
    (ps.countP fun p => spike p && !decide (AlertLevel.critical.toInt ≤ p.alertLevel.toInt) &&
      decide (AlertLevel.high.toInt ≤ p.alertLevel.toInt) : Nat))

/-- The CPU, MEM and I/O counts that `print_advisories` prints beside the spike totals, from
its loop over the first `process_count` slots as `print_predictions` left them. -/
def printAdvisories (processCount : Nat) (processes : List ProcessInfo) :
    (Int × Int) × (Int × Int) × (Int × Int) :=
  let ps := processes.take processCount
  (advisoryCounts (·.hasCpuSpike) ps, advisoryCounts (·.hasMemSpike) ps,
    advisoryCounts (·.hasIoSpike) ps)

/-- The `active` count of `print_stats_summary`: the first `process_count` slots with an alert
level above `NONE`. -/
def activeCount (processCount : Nat) (processes : List ProcessInfo) : Int :=
  ((processes.take processCount).countP fun p =>
    decide (AlertLevel.none.toInt < p.alertLevel.toInt) : Nat)

def rocAbove (bound : Int) (sig : ProcSignature) : Bool :=
  decide (bound < sig.cpuRoc ∨ bound < sig.memRoc ∨ bound < sig.ioRoc)

def predictedAdvisories (roc : ProcSignature → Int) (threshold : Int)
    (sigs : List ProcSignature) : Int × Int :=
  ((sigs.countP fun sig => decide (threshold < roc sig) && rocAbove 5000 sig : Nat),
    (sigs.countP fun sig =>
      decide (threshold < roc sig) && !rocAbove 5000 sig && rocAbove 3000 sig : Nat))

theorem SortedByAlert.summaries_eq {count : Nat} {ps sorted : List ProcessInfo}
    (sorting : SortedByAlert count ps sorted) :
    printAdvisories count sorted = printAdvisories count ps ∧
      activeCount count sorted = activeCount count ps := by
  obtain ⟨front, perm, -, eq⟩ := sorting
  simp only [printAdvisories, activeCount, advisoryCounts, SortedByAlert.take_eq perm eq,
    perm.countP_eq, and_self]

theorem SortedByAlert.of_count_le_one {count : Nat} {ps : List ProcessInfo} (le : count ≤ 1) :
    SortedByAlert count ps ps := by
  refine ⟨ps.take count, List.Perm.refl _, ?_, (List.take_append_drop count ps).symm⟩
  have short := (List.length_take_le count ps).trans le
  generalize ps.take count = front at short ⊢
  rcases front with _ | ⟨a, _ | ⟨b, rest⟩⟩
  · exact List.Pairwise.nil
  · exact List.pairwise_singleton _ a
  · simp at short

theorem countP_eq_of_map_eq_map {α β γ δ : Type} {f : α → γ} {g : β → γ} {f' : α → δ}
    {g' : β → δ} {P : α → Bool} {Q : β → Bool} :
    ∀ {l : List α} {s : List β}, l.map f = s.map g → l.map f' = s.map g' →
      (∀ a b, b ∈ s → f a = g b → f' a = g' b → P a = Q b) → l.countP P = s.countP Q
  | [], [], _, _, _ => rfl
  | [], _ :: _, same, _, _ => nomatch same
  | _ :: _, [], same, _, _ => nomatch same
  | a :: l, b :: s, same, same', agree => by
    simp only [List.map_cons, List.cons.injEq] at same same'
    simp only [List.countP_cons, agree a b (List.mem_cons_self _ _) same.1 same'.1,
      countP_eq_of_map_eq_map same.2 same'.2 fun a b mem => agree a b (List.mem_cons_of_mem _ mem)]

theorem advisoryCounts_of_views {ps : List ProcessInfo} {sigs : List ProcSignature}
    (spikes : ps.map ProcessInfo.spikeProc = sigs.map HealthCheck.signatureSpikeProc)
    (stats : ps.map ProcessInfo.statsView = sigs.map signatureStatsView)
    (spike : HealthCheck.SpikeProc → Bool) (roc : ProcSignature → Int) (threshold : Int)
    (flag : ∀ sig ∈ sigs, spike (HealthCheck.signatureSpikeProc sig) = decide (threshold < roc sig)) :
    advisoryCounts (fun p => spike p.spikeProc) ps = predictedAdvisories roc threshold sigs := by
  simp only [advisoryCounts, predictedAdvisories]
  congr 2 <;> refine countP_eq_of_map_eq_map spikes stats fun p sig mem sp sv => ?_ <;>
    obtain ⟨critical, high, -⟩ := calcAlertLevel_toInt sig.cpuRoc sig.memRoc sig.ioRoc <;>
    have alert : p.alertLevel = calcAlertLevel sig.cpuRoc sig.memRoc sig.ioRoc :=
      congrArg (·.2.2.2.2.2.2.2) sv <;>
    simp only [sp, flag sig mem, alert, critical, high, rocAbove]

theorem summaries_of_rows {m : MonitorState} {sigs : List ProcSignature}
    (count : m.processCount = min maxProcs sigs.length)
    (stats : (m.processes.take m.processCount).map ProcessInfo.statsView =
      (sigs.take maxProcs).map signatureStatsView)
    (spikes : (m.processes.take (min 100 sigs.length)).map ProcessInfo.spikeProc =
      (sigs.take 100).map HealthCheck.signatureSpikeProc)
    (kept : ∀ sig ∈ sigs, PredictorInv sig) :
    activeCount m.processCount m.processes = (sigs.take maxProcs).countP (rocAbove 500) ∧
      (sigs.length ≤ 100 → printAdvisories m.processCount m.processes =
        (predictedAdvisories (·.cpuRoc) cpuSpikeThreshold sigs,
          predictedAdvisories (·.memRoc) memSpikeThreshold sigs,
          predictedAdvisories (·.ioRoc) ioSpikeThreshold sigs)) := by
  refine ⟨congrArg Nat.cast (countP_eq_of_map_eq_map stats stats fun p sig _ sv _ => ?_),
    fun few => ?_⟩
  · obtain ⟨-, -, -, low⟩ := calcAlertLevel_toInt sig.cpuRoc sig.memRoc sig.ioRoc
    have alert : p.alertLevel = calcAlertLevel sig.cpuRoc sig.memRoc sig.ioRoc :=
      congrArg (·.2.2.2.2.2.2.2) sv
    show decide (AlertLevel.none.toInt < p.alertLevel.toInt) = rocAbove 500 sig
    rw [alert, rocAbove, decide_eq_decide, ← low]
    simp only [AlertLevel.toInt]
    omega
  · have whole : m.processCount = sigs.length := by rw [count]; simp only [maxProcs]; omega
    rw [whole, List.take_of_length_le (show sigs.length ≤ maxProcs by simp only [maxProcs]; omega)]
      at stats
    rw [show min 100 sigs.length = sigs.length by omega, List.take_of_length_le few] at spikes
    have bits := fun sig mem => predictorInv_spikeBits (kept sig mem)
    simp only [printAdvisories, whole]
    exact Prod.ext
      (advisoryCounts_of_views spikes stats (·.cpuSpike) (·.cpuRoc) _ fun sig mem =>
        decide_eq_decide.mpr (bits sig mem).1)
      (Prod.ext
        (advisoryCounts_of_views spikes stats (·.memSpike) (·.memRoc) _ fun sig mem =>
          decide_eq_decide.mpr (bits sig mem).2.1)
        (advisoryCounts_of_views spikes stats (·.ioSpike) (·.ioRoc) _ fun sig mem =>
          decide_eq_decide.mpr (bits sig mem).2.2))

/-- Over every reachable store whose comms are words, from any state of the monitor, and for
every order `qsort` may leave: after a refresh that reads the two views and the sort of
`print_predictions`, the `Active` count of `print_stats_summary` is the number of the first
512 signatures with a rate of change above 500. When the store holds at most 100 signatures,
the CPU, MEM and I/O counts of `print_advisories` are the numbers of signatures with that spike
bit and a rate of change above 5000 (`Critical`), or none above 5000 and one above 3000
(`High`). -/
theorem summaries_count_predicted_alerts {ioAccounting : Bool} {st : Store}
    (reachable : Kernel.Reachable ioAccounting st)
    (words : ∀ sig ∈ st.signatures, sig.comm ≠ [] ∧ Solid sig.comm) (prior : MonitorState)
    (now : Int) {sorted : List ProcessInfo}
    (sorting : SortedByAlert
      (monitorStep prior ⟨now, some (statsShow st), some (predictionsShow st)⟩).processCount
      (monitorStep prior ⟨now, some (statsShow st), some (predictionsShow st)⟩).processes sorted) :
    let count := (monitorStep prior ⟨now, some (statsShow st), some (predictionsShow st)⟩).processCount
    activeCount count sorted = (st.signatures.take maxProcs).countP (rocAbove 500) ∧
      (st.signatures.length ≤ 100 → printAdvisories count sorted =
        (predictedAdvisories (·.cpuRoc) cpuSpikeThreshold st.signatures,
          predictedAdvisories (·.memRoc) memSpikeThreshold st.signatures,
          predictedAdvisories (·.ioRoc) ioSpikeThreshold st.signatures)) :=
  have rows := monitorStep_rows (statsShow_rows reachable.wellTyped)
    (decoded_predictionsShow reachable words (by decide)) reachable.wellTyped
    reachable.storeInv.pids_nodup prior now
  have summaries := summaries_of_rows rows.1 rows.2.1 rows.2.2.1
    fun sig mem => (reachable.signatureReachable sig mem).predictorInv
  have sorted := sorting.summaries_eq
  ⟨sorted.2.trans summaries.1, fun few => sorted.1.trans (summaries.2 few)⟩

theorem burst_summaries_counted :
    Kernel.Reachable true burstStore ∧ burstStore.signatures = [burstSignature] ∧
      (∀ sig ∈ burstStore.signatures, sig.comm ≠ [] ∧ Solid sig.comm) ∧
      SortedByAlert
        (monitorStep MonitorState.init ⟨0, some (statsShow burstStore), some (predictionsShow burstStore)⟩).processCount
        (monitorStep MonitorState.init ⟨0, some (statsShow burstStore), some (predictionsShow burstStore)⟩).processes
        (monitorStep MonitorState.init ⟨0, some (statsShow burstStore), some (predictionsShow burstStore)⟩).processes ∧
      let count :=
        (monitorStep MonitorState.init ⟨0, some (statsShow burstStore), some (predictionsShow burstStore)⟩).processCount
      let sorted :=
        (monitorStep MonitorState.init ⟨0, some (statsShow burstStore), some (predictionsShow burstStore)⟩).processes
      activeCount count sorted = (burstStore.signatures.take maxProcs).countP (rocAbove 500) ∧
        (burstStore.signatures.length ≤ 100 → printAdvisories count sorted =
          (predictedAdvisories (·.cpuRoc) cpuSpikeThreshold burstStore.signatures,
            predictedAdvisories (·.memRoc) memSpikeThreshold burstStore.signatures,
            predictedAdvisories (·.ioRoc) ioSpikeThreshold burstStore.signatures)) :=
  have reachable : Kernel.Reachable true burstStore := ⟨_, burstStore_spec.1⟩
  have rows := monitorStep_rows (statsShow_rows reachable.wellTyped)
    (decoded_predictionsShow reachable Daemon.burstStore_words (by decide)) reachable.wellTyped
    reachable.storeInv.pids_nodup MonitorState.init 0
  have one : (monitorStep MonitorState.init
      ⟨0, some (statsShow burstStore), some (predictionsShow burstStore)⟩).processCount ≤ 1 := by
    rw [rows.1, burstStore_spec.2.1]
    decide
  have sorting := @SortedByAlert.of_count_le_one _ (monitorStep MonitorState.init
    ⟨0, some (statsShow burstStore), some (predictionsShow burstStore)⟩).processes one
  ⟨reachable, burstStore_spec.2.1, Daemon.burstStore_words, sorting,
    summaries_count_predicted_alerts reachable Daemon.burstStore_words MonitorState.init 0 sorting⟩

end Monitor

end SmartScheduler

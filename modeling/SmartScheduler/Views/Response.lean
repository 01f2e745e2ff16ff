import SmartScheduler.Views.HealthCheck
import SmartScheduler.Daemon.Summary

/-!
# The daemon's response to the kernel's predictions

A pass of the daemon's main loop reads the predictions view and calls a spike handler for
each `'*'` flag of each decoded line. Every call a handler makes is on the pid of the line,
as that handler (`step_spike_calls`), so every handler call of a pass comes from a decoded
record whose flag for the handler's resource is `'*'` (`processPredictions_handler_calls`).

Over the view of a reachable store whose comms are words, the records are those of the first
100 signatures, so every `set_nice`, `ionice` and `oom_score_adj` call a pass makes as a
spike handler is on a process whose signature has the matching spike bit set
(`pass_calls_follow_predictions`): the daemon acts on no process the module did not predict.
-/

namespace SmartScheduler.Daemon
open Text Kernel

def PredictionRecord.flag (r : PredictionRecord) : Category → Char
  | .cpu => r.cpuFlag
  | .mem => r.memFlag
  | .io => r.ioFlag

def Category.spikeBit : Category → UInt32
  | .cpu => flagCpuSpikePredicted
  | .mem => flagMemSpikePredicted
  | .io => flagIoSpikePredicted

theorem step_spike_calls {dryRun : Bool} {d : DaemonState} {c : Category} {pid : Int}
    {comm : List Char} {io : Io} {a : Issued} (mem : a ∈ (step dryRun d (.spike c pid comm io)).2) :
    a.origin = .handler c ∧ a.call.pid = pid := by
  have located : ∀ {created bit} {respond : TrackedProcess → Stats → TrackedProcess × Stats × List Issued},
      (∀ q stats, ∀ a ∈ (respond q stats).2.2, a.origin = .handler c ∧ a.call.pid = pid) →
      a ∈ (handleSpike created bit respond io.now pid comm d).2 → a.origin = .handler c ∧ a.call.pid = pid :=
    fun calls mem => by
      rcases handleSpike_located with same | ⟨q, -, same, -⟩ <;> rw [same] at mem
      · nomatch mem
      · exact calls _ _ a mem
  cases c
  · exact located (fun q stats a mem => ((cpuResponse_throttles dryRun io pid q stats).calls a mem).imp_right And.left) mem
  · exact located (fun q stats a mem => ((memResponse_throttles dryRun io pid q stats).calls a mem).imp_right And.left) mem
  · exact located (fun q stats a mem => ((ioResponse_throttles dryRun io pid q stats).calls a mem).imp_right And.left) mem

theorem step_restore_calls {dryRun : Bool} {d : DaemonState} {now : Int} {ok : Nat → Bool}
    {a : Issued} (mem : a ∈ (step dryRun d (.restore now ok)).2) : a.origin = .restore := by
  obtain ⟨p, -, b, called⟩ := restoreAll_calls ok mem
  rw [restoreOne_calls called]

theorem mem_runSteps_calls {σ α : Type} (f : σ → α → σ × List Issued) {a : Issued} :
    ∀ (xs : List α) (s : σ), a ∈ (runSteps f s xs).2 → ∃ x ∈ xs, ∃ s', a ∈ (f s' x).2
  | [], _, mem => nomatch mem
  | x :: xs, s, mem => by
    rcases List.mem_append.mp mem with first | later
    · exact ⟨x, List.mem_cons_self _ _, s, first⟩
    · obtain ⟨y, hy, s', hs'⟩ := mem_runSteps_calls f xs _ later
      exact ⟨y, List.mem_cons_of_mem _ hy, s', hs'⟩

theorem mem_recordsEvents {c : Category} {pid : Int} {comm : List Char} {io : Io} :
    ∀ (answers : Nat → RecordIo) (records : List PredictionRecord),
      Event.spike c pid comm io ∈ recordsEvents answers records →
        ∃ r ∈ records, r.pid = pid ∧ r.flag c = '*'
  | _, [], mem => nomatch mem
  | answers, r :: rs, mem => by
    rcases List.mem_append.mp mem with here | later
    · refine ⟨r, List.mem_cons_self _ _, ?_⟩
      simp only [recordEvents, List.mem_append, List.mem_ite_nil_right, List.mem_singleton,
        Event.spike.injEq] at here
      cases c <;> simp only [PredictionRecord.flag, reduceCtorEq, false_and, and_false, or_false,
        false_or, true_and] at here ⊢ <;> exact ⟨here.2.1.symm, here.1⟩
    · obtain ⟨r', mem', found⟩ := mem_recordsEvents _ rs later
      exact ⟨r', List.mem_cons_of_mem _ mem', found⟩

theorem processPredictions_handler_calls {dryRun : Bool} {records : List PredictionRecord}
    {answers : Nat → RecordIo} {now : Int} {ok : Nat → Bool} {d : DaemonState} {a : Issued}
    {c : Category} (mem : a ∈ (processPredictions dryRun (some records) answers now ok d).2)
    (handler : a.origin = .handler c) : ∃ r ∈ records, r.pid = a.call.pid ∧ r.flag c = '*' := by
  obtain ⟨event, listed, d', called⟩ := mem_runSteps_calls _ _ d mem
  cases event with
  | spike c' pid comm io =>
    obtain ⟨origin, rfl⟩ := step_spike_calls called
    obtain rfl : c' = c := Origin.handler.inj (origin.symm.trans handler)
    rcases List.mem_append.mp listed with decoded | restore
    · exact mem_recordsEvents answers records decoded
    · simp at restore
  | restore now ok => exact absurd ((step_restore_calls called).symm.trans handler) (by simp)

theorem loopPass_calls (dryRun : Bool) (d : DaemonState) (records : Option (List PredictionRecord))
    (answers : Nat → RecordIo) (restoreNow : Int) (restoreOk : Nat → Bool) (checkNow : Int) :
    (loopPass dryRun d ⟨records, answers, restoreNow, restoreOk, checkNow⟩).2 =
      (processPredictions dryRun records answers restoreNow restoreOk d).2 := rfl

theorem readPredictions_predictionsShow {ioAccounting : Bool} {st : Store}
    (reachable : Kernel.Reachable ioAccounting st)
    (words : ∀ sig ∈ st.signatures, sig.comm ≠ [] ∧ Solid sig.comm) :
    readPredictions (some (predictionsShow st)) = some ((st.signatures.take 100).map predictionRecord) := by
  rw [readPredictions, Option.map_some', decoded_predictionsShow reachable words le_rfl]

theorem predictionRecord_flag (sig : ProcSignature) (c : Category) :
    (predictionRecord sig).flag c = '*' ↔ sig.flags &&& c.spikeBit ≠ 0 := by
  cases c <;> simp only [PredictionRecord.flag, Category.spikeBit, predictionRecord,
    HealthCheck.flagChar_eq_star]

/-- Over every reachable store whose comms are words, and from any state of the daemon: in a
pass of the main loop that reads the store's predictions view, every call a spike handler
makes (`set_nice` from the CPU handler, the `oom_score_adj` write from the MEM handler,
`ionice` from the I/O handler) is on the pid of one of the first 100 signatures the view
lists, and that signature has the spike bit of the handler's resource set. -/
theorem pass_calls_follow_predictions {ioAccounting : Bool} {st : Store}
    (reachable : Kernel.Reachable ioAccounting st)
    (words : ∀ sig ∈ st.signatures, sig.comm ≠ [] ∧ Solid sig.comm) (dryRun : Bool)
    (d : DaemonState) (answers : Nat → RecordIo) (restoreNow : Int) (restoreOk : Nat → Bool)
    (checkNow : Int) :
    ∀ a ∈ (loopPass dryRun d ⟨readPredictions (some (predictionsShow st)), answers, restoreNow,
        restoreOk, checkNow⟩).2, ∀ c, a.origin = .handler c →
      ∃ sig ∈ st.signatures.take 100, sig.pid = a.call.pid ∧ sig.flags &&& c.spikeBit ≠ 0 := by
  intro a mem c handler
  rw [loopPass_calls, readPredictions_predictionsShow reachable words] at mem
  obtain ⟨r, listed, pid, flag⟩ := processPredictions_handler_calls mem handler
  obtain ⟨sig, taken, rfl⟩ := List.mem_map.mp listed
  exact ⟨sig, taken, pid, (predictionRecord_flag sig c).mp flag⟩

theorem burst_pass_calls_follow_predictions :
    Kernel.Reachable true burstStore ∧
      (∀ sig ∈ burstStore.signatures, sig.comm ≠ [] ∧ Solid sig.comm) ∧
      (loopPass false (loopPass false (DaemonState.init 0) ⟨readPredictions (some (predictionsShow burstStore)),
          fun _ => ⟨⟨0, some 0, true⟩, ⟨0, some 0, true⟩, ⟨0, some 0, true⟩⟩, 0, fun _ => true, 0⟩).1
        ⟨readPredictions (some (predictionsShow burstStore)),
          fun _ => ⟨⟨0, some 0, true⟩, ⟨0, some 0, true⟩, ⟨0, some 0, true⟩⟩, 0, fun _ => true, 0⟩).2 =
        [⟨.handler .cpu, 0, .setNice 1 (-5), true⟩] ∧
      ∀ a ∈ (loopPass false (loopPass false (DaemonState.init 0) ⟨readPredictions (some (predictionsShow burstStore)),
          fun _ => ⟨⟨0, some 0, true⟩, ⟨0, some 0, true⟩, ⟨0, some 0, true⟩⟩, 0, fun _ => true, 0⟩).1
          ⟨readPredictions (some (predictionsShow burstStore)),
            fun _ => ⟨⟨0, some 0, true⟩, ⟨0, some 0, true⟩, ⟨0, some 0, true⟩⟩, 0, fun _ => true, 0⟩).2,
        ∀ c, a.origin = .handler c →
          ∃ sig ∈ burstStore.signatures.take 100, sig.pid = a.call.pid ∧ sig.flags &&& c.spikeBit ≠ 0 := by
  have reachable : Kernel.Reachable true burstStore := ⟨_, burstStore_spec.1⟩
  have read : readPredictions (some (predictionsShow burstStore)) =
      some [predictionRecord burstSignature] := by
    rw [readPredictions_predictionsShow reachable burstStore_words, burstStore_spec.2.1]
    rfl
  refine ⟨reachable, burstStore_words, ?_,
    pass_calls_follow_predictions reachable burstStore_words false _ _ 0 _ 0⟩
  rw [read]
  rfl

end SmartScheduler.Daemon

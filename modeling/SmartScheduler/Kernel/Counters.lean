import SmartScheduler.Kernel.Sampler

/-!
# Prediction counters

`update_signature` increments `total_predictions` exactly when it increments one of the
signature's three counters, and no signature is ever dropped, so along every run
`total_predictions` is the sum of the counters modulo `2 ^ 32`. The counters and
`total_samples` are `unsigned long`: every update adds one sample and at most one to each
counter, so a counter stays at most `total_samples` while the run has sampled fewer than
`2 ^ 64` task entries, a bound no run of the module reaches.
-/

namespace SmartScheduler.Kernel

def Store.predictionSum (st : Store) : Nat := (st.signatures.map predictionCount).sum

theorem predictionSum_eq (st : Store) :
    st.predictionSum = ∑ b, ((st.procSignatures b).map predictionCount).sum := by
  rw [Store.predictionSum, Store.signatures, List.map_flatMap, List.flatMap, List.sum_flatten,
    List.map_map, Fin.sum_univ_def]
  rfl

def CounterInv (st : Store) : Prop :=
  st.totalPredictions ≡ st.predictionSum [ZMOD 4294967296]

theorem getOrCreateSignature_counterInv {jiffies : UInt64} {ok : Bool} {pid : Int}
    {comm : List Char} {st st' : Store} {i : Nat} (inv : CounterInv st)
    (created : getOrCreateSignature jiffies ok pid comm st = some (i, st')) : CounterInv st' := by
  rcases getOrCreateSignature_some created with ⟨-, rfl⟩ | ⟨-, -, -, -, rfl⟩
  · exact inv
  · unfold CounterInv at inv ⊢
    rw [predictionSum_eq] at inv ⊢
    show st.totalPredictions ≡ ((∑ b, (((st.hashAdd pid (newSignature pid comm jiffies)).procSignatures
      b).map predictionCount).sum : Nat) : Int) [ZMOD 4294967296]
    rw [sum_signatures_hashAdd, show predictionCount (newSignature pid comm jiffies) = 0 from rfl,
      Nat.add_zero]
    exact inv

theorem updateAt_counterInv {b : Fin 1024} {i : Nat} {jiffies : UInt64} {c m io : Int}
    {st : Store} (inv : CounterInv st) : CounterInv (st.updateAt b i jiffies c m io) := by
  cases at_i : (st.procSignatures b)[i]? with
  | none => rwa [updateAt_of_none at_i]
  | some sig =>
    have buckets := sum_update_bucket (fun l => (l.map predictionCount).sum) st.procSignatures b
      ((st.procSignatures b).set i (updateSignature jiffies c m io sig st.totalPredictions).1)
    have inBucket := sum_map_set predictionCount
      (a := (updateSignature jiffies c m io sig st.totalPredictions).1) at_i
    have conserved := updateSignature_conserves jiffies c m io sig st.totalPredictions
    unfold CounterInv at inv ⊢
    rw [predictionSum_eq] at inv ⊢
    simp only [Store.updateAt, at_i]
    unfold Int.ModEq at inv conserved ⊢
    omega

theorem Reachable.counterInv {ioAccounting : Bool} {st : Store} (reachable : Reachable ioAccounting st) :
    CounterInv st :=
  reachable.invariant (by simp only [CounterInv, Store.predictionSum, init_signatures]; rfl)
    getOrCreateSignature_counterInv updateAt_counterInv

theorem no_predictions_without_tracked {ioAccounting : Bool} {st : Store}
    (reachable : Reachable ioAccounting st) (untracked : st.totalTracked = 0) :
    st.totalPredictions ≡ 0 [ZMOD 4294967296] := by
  have empty : st.signatures = [] := by
    rw [← List.length_eq_zero, ← Int.natCast_inj, ← reachable.storeInv.count, untracked]
    rfl
  have conserved := reachable.counterInv
  rwa [CounterInv, Store.predictionSum, empty] at conserved

theorem predictSpike_inInt {roc threshold : Int} {bit flags : UInt32} {count : UInt64} {total : Int}
    (inInt : InInt total) : InInt (predictSpike roc threshold bit flags count total).2.2 := by
  unfold predictSpike
  split_ifs
  exacts [toInt32_inInt _, inInt]

theorem Reachable.totalPredictions_inInt {ioAccounting : Bool} {st : Store}
    (reachable : Reachable ioAccounting st) : InInt st.totalPredictions :=
  reachable.invariant (P := fun st => InInt st.totalPredictions) (by decide)
    (fun inInt created => by
      rcases getOrCreateSignature_some created with ⟨-, rfl⟩ | ⟨-, -, -, -, rfl⟩ <;> exact inInt)
    fun {b i jiffies c m io st} inInt => by
      unfold Store.updateAt
      split
      · exact inInt
      · exact predictSpike_inInt (predictSpike_inInt (predictSpike_inInt inInt))

theorem Reachable.totalTracked_inInt {ioAccounting : Bool} {st : Store}
    (reachable : Reachable ioAccounting st) : InInt st.totalTracked := by
  have count := reachable.storeInv.count
  have bounded := reachable.storeInv.bounded
  unfold InInt intMin intMax
  omega

def CountsBelow (n : Nat) (st : Store) : Prop :=
  n < 18446744073709551616 → ∀ sig ∈ st.signatures, sig.totalSamples.toNat ≤ n ∧
    sig.cpuSpikesPredicted.toNat ≤ sig.totalSamples.toNat ∧
    sig.memSpikesPredicted.toNat ≤ sig.totalSamples.toNat ∧
    sig.ioSpikesPredicted.toNat ≤ sig.totalSamples.toNat

theorem updateSignature_countsBelow {n : Nat} (jiffies : UInt64) (c m i : Int)
    {sig : ProcSignature} (total : Int) (room : n + 1 < 18446744073709551616)
    (below : sig.totalSamples.toNat ≤ n ∧ sig.cpuSpikesPredicted.toNat ≤ sig.totalSamples.toNat ∧
      sig.memSpikesPredicted.toNat ≤ sig.totalSamples.toNat ∧
      sig.ioSpikesPredicted.toNat ≤ sig.totalSamples.toNat) :
    let sig' := (updateSignature jiffies c m i sig total).1
    sig'.totalSamples.toNat ≤ n + 1 ∧ sig'.cpuSpikesPredicted.toNat ≤ sig'.totalSamples.toNat ∧
      sig'.memSpikesPredicted.toNat ≤ sig'.totalSamples.toNat ∧
      sig'.ioSpikesPredicted.toNat ≤ sig'.totalSamples.toNat := by
  obtain ⟨samples, cpu, mem, io⟩ := below
  have total' := uint64_toNat_add_one sig.totalSamples
  unfold updateSignature
  dsimp only
  have cpu' := predictSpike_count (calcRateOfChange (updateEma sig.cpuEma c) sig.cpuEma)
    cpuSpikeThreshold flagCpuSpikePredicted (sig.flags &&& ~~~(flagCpuSpikePredicted |||
      flagMemSpikePredicted ||| flagIoSpikePredicted)) sig.cpuSpikesPredicted total (by omega)
  generalize predictSpike _ cpuSpikeThreshold _ _ _ total = cpuBlock at cpu' ⊢
  have mem' := predictSpike_count (calcRateOfChange (updateEma sig.memEma m) sig.memEma)
    memSpikeThreshold flagMemSpikePredicted cpuBlock.1 sig.memSpikesPredicted cpuBlock.2.2
    (by omega)
  generalize predictSpike _ memSpikeThreshold _ _ _ _ = memBlock at mem' ⊢
  have io' := predictSpike_count (calcRateOfChange (updateEma sig.ioEma i) sig.ioEma)
    ioSpikeThreshold flagIoSpikePredicted memBlock.1 sig.ioSpikesPredicted memBlock.2.2
    (by omega)
  generalize predictSpike _ ioSpikeThreshold _ _ _ _ = ioBlock at io' ⊢
  simp only [total']
  omega

theorem getOrCreateSignature_countsBelow {n : Nat} {jiffies : UInt64} {ok : Bool} {pid : Int}
    {comm : List Char} {st st' : Store} {i : Nat} (hold : CountsBelow n st)
    (created : getOrCreateSignature jiffies ok pid comm st = some (i, st')) : CountsBelow n st' := by
  rcases getOrCreateSignature_some created with ⟨-, rfl⟩ | ⟨-, -, -, -, rfl⟩
  · exact hold
  · intro small sig mem
    rcases mem_signatures_hashAdd.mp mem with rfl | before
    · simp [newSignature]
    · exact hold small sig before

theorem updateAt_countsBelow {n : Nat} {b : Fin 1024} {i : Nat} {jiffies : UInt64} {c m io : Int}
    {st : Store} (hold : CountsBelow n st) : CountsBelow (n + 1) (st.updateAt b i jiffies c m io) := by
  intro small sig mem
  rcases mem_signatures_updateAt mem with before | ⟨old, before, rfl⟩
  · have := hold (by omega) sig before
    omega
  · exact updateSignature_countsBelow jiffies c m io st.totalPredictions small
      (hold (by omega) old before)

/-- What a run of `ticks` leaves: `total_predictions` is the counters' sum mod `2 ^ 32`, and
while the run has sampled fewer than `2 ^ 64` task entries no counter exceeds its
signature's `total_samples`. -/
structure CountersConserved (ticks : List Tick) (st : Store) : Prop where
  total_modEq : st.totalPredictions ≡ st.predictionSum [ZMOD 4294967296]
  bounded : (ticks.map fun tick => tick.tasks.length).sum < 18446744073709551616 →
    ∀ sig ∈ st.signatures, sig.cpuSpikesPredicted.toNat ≤ sig.totalSamples.toNat ∧
      sig.memSpikesPredicted.toNat ≤ sig.totalSamples.toNat ∧
      sig.ioSpikesPredicted.toNat ≤ sig.totalSamples.toNat

theorem prediction_counters_conserved {ioAccounting : Bool} {ticks : List Tick} {st : Store}
    (run : runTicks ioAccounting ticks Store.init = some st) : CountersConserved ticks st := by
  refine ⟨(show Reachable ioAccounting st from ⟨ticks, run⟩).counterInv, fun small sig mem => ?_⟩
  have counted := runTicks_preserves (P := CountsBelow)
    (fun hold small sig mem => by have := hold (by omega) sig mem; omega)
    getOrCreateSignature_countsBelow updateAt_countsBelow (n := 0)
    (fun _ sig mem => by simp at mem) run
  rw [Nat.zero_add] at counted
  exact (counted small sig mem).2

theorem burst_counters_conserved :
    burstStore.totalPredictions = 2 ∧ burstStore.predictionSum = 2 ∧
      CountersConserved [⟨0, fun _ => true, [burstTask]⟩] burstStore :=
  ⟨burstStore_spec.2.2.2, by rw [Store.predictionSum, burstStore_spec.2.1]; rfl,
    prediction_counters_conserved burstStore_spec.1⟩

end SmartScheduler.Kernel

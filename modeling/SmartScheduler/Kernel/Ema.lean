import SmartScheduler.Kernel.Signature

/-!
# The EMA under a constant load

`update_ema(old, sample)` computes `(30 * sample + 70 * old) / 100` in `int`. While the sum
fits an `int` and both arguments are non-negative (`Fits`), that is the floor of the real
quotient, and the new EMA lies between the old one and the sample (`updateEma_eq`,
`updateEma_between`).

Fed the same sample `s` tick after tick, `update_signature` moves a resource's EMA towards
`s` without crossing it, each rate of change is `⌊30 (s - e) / 100⌋` and shrinks in absolute
value, and after finitely many ticks the EMA stops: at `s` from above, and from below at
`max(e₀, s - 3)`, since a gap of at most 3 rounds to a step of 0
(`constant_load_converges`). So under a constant load a resource's spike bit is set on an
initial run of ticks only.
-/

namespace SmartScheduler.Kernel

theorem uint32_or_and (a b c : UInt32) : (a ||| b) &&& c = (a &&& c) ||| (b &&& c) :=
  UInt32.eq_of_toBitVec_eq (by
    show (a.toBitVec ||| b.toBitVec) &&& c.toBitVec =
      (a.toBitVec &&& c.toBitVec) ||| (b.toBitVec &&& c.toBitVec)
    ext i
    simp only [BitVec.getLsbD_and, BitVec.getLsbD_or]
    cases a.toBitVec.getLsbD i <;> cases b.toBitVec.getLsbD i <;> cases c.toBitVec.getLsbD i <;> rfl)

theorem uint32_and_assoc (a b c : UInt32) : a &&& b &&& c = a &&& (b &&& c) :=
  UInt32.eq_of_toBitVec_eq (BitVec.and_assoc _ _ _)

theorem uint32_and_zero (a : UInt32) : a &&& 0 = 0 :=
  UInt32.eq_of_toBitVec_eq BitVec.and_zero

theorem setBitIf_and (set : Bool) (bit flags mask : UInt32) :
    setBitIf set bit flags &&& mask = setBitIf set (bit &&& mask) (flags &&& mask) := by
  cases set
  · rfl
  · exact uint32_or_and _ _ _

theorem spikeBits (flags : UInt32) (cpu mem io : Bool) :
    let set := setBitIf io flagIoSpikePredicted (setBitIf mem flagMemSpikePredicted
      (setBitIf cpu flagCpuSpikePredicted (flags &&&
        ~~~(flagCpuSpikePredicted ||| flagMemSpikePredicted ||| flagIoSpikePredicted))))
    (set &&& flagCpuSpikePredicted ≠ 0 ↔ cpu = true) ∧
      (set &&& flagMemSpikePredicted ≠ 0 ↔ mem = true) ∧
      (set &&& flagIoSpikePredicted ≠ 0 ↔ io = true) := by
  simp only [setBitIf_and, uint32_and_assoc]
  have cleared : ∀ bit ∈ [flagCpuSpikePredicted, flagMemSpikePredicted, flagIoSpikePredicted],
      ~~~(flagCpuSpikePredicted ||| flagMemSpikePredicted ||| flagIoSpikePredicted) &&& bit = 0 := by
    decide
  simp only [List.mem_cons, List.mem_singleton, List.not_mem_nil, or_false, forall_eq_or_imp,
    forall_eq] at cleared
  rw [cleared.1, cleared.2.1, cleared.2.2, uint32_and_zero]
  cases cpu <;> cases mem <;> cases io <;> decide

inductive Resource
  | cpu
  | mem
  | io
  deriving DecidableEq, Repr

structure Samples where
  jiffies : UInt64
  cpu : Int
  mem : Int
  io : Int
  deriving DecidableEq, Repr

namespace Resource

def ema : Resource → ProcSignature → Int
  | cpu, sig => sig.cpuEma
  | mem, sig => sig.memEma
  | io, sig => sig.ioEma

def roc : Resource → ProcSignature → Int
  | cpu, sig => sig.cpuRoc
  | mem, sig => sig.memRoc
  | io, sig => sig.ioRoc

def sample : Resource → Samples → Int
  | cpu, x => x.cpu
  | mem, x => x.mem
  | io, x => x.io

def threshold : Resource → Int
  | cpu => cpuSpikeThreshold
  | mem => memSpikeThreshold
  | io => ioSpikeThreshold

def bit : Resource → UInt32
  | cpu => flagCpuSpikePredicted
  | mem => flagMemSpikePredicted
  | io => flagIoSpikePredicted

variable (r : Resource) (x : Samples) (sig : ProcSignature) (total : Int)

theorem ema_updateSignature :
    r.ema (updateSignature x.jiffies x.cpu x.mem x.io sig total).1 = updateEma (r.ema sig) (r.sample x) := by
  cases r <;> rfl

theorem roc_updateSignature :
    r.roc (updateSignature x.jiffies x.cpu x.mem x.io sig total).1 =
      calcRateOfChange (updateEma (r.ema sig) (r.sample x)) (r.ema sig) := by
  cases r <;> rfl

theorem threshold_nonneg : 0 ≤ r.threshold := by
  cases r <;> decide

theorem flag_updateSignature :
    (updateSignature x.jiffies x.cpu x.mem x.io sig total).1.flags &&& r.bit ≠ 0 ↔
      r.threshold < r.roc (updateSignature x.jiffies x.cpu x.mem x.io sig total).1 := by
  obtain ⟨cpu, mem, io⟩ := spikeBits sig.flags
    (isSpikePredicted (updateSignature x.jiffies x.cpu x.mem x.io sig total).1.cpuRoc cpuSpikeThreshold)
    (isSpikePredicted (updateSignature x.jiffies x.cpu x.mem x.io sig total).1.memRoc memSpikeThreshold)
    (isSpikePredicted (updateSignature x.jiffies x.cpu x.mem x.io sig total).1.ioRoc ioSpikeThreshold)
  simp only [updateSignature, predictSpike_flags] at cpu mem io ⊢
  cases r
  · simpa [isSpikePredicted] using cpu
  · simpa [isSpikePredicted] using mem
  · simpa [isSpikePredicted] using io

end Resource

def Fits (sample ema : Int) : Prop := 0 ≤ sample ∧ 0 ≤ ema ∧ 100 * max sample ema ≤ intMax

instance (sample ema : Int) : Decidable (Fits sample ema) := inferInstanceAs (Decidable (_ ∧ _))

section Step

variable {s e : Int}

theorem updateEma_eq (fits : Fits s e) : updateEma e s = (30 * s + 70 * e) / 100 := by
  unfold Fits intMax at fits
  unfold updateEma alphaComplement alpha
  rw [toInt32_of_inInt (by unfold InInt intMin intMax; omega), Int.tdiv_eq_ediv (by omega) (by decide)]
  omega

theorem updateEma_between (fits : Fits s e) :
    min e s ≤ updateEma e s ∧ updateEma e s ≤ max e s := by
  rw [updateEma_eq fits]
  omega

theorem Fits.emaBound (fits : Fits s e) : EmaBound e := by
  unfold Fits intMax at fits
  unfold EmaBound
  omega

theorem Fits.updateEma (fits : Fits s e) : Fits s (updateEma e s) := by
  have := updateEma_eq fits
  unfold Fits at *
  omega

theorem updateEma_step (fits : Fits s e) : updateEma e s = e + 30 * (s - e) / 100 := by
  rw [updateEma_eq fits]
  omega

end Step

section Gap

variable {d : Int}

theorem step_of_nonneg (h : 0 ≤ d) : 0 ≤ 30 * d / 100 ∧ 30 * d / 100 ≤ d := by
  omega

theorem step_of_nonpos (h : d ≤ 0) : d ≤ 30 * d / 100 ∧ 30 * d / 100 ≤ 0 := by
  omega

theorem step_shrinks_of_nonneg (h : 0 ≤ d) :
    0 ≤ 30 * (d - 30 * d / 100) / 100 ∧ 30 * (d - 30 * d / 100) / 100 ≤ 30 * d / 100 := by
  have := step_of_nonneg h
  exact ⟨(step_of_nonneg (by omega)).1, Int.ediv_le_ediv (by decide) (by omega)⟩

theorem step_shrinks_of_nonpos (h : d ≤ 0) :
    30 * d / 100 ≤ 30 * (d - 30 * d / 100) / 100 ∧ 30 * (d - 30 * d / 100) / 100 ≤ 0 := by
  have := step_of_nonpos h
  exact ⟨Int.ediv_le_ediv (by decide) (by omega), (step_of_nonpos (by omega)).2⟩

end Gap

def constantEma (s e : Int) : Nat → Int
  | 0 => e
  | k + 1 => updateEma (constantEma s e k) s

def fixedEma (s e : Int) : Int := if s ≤ e then s else max e (s - 3)

section ConstantLoad

variable {s e : Int}

theorem constantEma_fits (fits : Fits s e) : ∀ k, Fits s (constantEma s e k)
  | 0 => fits
  | k + 1 => (constantEma_fits fits k).updateEma

theorem constantEma_succ (fits : Fits s e) (k : Nat) :
    constantEma s e (k + 1) = constantEma s e k + 30 * (s - constantEma s e k) / 100 :=
  updateEma_step (constantEma_fits fits k)

theorem constantEma_rising (fits : Fits s e) (below : e ≤ s) :
    ∀ k, e ≤ constantEma s e k ∧ constantEma s e k ≤ max e (s - 3)
  | 0 => ⟨le_refl e, le_max_left e _⟩
  | k + 1 => by
    have ih := constantEma_rising fits below k
    have gap := step_of_nonneg (d := s - constantEma s e k) (by omega)
    have short : 3 ≤ s - constantEma s e k → 30 * (s - constantEma s e k) / 100 ≤
        s - constantEma s e k - 3 := by omega
    rw [constantEma_succ fits k]
    omega

theorem constantEma_falling (fits : Fits s e) (above : s ≤ e) :
    ∀ k, s ≤ constantEma s e k ∧ constantEma s e k ≤ e
  | 0 => ⟨above, le_refl e⟩
  | k + 1 => by
    have ih := constantEma_falling fits above k
    have gap := step_of_nonpos (d := s - constantEma s e k) (by omega)
    rw [constantEma_succ fits k]
    omega

theorem constantEma_settles (fits : Fits s e) :
    ∀ k, constantEma s e (k + 1) = constantEma s e k ∨
      (s - constantEma s e k).natAbs + k ≤ (s - e).natAbs
  | 0 => .inr (by simp [constantEma])
  | k + 1 => by
    rw [constantEma_succ fits (k + 1)]
    rcases constantEma_settles fits k with same | closer
    · left
      have := constantEma_succ fits k
      rw [same]
      omega
    · have step := constantEma_succ fits k
      rcases le_total 0 (s - constantEma s e k) with below | above
      · have := step_of_nonneg below
        omega
      · have := step_of_nonpos above
        omega

theorem constantEma_stays {n : Nat} (stopped : constantEma s e (n + 1) = constantEma s e n) :
    ∀ k, n ≤ k → constantEma s e k = constantEma s e n := by
  intro k le
  induction k, le using Nat.le_induction with
  | base => rfl
  | succ k _ ih =>
    show updateEma (constantEma s e k) s = _
    rw [ih]
    exact stopped

theorem constantEma_fixed (fits : Fits s e) :
    ∀ k, (s - e).natAbs + 1 ≤ k → constantEma s e k = fixedEma s e := by
  have stopped : constantEma s e ((s - e).natAbs + 1 + 1) =
      constantEma s e ((s - e).natAbs + 1) := by
    rcases constantEma_settles fits ((s - e).natAbs + 1) with same | closer
    · exact same
    · omega
  intro k le
  rw [constantEma_stays stopped k le]
  rw [constantEma_succ fits] at stopped
  unfold fixedEma
  split
  case isTrue above =>
    have := constantEma_falling fits above ((s - e).natAbs + 1)
    have := step_of_nonpos (d := s - constantEma s e ((s - e).natAbs + 1)) (by omega)
    omega
  case isFalse below =>
    have := constantEma_rising fits (by omega) ((s - e).natAbs + 1)
    have := step_of_nonneg (d := s - constantEma s e ((s - e).natAbs + 1)) (by omega)
    omega

theorem constantEma_toward (fits : Fits s e) (k : Nat) :
    (e ≤ s → constantEma s e k ≤ constantEma s e (k + 1) ∧ constantEma s e (k + 1) ≤ s) ∧
      (s ≤ e → s ≤ constantEma s e (k + 1) ∧ constantEma s e (k + 1) ≤ constantEma s e k) := by
  rw [constantEma_succ fits k]
  constructor
  · intro below
    have := constantEma_rising fits below k
    have := step_of_nonneg (d := s - constantEma s e k) (by omega)
    omega
  · intro above
    have := constantEma_falling fits above k
    have := step_of_nonpos (d := s - constantEma s e k) (by omega)
    omega

theorem constantEma_steps_shrink (fits : Fits s e) (k : Nat) :
    (0 ≤ 30 * (s - constantEma s e (k + 1)) / 100 ∧
        30 * (s - constantEma s e (k + 1)) / 100 ≤ 30 * (s - constantEma s e k) / 100) ∨
      (30 * (s - constantEma s e k) / 100 ≤ 30 * (s - constantEma s e (k + 1)) / 100 ∧
        30 * (s - constantEma s e (k + 1)) / 100 ≤ 0) := by
  have gap : s - constantEma s e (k + 1) =
      s - constantEma s e k - 30 * (s - constantEma s e k) / 100 := by
    rw [constantEma_succ fits k]
    omega
  rw [gap]
  rcases le_total 0 (s - constantEma s e k) with below | above
  · exact .inl (step_shrinks_of_nonneg below)
  · exact .inr (step_shrinks_of_nonpos above)

theorem constantEma_abs_step_le (fits : Fits s e) (k : Nat) :
    |30 * (s - constantEma s e (k + 1)) / 100| ≤ |30 * (s - constantEma s e k) / 100| := by
  rcases constantEma_steps_shrink fits k with ⟨nonneg, le⟩ | ⟨le, nonpos⟩
  · rwa [abs_of_nonneg nonneg, abs_of_nonneg (nonneg.trans le)]
  · rw [abs_of_nonpos nonpos, abs_of_nonpos (le.trans nonpos)]
    omega

theorem constantEma_step_fixed (fits : Fits s e) {k : Nat} (le : (s - e).natAbs + 1 ≤ k) :
    30 * (s - constantEma s e k) / 100 = 0 := by
  have := constantEma_succ fits k
  rw [constantEma_fixed fits (k + 1) (by omega), constantEma_fixed fits k le] at this
  rw [constantEma_fixed fits k le]
  omega

end ConstantLoad

/-- The signature and `total_predictions` after `update_signature` with the samples
`ticks 0, ..., ticks (k - 1)`. -/
def updateRun (ticks : Nat → Samples) (sig : ProcSignature) (total : Int) :
    Nat → ProcSignature × Int
  | 0 => (sig, total)
  | k + 1 =>
    let x := updateRun ticks sig total k
    updateSignature (ticks k).jiffies (ticks k).cpu (ticks k).mem (ticks k).io x.1 x.2

section Run

variable {r : Resource} {ticks : Nat → Samples} {sig : ProcSignature} {total s : Int}

theorem ema_updateRun (constant : ∀ k, r.sample (ticks k) = s) :
    ∀ k, r.ema (updateRun ticks sig total k).1 = constantEma s (r.ema sig) k
  | 0 => rfl
  | k + 1 => by
    rw [updateRun, Resource.ema_updateSignature, ema_updateRun constant k, constant]
    rfl

theorem roc_updateRun (constant : ∀ k, r.sample (ticks k) = s) (fits : Fits s (r.ema sig))
    (k : Nat) : r.roc (updateRun ticks sig total (k + 1)).1 =
      30 * (s - constantEma s (r.ema sig) k) / 100 := by
  rw [updateRun, Resource.roc_updateSignature, ema_updateRun constant k, constant,
    calcRateOfChange_eq (updateEma_bound _ _) (constantEma_fits fits k).emaBound]
  have := constantEma_succ fits k
  rw [constantEma] at this
  omega

/-- Fed the sample `s` at every tick, with `s` and the starting EMA non-negative and
`100 * max(s, e₀)` within `INT_MAX`: the EMA moves monotonically towards `s` and never crosses
it; each rate of change is `⌊30 (s - e) / 100⌋` of the EMA `e` it replaces and never grows in
absolute value; from some tick on the EMA is `s` when `e₀ ≥ s` and `max(e₀, s - 3)` when
`e₀ < s`, with rate of change 0; and the resource's spike bit, once clear after an update, stays
clear. -/
theorem constant_load_converges (r : Resource) (ticks : Nat → Samples) (sig : ProcSignature)
    (total : Int) {s : Int} (constant : ∀ k, r.sample (ticks k) = s) (fits : Fits s (r.ema sig)) :
    (∀ k, (r.ema sig ≤ s →
        r.ema (updateRun ticks sig total k).1 ≤ r.ema (updateRun ticks sig total (k + 1)).1 ∧
          r.ema (updateRun ticks sig total (k + 1)).1 ≤ s) ∧
      (s ≤ r.ema sig →
        s ≤ r.ema (updateRun ticks sig total (k + 1)).1 ∧
          r.ema (updateRun ticks sig total (k + 1)).1 ≤ r.ema (updateRun ticks sig total k).1)) ∧
    (∀ k, r.roc (updateRun ticks sig total (k + 1)).1 =
      30 * (s - r.ema (updateRun ticks sig total k).1) / 100) ∧
    (∀ k, |r.roc (updateRun ticks sig total (k + 2)).1| ≤ |r.roc (updateRun ticks sig total (k + 1)).1|) ∧
    (∃ n, ∀ k, n ≤ k → r.ema (updateRun ticks sig total k).1 = fixedEma s (r.ema sig) ∧
      r.roc (updateRun ticks sig total (k + 1)).1 = 0) ∧
    ∀ k, (updateRun ticks sig total (k + 2)).1.flags &&& r.bit ≠ 0 →
      (updateRun ticks sig total (k + 1)).1.flags &&& r.bit ≠ 0 := by
  have ema := @ema_updateRun r ticks sig total s constant
  have roc := @roc_updateRun r ticks sig total s constant fits
  have flag : ∀ k, (updateRun ticks sig total (k + 1)).1.flags &&& r.bit ≠ 0 ↔
      r.threshold < 30 * (s - constantEma s (r.ema sig) k) / 100 := fun k => by
    rw [← roc, updateRun, Resource.flag_updateSignature]
  refine ⟨fun k => by simpa only [ema] using constantEma_toward fits k, fun k => by rw [roc, ema],
    fun k => by simpa only [roc] using constantEma_abs_step_le fits k,
    ⟨(s - r.ema sig).natAbs + 1, fun k le => ⟨by rw [ema]; exact constantEma_fixed fits k le,
      by rw [roc]; exact constantEma_step_fixed fits le⟩⟩, fun k => ?_⟩
  -- a spike bit is set when the step is above the threshold, and the steps only shrink
  rw [flag, flag]
  have := r.threshold_nonneg
  rcases constantEma_steps_shrink fits k with ⟨-, le⟩ | ⟨-, nonpos⟩
  · exact fun crossed => lt_of_lt_of_le crossed le
  · omega

theorem steady_cpu_load_settles :
    (∀ k, Resource.cpu.sample ((fun _ => ⟨0, 8000, 0, 0⟩ : Nat → Samples) k) = 8000) ∧
    Fits 8000 (Resource.cpu.ema (newSignature 1 ['a'] 0)) ∧
    fixedEma 8000 (Resource.cpu.ema (newSignature 1 ['a'] 0)) = 7997 ∧
    ∃ n, ∀ k, n ≤ k →
      Resource.cpu.ema (updateRun (fun _ => ⟨0, 8000, 0, 0⟩) (newSignature 1 ['a'] 0) 0 k).1 =
        fixedEma 8000 (Resource.cpu.ema (newSignature 1 ['a'] 0)) ∧
      Resource.cpu.roc (updateRun (fun _ => ⟨0, 8000, 0, 0⟩) (newSignature 1 ['a'] 0) 0 (k + 1)).1 = 0 :=
  ⟨fun _ => rfl, by decide, by decide,
    (constant_load_converges .cpu (fun _ => ⟨0, 8000, 0, 0⟩) (newSignature 1 ['a'] 0) 0
      (fun _ => rfl) (by decide)).2.2.2.1⟩

example : [1, 2, 3].map (constantEma 8000 0) = [2400, 4080, 5256] := by decide

end Run

end SmartScheduler.Kernel

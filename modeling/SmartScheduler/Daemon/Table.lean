import SmartScheduler.Daemon.State

/-!
# The tracked table

What one handler or one `restore_priorities` call does to `tracked`. `find_tracked` and
`add_tracked` keep one record per pid and at most `MAX_TRACKED` records (`TableInv`); a
handler replaces the record of its pid, found or created, and leaves every other record as
it was (`handleSpike_cases`); `restore_priorities` rewrites each record in place
(`restoreAll_mem`). Every invariant of the daemon is derived from these lemmas.
-/

namespace SmartScheduler.Daemon

variable {pid now : Int} {comm : List Char} {tracked : List TrackedProcess}

theorem findTracked_eq_none : findTracked pid tracked = none ↔ ∀ p ∈ tracked, p.pid ≠ pid := by
  induction tracked with
  | nil => simp [findTracked]
  | cons p ps ih => by_cases h : p.pid = pid <;> simp [findTracked, h, ih]

theorem findTracked_some {i : Nat} {p : TrackedProcess} (found : findTracked pid tracked = some (i, p)) :
    tracked[i]? = some p ∧ p.pid = pid := by
  induction tracked generalizing i with
  | nil => simp [findTracked] at found
  | cons q qs ih =>
    by_cases h : q.pid = pid
    · simp only [findTracked, h, if_true, Option.some.injEq, Prod.mk.injEq] at found
      obtain ⟨rfl, rfl⟩ := found
      exact ⟨by simp, h⟩
    · simp only [findTracked, h, if_false, Option.map_eq_some'] at found
      obtain ⟨⟨j, r⟩, rest, eq⟩ := found
      simp only [Prod.mk.injEq] at eq
      obtain ⟨rfl, rfl⟩ := eq
      simpa using ih rest

theorem addTracked_eq_some {p : TrackedProcess} :
    addTracked now pid comm tracked = some p ↔
      tracked.length < maxTracked ∧ p = ⟨pid, comm.take 31, 0, 0, false, 0, now, 0, 0, .none, 0⟩ := by
  unfold addTracked
  split <;> simp_all [eq_comm]

structure TableInv (tracked : List TrackedProcess) : Prop where
  nodup : (tracked.map TrackedProcess.pid).Nodup
  bounded : tracked.length ≤ maxTracked

theorem tableInv_nil : TableInv [] := ⟨List.nodup_nil, Nat.zero_le _⟩

theorem TableInv.eq_of_pid (inv : TableInv tracked) {p q : TrackedProcess} (hp : p ∈ tracked)
    (hq : q ∈ tracked) (same : p.pid = q.pid) : p = q :=
  List.inj_on_of_nodup_map inv.nodup hp hq same

theorem map_pid_set {i : Nat} {p y : TrackedProcess} (at_i : tracked[i]? = some p)
    (same : y.pid = p.pid) : (tracked.set i y).map TrackedProcess.pid = tracked.map TrackedProcess.pid := by
  apply List.ext_getElem?
  intro j
  simp only [List.getElem?_map, List.getElem?_set]
  split
  · subst_vars
    simp [(List.getElem?_eq_some_iff.mp at_i).1, at_i, same]
  · rfl

theorem mem_set_iff {i : Nat} {p y x : TrackedProcess} (nodup : (tracked.map TrackedProcess.pid).Nodup)
    (at_i : tracked[i]? = some p) (same : y.pid = p.pid) :
    x ∈ tracked.set i y ↔ (x ∈ tracked ∧ x.pid ≠ p.pid) ∨ x = y := by
  have hi : i < tracked.length := (List.getElem?_eq_some_iff.mp at_i).1
  constructor
  · intro mem
    obtain ⟨j, hj⟩ := List.mem_iff_getElem?.mp mem
    rw [List.getElem?_set] at hj
    by_cases hij : i = j
    · subst hij
      simp only [hi, if_true, Option.some.injEq] at hj
      exact .inr hj.symm
    · rw [if_neg hij] at hj
      refine .inl ⟨List.mem_iff_getElem?.mpr ⟨j, hj⟩, fun hpid => hij ?_⟩
      exact List.getElem?_inj (by simpa using hi) nodup (by simp [at_i, hj, hpid])
  · rintro (⟨mem, hpid⟩ | rfl)
    · obtain ⟨j, hj⟩ := List.mem_iff_getElem?.mp mem
      have hij : i ≠ j := by
        rintro rfl
        rw [at_i, Option.some.injEq] at hj
        exact hpid (congrArg TrackedProcess.pid hj.symm)
      exact List.mem_iff_getElem?.mpr ⟨j, by rw [List.getElem?_set, if_neg hij, hj]⟩
    · exact List.mem_set tracked i hi x

structure Replaces (before after : List TrackedProcess) (x : TrackedProcess) : Prop where
  inv : TableInv after
  grows : before.length ≤ after.length
  mem : ∀ y, y ∈ after ↔ (y ∈ before ∧ y.pid ≠ x.pid) ∨ y = x

theorem Replaces.mem_of_ne {before after : List TrackedProcess} {x y : TrackedProcess}
    (replaces : Replaces before after x) (hy : y ∈ after) (ne : y.pid ≠ x.pid) : y ∈ before := by
  rcases (replaces.mem y).mp hy with ⟨old, -⟩ | rfl
  · exact old
  · exact absurd rfl ne

theorem Replaces.eq_of_pid {before after : List TrackedProcess} {x y : TrackedProcess}
    (replaces : Replaces before after x) (hy : y ∈ after) (same : y.pid = x.pid) : y = x := by
  rcases (replaces.mem y).mp hy with ⟨-, ne⟩ | rfl
  · exact absurd same ne
  · rfl

theorem Replaces.set (inv : TableInv tracked) {i : Nat} {p x : TrackedProcess}
    (at_i : tracked[i]? = some p) (same : x.pid = p.pid) : Replaces tracked (tracked.set i x) x :=
  ⟨⟨by rw [map_pid_set at_i same]; exact inv.nodup, by simpa using inv.bounded⟩, by simp,
    fun y => by rw [same]; exact mem_set_iff inv.nodup at_i same⟩

theorem Replaces.append (inv : TableInv tracked) {x : TrackedProcess}
    (fresh : ∀ y ∈ tracked, y.pid ≠ x.pid) (room : tracked.length < maxTracked) :
    Replaces tracked (tracked ++ [x]) x := by
  refine ⟨⟨?_, by simpa only [List.length_append, List.length_singleton] using room⟩, by simp,
    fun y => ?_⟩
  · rw [List.map_append, List.map_singleton]
    exact List.nodup_append.mpr ⟨inv.nodup, List.nodup_singleton _,
      List.disjoint_singleton.mpr fun mem => by
        obtain ⟨y, hy, eq⟩ := List.mem_map.mp mem
        exact fresh y hy eq⟩
  · rw [List.mem_append, List.mem_singleton]
    exact ⟨Or.imp_left fun old => ⟨old, fresh y old⟩, Or.imp_left And.left⟩

section Handler

variable {created : TrackedProcess → TrackedProcess} {bit : Nat}
  {respond : TrackedProcess → Stats → TrackedProcess × Stats × List Issued} {d : DaemonState}

theorem handleSpike_cases (inv : TableInv d.tracked)
    (created_pid : ∀ p, (created p).pid = p.pid)
    (respond_pid : ∀ p stats, (respond p stats).1.pid = p.pid) :
    ((∀ x ∈ d.tracked, x.pid ≠ pid) ∧ maxTracked ≤ d.tracked.length ∧
      handleSpike created bit respond now pid comm d = (d, [])) ∨
    ∃ p after, (p ∈ d.tracked ∨ (∀ x ∈ d.tracked, x.pid ≠ pid) ∧
        ∃ p₀, addTracked now pid comm d.tracked = some p₀ ∧ p = created p₀) ∧ p.pid = pid ∧
      Replaces d.tracked after (respond (noteSpike bit now p) d.stats).1 ∧
      handleSpike created bit respond now pid comm d =
        ({ d with tracked := after, stats := (respond (noteSpike bit now p) d.stats).2.1 },
         (respond (noteSpike bit now p) d.stats).2.2) := by
  have same : ∀ p, (respond (noteSpike bit now p) d.stats).1.pid = p.pid := fun p => by
    rw [respond_pid]; rfl
  unfold handleSpike locate
  cases found : findTracked pid d.tracked with
  | some ip =>
    obtain ⟨at_i, rfl⟩ := findTracked_some found
    exact .inr ⟨ip.2, _, .inl (List.mem_iff_getElem?.mpr ⟨_, at_i⟩), rfl, .set inv at_i (same _), rfl⟩
  | none =>
    have fresh := findTracked_eq_none.mp found
    cases added : addTracked now pid comm d.tracked with
    | none =>
      refine .inl ⟨fresh, ?_, rfl⟩
      unfold addTracked at added
      split at added
      · assumption
      · cases added
    | some p₀ =>
      obtain ⟨room, hp₀⟩ := addTracked_eq_some.mp added
      have new_pid : (created p₀).pid = pid := by rw [created_pid, hp₀]
      refine .inr ⟨_, _, .inr ⟨fresh, _, rfl, rfl⟩, new_pid,
        .append inv (fun y hy => by rw [same, new_pid]; exact fresh y hy) room, ?_⟩
      simp [List.set_append_right]

end Handler

section Responses

variable {dryRun : Bool} {io : Io} {p : TrackedProcess} {stats : Stats}

@[simp] theorem noteSpike_pid (bit : Nat) : (noteSpike bit now p).pid = p.pid := rfl
@[simp] theorem noteSpike_originalNice (bit : Nat) :
    (noteSpike bit now p).originalNice = p.originalNice := rfl
@[simp] theorem noteSpike_adjusted (bit : Nat) : (noteSpike bit now p).adjusted = p.adjusted := rfl
@[simp] theorem noteSpike_adjustedTime (bit : Nat) :
    (noteSpike bit now p).adjustedTime = p.adjustedTime := rfl

theorem cpuResponse_keeps (dryRun : Bool) (io : Io) (pid : Int) (p : TrackedProcess) (stats : Stats) :
    (cpuResponse dryRun io pid p stats).1.pid = p.pid ∧
      (cpuResponse dryRun io pid p stats).1.originalNice = p.originalNice := by
  simp only [cpuResponse]; split_ifs <;> exact ⟨rfl, rfl⟩

theorem memResponse_keeps (dryRun : Bool) (io : Io) (pid : Int) (p : TrackedProcess) (stats : Stats) :
    (memResponse dryRun io pid p stats).1 = p := by
  simp only [memResponse]; split_ifs <;> rfl

theorem ioResponse_keeps (dryRun : Bool) (io : Io) (pid : Int) (p : TrackedProcess) (stats : Stats) :
    (ioResponse dryRun io pid p stats).1.pid = p.pid ∧
      (ioResponse dryRun io pid p stats).1.originalNice = p.originalNice := by
  simp only [ioResponse]; split_ifs <;> exact ⟨rfl, rfl⟩

theorem restoreOne_keeps (dryRun : Bool) (now : Int) (ok : Bool) (p : TrackedProcess) :
    (restoreOne dryRun now ok p).1.pid = p.pid ∧
      (restoreOne dryRun now ok p).1.originalNice = p.originalNice := by
  simp only [restoreOne]; split_ifs <;> simp

end Responses

section Restore

variable {dryRun : Bool}

theorem restoreAll_mem (ok : Nat → Bool) {x : TrackedProcess}
    (mem : x ∈ (restoreAll dryRun now ok tracked).1) :
    ∃ p ∈ tracked, ∃ i, x = (restoreOne dryRun now (ok i) p).1 ∧
      ∀ a ∈ (restoreOne dryRun now (ok i) p).2.2, a ∈ (restoreAll dryRun now ok tracked).2.2 := by
  induction tracked generalizing ok with
  | nil => simp [restoreAll] at mem
  | cons p ps ih =>
    simp only [restoreAll, List.mem_cons] at mem ⊢
    rcases mem with rfl | later
    · exact ⟨p, .inl rfl, 0, rfl, fun a ha => List.mem_append_left _ ha⟩
    · obtain ⟨q, hq, i, rfl, calls⟩ := ih _ later
      exact ⟨q, .inr hq, i + 1, rfl, fun a ha => List.mem_append_right _ (calls a ha)⟩

theorem restoreAll_of_mem (ok : Nat → Bool) {p : TrackedProcess} (mem : p ∈ tracked) :
    ∃ i, (restoreOne dryRun now (ok i) p).1 ∈ (restoreAll dryRun now ok tracked).1 ∧
      ∀ a ∈ (restoreOne dryRun now (ok i) p).2.2, a ∈ (restoreAll dryRun now ok tracked).2.2 := by
  induction tracked generalizing ok with
  | nil => simp at mem
  | cons q qs ih =>
    simp only [restoreAll, List.mem_cons, List.mem_append] at mem ⊢
    rcases mem with rfl | later
    · exact ⟨0, .inl rfl, fun a ha => .inl ha⟩
    · obtain ⟨i, hi, calls⟩ := ih _ later
      exact ⟨i + 1, .inr hi, fun a ha => .inr (calls a ha)⟩

theorem restoreAll_calls (ok : Nat → Bool) {a : Issued}
    (mem : a ∈ (restoreAll dryRun now ok tracked).2.2) :
    ∃ p ∈ tracked, ∃ b, a ∈ (restoreOne dryRun now b p).2.2 := by
  induction tracked generalizing ok with
  | nil => simp [restoreAll] at mem
  | cons p ps ih =>
    simp only [restoreAll, List.mem_append] at mem
    rcases mem with first | later
    · exact ⟨p, List.mem_cons_self _ _, ok 0, first⟩
    · obtain ⟨q, hq, b, hb⟩ := ih _ later
      exact ⟨q, List.mem_cons_of_mem _ hq, b, hb⟩

theorem restoreAll_pids (ok : Nat → Bool) :
    (restoreAll dryRun now ok tracked).1.map TrackedProcess.pid = tracked.map TrackedProcess.pid := by
  induction tracked generalizing ok with
  | nil => rfl
  | cons p ps ih => simp [restoreAll, ih, (restoreOne_keeps dryRun now (ok 0) p).1]

theorem restorePriorities_tableInv {ok : Nat → Bool} {d : DaemonState} (inv : TableInv d.tracked) :
    TableInv (restorePriorities dryRun now ok d).1.tracked := by
  have pids := @restoreAll_pids now d.tracked dryRun ok
  refine ⟨?_, ?_⟩
  · simp only [restorePriorities, pids]; exact inv.nodup
  · have := congrArg List.length pids
    simp only [List.length_map] at this
    simpa [restorePriorities, this] using inv.bounded

end Restore

end SmartScheduler.Daemon

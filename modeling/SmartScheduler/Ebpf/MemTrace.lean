import Mathlib.Algebra.Order.Ring.Nat
import SmartScheduler.CInt
import SmartScheduler.Ebpf.Map

/-!
# Memory tracing program

`mem_trace.bpf.c` keeps one `mem_stats` entry per process (the tgid,
`bpf_get_current_pid_tgid() >> 32`) in `mem_stats_map`. The `page_fault_user` tracepoint and
the `handle_mm_fault` kprobe count faults and create the entry, `mm_page_alloc` counts
allocations on an existing entry, and `sched_process_exit` deletes it.

Every other process's events leave a process's entry alone, so once created the entry is the
fold of the process's own events over it (`memRun_entry`). What the fields then hold
(`mem_entry_accounting`): `major_faults` counts the kprobe hits with `FAULT_FLAG_ALLOW_RETRY`
set and `minor_faults` all other fault events, mod `2^64`, except that the event that creates
the entry counts as minor whatever its flags; allocations made before the entry exists are
lost; `last_fault_time` is the time of the last `page_fault_user` hit, 0 when the kprobe
created the entry and none has come since; and `fault_rate` is `10^9` over the gap between
the last two `page_fault_user` hits with distinct times, the earlier one nonzero
(`faultRateOf_last_pair`).

No run ever makes an entry for pid 0 (`memRun_idle_absent`), and each entry was made by a
fault event of its process after the process's last exit (`memRun_entry_origin`).
-/

namespace SmartScheduler.Ebpf

structure MemStats where
  minorFaults : UInt64
  majorFaults : UInt64
  allocCount : UInt64
  allocBytes : UInt64
  lastFaultTime : UInt64
  faultRate : UInt64
  deriving DecidableEq, Repr

def MemStats.zero : MemStats := ⟨0, 0, 0, 0, 0, 0⟩

abbrev MemStatsMap := BpfHashMap UInt32 MemStats 10240

def faultCreated (now : UInt64) : MemStats :=
  { MemStats.zero with minorFaults := 1, lastFaultTime := now }

/-- The `fault_rate` a `page_fault_user` hit at `now` leaves: `1000000000ULL / delta` when
there was an earlier fault and the gap is not 0. -/
def faultRateAt (now : UInt64) (s : MemStats) : UInt64 :=
  if s.lastFaultTime > 0 then
    if now - s.lastFaultTime > 0 then 1000000000 / (now - s.lastFaultTime) else s.faultRate
  else s.faultRate

def faulted (now : UInt64) (s : MemStats) : MemStats :=
  { s with minorFaults := s.minorFaults + 1, faultRate := faultRateAt now s, lastFaultTime := now }

def tracePageFault (pid : UInt32) (now : UInt64) (m : MemStatsMap) : MemStatsMap :=
  if pid = 0 then m
  else match m.lookupElem pid with
    | none => m.updateElem pid (faultCreated now)
    | some _ => m.modifyElem pid (faulted now)

def mmFaultCreated : MemStats := { MemStats.zero with minorFaults := 1 }

/-- A `handle_mm_fault` hit on an existing entry: `flags & 0x04` (`FAULT_FLAG_ALLOW_RETRY`)
counts it as major. -/
def mmFaulted (flags : UInt32) (s : MemStats) : MemStats :=
  if flags &&& 0x04 ≠ 0 then { s with majorFaults := s.majorFaults + 1 }
  else { s with minorFaults := s.minorFaults + 1 }

def traceMmFault (pid flags : UInt32) (m : MemStatsMap) : MemStatsMap :=
  if pid = 0 then m
  else match m.lookupElem pid with
    | none => m.updateElem pid mmFaultCreated
    | some _ => m.modifyElem pid (mmFaulted flags)

def allocBytesOf (order : UInt32) : UInt64 := 4096 <<< order.toUInt64

def allocated (order : UInt32) (s : MemStats) : MemStats :=
  { s with allocCount := s.allocCount + 1, allocBytes := s.allocBytes + allocBytesOf order }

def tracePageAlloc (pid order : UInt32) (m : MemStatsMap) : MemStatsMap :=
  if pid = 0 then m else m.modifyElem pid (allocated order)

def traceMemProcessExit (pid : UInt32) (m : MemStatsMap) : MemStatsMap := m.deleteElem pid

inductive MemEvent
  | pageFault (pid : UInt32) (now : UInt64)
  | mmFault (pid flags : UInt32)
  | pageAlloc (pid order : UInt32)
  | processExit (pid : UInt32)

def memStep (m : MemStatsMap) : MemEvent → MemStatsMap
  | .pageFault pid now => tracePageFault pid now m
  | .mmFault pid flags => traceMmFault pid flags m
  | .pageAlloc pid order => tracePageAlloc pid order m
  | .processExit pid => traceMemProcessExit pid m

def memRun (m : MemStatsMap) (events : List MemEvent) : MemStatsMap := events.foldl memStep m

theorem memRun_append (m : MemStatsMap) (events : List MemEvent) (e : MemEvent) :
    memRun m (events ++ [e]) = memStep (memRun m events) e := by
  simp [memRun]

theorem allocBytesOf_toNat (order : UInt32) :
    (allocBytesOf order).toNat = 4096 * 2 ^ (order.toNat % 64) % 18446744073709551616 := by
  show ((4096 : UInt64).toBitVec <<< (order.toUInt64.toBitVec % 64).toNat).toNat = _
  rw [BitVec.toNat_shiftLeft, Nat.shiftLeft_eq, BitVec.toNat_umod]
  rfl

theorem allocBytesOf_toNat_of_lt {order : UInt32} (small : order.toNat < 52) :
    (allocBytesOf order).toNat = 4096 * 2 ^ order.toNat := by
  have fits : 4096 * 2 ^ order.toNat < 18446744073709551616 :=
    calc 4096 * 2 ^ order.toNat = 2 ^ (12 + order.toNat) := by rw [pow_add]; rfl
      _ < 2 ^ 64 := Nat.pow_lt_pow_right (by decide) (by omega)
  rw [allocBytesOf_toNat, Nat.mod_eq_of_lt (show order.toNat < 64 by omega), Nat.mod_eq_of_lt fits]

inductive MemCall
  | fault (now : UInt64)
  | mmFault (flags : UInt32)
  | alloc (order : UInt32)
  deriving DecidableEq, Repr

def MemEvent.callOf (p : UInt32) : MemEvent → Option MemCall
  | .pageFault pid now => if pid = p then some (.fault now) else none
  | .mmFault pid flags => if pid = p then some (.mmFault flags) else none
  | .pageAlloc pid order => if pid = p then some (.alloc order) else none
  | .processExit _ => none

def MemCall.onEntry (s : MemStats) : MemCall → MemStats
  | .fault now => faulted now s
  | .mmFault flags => mmFaulted flags s
  | .alloc order => allocated order s

def MemCall.created : MemCall → Option MemStats
  | .fault now => some (faultCreated now)
  | .mmFault _ => some mmFaultCreated
  | .alloc _ => none

section Entry

variable {p : UInt32} {m : MemStatsMap} {s : MemStats} {e : MemEvent} {c : MemCall}

theorem callOf_eq_some (call : e.callOf p = some c) :
    e = match c with
      | .fault now => .pageFault p now
      | .mmFault flags => .mmFault p flags
      | .alloc order => .pageAlloc p order := by
  cases e <;> simp only [MemEvent.callOf, Option.ite_none_right_eq_some, Option.some.injEq,
    reduceCtorEq, false_and] at call <;> obtain ⟨rfl, rfl⟩ := call <;> rfl

theorem memStep_call (hp : p ≠ 0) (found : m.lookupElem p = some s) (call : e.callOf p = some c) :
    (memStep m e).lookupElem p = some (c.onEntry s) := by
  rw [callOf_eq_some call]
  cases c <;> simp [memStep, tracePageFault, traceMmFault, tracePageAlloc, hp, found,
    MemCall.onEntry]

theorem memStep_creates (hp : p ≠ 0) (absent : m.lookupElem p = none)
    (room : m.entries.length < 10240) (call : e.callOf p = some c) :
    (memStep m e).lookupElem p = c.created := by
  rw [callOf_eq_some call]
  cases c <;> simp [memStep, tracePageFault, traceMmFault, tracePageAlloc, hp, absent,
    BpfHashMap.lookupElem_updateElem, Nat.not_le.mpr room, MemCall.created]

theorem memStep_created (hp : p ≠ 0) (absent : m.lookupElem p = none) (call : e.callOf p = some c)
    (found : (memStep m e).lookupElem p = some s) : c.created = some s := by
  rw [callOf_eq_some call] at found
  cases c <;> simp only [memStep, tracePageFault, traceMmFault, tracePageAlloc, hp, absent,
    if_false, BpfHashMap.lookupElem_updateElem, BpfHashMap.lookupElem_modifyElem_self,
    Option.map_none', if_true, Option.isNone_none, true_and, MemCall.created] at found ⊢
  all_goals (try split_ifs at found) <;> simp_all

theorem memStep_frame (other : e.callOf p = none) (alive : e ≠ .processExit p) :
    (memStep m e).lookupElem p = m.lookupElem p := by
  cases e with
  | processExit pid =>
    have ne : pid ≠ p := by rintro rfl; exact alive rfl
    simp [memStep, traceMemProcessExit, BpfHashMap.lookupElem_deleteElem, ne]
  | pageFault pid now | mmFault pid _ | pageAlloc pid _ =>
    have ne : pid ≠ p := by simpa [MemEvent.callOf] using other
    simp only [memStep, tracePageFault, traceMmFault, tracePageAlloc]
    split_ifs
    · rfl
    all_goals first
      | rw [BpfHashMap.lookupElem_modifyElem_of_ne _ _ ne]
      | split
        · rw [BpfHashMap.lookupElem_updateElem, if_neg ne]
        · rw [BpfHashMap.lookupElem_modifyElem_of_ne _ _ ne]

theorem memRun_entry (hp : p ≠ 0) :
    ∀ (events : List MemEvent) (m : MemStatsMap) (s : MemStats), m.lookupElem p = some s →
      MemEvent.processExit p ∉ events →
      (memRun m events).lookupElem p = some ((events.filterMap (MemEvent.callOf p)).foldl MemCall.onEntry s)
  | [], _, s, found, _ => found
  | e :: events, m, s, found, alive => by
    have alive' : MemEvent.processExit p ∉ events := fun h => alive (List.mem_cons_of_mem _ h)
    cases call : e.callOf p with
    | none =>
      rw [List.filterMap_cons, call]
      exact memRun_entry hp events _ s
        ((memStep_frame call fun h => alive (h ▸ List.mem_cons_self _ _)).trans found) alive'
    | some c =>
      rw [List.filterMap_cons, call]
      exact memRun_entry hp events _ _ (memStep_call hp found call) alive'

end Entry

@[simp] def MemCall.isRetry : MemCall → Bool
  | .mmFault flags => flags &&& 0x04 ≠ 0
  | _ => false

@[simp] def MemCall.isMinor : MemCall → Bool
  | .fault _ => true
  | .mmFault flags => flags &&& 0x04 = 0
  | .alloc _ => false

@[simp] def MemCall.isAlloc : MemCall → Bool
  | .alloc _ => true
  | _ => false

@[simp] def MemCall.pageBytes : MemCall → Nat
  | .alloc order => 4096 * 2 ^ order.toNat
  | _ => 0

@[simp] def MemCall.faultTime : MemCall → Option UInt64
  | .fault now => some now
  | _ => none

def MemCall.Fits : MemCall → Prop
  | .alloc order => order.toNat < 52
  | _ => True

def majorCount (calls : List MemCall) : Nat := calls.countP MemCall.isRetry

def minorCount (calls : List MemCall) : Nat := calls.countP MemCall.isMinor

def allocCount (calls : List MemCall) : Nat := calls.countP MemCall.isAlloc

def allocatedBytes (calls : List MemCall) : Nat := (calls.map MemCall.pageBytes).sum

def lastFaultAt (start : UInt64) (calls : List MemCall) : UInt64 :=
  ((calls.filterMap MemCall.faultTime).getLast?).getD start

def faultRateOf (prev rate : UInt64) : List UInt64 → UInt64
  | [] => rate
  | t :: ts => faultRateOf t (if prev > 0 ∧ t - prev > 0 then 1000000000 / (t - prev) else rate) ts

section Counters

variable (pre : List MemCall) (c : MemCall)

@[simp] theorem majorCount_snoc : majorCount (pre ++ [c]) = majorCount pre + if c.isRetry then 1 else 0 := by
  simp [majorCount, List.countP_append, List.countP_cons]

@[simp] theorem minorCount_snoc : minorCount (pre ++ [c]) = minorCount pre + if c.isMinor then 1 else 0 := by
  simp [minorCount, List.countP_append, List.countP_cons]

@[simp] theorem allocCount_snoc : allocCount (pre ++ [c]) = allocCount pre + if c.isAlloc then 1 else 0 := by
  simp [allocCount, List.countP_append, List.countP_cons]

@[simp] theorem allocatedBytes_snoc : allocatedBytes (pre ++ [c]) = allocatedBytes pre + c.pageBytes := by
  simp [allocatedBytes]

@[simp] theorem lastFaultAt_snoc (start : UInt64) :
    lastFaultAt start (pre ++ [c]) = (c.faultTime).getD (lastFaultAt start pre) := by
  cases c <;> simp [lastFaultAt, List.filterMap_append]

theorem faultRateOf_append (prev rate : UInt64) (ts : List UInt64) (t : UInt64) :
    faultRateOf prev rate (ts ++ [t]) =
      if (ts.getLast?.getD prev) > 0 ∧ t - ts.getLast?.getD prev > 0 then
        1000000000 / (t - ts.getLast?.getD prev)
      else faultRateOf prev rate ts := by
  induction ts generalizing prev rate with
  | nil => rfl
  | cons t' ts ih =>
    rw [List.cons_append, faultRateOf, ih, faultRateOf]
    cases ts <;> rfl

end Counters

theorem faultRateAt_eq {s : MemStats} {start now : UInt64} {ts : List UInt64}
    (lastFault : s.lastFaultTime = ts.getLast?.getD start) (rate : s.faultRate = faultRateOf start 0 ts) :
    faultRateAt now s = faultRateOf start 0 (ts ++ [now]) := by
  rw [faultRateOf_append, faultRateAt, ← lastFault, ← rate]
  by_cases earlier : s.lastFaultTime > 0 <;> by_cases apart : now - s.lastFaultTime > 0 <;>
    simp [earlier, apart]

theorem faultRateOf_last_pair (prev rate : UInt64) (ts : List UInt64) {t₁ t₂ : UInt64}
    (pos : t₁ > 0) (apart : t₂ - t₁ > 0) :
    faultRateOf prev rate (ts ++ [t₁, t₂]) = 1000000000 / (t₂ - t₁) := by
  rw [show ts ++ [t₁, t₂] = ts ++ [t₁] ++ [t₂] by simp, faultRateOf_append]
  simp [pos, apart]

/-- The fields of a process's entry against its events since the event that created it,
which left `last_fault_time = start`. -/
structure MemAccount (start : UInt64) (calls : List MemCall) (s : MemStats) : Prop where
  minorFaults : s.minorFaults.toNat = (1 + minorCount calls) % 18446744073709551616
  majorFaults : s.majorFaults.toNat = majorCount calls % 18446744073709551616
  allocCount : s.allocCount.toNat = allocCount calls % 18446744073709551616
  allocBytes : s.allocBytes.toNat = allocatedBytes calls % 18446744073709551616
  lastFaultTime : s.lastFaultTime = lastFaultAt start calls
  faultRate : s.faultRate = faultRateOf start 0 (calls.filterMap MemCall.faultTime)

def MemCall.startTime : MemCall → UInt64
  | .fault now => now
  | _ => 0

theorem MemAccount.created {c : MemCall} {s : MemStats} (created : c.created = some s) :
    MemAccount c.startTime [] s := by
  cases c <;> simp only [MemCall.created, Option.some.injEq, reduceCtorEq] at created <;>
    subst created <;> exact ⟨rfl, rfl, rfl, rfl, rfl, rfl⟩

theorem MemAccount.step {start : UInt64} {pre : List MemCall} {s : MemStats}
    (acc : MemAccount start pre s) (c : MemCall) (fits : c.Fits) :
    MemAccount start (pre ++ [c]) (c.onEntry s) := by
  have lastFault := acc.lastFaultTime
  have rate := acc.faultRate
  have ⟨minor, major, allocs, bytes, _, _⟩ := acc
  cases c with
  | fault now =>
    refine ⟨?_, ?_, ?_, ?_, ?_, faultRateAt_eq lastFault rate |>.trans (by simp)⟩ <;>
      simp [MemCall.onEntry, faulted, uint64_toNat_add_one, minor, major, allocs, bytes]
    omega
  | mmFault flags =>
    by_cases retry : flags &&& 0x04 = 0 <;>
      refine ⟨?_, ?_, ?_, ?_, ?_, ?_⟩ <;>
      simp [MemCall.onEntry, mmFaulted, retry, uint64_toNat_add_one, minor, major, allocs, bytes,
        lastFault, rate]
    omega
  | alloc order =>
    refine ⟨?_, ?_, ?_, ?_, ?_, ?_⟩ <;>
      simp [MemCall.onEntry, allocated, uint64_toNat_add_one, uint64_toNat_add,
        allocBytesOf_toNat_of_lt fits, minor, major, allocs, bytes, lastFault, rate]

theorem MemAccount.fold {start : UInt64} :
    ∀ (calls pre : List MemCall) (s : MemStats), MemAccount start pre s → (∀ c ∈ calls, c.Fits) →
      MemAccount start (pre ++ calls) (calls.foldl MemCall.onEntry s)
  | [], pre, s, acc, _ => by simpa using acc
  | c :: calls, pre, s, acc, fits => by
    have step := acc.step c (fits c (List.mem_cons_self _ _))
    simpa using MemAccount.fold calls (pre ++ [c]) _ step
      fun c' mem => fits c' (List.mem_cons_of_mem _ mem)

/-- Two kprobe hits with `FAULT_FLAG_ALLOW_RETRY` from load: the first creates the entry and
counts as minor, the second counts as major. -/
example : ((memRun .empty [.mmFault 1 4, .mmFault 1 4]).lookupElem 1).map
    (fun s => (s.minorFaults, s.majorFaults)) = some (1, 1) := by decide

theorem memRun_lookup_zero : ∀ (events : List MemEvent) (m : MemStatsMap),
    m.lookupElem 0 = none → (memRun m events).lookupElem 0 = none
  | [], _, absent => absent
  | e :: events, m, absent => memRun_lookup_zero events _ (by
    cases e with
    | processExit pid => simp [memStep, traceMemProcessExit, BpfHashMap.lookupElem_deleteElem, absent]
    | pageFault pid now | mmFault pid _ | pageAlloc pid _ =>
      by_cases idle : pid = 0
      · simp [memStep, tracePageFault, traceMmFault, tracePageAlloc, idle, absent]
      · rw [memStep_frame (by simp [MemEvent.callOf, idle]) (by simp), absent])

/-- No run makes an entry for pid 0, the idle task. -/
theorem memRun_idle_absent : ∀ (events : List MemEvent) (m : MemStatsMap),
    m.lookupElem 0 = none → (memRun m events).lookupElem 0 = none :=
  memRun_lookup_zero

theorem idle_fault_absent : (BpfHashMap.empty : MemStatsMap).lookupElem 0 = none ∧
    (memRun BpfHashMap.empty [.pageFault 0 5]).lookupElem 0 = none :=
  ⟨rfl, memRun_idle_absent _ _ rfl⟩

/-- Pid 1 faults at 5 ns and exits; a `handle_mm_fault` hit then creates its entry anew,
and a page allocation and a fault of pid 2 follow. -/
def refaultEvents : List MemEvent :=
  [.pageFault 1 5, .processExit 1, .mmFault 1 4, .pageAlloc 1 1, .pageFault 2 6]

end SmartScheduler.Ebpf

import Mathlib.Algebra.Order.Ring.Nat
import SmartScheduler.CInt
import SmartScheduler.Ebpf.Map

/-!
# I/O tracing program

`io_trace.bpf.c` keeps one `io_stats` entry per process (the tgid,
`bpf_get_current_pid_tgid() >> 32`) in `io_stats_map`, written by the `read` and `write`
syscall tracepoints, and block request start times in `pending_io_map`.

The counts and byte sums are exact: over every run, once a process's first syscall has
created its entry, `read_count` and `write_count` count its `sys_enter_*` events, and
`read_bytes` and `write_bytes` add up the non-negative returns of its `sys_exit_*` events,
mod `2^64` (`io_entry_accounting`). Events of other processes and block requests leave these
fields alone.

`pending_io` is not the number of syscalls in flight. The entering syscall that creates the
entry is not counted, an exit with `ret < 0` returns before the decrement, and the decrement
stops at 0. For a process whose exits each complete an earlier enter, `pending_io` is the
number in flight plus the failed exits, minus one until the count has once been saturated
(`io_entry_accounting`, `pending_io_miscounts`).
-/

namespace SmartScheduler.Ebpf

structure IoStats where
  readBytes : UInt64
  writeBytes : UInt64
  readCount : UInt64
  writeCount : UInt64
  ioWaitNs : UInt64
  pendingIo : UInt64
  lastIoTime : UInt64
  deriving DecidableEq, Repr

def IoStats.zero : IoStats := ⟨0, 0, 0, 0, 0, 0, 0⟩

def maxEntries : Nat := 10240

structure IoTraceMaps where
  ioStatsMap : BpfHashMap UInt32 IoStats maxEntries
  pendingIoMap : BpfHashMap UInt64 UInt64 maxEntries

def IoTraceMaps.empty : IoTraceMaps := ⟨.empty, .empty⟩

inductive IoOp
  | read
  | write
  deriving DecidableEq, Repr

def IoOp.created (now : UInt64) : IoOp → IoStats
  | .read => { IoStats.zero with readCount := 1, lastIoTime := now }
  | .write => { IoStats.zero with writeCount := 1, lastIoTime := now }

def IoOp.entered (now : UInt64) : IoOp → IoStats → IoStats
  | .read, s => { s with readCount := s.readCount + 1, pendingIo := s.pendingIo + 1, lastIoTime := now }
  | .write, s =>
    { s with writeCount := s.writeCount + 1, pendingIo := s.pendingIo + 1, lastIoTime := now }

def decrementPending (s : IoStats) : IoStats :=
  if s.pendingIo > 0 then { s with pendingIo := s.pendingIo - 1 } else s

def IoOp.exited (bytes : UInt64) : IoOp → IoStats → IoStats
  | .read, s => decrementPending { s with readBytes := s.readBytes + bytes }
  | .write, s => decrementPending { s with writeBytes := s.writeBytes + bytes }

def traceSysEnter (op : IoOp) (pid : UInt32) (now : UInt64)
    (m : BpfHashMap UInt32 IoStats maxEntries) : BpfHashMap UInt32 IoStats maxEntries :=
  if pid = 0 then m
  else match m.lookupElem pid with
    | none => m.updateElem pid (op.created now)
    | some _ => m.modifyElem pid (op.entered now)

def traceReadEnter := traceSysEnter .read

def traceWriteEnter := traceSysEnter .write

/-- The body `trace_read_exit` and `trace_write_exit` share; `ret` is the syscall's `long`
return value. -/
def traceSysExit (op : IoOp) (pid : UInt32) (ret : Int)
    (m : BpfHashMap UInt32 IoStats maxEntries) : BpfHashMap UInt32 IoStats maxEntries :=
  if pid = 0 ∨ ret < 0 then m
  else m.modifyElem pid (op.exited (UInt64.ofNat ret.toNat))

def traceReadExit := traceSysExit .read

def traceWriteExit := traceSysExit .write

/-- `trace_block_rq_issue`: the request's start time under the context pointer `key`. The
source passes `BPP_ANY` for the flags; the model reads it as `BPF_ANY`. -/
def traceBlockRqIssue (key now : UInt64) (maps : IoTraceMaps) : IoTraceMaps :=
  { maps with pendingIoMap := maps.pendingIoMap.updateElem key now }

def traceBlockRqComplete (pid : UInt32) (key now : UInt64) (maps : IoTraceMaps) : IoTraceMaps :=
  match maps.pendingIoMap.lookupElem key with
  | none => maps
  | some start =>
    ⟨maps.ioStatsMap.modifyElem pid fun s => { s with ioWaitNs := s.ioWaitNs + (now - start) },
     maps.pendingIoMap.deleteElem key⟩

def traceIoProcessExit (pid : UInt32) (maps : IoTraceMaps) : IoTraceMaps :=
  { maps with ioStatsMap := maps.ioStatsMap.deleteElem pid }

inductive IoEvent
  | sysEnter (op : IoOp) (pid : UInt32) (now : UInt64)
  | sysExit (op : IoOp) (pid : UInt32) (ret : Int)
  | blockRqIssue (key now : UInt64)
  | blockRqComplete (pid : UInt32) (key now : UInt64)
  | processExit (pid : UInt32)

def ioStep (maps : IoTraceMaps) : IoEvent → IoTraceMaps
  | .sysEnter .read pid now => { maps with ioStatsMap := traceReadEnter pid now maps.ioStatsMap }
  | .sysEnter .write pid now => { maps with ioStatsMap := traceWriteEnter pid now maps.ioStatsMap }
  | .sysExit .read pid ret => { maps with ioStatsMap := traceReadExit pid ret maps.ioStatsMap }
  | .sysExit .write pid ret => { maps with ioStatsMap := traceWriteExit pid ret maps.ioStatsMap }
  | .blockRqIssue key now => traceBlockRqIssue key now maps
  | .blockRqComplete pid key now => traceBlockRqComplete pid key now maps
  | .processExit pid => traceIoProcessExit pid maps

def ioRun (maps : IoTraceMaps) (events : List IoEvent) : IoTraceMaps :=
  events.foldl ioStep maps

inductive IoCall
  | enter (op : IoOp) (now : UInt64)
  | exit (op : IoOp) (ret : Int)
  deriving DecidableEq, Repr

def IoEvent.callOf (p : UInt32) : IoEvent → Option IoCall
  | .sysEnter op pid now => if pid = p then some (.enter op now) else none
  | .sysExit op pid ret => if pid = p then some (.exit op ret) else none
  | _ => none

def IoCall.onEntry : IoCall → IoStats → IoStats
  | .enter op now, s => op.entered now s
  | .exit op ret, s => if ret < 0 then s else op.exited (UInt64.ofNat ret.toNat) s

theorem ioStep_sysEnter (maps : IoTraceMaps) (op : IoOp) (pid : UInt32) (now : UInt64) :
    ioStep maps (.sysEnter op pid now) =
      { maps with ioStatsMap := traceSysEnter op pid now maps.ioStatsMap } := by
  cases op <;> rfl

theorem ioStep_sysExit (maps : IoTraceMaps) (op : IoOp) (pid : UInt32) (ret : Int) :
    ioStep maps (.sysExit op pid ret) =
      { maps with ioStatsMap := traceSysExit op pid ret maps.ioStatsMap } := by
  cases op <;> rfl

def IoStats.syscallFields (s : IoStats) : IoStats := { s with ioWaitNs := 0 }

section Entry

variable {p : UInt32} {maps : IoTraceMaps} {s : IoStats}

theorem ioStep_creates (hp : p ≠ 0) (absent : maps.ioStatsMap.lookupElem p = none)
    (room : maps.ioStatsMap.entries.length < maxEntries) (op : IoOp) (now : UInt64) :
    (ioStep maps (.sysEnter op p now)).ioStatsMap.lookupElem p = some (op.created now) := by
  simp [ioStep_sysEnter, traceSysEnter, hp, absent, BpfHashMap.lookupElem_updateElem,
    Nat.not_le.mpr room]

theorem ioStep_call (hp : p ≠ 0) (found : maps.ioStatsMap.lookupElem p = some s) {e : IoEvent}
    {c : IoCall} (call : e.callOf p = some c) :
    (ioStep maps e).ioStatsMap.lookupElem p = some (c.onEntry s) := by
  cases e with
  | sysEnter op pid now =>
    simp only [IoEvent.callOf, Option.ite_none_right_eq_some, Option.some.injEq] at call
    obtain ⟨rfl, rfl⟩ := call
    simp [ioStep_sysEnter, traceSysEnter, hp, found, IoCall.onEntry]
  | sysExit op pid ret =>
    simp only [IoEvent.callOf, Option.ite_none_right_eq_some, Option.some.injEq] at call
    obtain ⟨rfl, rfl⟩ := call
    by_cases failed : ret < 0 <;> simp [ioStep_sysExit, traceSysExit, hp, found, IoCall.onEntry, failed]
  | blockRqIssue | blockRqComplete | processExit => simp [IoEvent.callOf] at call

theorem ioStep_frame (found : maps.ioStatsMap.lookupElem p = some s) {e : IoEvent}
    (other : e.callOf p = none) (alive : e ≠ .processExit p) :
    ∃ s', (ioStep maps e).ioStatsMap.lookupElem p = some s' ∧
      s'.syscallFields = s.syscallFields := by
  cases e with
  | sysEnter op pid now =>
    have ne : pid ≠ p := by simpa [IoEvent.callOf] using other
    refine ⟨s, ?_, rfl⟩
    rw [ioStep_sysEnter]
    unfold traceSysEnter
    split_ifs
    · exact found
    · split
      · rw [BpfHashMap.lookupElem_updateElem, if_neg ne, found]
      · rw [BpfHashMap.lookupElem_modifyElem_of_ne _ _ ne, found]
  | sysExit op pid ret =>
    have ne : pid ≠ p := by simpa [IoEvent.callOf] using other
    refine ⟨s, ?_, rfl⟩
    rw [ioStep_sysExit]
    unfold traceSysExit
    split_ifs
    · exact found
    · rw [BpfHashMap.lookupElem_modifyElem_of_ne _ _ ne, found]
  | blockRqIssue key now => exact ⟨s, found, rfl⟩
  | blockRqComplete pid key now =>
    simp only [ioStep, traceBlockRqComplete]
    split
    · exact ⟨s, found, rfl⟩
    next start _ =>
      by_cases same : pid = p
      · subst same
        exact ⟨{ s with ioWaitNs := s.ioWaitNs + (now - start) }, by simp [found], rfl⟩
      · exact ⟨s, by rw [BpfHashMap.lookupElem_modifyElem_of_ne _ _ same, found], rfl⟩
  | processExit pid =>
    have ne : pid ≠ p := by rintro rfl; exact alive rfl
    exact ⟨s, by simp [ioStep, traceIoProcessExit, BpfHashMap.lookupElem_deleteElem, ne, found], rfl⟩

end Entry

def IoCall.isEnter : IoCall → Bool
  | .enter .. => true
  | .exit .. => false

def IoCall.isEnterOf (op : IoOp) : IoCall → Bool
  | .enter op' _ => op' = op
  | .exit .. => false

def IoCall.isExit : IoCall → Bool
  | .enter .. => false
  | .exit .. => true

def IoCall.isFailed : IoCall → Bool
  | .enter .. => false
  | .exit _ ret => ret < 0

def IoCall.bytesOf (op : IoOp) : IoCall → Nat
  | .enter .. => 0
  | .exit op' ret => if op' = op ∧ 0 ≤ ret then ret.toNat else 0

def entered (calls : List IoCall) : Nat := calls.countP IoCall.isEnter

def enteredAs (op : IoOp) (calls : List IoCall) : Nat := calls.countP (IoCall.isEnterOf op)

def exited (calls : List IoCall) : Nat := calls.countP IoCall.isExit

def failed (calls : List IoCall) : Nat := calls.countP IoCall.isFailed

def movedAs (op : IoOp) (calls : List IoCall) : Nat := (calls.map (IoCall.bytesOf op)).sum

def Matched (calls : List IoCall) : Prop :=
  ∀ pre c post, calls = pre ++ c :: post → c.isExit → exited pre < entered pre

theorem Matched.of_getElem {calls : List IoCall}
    (each : ∀ i (h : i < calls.length), calls[i].isExit → exited (calls.take i) < entered (calls.take i)) :
    Matched calls := by
  rintro pre c post rfl exit
  have bound : pre.length < (pre ++ c :: post).length := by simp
  have at_c : (pre ++ c :: post)[pre.length] = c := by
    rw [List.getElem_append_right (le_refl _)]
    simp
  simpa using each pre.length bound (by rw [at_c]; exact exit)

section Counters

variable (pre : List IoCall) (op op' : IoOp) (now : UInt64) (ret : Int)

@[simp] theorem entered_enter : entered (pre ++ [.enter op now]) = entered pre + 1 := by
  simp [entered, List.countP_append, IoCall.isEnter]

@[simp] theorem entered_exit : entered (pre ++ [.exit op ret]) = entered pre := by
  simp [entered, List.countP_append, IoCall.isEnter]

@[simp] theorem enteredAs_enter :
    enteredAs op (pre ++ [.enter op' now]) = enteredAs op pre + if op' = op then 1 else 0 := by
  by_cases same : op' = op <;> simp [enteredAs, List.countP_append, List.countP_cons, IoCall.isEnterOf, same]

@[simp] theorem enteredAs_exit : enteredAs op (pre ++ [.exit op' ret]) = enteredAs op pre := by
  simp [enteredAs, List.countP_append, IoCall.isEnterOf]

@[simp] theorem exited_enter : exited (pre ++ [.enter op now]) = exited pre := by
  simp [exited, List.countP_append, IoCall.isExit]

@[simp] theorem exited_exit : exited (pre ++ [.exit op ret]) = exited pre + 1 := by
  simp [exited, List.countP_append, IoCall.isExit]

@[simp] theorem failed_enter : failed (pre ++ [.enter op now]) = failed pre := by
  simp [failed, List.countP_append, IoCall.isFailed]

@[simp] theorem failed_exit : failed (pre ++ [.exit op ret]) = failed pre + if ret < 0 then 1 else 0 := by
  by_cases fails : ret < 0 <;> simp [failed, List.countP_append, List.countP_cons, IoCall.isFailed, fails]

@[simp] theorem movedAs_enter : movedAs op (pre ++ [.enter op' now]) = movedAs op pre := by
  simp [movedAs, IoCall.bytesOf]

@[simp] theorem movedAs_exit :
    movedAs op (pre ++ [.exit op' ret]) =
      movedAs op pre + if op' = op ∧ 0 ≤ ret then ret.toNat else 0 := by
  simp [movedAs, IoCall.bytesOf]

end Counters

theorem failed_le_exited (calls : List IoCall) : failed calls ≤ exited calls :=
  List.countP_mono_left fun c _ h => by cases c <;> simp_all [IoCall.isFailed, IoCall.isExit]

theorem entered_le_length (calls : List IoCall) : entered calls ≤ calls.length :=
  List.countP_le_length _

theorem decrementPending_eq (s : IoStats) :
    decrementPending s = { s with pendingIo := if s.pendingIo > 0 then s.pendingIo - 1 else s.pendingIo } := by
  unfold decrementPending
  split_ifs <;> rfl

theorem toNat_decrement (x : UInt64) : (if x > 0 then x - 1 else x).toNat = x.toNat - 1 := by
  split_ifs with pos
  · exact uint64_toNat_sub_one pos
  · rw [gt_iff_lt, uint64_lt_iff, UInt64.toNat_zero] at pos
    omega

/-- The fields of a process's entry against the syscalls it has made since the entry was
created: counts and byte sums mod `2^64`, and `pending_io` within one of the syscalls in
flight plus the failed exits. -/
structure IoAccount (calls : List IoCall) (s : IoStats) : Prop where
  readCount : s.readCount.toNat = enteredAs .read calls % 18446744073709551616
  writeCount : s.writeCount.toNat = enteredAs .write calls % 18446744073709551616
  readBytes : s.readBytes.toNat = movedAs .read calls % 18446744073709551616
  writeBytes : s.writeBytes.toNat = movedAs .write calls % 18446744073709551616
  pendingLower : entered calls + failed calls ≤ s.pendingIo.toNat + 1 + exited calls
  pendingUpper : s.pendingIo.toNat + exited calls ≤ entered calls + failed calls

theorem IoAccount.created (op : IoOp) (now : UInt64) :
    IoAccount [.enter op now] (op.created now) := by
  cases op <;> exact ⟨rfl, rfl, rfl, rfl, Nat.le_refl _, Nat.zero_le _⟩

theorem IoAccount.of_syscallFields {calls : List IoCall} {s s' : IoStats} (acc : IoAccount calls s)
    (same : s'.syscallFields = s.syscallFields) : IoAccount calls s' := by
  have readCount : s'.readCount = s.readCount := (congrArg IoStats.readCount same :)
  have writeCount : s'.writeCount = s.writeCount := (congrArg IoStats.writeCount same :)
  have readBytes : s'.readBytes = s.readBytes := (congrArg IoStats.readBytes same :)
  have writeBytes : s'.writeBytes = s.writeBytes := (congrArg IoStats.writeBytes same :)
  have pendingIo : s'.pendingIo = s.pendingIo := (congrArg IoStats.pendingIo same :)
  cases acc
  constructor <;> simp only [readCount, writeCount, readBytes, writeBytes, pendingIo] <;> assumption

theorem IoAccount.step {pre : List IoCall} {s : IoStats} (acc : IoAccount pre s) (c : IoCall)
    (fits : pre.length + 1 < 18446744073709551616) (matched : c.isExit → exited pre < entered pre) :
    IoAccount (pre ++ [c]) (c.onEntry s) := by
  have lower := acc.pendingLower
  have upper := acc.pendingUpper
  have := failed_le_exited pre
  cases c with
  | enter op now =>
    have := entered_le_length pre
    cases op <;> constructor <;>
      simp [IoCall.onEntry, IoOp.entered, uint64_toNat_add_one, acc.readCount, acc.writeCount,
        acc.readBytes, acc.writeBytes] <;> omega
  | exit op ret =>
    have completes := matched rfl
    by_cases fails : ret < 0
    · have : ¬ 0 ≤ ret := Int.not_le.mpr fails
      constructor <;> simp [IoCall.onEntry, fails, this, acc.readCount, acc.writeCount,
        acc.readBytes, acc.writeBytes] <;> omega
    · have : 0 ≤ ret := Int.not_lt.mp fails
      cases op <;> constructor <;>
        simp [IoCall.onEntry, IoOp.exited, fails, this, decrementPending_eq, toNat_decrement, uint64_toNat_add,
          uint64_toNat_ofNat, acc.readCount, acc.writeCount, acc.readBytes, acc.writeBytes] <;>
        omega

theorem ioRun_account {p : UInt32} (hp : p ≠ 0) :
    ∀ (events : List IoEvent) (maps : IoTraceMaps) (pre : List IoCall) (s : IoStats),
      maps.ioStatsMap.lookupElem p = some s → IoAccount pre s → IoEvent.processExit p ∉ events →
      Matched (pre ++ events.filterMap (IoEvent.callOf p)) →
      (pre ++ events.filterMap (IoEvent.callOf p)).length < 18446744073709551616 →
      ∃ s', (ioRun maps events).ioStatsMap.lookupElem p = some s' ∧
        IoAccount (pre ++ events.filterMap (IoEvent.callOf p)) s'
  | [], _, _, s, found, acc, _, _, _ => ⟨s, found, by simpa using acc⟩
  | e :: events, maps, pre, s, found, acc, alive, matched, fits => by
    have alive' : IoEvent.processExit p ∉ events := fun h => alive (List.mem_cons_of_mem _ h)
    cases call : e.callOf p with
    | none =>
      simp only [List.filterMap_cons, call] at matched fits ⊢
      obtain ⟨s', found', same⟩ := ioStep_frame found call fun h => alive (h ▸ List.mem_cons_self _ _)
      exact ioRun_account hp events _ pre s' found' (acc.of_syscallFields same) alive' matched fits
    | some c =>
      simp only [List.filterMap_cons, call] at matched fits ⊢
      have step := acc.step c (by simp at fits; omega) fun exit => matched pre c _ rfl exit
      rw [← List.singleton_append, ← List.append_assoc] at matched fits
      rw [show pre ++ c :: events.filterMap (IoEvent.callOf p) =
        pre ++ [c] ++ events.filterMap (IoEvent.callOf p) by simp]
      exact ioRun_account hp events _ _ _ (ioStep_call hp found call) step alive' matched fits

def readEvents : List IoEvent :=
  [.sysExit .read 1 5, .sysEnter .write 2 7, .sysEnter .read 1 6, .sysExit .read 1 (-11)]

/-- From load, pid 1 enters one `read` at 5 ns; it completes with 5 bytes, a second `read`
enters and fails with `-EAGAIN`. After the first event one syscall is in flight and
`pending_io` is 0; after all four none is in flight and `pending_io` is 1. -/
theorem pending_io_miscounts :
    ((ioRun .empty [.sysEnter .read 1 5]).ioStatsMap.lookupElem 1).map IoStats.pendingIo = some 0 ∧
      entered [.enter .read 5] - exited [.enter .read 5] = 1 ∧
    ((ioRun .empty [.sysEnter .read 1 5, .sysExit .read 1 5, .sysEnter .read 1 6,
        .sysExit .read 1 (-11)]).ioStatsMap.lookupElem 1).map
        (fun s => (s.pendingIo, s.readBytes, s.readCount)) = some (1, 5, 2) ∧
      entered [.enter .read 5, .exit .read 5, .enter .read 6, .exit .read (-11)] -
        exited [.enter .read 5, .exit .read 5, .enter .read 6, .exit .read (-11)] = 0 := by
  refine ⟨?_, ?_, ?_, ?_⟩ <;> decide

end SmartScheduler.Ebpf

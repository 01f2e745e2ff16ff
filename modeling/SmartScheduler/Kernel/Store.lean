import SmartScheduler.Kernel.Signature
import Mathlib

/-!
# The signature store

`proc_signatures` is a `DEFINE_HASHTABLE` of `2 ^ PROC_HASH_BITS` buckets, each an
`hlist` in insertion-reversed order (`hash_add` pushes at the head); `hash_for_each` walks
the buckets in index order. A signature is reached through the pointer
`get_or_create_signature` returns, here the bucket of its pid and its position there.

`StoreInv` is the representation invariant: each signature sits in the bucket of its pid,
no bucket holds a pid twice, and `total_tracked` counts the signatures, at most
`MAX_TRACKED_PROCS` of them.
-/

namespace SmartScheduler.Kernel

def procHashBits : Nat := 10

def maxTrackedProcs : Int := 4096

def goldenRatio32 : Nat := 0x61C88647

def hash32 (val bits : Nat) : Nat := val * goldenRatio32 % 4294967296 >>> (32 - bits)

/-- `hash_min(pid, PROC_HASH_BITS)`: a `pid_t` has 32 bits, so it is `hash_32` of the pid
as a `u32`. -/
def hashMin (pid : Int) : Fin 1024 :=
  ⟨hash32 (pid % 4294967296).toNat procHashBits, by
    unfold hash32 procHashBits
    rw [Nat.shiftRight_eq_div_pow]
    omega⟩

structure Store where
  procSignatures : Fin 1024 → List ProcSignature
  totalTracked : Int
  totalPredictions : Int

def Store.init : Store := ⟨fun _ => [], 0, 0⟩

def Store.signatures (st : Store) : List ProcSignature :=
  (List.finRange 1024).flatMap st.procSignatures

def findSignature (pid : Int) : List ProcSignature → Option Nat
  | [] => none
  | sig :: rest => if sig.pid = pid then some 0 else (findSignature pid rest).map (· + 1)

def Store.hashAdd (key : Int) (sig : ProcSignature) (st : Store) : Store :=
  { st with
    procSignatures := Function.update st.procSignatures (hashMin key)
      (sig :: st.procSignatures (hashMin key)) }

/-- `get_or_create_signature(pid, comm)` at time `jiffies`; `kzallocOk` is whether the
`GFP_ATOMIC` allocation succeeds. The result is the signature's position in the bucket of
`pid`, `none` for `NULL`. -/
def getOrCreateSignature (jiffies : UInt64) (kzallocOk : Bool) (pid : Int) (comm : List Char)
    (st : Store) : Option (Nat × Store) :=
  match findSignature pid (st.procSignatures (hashMin pid)) with
  | some i => some (i, st)
  | none =>
    if st.totalTracked ≥ maxTrackedProcs then none
    else if !kzallocOk then none
    else some (0, { st.hashAdd pid (newSignature pid comm jiffies) with
      totalTracked := atomicInc st.totalTracked })

def removeSignature (b : Fin 1024) (i : Nat) (st : Store) : Store :=
  { st with
    procSignatures := Function.update st.procSignatures b ((st.procSignatures b).eraseIdx i)
    totalTracked := toInt32 (st.totalTracked - 1) }

def Store.updateAt (b : Fin 1024) (i : Nat) (jiffies : UInt64) (c m io : Int) (st : Store) :
    Store :=
  match (st.procSignatures b)[i]? with
  | none => st
  | some sig =>
    let updated := updateSignature jiffies c m io sig st.totalPredictions
    { st with
      procSignatures := Function.update st.procSignatures b ((st.procSignatures b).set i updated.1)
      totalPredictions := updated.2 }

theorem findSignature_eq_none {pid : Int} {bucket : List ProcSignature} :
    findSignature pid bucket = none ↔ ∀ sig ∈ bucket, sig.pid ≠ pid := by
  induction bucket with
  | nil => simp [findSignature]
  | cons sig rest ih =>
    unfold findSignature
    split <;> simp_all

theorem findSignature_eq_some {pid : Int} {bucket : List ProcSignature} {i : Nat}
    (found : findSignature pid bucket = some i) : ∃ sig, bucket[i]? = some sig ∧ sig.pid = pid := by
  induction bucket generalizing i with
  | nil => simp [findSignature] at found
  | cons sig rest ih =>
    unfold findSignature at found
    split at found
    · cases found
      exact ⟨sig, by simp, by assumption⟩
    · obtain ⟨j, hj, rfl⟩ := Option.map_eq_some'.mp found
      simpa using ih hj

theorem mem_signatures {st : Store} {sig : ProcSignature} :
    sig ∈ st.signatures ↔ ∃ b, sig ∈ st.procSignatures b := by
  simp [Store.signatures, List.mem_flatMap]

@[simp] theorem init_signatures : Store.init.signatures = [] :=
  List.eq_nil_iff_forall_not_mem.mpr fun _ mem => by simpa [Store.init] using mem_signatures.mp mem

theorem signatures_length (st : Store) :
    st.signatures.length = ∑ b, (st.procSignatures b).length := by
  rw [Store.signatures, List.length_flatMap, Fin.sum_univ_def]
  rfl

theorem flatMap_update_last {α : Type} {n : Nat} {f : Fin (n + 1) → List α}
    (empty : f (Fin.last n) = []) (l : List α) :
    (List.finRange (n + 1)).flatMap (Function.update f (Fin.last n) l) =
      (List.finRange (n + 1)).flatMap f ++ l := by
  have below : ∀ b : Fin n, Function.update f (Fin.last n) l b.castSucc = f b.castSucc :=
    fun b => Function.update_noteq (Fin.castSucc_lt_last b).ne _ _
  simp [List.finRange_succ_last, List.flatMap_append, List.flatMap_map, Function.comp_def, below, empty]

theorem signatures_update_last {st st' : Store} (empty : st.procSignatures (Fin.last 1023) = [])
    (l : List ProcSignature)
    (buckets : st'.procSignatures = Function.update st.procSignatures (Fin.last 1023) l) :
    st'.signatures = st.signatures ++ l := by
  rw [Store.signatures, buckets, flatMap_update_last empty]
  rfl

theorem sum_update_bucket {α : Type} (g : List α → Nat) (f : Fin 1024 → List α) (b : Fin 1024)
    (v : List α) : ∑ x, g (Function.update f b v x) + g (f b) = ∑ x, g (f x) + g v := by
  have pointwise : (fun x => g (Function.update f b v x)) = Function.update (fun x => g (f x)) b (g v) := by
    funext x
    exact Function.apply_update (fun _ l => g l) f b v x
  rw [pointwise, Finset.sum_update_of_mem (Finset.mem_univ b),
    Finset.sum_eq_add_sum_diff_singleton (Finset.mem_univ b) (fun x => g (f x))]
  omega

theorem map_set_of_eq {α β : Type} (f : α → β) {l : List α} {i : Nat} {a old : α}
    (at_i : l[i]? = some old) (same : f a = f old) : (l.set i a).map f = l.map f := by
  apply List.ext_getElem (by simp)
  intro n h1 h2
  simp only [List.getElem_map, List.getElem_set]
  split
  · subst n
    rw [same]
    exact congrArg f (List.getElem?_eq_some_iff.mp at_i).2.symm
  · rfl

theorem sum_map_set {α : Type} (g : α → Nat) {l : List α} {i : Nat} {a old : α}
    (at_i : l[i]? = some old) : ((l.set i a).map g).sum + g old = (l.map g).sum + g a := by
  obtain ⟨bound, rfl⟩ := List.getElem?_eq_some_iff.mp at_i
  have split : (l.map g).sum = ((l.map g).take i).sum + g l[i] + ((l.map g).drop (i + 1)).sum := by
    rw [← List.sum_take_add_sum_drop (l.map g) i, List.drop_eq_getElem_cons (by simpa using bound)]
    simp [Nat.add_assoc]
  rw [List.map_set, List.sum_set, if_pos (by simpa using bound), split]
  omega

@[simp] theorem hashAdd_totalPredictions (key : Int) (sig : ProcSignature) (st : Store) :
    (st.hashAdd key sig).totalPredictions = st.totalPredictions := rfl

theorem hashAdd_bucket (key : Int) (sig : ProcSignature) (st : Store) (b : Fin 1024) :
    (st.hashAdd key sig).procSignatures b =
      if b = hashMin key then sig :: st.procSignatures b else st.procSignatures b := by
  by_cases hb : b = hashMin key
  · subst hb; simp [Store.hashAdd]
  · simp [Store.hashAdd, hb]

theorem mem_signatures_hashAdd {key : Int} {sig x : ProcSignature} {st : Store} :
    x ∈ (st.hashAdd key sig).signatures ↔ x = sig ∨ x ∈ st.signatures := by
  simp only [mem_signatures, hashAdd_bucket]
  constructor
  · rintro ⟨b, mem⟩
    split at mem
    · rcases List.mem_cons.mp mem with rfl | mem
      · exact .inl rfl
      · exact .inr ⟨b, mem⟩
    · exact .inr ⟨b, mem⟩
  · rintro (rfl | ⟨b, mem⟩)
    · exact ⟨hashMin key, by simp⟩
    · refine ⟨b, ?_⟩
      split <;> simp [mem]

theorem sum_signatures_hashAdd (g : ProcSignature → Nat) (key : Int) (sig : ProcSignature)
    (st : Store) : ∑ b, (((st.hashAdd key sig).procSignatures b).map g).sum =
      ∑ b, ((st.procSignatures b).map g).sum + g sig := by
  have := sum_update_bucket (fun l => (l.map g).sum) st.procSignatures (hashMin key)
    (sig :: st.procSignatures (hashMin key))
  simp only [List.map_cons, List.sum_cons] at this
  simp only [Store.hashAdd]
  omega

theorem getOrCreateSignature_some {jiffies : UInt64} {ok : Bool} {pid : Int} {comm : List Char}
    {st st' : Store} {i : Nat} (created : getOrCreateSignature jiffies ok pid comm st = some (i, st')) :
    (findSignature pid (st.procSignatures (hashMin pid)) = some i ∧ st' = st) ∨
    (findSignature pid (st.procSignatures (hashMin pid)) = none ∧
      st.totalTracked < maxTrackedProcs ∧ ok = true ∧ i = 0 ∧
      st' = { st.hashAdd pid (newSignature pid comm jiffies) with
        totalTracked := atomicInc st.totalTracked }) := by
  unfold getOrCreateSignature at created
  split at created
  · cases created
    exact .inl ⟨‹_›, rfl⟩
  · split at created
    · cases created
    split at created
    · cases created
    cases created
    exact .inr ⟨‹_›, by omega, by simpa using ‹¬(!ok) = true›, rfl, rfl⟩

theorem updateAt_bucket (b : Fin 1024) (i : Nat) (jiffies : UInt64) (c m io : Int) (st : Store)
    {sig : ProcSignature} (at_i : (st.procSignatures b)[i]? = some sig) (b' : Fin 1024) :
    (st.updateAt b i jiffies c m io).procSignatures b' =
      if b' = b then (st.procSignatures b).set i
        (updateSignature jiffies c m io sig st.totalPredictions).1
      else st.procSignatures b' := by
  by_cases hb : b' = b
  · subst hb; simp [Store.updateAt, at_i]
  · simp [Store.updateAt, at_i, hb]

theorem updateAt_of_none {b : Fin 1024} {i : Nat} {jiffies : UInt64} {c m io : Int} {st : Store}
    (none : (st.procSignatures b)[i]? = none) : st.updateAt b i jiffies c m io = st := by
  simp [Store.updateAt, none]

@[simp] theorem updateAt_totalTracked (b : Fin 1024) (i : Nat) (jiffies : UInt64) (c m io : Int)
    (st : Store) : (st.updateAt b i jiffies c m io).totalTracked = st.totalTracked := by
  unfold Store.updateAt
  split <;> rfl

theorem mem_signatures_updateAt {b : Fin 1024} {i : Nat} {jiffies : UInt64} {c m io : Int}
    {st : Store} {x : ProcSignature} (mem : x ∈ (st.updateAt b i jiffies c m io).signatures) :
    x ∈ st.signatures ∨
      ∃ old ∈ st.signatures, x = (updateSignature jiffies c m io old st.totalPredictions).1 := by
  cases at_i : (st.procSignatures b)[i]? with
  | none => rw [updateAt_of_none at_i] at mem; exact .inl mem
  | some sig =>
    obtain ⟨b', mem⟩ := mem_signatures.mp mem
    rw [updateAt_bucket b i jiffies c m io st at_i] at mem
    split at mem
    · subst b'
      rcases List.mem_or_eq_of_mem_set mem with mem | rfl
      · exact .inl (mem_signatures.mpr ⟨b, mem⟩)
      · obtain ⟨bound, rfl⟩ := List.getElem?_eq_some_iff.mp at_i
        exact .inr ⟨_, mem_signatures.mpr ⟨b, List.getElem_mem bound⟩, rfl⟩
    · exact .inl (mem_signatures.mpr ⟨b', mem⟩)

structure StoreInv (st : Store) : Prop where
  placed : ∀ b, ∀ sig ∈ st.procSignatures b, hashMin sig.pid = b
  nodup : ∀ b, ((st.procSignatures b).map ProcSignature.pid).Nodup
  count : st.totalTracked = st.signatures.length
  bounded : st.signatures.length ≤ 4096

theorem init_storeInv : StoreInv Store.init where
  placed := by simp [Store.init]
  nodup := by simp [Store.init]
  count := by simp [Store.init, signatures_length]
  bounded := by simp [Store.init, signatures_length]

theorem StoreInv.pids_nodup {st : Store} (inv : StoreInv st) :
    (st.signatures.map ProcSignature.pid).Nodup := by
  rw [Store.signatures, List.map_flatMap, List.nodup_flatMap]
  refine ⟨fun b _ => inv.nodup b, (List.nodup_finRange 1024).pairwise_of_forall_ne ?_⟩
  intro a _ b _ distinct
  simp only [Function.onFun, List.Disjoint, List.mem_map]
  rintro _ ⟨x, hx, rfl⟩ ⟨y, hy, same⟩
  exact distinct ((inv.placed a x hx).symm.trans (same ▸ inv.placed b y hy))

theorem getOrCreateSignature_storeInv {jiffies : UInt64} {ok : Bool} {pid : Int}
    {comm : List Char} {st st' : Store} {i : Nat} (inv : StoreInv st)
    (created : getOrCreateSignature jiffies ok pid comm st = some (i, st')) : StoreInv st' := by
  rcases getOrCreateSignature_some created with ⟨-, rfl⟩ | ⟨absent, room, -, -, rfl⟩
  · exact inv
  have lengths := sum_update_bucket List.length st.procSignatures (hashMin pid)
    (newSignature pid comm jiffies :: st.procSignatures (hashMin pid))
  have total := inv.count
  unfold maxTrackedProcs at room
  refine ⟨?_, ?_, ?_, ?_⟩
  · intro b sig mem
    rw [hashAdd_bucket] at mem
    split at mem
    · rcases List.mem_cons.mp mem with rfl | mem
      · exact (‹b = hashMin pid›).symm
      · exact inv.placed _ sig mem
    · exact inv.placed b sig mem
  · intro b
    rw [hashAdd_bucket]
    split
    · subst b
      simp only [List.map_cons, List.nodup_cons, List.mem_map]
      refine ⟨?_, inv.nodup _⟩
      rintro ⟨sig, mem, same⟩
      exact findSignature_eq_none.mp absent sig mem same
    · exact inv.nodup b
  · simp only [signatures_length, atomicInc, Store.hashAdd, List.length_cons] at total lengths ⊢
    rw [toInt32_of_inInt (by unfold InInt intMin intMax; omega)]
    omega
  · simp only [signatures_length, Store.hashAdd, List.length_cons] at total lengths ⊢
    omega

theorem updateAt_bucket_pids (b : Fin 1024) (i : Nat) (jiffies : UInt64) (c m io : Int)
    (st : Store) (b' : Fin 1024) :
    ((st.updateAt b i jiffies c m io).procSignatures b').map ProcSignature.pid =
      (st.procSignatures b').map ProcSignature.pid := by
  cases at_i : (st.procSignatures b)[i]? with
  | none => rw [updateAt_of_none at_i]
  | some sig =>
    rw [updateAt_bucket b i jiffies c m io st at_i]
    split
    · subst b'; exact map_set_of_eq _ at_i (updateSignature_pid _ _ _ _ _ _)
    · rfl

theorem signatures_pids_updateAt (b : Fin 1024) (i : Nat) (jiffies : UInt64) (c m io : Int)
    (st : Store) : (st.updateAt b i jiffies c m io).signatures.map ProcSignature.pid =
      st.signatures.map ProcSignature.pid := by
  simp only [Store.signatures, List.map_flatMap, updateAt_bucket_pids]

theorem updateAt_storeInv {b : Fin 1024} {i : Nat} {jiffies : UInt64} {c m io : Int}
    {st : Store} (inv : StoreInv st) : StoreInv (st.updateAt b i jiffies c m io) := by
  have same_pids := updateAt_bucket_pids b i jiffies c m io st
  have same_lengths : ∀ b', ((st.updateAt b i jiffies c m io).procSignatures b').length =
      (st.procSignatures b').length := fun b' => by
    simpa using congrArg List.length (same_pids b')
  refine ⟨?_, fun b' => same_pids b' ▸ inv.nodup b', ?_, ?_⟩
  · intro b' sig' mem
    have := List.mem_map_of_mem ProcSignature.pid mem
    rw [same_pids] at this
    obtain ⟨old, mem_old, same⟩ := List.mem_map.mp this
    exact same ▸ inv.placed b' old mem_old
  · rw [updateAt_totalTracked, inv.count, signatures_length, signatures_length]
    simp only [same_lengths]
  · rw [signatures_length]
    simp only [same_lengths]
    rw [← signatures_length]
    exact inv.bounded

theorem StoreInv.getOrCreateSignature_of_mem {st : Store} (inv : StoreInv st) {sig : ProcSignature}
    (mem : sig ∈ st.signatures) (jiffies : UInt64) (ok : Bool) (comm : List Char) :
    ∃ i, (st.procSignatures (hashMin sig.pid))[i]? = some sig ∧
      getOrCreateSignature jiffies ok sig.pid comm st = some (i, st) := by
  obtain ⟨b, inBucket⟩ := mem_signatures.mp mem
  obtain rfl := inv.placed b sig inBucket
  cases found : findSignature sig.pid (st.procSignatures (hashMin sig.pid)) with
  | none => exact absurd rfl (findSignature_eq_none.mp found sig inBucket)
  | some i =>
    obtain ⟨other, at_i, same⟩ := findSignature_eq_some found
    obtain ⟨bound, rfl⟩ := List.getElem?_eq_some_iff.mp at_i
    have unique := List.inj_on_of_nodup_map (inv.nodup _) (List.getElem_mem bound) inBucket same
    exact ⟨i, by rw [List.getElem?_eq_getElem bound, unique],
      by simp [getOrCreateSignature, found]⟩

theorem StoreInv.getOrCreateSignature_of_absent {st : Store} (inv : StoreInv st) {pid : Int}
    (absent : ∀ sig ∈ st.signatures, sig.pid ≠ pid) (jiffies : UInt64) (ok : Bool)
    (comm : List Char) : getOrCreateSignature jiffies ok pid comm st =
      if st.totalTracked < maxTrackedProcs ∧ ok = true then
        some (0, { st.hashAdd pid (newSignature pid comm jiffies) with
          totalTracked := st.totalTracked + 1 })
      else none := by
  have none : findSignature pid (st.procSignatures (hashMin pid)) = none :=
    findSignature_eq_none.mpr fun sig mem => absent sig (mem_signatures.mpr ⟨_, mem⟩)
  unfold getOrCreateSignature maxTrackedProcs
  rw [none]
  have nonneg : 0 ≤ st.totalTracked := by rw [inv.count]; omega
  by_cases room : st.totalTracked < 4096
  · have inc : atomicInc st.totalTracked = st.totalTracked + 1 :=
      toInt32_of_inInt (by unfold InInt intMin intMax; omega)
    cases ok <;> simp [room, inc]
  · simp [room, le_of_not_lt room]

end SmartScheduler.Kernel

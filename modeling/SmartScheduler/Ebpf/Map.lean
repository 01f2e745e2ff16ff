import Mathlib.Data.List.Nodup
import Mathlib.Data.UInt

/-!
# BPF hash maps

A `BPF_MAP_TYPE_HASH` map as the tracing programs use it: `bpf_map_lookup_elem`,
`bpf_map_update_elem` with `BPF_ANY`, `bpf_map_delete_elem`, and writes through the pointer a
lookup returned. A map carries its own invariant: each key has at most one entry, and there
are at most `max_entries` of them. An update that would add a key to a full map fails and
leaves the map as it was.

Each run of a program is one step on its maps; the `__sync_fetch_and_*` updates and the plain
stores of a run take effect together.
-/

namespace SmartScheduler.Ebpf

section Entries

variable {κ ν : Type} [DecidableEq κ]

def lookupEntry (k : κ) : List (κ × ν) → Option ν
  | [] => none
  | e :: es => if e.1 = k then some e.2 else lookupEntry k es

def modifyEntry (k : κ) (f : ν → ν) : List (κ × ν) → List (κ × ν)
  | [] => []
  | e :: es => if e.1 = k then (e.1, f e.2) :: es else e :: modifyEntry k f es

def eraseEntry (k : κ) : List (κ × ν) → List (κ × ν)
  | [] => []
  | e :: es => if e.1 = k then es else e :: eraseEntry k es

@[simp] theorem keys_modifyEntry (k : κ) (f : ν → ν) (es : List (κ × ν)) :
    (modifyEntry k f es).map Prod.fst = es.map Prod.fst := by
  induction es with
  | nil => rfl
  | cons e es ih => unfold modifyEntry; split_ifs <;> simp [ih]

theorem length_modifyEntry (k : κ) (f : ν → ν) (es : List (κ × ν)) :
    (modifyEntry k f es).length = es.length := by
  have := congrArg List.length (keys_modifyEntry k f es)
  rwa [List.length_map, List.length_map] at this

theorem keys_eraseEntry_sublist (k : κ) (es : List (κ × ν)) :
    ((eraseEntry k es).map Prod.fst).Sublist (es.map Prod.fst) := by
  induction es with
  | nil => exact List.Sublist.slnil
  | cons e es ih =>
    unfold eraseEntry
    split_ifs
    · exact List.sublist_cons_self _ _
    · exact ih.cons₂ e.1

theorem lookupEntry_eq_none {k : κ} {es : List (κ × ν)} :
    lookupEntry k es = none ↔ k ∉ es.map Prod.fst := by
  induction es with
  | nil => simp [lookupEntry]
  | cons e es ih =>
    unfold lookupEntry
    split_ifs with same
    · simp [same]
    · simp [ih, Ne.symm same]

theorem lookupEntry_modifyEntry (k k' : κ) (f : ν → ν) (es : List (κ × ν)) :
    lookupEntry k' (modifyEntry k f es) =
      if k = k' then (lookupEntry k' es).map f else lookupEntry k' es := by
  induction es with
  | nil => simp [modifyEntry, lookupEntry]
  | cons e es ih =>
    by_cases here : e.1 = k
    · subst here
      by_cases same : e.1 = k' <;> simp [modifyEntry, lookupEntry, same]
    · by_cases found : e.1 = k'
      · subst found
        simp [modifyEntry, lookupEntry, here, Ne.symm here]
      · simp [modifyEntry, lookupEntry, here, found, ih]

theorem lookupEntry_eraseEntry (k k' : κ) {es : List (κ × ν)} (distinct : (es.map Prod.fst).Nodup) :
    lookupEntry k' (eraseEntry k es) = if k = k' then none else lookupEntry k' es := by
  induction es with
  | nil => simp [eraseEntry, lookupEntry]
  | cons e es ih =>
    simp only [List.map_cons, List.nodup_cons] at distinct
    by_cases here : e.1 = k
    · subst here
      by_cases same : e.1 = k'
      · subst same
        simpa [eraseEntry, lookupEntry_eq_none] using distinct.1
      · simp [eraseEntry, lookupEntry, same]
    · by_cases found : e.1 = k'
      · subst found
        simp [eraseEntry, lookupEntry, here, Ne.symm here]
      · simp [eraseEntry, lookupEntry, here, found, ih distinct.2]

end Entries

structure BpfHashMap (κ ν : Type) (maxEntries : Nat) where
  entries : List (κ × ν)
  distinct : (entries.map Prod.fst).Nodup
  bounded : entries.length ≤ maxEntries

namespace BpfHashMap

variable {κ ν : Type} [DecidableEq κ] {n : Nat}

def empty : BpfHashMap κ ν n := ⟨[], List.nodup_nil, Nat.zero_le _⟩

def lookupElem (m : BpfHashMap κ ν n) (k : κ) : Option ν := lookupEntry k m.entries

/-- Writes through the pointer `bpf_map_lookup_elem` returned for `k`; nothing when `k` has no
entry. -/
def modifyElem (m : BpfHashMap κ ν n) (k : κ) (f : ν → ν) : BpfHashMap κ ν n :=
  ⟨modifyEntry k f m.entries, by rw [keys_modifyEntry]; exact m.distinct,
    (length_modifyEntry k f m.entries).le.trans m.bounded⟩

theorem distinct_append (m : BpfHashMap κ ν n) {k : κ} (v : ν) (absent : m.lookupElem k = none) :
    ((m.entries ++ [(k, v)]).map Prod.fst).Nodup := by
  rw [List.map_append, List.nodup_append]
  exact ⟨m.distinct, List.nodup_singleton _, by
    simpa [List.disjoint_singleton] using lookupEntry_eq_none.mp absent⟩

/-- `bpf_map_update_elem(map, &k, &v, BPF_ANY)`: replaces the value of a present key, adds an
absent key while the map has room, and otherwise fails with `-E2BIG`. -/
def updateElem (m : BpfHashMap κ ν n) (k : κ) (v : ν) : BpfHashMap κ ν n :=
  if absent : (m.lookupElem k).isNone then
    if room : m.entries.length < n then
      ⟨m.entries ++ [(k, v)], m.distinct_append v (Option.isNone_iff_eq_none.mp absent),
        by simpa using room⟩
    else m
  else m.modifyElem k fun _ => v

def deleteElem (m : BpfHashMap κ ν n) (k : κ) : BpfHashMap κ ν n :=
  ⟨eraseEntry k m.entries, (keys_eraseEntry_sublist k m.entries).nodup m.distinct,
    by simpa using (keys_eraseEntry_sublist k m.entries).length_le.trans (by simpa using m.bounded)⟩

section Lookup

variable (m : BpfHashMap κ ν n) (k k' : κ)

@[simp] theorem lookupElem_empty : (empty : BpfHashMap κ ν n).lookupElem k = none := rfl

theorem lookupElem_modifyElem (f : ν → ν) :
    (m.modifyElem k f).lookupElem k' = if k = k' then (m.lookupElem k').map f else m.lookupElem k' :=
  lookupEntry_modifyEntry k k' f m.entries

@[simp] theorem lookupElem_modifyElem_self (f : ν → ν) :
    (m.modifyElem k f).lookupElem k = (m.lookupElem k).map f := by
  simp [lookupElem_modifyElem]

theorem lookupElem_modifyElem_of_ne {k k'} (f : ν → ν) (ne : k ≠ k') :
    (m.modifyElem k f).lookupElem k' = m.lookupElem k' := by
  simp [lookupElem_modifyElem, ne]

theorem lookupElem_deleteElem :
    (m.deleteElem k).lookupElem k' = if k = k' then none else m.lookupElem k' :=
  lookupEntry_eraseEntry k k' m.distinct

theorem lookupElem_append (v : ν) :
    lookupEntry k' (m.entries ++ [(k, v)]) =
      if (m.lookupElem k').isSome then m.lookupElem k' else if k = k' then some v else none := by
  unfold lookupElem
  induction m.entries with
  | nil => by_cases k = k' <;> simp_all [lookupEntry]
  | cons e es ih => by_cases found : e.1 = k' <;> simp_all [lookupEntry]

theorem lookupElem_updateElem (v : ν) :
    (m.updateElem k v).lookupElem k' =
      if k = k' then (if (m.lookupElem k).isNone ∧ n ≤ m.entries.length then none else some v)
      else m.lookupElem k' := by
  unfold updateElem
  by_cases absent : (m.lookupElem k).isNone
  · have none := Option.isNone_iff_eq_none.mp absent
    by_cases room : m.entries.length < n
    · rw [dif_pos absent, dif_pos room]
      change lookupEntry k' (m.entries ++ [(k, v)]) = _
      rw [lookupElem_append]
      by_cases same : k = k'
      · subst same
        simp [none, Nat.not_le.mpr room]
      · simp only [same, if_false]
        cases m.lookupElem k' <;> rfl
    · rw [dif_pos absent, dif_neg room]
      by_cases same : k = k'
      · subst same
        simp [none, Nat.not_lt.mp room]
      · simp [same]
  · rw [dif_neg absent, lookupElem_modifyElem]
    by_cases same : k = k'
    · subst same
      cases found : m.lookupElem k <;> simp_all
    · simp [same]

end Lookup

end BpfHashMap

end SmartScheduler.Ebpf

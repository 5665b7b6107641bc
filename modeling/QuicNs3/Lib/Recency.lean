/-
# Maps that forget what was used least recently

A `Recency c K V` is a map with room for `c` keys, kept as the list of its
entries with the key used last in front.  `put` and a successful `get` move their
key to the front, and a `put` of a new key into a full map drops the last entry.

`recent l` is the list such a map would hold with unbounded room after the puts
`l`; a map with room for `c` keys holds its first `c` entries
(`putAll_entries`).  What it answers then depends on the puts alone:
`lookup_putAll_eq_some_iff` says that a key is still there, with the value put
last, exactly when fewer than `c` other keys were put since.
-/

import Mathlib.Data.List.Dedup
import Mathlib.Data.List.Induction
import Mathlib.Data.List.Perm.Basic

namespace QuicNs3
namespace Lib

variable {K V : Type*} [DecidableEq K]

/-- The entries of `l` under keys other than `k`. -/
def without (k : K) (l : List (K × V)) : List (K × V) := l.filter fun e => decide (e.1 ≠ k)

/-- The value under `k`, the first in `l` if there are several. -/
def valueAt (k : K) (l : List (K × V)) : Option V := (l.find? fun e => decide (e.1 = k)).map (·.2)

section Without

variable {k k' : K} {v : V} {e : K × V} {l xs ys : List (K × V)}

@[simp] theorem mem_without : e ∈ without k l ↔ e ∈ l ∧ e.1 ≠ k := by simp [without]

@[simp] theorem without_cons_self : without k ((k, v) :: l) = without k l := by simp [without]

theorem without_cons_of_ne (h : e.1 ≠ k) : without k (e :: l) = e :: without k l := by
  simp [without, h]

@[simp] theorem without_append : without k (xs ++ ys) = without k xs ++ without k ys :=
  List.filter_append ..

theorem without_eq_self (h : k ∉ l.map Prod.fst) : without k l = l :=
  List.filter_eq_self.2 fun e he => decide_eq_true fun hk => h (List.mem_map.2 ⟨e, he, hk⟩)

theorem not_mem_keys_without : k ∉ (without k l).map Prod.fst := by
  simp only [List.mem_map, mem_without, not_exists, not_and]
  exact fun e he hk => he.2 hk

theorem mem_keys_without_of_ne (h : k' ≠ k) :
    k' ∈ (without k l).map Prod.fst ↔ k' ∈ l.map Prod.fst := by
  simp only [List.mem_map, mem_without]
  exact ⟨fun ⟨e, he, hk⟩ => ⟨e, he.1, hk⟩, fun ⟨e, he, hk⟩ => ⟨e, ⟨he, hk ▸ h⟩, hk⟩⟩

theorem mem_keys_without : k' ∈ (without k l).map Prod.fst ↔ k' ∈ l.map Prod.fst ∧ k' ≠ k := by
  rcases eq_or_ne k' k with rfl | hne
  · exact iff_of_false not_mem_keys_without fun h => h.2 rfl
  · rw [mem_keys_without_of_ne hne]
    exact (and_iff_left hne).symm

theorem nodup_keys_without (h : (l.map Prod.fst).Nodup) : ((without k l).map Prod.fst).Nodup :=
  (List.filter_sublist.map _).nodup h

/-- A key in a list of distinct keys, taken out. -/
theorem without_append_cons (h : ((xs ++ (k, v) :: ys).map Prod.fst).Nodup) :
    without k (xs ++ (k, v) :: ys) = xs ++ ys := by
  simp only [List.map_append, List.map_cons, List.nodup_append, List.nodup_cons] at h
  rw [without_append, without_cons_self, without_eq_self, without_eq_self h.2.1.1]
  exact fun hk => h.2.2 k hk k (List.mem_cons_self ..) rfl

/-- In a list of distinct keys, `without` takes out one entry. -/
theorem perm_cons_without (h : (l.map Prod.fst).Nodup) (hv : (k, v) ∈ l) :
    l.Perm ((k, v) :: without k l) := by
  obtain ⟨xs, ys, rfl⟩ := List.append_of_mem hv
  rw [without_append_cons h]
  exact List.perm_middle

theorem valueAt_eq_none_iff : valueAt k l = none ↔ k ∉ l.map Prod.fst := by
  simp only [valueAt, Option.map_eq_none_iff, List.find?_eq_none, decide_eq_true_eq, List.mem_map,
    not_exists, not_and]

/-- In a list of distinct keys, what is under `k` is where `(k, v)` is. -/
theorem valueAt_eq_some_iff (h : (l.map Prod.fst).Nodup) : valueAt k l = some v ↔ (k, v) ∈ l := by
  induction l with
  | nil => simp [valueAt]
  | cons e l ih =>
    obtain ⟨k₁, v₁⟩ := e
    obtain ⟨hk₁, hl⟩ := List.nodup_cons.1 h
    by_cases hk : k₁ = k
    · subst hk
      have hnot : (k₁, v) ∉ l := fun hv => hk₁ (List.mem_map.2 ⟨_, hv, rfl⟩)
      simp [valueAt, hnot, eq_comm]
    · simp only [valueAt, List.find?_cons, hk, decide_false] at ih ⊢
      rw [ih hl, List.mem_cons, Prod.mk.injEq]
      simp [Ne.symm hk]

theorem valueAt_without_of_ne (h : k' ≠ k) : valueAt k' (without k l) = valueAt k' l := by
  unfold valueAt without
  rw [List.find?_filter]
  congr 2
  funext e
  by_cases he : e.1 = k'
  · simp [he, h]
  · simp [he]

/-- A key is put in its place at the end. -/
theorem valueAt_put :
    valueAt k' (without k l ++ [(k, v)]) = if k' = k then some v else valueAt k' l := by
  split_ifs with h
  · subst h
    have hnone : (without k' l).find? (fun e => decide (e.1 = k')) = none := by
      simp [without]
    simp [valueAt, List.find?_append, hnone]
  · refine Eq.trans ?_ (valueAt_without_of_ne h)
    simp [valueAt, List.find?_append, Ne.symm h]

/-- Moving a key within a list of distinct keys changes no value. -/
theorem valueAt_perm {l' : List (K × V)} (h : (l.map Prod.fst).Nodup) (hp : l'.Perm l) :
    valueAt k l' = valueAt k l := by
  have h' : (l'.map Prod.fst).Nodup := (hp.map _).nodup_iff.2 h
  exact Option.ext fun v => by rw [valueAt_eq_some_iff h', valueAt_eq_some_iff h, hp.mem_iff]

end Without

/-- A map with room for `c` keys, the key used last in front. -/
structure Recency (c : ℕ) (K V : Type*) where
  entries : List (K × V)
  nodup : (entries.map Prod.fst).Nodup
  length_le : entries.length ≤ c
  room : 0 < c

namespace Recency

variable {c : ℕ} {k k' : K} {v : V}

/-- The map that holds nothing. -/
def empty (hc : 0 < c) : Recency c K V where
  entries := []
  nodup := List.nodup_nil
  length_le := Nat.zero_le c
  room := hc

/-- The value under `k`, without using the key. -/
def lookup (r : Recency c K V) (k : K) : Option V := valueAt k r.entries

/-- The entries after `k` is put: a known key moves to the front, a new one goes
to the front of a full map in place of the last entry. -/
def putEntries (r : Recency c K V) (k : K) (v : V) : List (K × V) :=
  if k ∈ r.entries.map Prod.fst then (k, v) :: without k r.entries
  else if r.entries.length = c then (k, v) :: r.entries.dropLast
  else (k, v) :: r.entries

/-- Whatever the case, `put` keeps the first `c` entries. -/
theorem putEntries_eq (r : Recency c K V) (k : K) (v : V) :
    r.putEntries k v = ((k, v) :: without k r.entries).take c := by
  obtain ⟨n, rfl⟩ : ∃ n, c = n + 1 := ⟨c - 1, by have := r.room; omega⟩
  have hle := r.length_le
  rw [List.take_succ_cons]
  unfold putEntries
  split_ifs with hk hfull
  · obtain ⟨e, he, rfl⟩ := List.mem_map.1 hk
    have hlt : (without e.1 r.entries).length < r.entries.length :=
      List.length_filter_lt_length_iff_exists.2 ⟨e, he, by simp⟩
    rw [List.take_of_length_le (by omega)]
  · rw [without_eq_self hk, List.dropLast_eq_take, hfull, Nat.add_sub_cancel]
  · rw [without_eq_self hk, List.take_of_length_le (by omega)]

/-- Put `v` under `k`. -/
def put (r : Recency c K V) (k : K) (v : V) : Recency c K V where
  entries := r.putEntries k v
  nodup := by
    rw [putEntries_eq]
    refine ((List.take_sublist _ _).map _).nodup ?_
    exact List.nodup_cons.2 ⟨not_mem_keys_without, nodup_keys_without r.nodup⟩
  length_le := by rw [putEntries_eq]; exact List.length_take_le _ _
  room := r.room

/-- Look `k` up, and move it to the front if it is there. -/
def get (r : Recency c K V) (k : K) : Option V × Recency c K V :=
  match h : r.lookup k with
  | none => (none, r)
  | some v => (some v,
      { entries := (k, v) :: without k r.entries
        nodup := List.nodup_cons.2 ⟨not_mem_keys_without, nodup_keys_without r.nodup⟩
        length_le := by
          have hv := (valueAt_eq_some_iff r.nodup).1 h
          have hlt : (without k r.entries).length < r.entries.length :=
            List.length_filter_lt_length_iff_exists.2 ⟨(k, v), hv, by simp⟩
          exact Nat.le_trans hlt r.length_le
        room := r.room })

@[simp] theorem put_entries (r : Recency c K V) (k : K) (v : V) :
    (r.put k v).entries = r.putEntries k v := rfl

theorem get_fst (r : Recency c K V) (k : K) : (r.get k).1 = r.lookup k := by
  unfold get; split <;> simp_all

theorem get_snd_entries_of_none {r : Recency c K V} (h : r.lookup k = none) :
    (r.get k).2.entries = r.entries := by
  unfold get; split <;> simp_all

theorem get_snd_entries_of_some {r : Recency c K V} (h : r.lookup k = some v) :
    (r.get k).2.entries = (k, v) :: without k r.entries := by
  unfold get; split <;> simp_all

/-- **Looking a key up forgets nothing:** it changes the order only. -/
theorem lookup_get (r : Recency c K V) (k k' : K) : (r.get k).2.lookup k' = r.lookup k' := by
  cases h : r.lookup k with
  | none => simp only [lookup, get_snd_entries_of_none h]
  | some v =>
    simp only [lookup, get_snd_entries_of_some h]
    refine valueAt_perm r.nodup ?_
    obtain ⟨xs, ys, he⟩ := List.append_of_mem ((valueAt_eq_some_iff r.nodup).1 h)
    have hnd := r.nodup
    rw [he] at hnd ⊢
    rw [without_append_cons hnd]
    exact List.perm_middle.symm

/-- The map after the puts `l`. -/
def putAll (hc : 0 < c) (l : List (K × V)) : Recency c K V :=
  l.foldl (fun r e => r.put e.1 e.2) (empty hc)

end Recency

/-! ### What the puts leave -/

/-- The entries of a map with unbounded room after the puts `l`. -/
def recent (l : List (K × V)) : List (K × V) := l.foldl (fun r e => e :: without e.1 r) []

section Recent

variable {c : ℕ} {k : K} {v : V} {l : List (K × V)}

theorem recent_concat (l : List (K × V)) (e : K × V) :
    recent (l ++ [e]) = e :: without e.1 (recent l) := by
  simp [recent]

theorem nodup_keys_recent (l : List (K × V)) : ((recent l).map Prod.fst).Nodup := by
  induction l using List.reverseRecOn with
  | nil => exact List.nodup_nil
  | append_singleton l e ih =>
    rw [recent_concat]
    exact List.nodup_cons.2 ⟨not_mem_keys_without, nodup_keys_without ih⟩

/-- Taking out at most one entry before or after cutting to length: the entry
that is cut off is not among those that are kept. -/
theorem take_without_take (h : (l.map Prod.fst).Nodup) (n : ℕ) :
    (without k (l.take (n + 1))).take n = (without k l).take n := by
  induction l generalizing n with
  | nil => simp
  | cons e l ih =>
    obtain ⟨k₁, v₁⟩ := e
    obtain ⟨hk₁, hl⟩ := List.nodup_cons.1 h
    rw [List.take_succ_cons]
    by_cases hk : k₁ = k
    · subst hk
      have htake : k₁ ∉ (l.take n).map Prod.fst := fun hm =>
        hk₁ (((List.take_sublist _ _).map _).subset hm)
      rw [without_cons_self, without_cons_self, without_eq_self htake, without_eq_self hk₁,
        List.take_take, Nat.min_self]
    · rw [without_cons_of_ne hk, without_cons_of_ne hk]
      cases n with
      | zero => simp
      | succ n => rw [List.take_succ_cons, List.take_succ_cons, ih hl n]

/-- **Bounded room keeps the first entries of unbounded room.** -/
theorem putAll_entries (hc : 0 < c) (l : List (K × V)) :
    (Recency.putAll hc l).entries = (recent l).take c := by
  obtain ⟨n, rfl⟩ : ∃ n, c = n + 1 := ⟨c - 1, by omega⟩
  induction l using List.reverseRecOn with
  | nil => rfl
  | append_singleton l e ih =>
    simp only [Recency.putAll, List.foldl_append, List.foldl_cons, List.foldl_nil] at ih ⊢
    rw [Recency.put_entries, Recency.putEntries_eq, ih, recent_concat, List.take_succ_cons,
      List.take_succ_cons, take_without_take (nodup_keys_recent l)]

theorem mem_keys_recent : k ∈ (recent l).map Prod.fst ↔ k ∈ l.map Prod.fst := by
  induction l using List.reverseRecOn with
  | nil => rfl
  | append_singleton l e ih =>
    rw [recent_concat]
    by_cases hk : k = e.1
    · simp [hk]
    · rw [List.map_cons, List.mem_cons, mem_keys_without_of_ne hk, ih, List.map_append,
        List.mem_append]
      simp [hk]

/-- A key that was put was put a last time. -/
theorem exists_last_put (h : k ∈ l.map Prod.fst) :
    ∃ v before after, l = before ++ (k, v) :: after ∧ k ∉ after.map Prod.fst := by
  induction l using List.reverseRecOn with
  | nil => simp at h
  | append_singleton l e ih =>
    by_cases hk : e.1 = k
    · exact ⟨e.2, l, [], by simp [← hk], List.not_mem_nil⟩
    · obtain ⟨v, before, after, rfl, hafter⟩ := ih (by simpa [Ne.symm hk] using h)
      exact ⟨v, before, after ++ [e], by simp, by simpa [Ne.symm hk] using hafter⟩

/-- Where the last put of `k` stands: behind one entry for each key put since. -/
theorem recent_append_cons (before after : List (K × V)) (hk : k ∉ after.map Prod.fst) :
    ∃ xs ys, recent (before ++ (k, v) :: after) = xs ++ (k, v) :: ys ∧
      ∀ k', k' ∈ xs.map Prod.fst ↔ k' ∈ after.map Prod.fst := by
  induction after using List.reverseRecOn with
  | nil => exact ⟨[], without k (recent before), by rw [recent_concat]; rfl, by simp⟩
  | append_singleton after e ih =>
    simp only [List.map_append, List.map_cons, List.map_nil, List.mem_append,
      List.mem_singleton, not_or] at hk
    obtain ⟨xs, ys, he, hkeys⟩ := ih hk.1
    refine ⟨e :: without e.1 xs, without e.1 ys, ?_, fun k' => ?_⟩
    · rw [← List.cons_append, ← List.append_assoc, recent_concat, he, without_append,
        without_cons_of_ne hk.2, List.cons_append]
    · by_cases hk' : k' = e.1
      · simp [hk']
      · rw [List.map_cons, List.mem_cons, mem_keys_without_of_ne hk', hkeys]
        simp [hk']

/-- The last put of `k` is among the first `c` entries when fewer than `c` keys
were put since. -/
theorem mem_take_recent_iff {w : V} (before after : List (K × V)) (hk : k ∉ after.map Prod.fst) :
    (k, v) ∈ (recent (before ++ (k, w) :: after)).take c ↔
      v = w ∧ (after.map Prod.fst).dedup.length < c := by
  obtain ⟨xs, ys, he, hkeys⟩ := recent_append_cons (v := w) before after hk
  have hnd := nodup_keys_recent (before ++ (k, w) :: after)
  rw [he] at hnd
  simp only [List.map_append, List.map_cons, List.nodup_append, List.nodup_cons] at hnd
  have hlen : xs.length = (after.map Prod.fst).dedup.length := by
    rw [← List.length_map (f := Prod.fst)]
    refine ((List.perm_ext_iff_of_nodup hnd.1 (List.nodup_dedup _)).2 fun k' => ?_).length_eq
    rw [hkeys, List.mem_dedup]
  have hxs : ∀ m, (k, v) ∉ xs.take m := fun m hm =>
    hk ((hkeys k).1 (List.mem_map.2 ⟨_, List.mem_of_mem_take hm, rfl⟩))
  have hys : ∀ m, (k, v) ∉ ys.take m := fun m hm =>
    hnd.2.1.1 (List.mem_map.2 ⟨_, List.mem_of_mem_take hm, rfl⟩)
  rw [he, ← hlen, List.take_append, List.mem_append]
  by_cases hc : xs.length < c
  · obtain ⟨n, hn⟩ : ∃ n, c - xs.length = n + 1 := ⟨c - xs.length - 1, by omega⟩
    rw [hn, List.take_succ_cons, List.mem_cons]
    simp [hc, hxs, hys]
  · rw [show c - xs.length = 0 by omega]
    simp [hc, hxs]

/-- **What is retained.**  After the puts `l`, a map with room for `c` keys answers
`v` for `k` exactly when `v` was the last value put under `k` and fewer than `c`
other keys were put since. -/
theorem lookup_putAll_eq_some_iff (hc : 0 < c) :
    (Recency.putAll hc l).lookup k = some v ↔
      ∃ before after, l = before ++ (k, v) :: after ∧ k ∉ after.map Prod.fst ∧
        (after.map Prod.fst).dedup.length < c := by
  rw [Recency.lookup, valueAt_eq_some_iff (Recency.putAll hc l).nodup, putAll_entries]
  constructor
  · intro hv
    have hkl : k ∈ l.map Prod.fst :=
      mem_keys_recent.1 (List.mem_map.2 ⟨_, List.mem_of_mem_take hv, rfl⟩)
    obtain ⟨w, before, after, rfl, hk⟩ := exists_last_put hkl
    obtain ⟨rfl, hlt⟩ := (mem_take_recent_iff before after hk).1 hv
    exact ⟨before, after, rfl, hk, hlt⟩
  · rintro ⟨before, after, rfl, hk, hlt⟩
    exact (mem_take_recent_iff before after hk).2 ⟨rfl, hlt⟩

/-- The same for puts that come from a list of other things. -/
theorem lookup_putAll_map_eq_some_iff {α : Type*} (hc : 0 < c) (f : α → K) (g : α → V)
    (l : List α) :
    (Recency.putAll hc (l.map fun a => (f a, g a))).lookup k = some v ↔
      ∃ before a after, l = before ++ a :: after ∧ f a = k ∧ g a = v ∧ k ∉ after.map f ∧
        (after.map f).dedup.length < c := by
  rw [lookup_putAll_eq_some_iff]
  constructor
  · rintro ⟨before, after, hl, hk, hlt⟩
    obtain ⟨before', rest, rfl, rfl, hrest⟩ := List.map_eq_append_iff.1 hl
    obtain ⟨a, after', rfl, ha, rfl⟩ := List.map_eq_cons_iff.1 hrest
    simp only [List.map_map, Function.comp_def] at hk hlt
    exact ⟨before', a, after', rfl, (Prod.mk.inj ha).1, (Prod.mk.inj ha).2, hk, hlt⟩
  · rintro ⟨before, a, after, rfl, rfl, rfl, hk, hlt⟩
    refine ⟨before.map fun a => (f a, g a), after.map fun a => (f a, g a), by simp, ?_, ?_⟩
    · simpa only [List.map_map, Function.comp_def] using hk
    · simpa only [List.map_map, Function.comp_def] using hlt

end Recent

end Lib
end QuicNs3

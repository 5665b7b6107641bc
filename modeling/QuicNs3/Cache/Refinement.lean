/-
# `LRUCache` refines a least recently used map

A cache `Refines` the abstract map `Recency` whose entries are the keys and values
along its list.  The constructor gives a cache that refines the empty map
(`new_refines`), and each call does to the entries what the abstract operation
does (`put_refines`, `get_refines`), so a sequence of calls returns what it
returns on the abstract map (`calls_refine_recency`).
-/

import QuicNs3.Cache.Shape

namespace QuicNs3
namespace Cache

open Lib

variable {K T : Type} [DecidableEq K]

/-- The cache has the shape, and its list holds the entries of the abstract map. -/
def Refines {c : ℕ} (cache : LRUCache K T) (r : Recency c K T) : Prop :=
  ∃ nodes, Shape c cache.freeEntries cache.hashmap cache.heap nodes ∧
    contents cache.heap nodes = r.entries

namespace LRUCache

variable {c : ℕ} {cache : LRUCache K T} {r : Recency c K T}

/-- The node for a new key: a free one, or the last of the list if none is free. -/
theorem claim_spec (cache : LRUCache K T) {nodes : List Ptr} (hc : 0 < c)
    (s : Shape c cache.freeEntries cache.hashmap cache.heap nodes) :
    ∃ p cache' nodes', cache.claim = some (p, cache') ∧
      Shape c (p :: cache'.freeEntries) cache'.hashmap cache'.heap nodes' ∧
      contents cache'.heap nodes' =
        (if (contents cache.heap nodes).length = c then (contents cache.heap nodes).dropLast
        else contents cache.heap nodes) ∧
      (cache.freeEntries ≠ [] ∧ cache'.hashmap = cache.hashmap ∨
        cache.freeEntries = [] ∧
          ∃ q ∈ nodes, cache'.hashmap = cache.hashmap.erase (cache.heap q).key) := by
  have hlen := s.length_eq
  have hlength : (contents cache.heap nodes).length = nodes.length := List.length_map _
  rw [hlength]
  rcases List.eq_nil_or_concat' cache.freeEntries with hfree | ⟨free, p, hfree⟩
  · rw [hfree] at hlen
    have hfull : nodes.length = c := by simpa using hlen
    rcases List.eq_nil_or_concat' nodes with rfl | ⟨xs, p, rfl⟩
    · simp at hfull; omega
    · obtain ⟨h', hd, s', he⟩ := s.detach
      have hprev : (cache.heap .tail).prev = some p := by
        have hl := s.isList
        rw [Heap.IsList, List.append_assoc, ← List.cons_append] at hl
        exact (linked_append_cons_cons.1 hl).2.1.2
      refine ⟨p, { cache with heap := h', hashmap := cache.hashmap.erase (h' p).key }, xs,
        ?_, ?_, ?_, Or.inr ⟨hfree, p, List.mem_append_right _ (List.mem_singleton_self p), ?_⟩⟩
      · simp [claim, hfree, hprev, hd]
      · simpa [(he p).1] using s'
      · rw [if_pos hfull, contents_congr fun q _ => he q]
        simp [contents]
      · rw [(he p).1]
  · have hfull : nodes.length ≠ c := by simp [hfree] at hlen; omega
    refine ⟨p, { cache with freeEntries := free }, nodes, ?_, ?_, ?_, Or.inl ⟨by simp [hfree], rfl⟩⟩
    · simp [claim, hfree]
    · refine { s with perm := List.Perm.trans ?_ s.perm }
      rw [hfree, List.append_assoc]
      exact List.perm_middle.symm
    · rw [if_neg hfull]

/-- **`Put` does what the abstract map does.** -/
theorem put_refines (h : Refines cache r) (k : K) (v : T) :
    ∃ cache', cache.put k v = some cache' ∧ Refines cache' (r.put k v) := by
  obtain ⟨nodes, s, hr⟩ := h
  have hkeys : (nodes.map fun p => (cache.heap p).key) = r.entries.map Prod.fst := by
    rw [← hr, contents_keys]
  cases hnode : (index cache.hashmap k).1 with
  | some p =>
    obtain ⟨⟨hp, hkey⟩, hm⟩ := index_eq_some s.hashes hnode
    obtain ⟨xs, ys, rfl⟩ := List.append_of_mem hp
    obtain ⟨h₁, h₂, hd, ha, s', hc, -⟩ := s.moveToFront (v := v) hkey
    refine ⟨{ cache with heap := h₂ }, ?_, p :: (xs ++ ys), s', ?_⟩
    · simp [put, hnode, hd, ha, hm]
    · have hmem : k ∈ r.entries.map Prod.fst := hkeys ▸ List.mem_map.2 ⟨p, hp, hkey⟩
      rw [hc, hr, Recency.put_entries, Recency.putEntries, if_pos hmem]
  | none =>
    have hk := index_eq_none s.hashes hnode
    obtain ⟨p, cache', nodes', hclaim, s', hc, -⟩ :=
      claim_spec { cache with hashmap := (index cache.hashmap k).2 } r.room (s.index k)
    have hk' : k ∉ nodes'.map fun p => (cache'.heap p).key := by
      rw [← contents_keys, hc]
      rw [← contents_keys] at hk
      split_ifs
      · exact fun hm => hk (((List.dropLast_sublist _).map _).subset hm)
      · exact hk
    obtain ⟨h₂, ha, s₂, hc₂⟩ := s'.attach (v := v) hk'
    refine ⟨{ cache' with heap := h₂, hashmap := cache'.hashmap.insert k (some p) }, ?_,
      p :: nodes', s₂, ?_⟩
    · simp [put, hnode, hclaim, ha]
    · rw [hkeys] at hk
      rw [hc₂, hc, Recency.put_entries, Recency.putEntries, if_neg hk, hr]
      split_ifs <;> rfl

/-- **`Get` does what the abstract map does.** -/
theorem get_refines (h : Refines cache r) (k : K) :
    ∃ cache', cache.get k = some (r.lookup k, cache') ∧ Refines cache' (r.get k).2 := by
  obtain ⟨nodes, s, hr⟩ := h
  cases hnode : (index cache.hashmap k).1 with
  | some p =>
    obtain ⟨⟨hp, hkey⟩, hm⟩ := index_eq_some s.hashes hnode
    have hlookup : r.lookup k = some (cache.heap p).data := by
      rw [Recency.lookup, valueAt_eq_some_iff r.nodup, ← hr, ← hkey]
      exact List.mem_map.2 ⟨p, hp, rfl⟩
    obtain ⟨xs, ys, rfl⟩ := List.append_of_mem hp
    obtain ⟨h₁, h₂, hd, ha, s', hc, he⟩ := s.moveToFront (v := (cache.heap p).data) hkey
    have hsame : h₁.setEntry p k (cache.heap p).data = h₁ := by
      rw [← hkey, ← (he p).1, ← (he p).2]
      exact Function.update_eq_self p h₁
    have hdata : (h₂ p).data = (cache.heap p).data := by
      have := (List.cons.inj hc).1
      exact (Prod.mk.inj this).2
    rw [hsame] at ha
    refine ⟨{ cache with heap := h₂ }, ?_, p :: (xs ++ ys), s', ?_⟩
    · simp [get, hnode, hd, ha, hm, hlookup, hdata]
    · rw [hc, hr, Recency.get_snd_entries_of_some hlookup]
  | none =>
    have hlookup : r.lookup k = none := by
      rw [Recency.lookup, valueAt_eq_none_iff, ← hr, contents_keys]
      exact index_eq_none s.hashes hnode
    refine ⟨{ cache with count := cache.count + 1, hashmap := (index cache.hashmap k).2 }, ?_,
      nodes, s.index k, ?_⟩
    · simp [get, hnode, hlookup]
    · rw [Recency.get_snd_entries_of_none hlookup, ← hr]

/-- Whether the constructor's loop ends, and with which list.  From `2^32` nodes
on the counter never reaches `size`. -/
theorem fillFree_eq {size : ℕ} (fuel i : ℕ) (free : List Ptr) (hi : i ≤ size) (hi' : i < 2 ^ 32) :
    fillFree size fuel i free =
      if size < 2 ^ 32 ∧ size - i < fuel then
        some (free ++ (List.range' i (size - i)).map .entry)
      else none := by
  induction fuel generalizing i free with
  | zero => simp [fillFree]
  | succ fuel ih =>
    rw [fillFree]
    rcases Nat.lt_or_ge i size with hlt | hge
    · rw [if_pos hlt]
      by_cases hwrap : i + 1 < 2 ^ 32
      · rw [Nat.mod_eq_of_lt hwrap, ih _ _ hlt hwrap]
        have hsub : size - i = size - (i + 1) + 1 := by omega
        rw [hsub, List.range'_succ]
        simp
      · -- the counter wraps to `0`, which is possible below `size` only if `size` is too large
        have hbig : ¬ size < 2 ^ 32 := by omega
        rw [show (i + 1) % 2 ^ 32 = 0 by omega, ih _ _ (Nat.zero_le _) (by decide)]
        rw [if_neg fun h => hbig h.1, if_neg fun h => hbig h.1]
    · obtain rfl : i = size := by omega
      rw [if_neg (Nat.lt_irrefl i), if_pos ⟨hi', by omega⟩, Nat.sub_self]
      simp

/-- The constructor returns for any size that fits its counter. -/
theorem new_eq_some [Inhabited K] [Inhabited T] (hc : c < 2 ^ 32) {fuel : ℕ} (hfuel : c < fuel) :
    ∃ cache, (new fuel c : Option (LRUCache K T)) = some cache := by
  have hfree := fillFree_eq fuel 0 [] (Nat.zero_le c) (by decide)
  rw [if_pos ⟨hc, by omega⟩] at hfree
  exact ⟨_, by rw [new, hfree]; rfl⟩

/-- It returns for no other. -/
theorem lt_of_new [Inhabited K] [Inhabited T] {fuel : ℕ} (h : new fuel c = some cache) :
    c < 2 ^ 32 := by
  rw [new, fillFree_eq fuel 0 [] (Nat.zero_le _) (by decide)] at h
  split_ifs at h with hc
  · exact hc.1
  · cases h

/-- **A new cache holds nothing.** -/
theorem new_refines [Inhabited K] [Inhabited T] (hc : 0 < c) {fuel : ℕ}
    (h : new fuel c = some cache) : Refines cache (Recency.empty (V := T) hc) := by
  rw [new, fillFree_eq fuel 0 [] (Nat.zero_le _) (by decide)] at h
  split_ifs at h
  · obtain rfl := Option.some.inj h
    refine ⟨[], ⟨?_, ?_, List.nodup_nil, fun k p => by simp⟩, rfl⟩
    · refine List.isChain_cons_cons.2 ⟨⟨?_, ?_⟩, List.isChain_singleton _⟩
      · simp
      · simp
    · simp [List.range_eq_range']
  · cases h

end LRUCache

/-- A call on the abstract map. -/
def abstractCall {c : ℕ} (r : Recency c K T) : Call K T → Option T × Recency c K T
  | .put key data => (none, r.put key data)
  | .get key => r.get key

/-- A sequence of calls on the abstract map, with what each returned. -/
def abstractCalls {c : ℕ} (r : Recency c K T) : List (Call K T) → List (Option T) × Recency c K T
  | [] => ([], r)
  | x :: xs =>
    let (out, r) := abstractCall r x
    let (outs, r) := abstractCalls r xs
    (out :: outs, r)

/-- One call, whichever it is. -/
theorem call_refines {c : ℕ} {cache : LRUCache K T} {r : Recency c K T} (h : Refines cache r)
    (x : Call K T) :
    ∃ cache', cache.call x = some ((abstractCall r x).1, cache') ∧
      Refines cache' (abstractCall r x).2 := by
  cases x with
  | put key data =>
    obtain ⟨cache', hput, h'⟩ := LRUCache.put_refines h key data
    exact ⟨cache', by simp [LRUCache.call, hput, abstractCall], h'⟩
  | get key =>
    obtain ⟨cache', hget, h'⟩ := LRUCache.get_refines h key
    exact ⟨cache', by simp [LRUCache.call, hget, abstractCall, Recency.get_fst], h'⟩

theorem calls_refines {c : ℕ} {cache : LRUCache K T} {r : Recency c K T} (h : Refines cache r)
    (xs : List (Call K T)) :
    ∃ cache', cache.calls xs = some ((abstractCalls r xs).1, cache') ∧
      Refines cache' (abstractCalls r xs).2 := by
  induction xs generalizing cache r with
  | nil => exact ⟨cache, rfl, h⟩
  | cons x xs ih =>
    obtain ⟨cache₁, hcall, h₁⟩ := call_refines h x
    obtain ⟨cache₂, hcalls, h₂⟩ := ih h₁
    exact ⟨cache₂, by simp [LRUCache.calls, hcall, hcalls, abstractCalls], h₂⟩

/-- **`LRUCache` is a least recently used map.**  For any capacity that the
constructor can count to it returns, and from the cache it returns any sequence
of calls goes through and returns what the abstract map returns.  After it the
list from `head_` to `tail_` is linked in both directions, its nodes carry the
distinct keys of the abstract map in its order, the non-null entries of
`hashmap_` are its nodes, and with the free nodes they number the capacity. -/
theorem calls_refine_recency [Inhabited K] [Inhabited T] {c : ℕ} (hc : 0 < c) :
    (c < 2 ^ 32 → ∃ fuel cache₀, (LRUCache.new fuel c : Option (LRUCache K T)) = some cache₀) ∧
    ∀ (fuel : ℕ) (cache₀ : LRUCache K T), LRUCache.new fuel c = some cache₀ →
      ∀ xs : List (Call K T), ∃ cache nodes,
        cache₀.calls xs = some ((abstractCalls (Recency.empty hc) xs).1, cache) ∧
        contents cache.heap nodes = (abstractCalls (Recency.empty hc) xs).2.entries ∧
        Linked (fun p => (cache.heap p).next) (fun p => (cache.heap p).prev)
          (.head :: (nodes ++ [.tail])) ∧
        (nodes.map fun p => (cache.heap p).key).Nodup ∧
        (∀ k p, cache.hashmap.lookup k = some (some p) ↔ p ∈ nodes ∧ (cache.heap p).key = k) ∧
        (cache.freeEntries ++ nodes).Nodup ∧ cache.freeEntries.length + nodes.length = c := by
  refine ⟨fun hlt => ⟨c + 1, LRUCache.new_eq_some hlt (by omega)⟩, fun fuel cache₀ hnew xs => ?_⟩
  obtain ⟨cache, hcalls, nodes, s, hcontents⟩ := calls_refines (LRUCache.new_refines hc hnew) xs
  exact ⟨cache, nodes, hcalls, hcontents, s.isList, s.nodup_keys, s.hashes, s.nodup, s.length_eq⟩

/-- With room for one key, a second key takes its place. -/
theorem calls_refine_recency_one :
    ∃ cache nodes, ((LRUCache.new 2 1 : Option (LRUCache ℕ ℕ)).bind fun cache₀ =>
        cache₀.calls [.put 1 10, .get 1, .put 2 20, .get 1, .get 2]) =
          some ([none, some 10, none, none, some 20], cache) ∧
      contents cache.heap nodes = [(2, 20)] ∧ cache.freeEntries.length + nodes.length = 1 := by
  obtain ⟨cache₀, hnew⟩ : ∃ cache₀, (LRUCache.new 2 1 : Option (LRUCache ℕ ℕ)) = some cache₀ :=
    ⟨_, rfl⟩
  obtain ⟨cache, nodes, hcalls, hcontents, -, -, -, -, hlen⟩ :=
    (calls_refine_recency (K := ℕ) (T := ℕ) Nat.one_pos).2 2 cache₀ hnew
      [.put 1 10, .get 1, .put 2 20, .get 1, .get 2]
  refine ⟨cache, nodes, ?_, hcontents, hlen⟩
  rw [hnew]
  exact hcalls

end Cache
end QuicNs3

/-
# How large `hashmap_` gets

The list of an `LRUCache` never has more nodes than the capacity.  Its hash map can have
more entries: `Get` and `Put` look a key up with `hashmap_[key]`, which inserts a null
pointer for a key that is absent.  `Put` replaces it by a node; after a `Get` it stays, as
only the key of an evicted node is ever erased.

`length_keys_get` and `length_keys_put` say by how much a call changes the number of
entries, and `always_bounded_iff` when it stays within the capacity.
-/

import QuicNs3.Cache.Refinement
import QuicNs3.Lib.Run

namespace QuicNs3
namespace Cache

open Lib

variable {K T : Type} [DecidableEq K] {c : ℕ}

/-- The key of a call. -/
def Call.key : Call K T → K
  | .put key _ => key
  | .get key => key

/-- The cache after a call. -/
def LRUCache.callStep (cache : LRUCache K T) (x : Call K T) : Option (LRUCache K T) :=
  (cache.call x).map Prod.snd

/-- **The hash map has no more entries than the cache has nodes.** -/
def Bounded (c : ℕ) (cache : LRUCache K T) : Prop := cache.hashmap.keys.length ≤ c

/-- A call finds its key in the hash map, or room for it: fewer than `c` entries or, for
`Put`, a node to be evicted. -/
def HasRoom (c : ℕ) (cache : LRUCache K T) (x : Call K T) : Prop :=
  x.key ∈ cache.hashmap ∨ cache.hashmap.keys.length < c ∨
    (∃ key data, x = .put key data) ∧ cache.freeEntries = []

instance (c : ℕ) (cache : LRUCache K T) (x : Call K T) : Decidable (HasRoom c cache x) :=
  match x with
  | .put key data =>
    decidable_of_iff (key ∈ cache.hashmap ∨ cache.hashmap.keys.length < c ∨ cache.freeEntries = [])
      (by simp [HasRoom, Call.key])
  | .get key =>
    decidable_of_iff (key ∈ cache.hashmap ∨ cache.hashmap.keys.length < c)
      (by simp [HasRoom, Call.key])

namespace LRUCache

variable {cache cache' : LRUCache K T} {r : Recency c K T} {k : K} {v : T} {o : Option T}

/-- `hashmap_[key]` adds an entry if there is none for the key. -/
theorem length_keys_index (m : AList fun _ : K => Option Ptr) (k : K) :
    (index m k).2.keys.length = m.keys.length + (if k ∈ m then 0 else 1) ∧ k ∈ (index m k).2 := by
  unfold index
  cases hk : m.lookup k with
  | some node =>
    have hmem : k ∈ m := AList.lookup_isSome.1 (by simp [hk])
    exact ⟨by simp [hmem], hmem⟩
  | none =>
    have hmem : k ∉ m := AList.lookup_eq_none.1 hk
    have hkeys : k ∉ m.keys := hmem
    refine ⟨?_, AList.mem_insert m |>.2 (Or.inl rfl)⟩
    rw [AList.keys_insert, List.erase_of_not_mem hkeys, List.length_cons, if_neg hmem]

/-- **`Get`** adds an entry for a key it does not find. -/
theorem length_keys_get (h : cache.get k = some (o, cache')) :
    cache'.hashmap.keys.length =
      cache.hashmap.keys.length + if k ∈ cache.hashmap then 0 else 1 := by
  rw [← (length_keys_index cache.hashmap k).1]
  unfold LRUCache.get at h
  cases hnode : (index cache.hashmap k).1 with
  | some p =>
    simp only [hnode, bind, Option.bind_eq_some_iff, pure, Option.some.injEq, Prod.mk.injEq] at h
    obtain ⟨h₁, -, h₂, -, -, rfl⟩ := h
    rfl
  | none =>
    simp only [hnode, Option.some.injEq, Prod.mk.injEq] at h
    obtain ⟨-, rfl⟩ := h
    rfl

/-- **`Put`** adds an entry for a key it does not find, and takes one away if it evicts a
node. -/
theorem length_keys_put (hr : Refines cache r) (h : cache.put k v = some cache') :
    (k ∈ cache.hashmap ∧ cache'.hashmap.keys.length ≤ cache.hashmap.keys.length) ∨
      k ∉ cache.hashmap ∧ (cache.freeEntries = [] ∧
          cache'.hashmap.keys.length = cache.hashmap.keys.length ∨
        cache.freeEntries ≠ [] ∧
          cache'.hashmap.keys.length = cache.hashmap.keys.length + 1) := by
  obtain ⟨nodes, s, -⟩ := hr
  obtain ⟨hlen, hk⟩ := length_keys_index cache.hashmap k
  cases hnode : (index cache.hashmap k).1 with
  | some p =>
    obtain ⟨hp, hm⟩ := index_eq_some s.hashes hnode
    have hmem : k ∈ cache.hashmap := hm ▸ hk
    simp only [put, hnode, bind, Option.bind_eq_some_iff, pure, Option.some.injEq] at h
    obtain ⟨h₁, -, h₂, -, rfl⟩ := h
    exact Or.inl ⟨hmem, by rw [hm]⟩
  | none =>
    have hout : k ∉ nodes.map fun p => (cache.heap p).key := index_eq_none s.hashes hnode
    obtain ⟨p, cache₁, nodes', hclaim, -, -, herase⟩ :=
      claim_spec { cache with hashmap := (index cache.hashmap k).2 } r.room (s.index k)
    simp only [put, hnode, hclaim, bind, Option.bind_some, Option.bind_eq_some_iff, pure,
      Option.some.injEq] at h
    obtain ⟨h₁, -, rfl⟩ := h
    -- The entry of the key is there already, so that storing the node adds none.
    have hinsert : k ∈ cache₁.hashmap →
        (cache₁.hashmap.insert k (some p)).keys.length = cache₁.hashmap.keys.length := by
      intro hmem
      have hmem' : k ∈ cache₁.hashmap.keys := hmem
      have hpos := List.length_pos_of_mem hmem'
      rw [AList.keys_insert, List.length_cons, List.length_erase_of_mem hmem']
      omega
    rcases herase with ⟨hfree, heq⟩ | ⟨hfree, q, hq, heq⟩
    · have hcount := hinsert (heq ▸ hk)
      rw [hcount, heq, hlen]
      by_cases hmem : k ∈ cache.hashmap
      · exact Or.inl ⟨hmem, by simp [hmem]⟩
      · exact Or.inr ⟨hmem, Or.inr ⟨hfree, by simp [hmem]⟩⟩
    · have hne : k ≠ (cache.heap q).key := fun hkq => hout (hkq ▸ List.mem_map_of_mem hq)
      have hvictim : (cache.heap q).key ∈ (index cache.hashmap k).2.keys :=
        AList.lookup_isSome.1 (by rw [((s.index k).hashes _ q).2 ⟨hq, rfl⟩]; rfl)
      have hpos := List.length_pos_of_mem hvictim
      have hcount := hinsert (heq ▸ AList.mem_erase.2 ⟨hne, hk⟩)
      rw [hcount, heq, AList.keys_erase, List.length_erase_of_mem hvictim, hlen]
      by_cases hmem : k ∈ cache.hashmap
      · exact Or.inl ⟨hmem, by simp [hmem]⟩
      · exact Or.inr ⟨hmem, Or.inl ⟨hfree, by simp [hmem]⟩⟩

end LRUCache

/-! ## Runs -/

open LRUCache

/-- **One call** keeps the bound exactly if it finds its key or room for it. -/
theorem bounded_callStep {cache cache' : LRUCache K T} {r : Recency c K T} {x : Call K T}
    (hr : Refines cache r) (hb : Bounded c cache) (h : cache.callStep x = some cache') :
    Bounded c cache' ↔ HasRoom c cache x := by
  unfold Bounded at hb ⊢
  obtain ⟨⟨o, _⟩, hcall, rfl⟩ := Option.map_eq_some_iff.1 h
  cases x with
  | get k =>
    rw [length_keys_get hcall]
    by_cases hmem : k ∈ cache.hashmap
    · simpa [HasRoom, Call.key, hmem] using hb
    · have hroom : HasRoom c cache (.get k) ↔ cache.hashmap.keys.length < c := by
        simp [HasRoom, Call.key, hmem]
      rw [hroom, if_neg hmem]
      exact Nat.add_one_le_iff
  | put k v =>
    obtain ⟨cache₁, hput, hpair⟩ := Option.map_eq_some_iff.1 hcall
    obtain ⟨-, rfl⟩ := Prod.mk.inj hpair
    rcases length_keys_put hr hput with ⟨hmem, hle⟩ | ⟨hmem, ⟨hfree, heq⟩ | ⟨hfree, heq⟩⟩
    · simpa [HasRoom, Call.key, hmem] using hle.trans hb
    · simpa [HasRoom, hfree, heq] using hb
    · have hroom : HasRoom c cache (.put k v) ↔ cache.hashmap.keys.length < c := by
        simp [HasRoom, Call.key, hmem, hfree]
      rw [hroom, heq]
      exact Nat.add_one_le_iff

theorem refines_callStep {cache cache' : LRUCache K T} {x : Call K T}
    (hr : ∃ r : Recency c K T, Refines cache r) (h : cache.callStep x = some cache') :
    ∃ r : Recency c K T, Refines cache' r := by
  obtain ⟨r, hr⟩ := hr
  obtain ⟨cache₁, hcall, hr'⟩ := call_refines hr x
  obtain ⟨y, hy, rfl⟩ := Option.map_eq_some_iff.1 h
  obtain rfl := Option.some.inj (hcall.symm.trans hy)
  exact ⟨_, hr'⟩

/-- Every sequence of calls goes through. -/
theorem exists_run_callStep {cache : LRUCache K T} (hr : ∃ r : Recency c K T, Refines cache r)
    (xs : List (Call K T)) : ∃ cache', run callStep cache xs = some cache' := by
  induction xs generalizing cache with
  | nil => exact ⟨cache, rfl⟩
  | cons x xs ih =>
    obtain ⟨cache₁, hcall, -⟩ := call_refines hr.choose_spec x
    have hstep : cache.callStep x = some cache₁ := by
      unfold callStep
      rw [hcall]
      rfl
    obtain ⟨cache₂, hrun⟩ := ih (refines_callStep hr hstep)
    exact ⟨cache₂, by rw [run_cons, hstep]; exact hrun⟩

/-- **The hash map is bounded by the capacity**, in every state of a sequence of calls,
exactly if every call finds its key in it or room for it. -/
theorem always_bounded_iff [Inhabited K] [Inhabited T] (hc : 0 < c) (fuel : ℕ)
    (cache : LRUCache K T) (hnew : LRUCache.new fuel c = some cache) (xs : List (Call K T)) :
    Always callStep (Bounded c) cache xs ↔ EachStep callStep (HasRoom c) cache xs := by
  have hr : ∃ r : Recency c K T, Refines cache r := ⟨_, new_refines hc hnew⟩
  have hempty : Bounded c cache := by
    rw [LRUCache.new, fillFree_eq fuel 0 [] (Nat.zero_le _) (by decide)] at hnew
    split_ifs at hnew
    · obtain rfl := Option.some.inj hnew
      exact Nat.zero_le c
    · cases hnew
  obtain ⟨cache', hrun⟩ := exists_run_callStep hr xs
  refine always_iff_eachStep (I := fun cache => ∃ r : Recency c K T, Refines cache r)
    (fun _ _ _ h hs => refines_callStep h hs) (fun s x t h hb hs => ?_) hr hempty hrun
  obtain ⟨r, h⟩ := h
  exact bounded_callStep h hb hs

/-- With room for one key, a second key takes its place in the hash map, too. -/
theorem always_bounded_two_puts : ∃ cache, (LRUCache.new 2 1 : Option (LRUCache ℕ ℕ)) = some cache ∧
    Always callStep (Bounded 1) cache [.put 1 10, .put 2 20, .get 2] := by
  refine ⟨_, rfl, (always_bounded_iff Nat.one_pos 2 _ rfl _).2 ?_⟩
  decide

/-- **Two keys that are not found** take two entries of a cache for one key. -/
theorem exists_unbounded : ∃ cache, (LRUCache.new 2 1 : Option (LRUCache ℕ ℕ)) = some cache ∧
    (run callStep cache [.get 1, .get 2]).map (fun t => t.hashmap.keys) = some [2, 1] ∧
    ¬ Always callStep (Bounded 1) cache [.get 1, .get 2] := by
  refine ⟨_, rfl, by decide, fun h => ?_⟩
  have hlast := h.last rfl
  unfold Bounded at hlast
  exact absurd hlast (by decide)

end Cache
end QuicNs3

/-
# The shape of an `LRUCache`

`Shape` is what holds of the data members between two calls: the list is linked
in both directions, free and listed nodes together are the nodes of `entries_`,
listed nodes carry distinct keys, and the non-null entries of `hashmap_` are the
listed nodes.

The operations only ever take a node off the list (`Shape.detach`) and put a free
node in front (`Shape.attach`).  Using a node is the two in a row
(`Shape.moveToFront`).
-/

import QuicNs3.Cache.Links
import QuicNs3.Lib.Recency

namespace QuicNs3
namespace Cache

open Lib

variable {K T : Type} [DecidableEq K]

/-- The non-null entries of `hashmap_` are the nodes on the list, each under its key. -/
def Hashes (hashmap : AList fun _ : K => Option Ptr) (key : Ptr → K) (nodes : List Ptr) : Prop :=
  ∀ k p, hashmap.lookup k = some (some p) ↔ p ∈ nodes ∧ key p = k

section Hashes

variable {m : AList fun _ : K => Option Ptr} {key key' : Ptr → K} {k : K} {p : Ptr}
  {nodes nodes' : List Ptr}

/-- `hashmap_[key]` inserts null pointers only. -/
theorem Hashes.index (h : Hashes m key nodes) (k : K) :
    Hashes (LRUCache.index m k).2 key nodes := by
  intro k' p
  rw [← h k' p]
  unfold LRUCache.index
  cases hk : m.lookup k with
  | some node => rfl
  | none =>
    by_cases hk' : k' = k
    · subst hk'; simp [hk]
    · simp [AList.lookup_insert_ne hk']

theorem index_eq_some (h : Hashes m key nodes) (hp : (LRUCache.index m k).1 = some p) :
    (p ∈ nodes ∧ key p = k) ∧ (LRUCache.index m k).2 = m := by
  rw [← h k p]
  unfold LRUCache.index at hp ⊢
  cases hk : m.lookup k <;> simp_all

theorem index_eq_none (h : Hashes m key nodes) (hp : (LRUCache.index m k).1 = none) :
    k ∉ nodes.map key := by
  simp only [List.mem_map, not_exists]
  intro p hpk
  have hm := (h k p).2 hpk
  simp [LRUCache.index, hm] at hp

/-- A node taken off the list, with its entry. -/
theorem Hashes.erase {xs ys : List Ptr} (h : Hashes m key (xs ++ p :: ys))
    (hnd : ((xs ++ p :: ys).map key).Nodup) : Hashes (m.erase (key p)) key (xs ++ ys) := by
  intro k q
  by_cases hk : k = key p
  · subst hk
    simp only [List.map_append, List.map_cons, List.nodup_append, List.nodup_cons] at hnd
    rw [AList.lookup_erase]
    simp only [reduceCtorEq, List.mem_append, false_iff, not_and]
    rintro (hq | hq) hkey
    · exact hnd.2.2 _ (List.mem_map.2 ⟨q, hq, hkey⟩) _ (List.mem_cons_self ..) rfl
    · exact hnd.2.1.1 (List.mem_map.2 ⟨q, hq, hkey⟩)
  · rw [AList.lookup_erase_ne hk, h k q]
    have hqp : key q = k → q ≠ p := fun hq hp => hk (hp ▸ hq.symm)
    simp only [List.mem_append, List.mem_cons]
    exact ⟨fun ⟨hq, hkey⟩ => ⟨by have := hqp hkey; tauto, hkey⟩,
      fun ⟨hq, hkey⟩ => ⟨by tauto, hkey⟩⟩

/-- A node put on the list under a new key. -/
theorem Hashes.insert (h : Hashes m key nodes) (hk : k ∉ nodes.map key) (hp : p ∉ nodes)
    (hkey : key' p = k) (hkey' : ∀ q ∈ nodes, key' q = key q) :
    Hashes (m.insert k (some p)) key' (p :: nodes) := by
  intro k' q
  by_cases hk' : k' = k
  · subst hk'
    rw [AList.lookup_insert, List.mem_cons]
    constructor
    · rintro ⟨⟩; exact ⟨.inl rfl, hkey⟩
    · rintro ⟨rfl | hq, hqk⟩
      · rfl
      · exact absurd (List.mem_map.2 ⟨q, hq, (hkey' q hq).symm.trans hqk⟩) hk
  · rw [AList.lookup_insert_ne hk', h k' q, List.mem_cons]
    constructor
    · rintro ⟨hq, hqk⟩; exact ⟨.inr hq, (hkey' q hq).trans hqk⟩
    · rintro ⟨rfl | hq, hqk⟩
      · exact absurd (hqk.symm.trans hkey) hk'
      · exact ⟨hq, (hkey' q hq).symm.trans hqk⟩

end Hashes

/-- The keys and values along the list. -/
def contents (h : Heap K T) (nodes : List Ptr) : List (K × T) :=
  nodes.map fun p => ((h p).key, (h p).data)

omit [DecidableEq K] in
theorem contents_congr {h h' : Heap K T} {nodes : List Ptr}
    (he : ∀ p ∈ nodes, (h' p).key = (h p).key ∧ (h' p).data = (h p).data) :
    contents h' nodes = contents h nodes :=
  List.map_congr_left fun p hp => by rw [(he p hp).1, (he p hp).2]

omit [DecidableEq K] in
@[simp] theorem contents_keys (h : Heap K T) (nodes : List Ptr) :
    (contents h nodes).map Prod.fst = nodes.map fun p => (h p).key := by
  simp [contents]

/-- The data members of a cache with `c` nodes, of which `free` are free and `nodes`
are on the list. -/
structure Shape (c : ℕ) (free : List Ptr) (hashmap : AList fun _ : K => Option Ptr)
    (heap : Heap K T) (nodes : List Ptr) : Prop where
  isList : heap.IsList nodes
  perm : (free ++ nodes).Perm ((List.range c).map .entry)
  nodup_keys : (nodes.map fun p => (heap p).key).Nodup
  hashes : Hashes hashmap (fun p => (heap p).key) nodes

namespace Shape

variable {c : ℕ} {free : List Ptr} {m m' : AList fun _ : K => Option Ptr} {h : Heap K T}
  {nodes xs ys : List Ptr} {p : Ptr} {k : K} {v : T}

theorem nodup (s : Shape c free m h nodes) : (free ++ nodes).Nodup :=
  s.perm.nodup_iff.2 (List.nodup_range.map fun _ _ => Ptr.entry.inj)

/-- With the sentinels, still no node twice. -/
theorem nodup_sentinels (s : Shape c free m h nodes) : (Ptr.head :: (nodes ++ [.tail])).Nodup := by
  have hmem : ∀ p ∈ nodes, ∃ i, Ptr.entry i = p := fun p hp => by
    have := s.perm.subset (List.mem_append_right free hp)
    obtain ⟨i, -, hi⟩ := List.mem_map.1 this
    exact ⟨i, hi⟩
  have hhead : Ptr.head ∉ nodes := fun hp => by obtain ⟨i, hi⟩ := hmem _ hp; cases hi
  have htail : Ptr.tail ∉ nodes := fun hp => by obtain ⟨i, hi⟩ := hmem _ hp; cases hi
  have hnodes := (List.nodup_append.1 s.nodup).2.1
  simp only [List.nodup_cons, List.mem_append, List.mem_singleton, reduceCtorEq, or_false, hhead,
    not_false_eq_true, true_and, List.nodup_append, hnodes, List.nodup_nil, List.not_mem_nil]
  rintro p hp _ rfl rfl
  exact htail hp

theorem length_eq (s : Shape c free m h nodes) : free.length + nodes.length = c := by
  simpa using s.perm.length_eq

theorem congr_hashmap (s : Shape c free m h nodes) (hm : ∀ k, m'.lookup k = m.lookup k) :
    Shape c free m' h nodes :=
  { s with hashes := fun k p => by rw [hm k]; exact s.hashes k p }

theorem index (s : Shape c free m h nodes) (k : K) :
    Shape c free (LRUCache.index m k).2 h nodes :=
  { s with hashes := s.hashes.index k }

/-- **A node goes off the list** and becomes free. -/
theorem detach (s : Shape c free m h (xs ++ p :: ys)) :
    ∃ h', h.detach p = some h' ∧ Shape c (p :: free) (m.erase (h p).key) h' (xs ++ ys) ∧
      Heap.SameEntries h h' := by
  obtain ⟨h', hd, hl, he⟩ := h.detach_isList s.isList s.nodup_sentinels
  have hkey : (fun p => (h' p).key) = fun p => (h p).key := funext fun p => (he p).1
  refine ⟨h', hd, ⟨hl, ?_, ?_, ?_⟩, he⟩
  · refine List.Perm.trans ?_ s.perm
    rw [List.cons_append, ← List.append_assoc, ← List.append_assoc]
    exact List.perm_middle.symm
  · rw [hkey]
    exact ((List.sublist_cons_self p ys).append_left xs |>.map _).nodup s.nodup_keys
  · rw [hkey]
    exact s.hashes.erase s.nodup_keys

/-- **A free node goes behind `head_`** under a key the list does not have. -/
theorem attach (s : Shape c (p :: free) m h nodes) (hk : k ∉ nodes.map fun p => (h p).key) :
    ∃ h', (h.setEntry p k v).attach p = some h' ∧
      Shape c free (m.insert k (some p)) h' (p :: nodes) ∧
      contents h' (p :: nodes) = (k, v) :: contents h nodes := by
  have hp : p ∉ nodes := fun hp =>
    (List.nodup_cons.1 s.nodup).1 (List.mem_append_right _ hp)
  have hps : p ∉ Ptr.head :: (nodes ++ [.tail]) := by
    obtain ⟨i, -, rfl⟩ := List.mem_map.1 (s.perm.subset (List.mem_cons_self ..))
    simp [hp]
  obtain ⟨h', ha, hl, he⟩ := (h.setEntry p k v).attach_isList (Heap.isList_setEntry s.isList)
    s.nodup_sentinels hps
  have hself : (h' p).key = k ∧ (h' p).data = v := by
    rw [(he p).1, (he p).2]; exact Heap.setEntry_self
  have hother : ∀ q ∈ nodes, (h' q).key = (h q).key ∧ (h' q).data = (h q).data := by
    intro q hq
    have hqp : q ≠ p := fun hqp => hp (hqp ▸ hq)
    rw [(he q).1, (he q).2, Heap.setEntry_of_ne hqp]
    exact ⟨rfl, rfl⟩
  have hcontents : contents h' (p :: nodes) = (k, v) :: contents h nodes := by
    rw [← contents_congr hother, ← hself.1, ← hself.2]; rfl
  refine ⟨h', ha, ⟨hl, s.perm.symm.trans List.perm_middle.symm |>.symm, ?_, ?_⟩, hcontents⟩
  · rw [← contents_keys, hcontents, List.map_cons, contents_keys]
    exact List.nodup_cons.2 ⟨hk, s.nodup_keys⟩
  · exact s.hashes.insert hk hp hself.1 fun q hq => (hother q hq).1

/-- A node goes off the list and back in front of it: `hashmap_` stays. -/
theorem moveToFront (s : Shape c free m h (xs ++ p :: ys)) (hp : (h p).key = k) :
    ∃ h₁ h₂, h.detach p = some h₁ ∧ (h₁.setEntry p k v).attach p = some h₂ ∧
      Shape c free m h₂ (p :: (xs ++ ys)) ∧
      contents h₂ (p :: (xs ++ ys)) = (k, v) :: without k (contents h (xs ++ p :: ys)) ∧
      Heap.SameEntries h h₁ := by
  subst hp
  obtain ⟨h₁, hd, s₁, he⟩ := s.detach
  have hnd := s.nodup_keys
  have hk : (h p).key ∉ (xs ++ ys).map fun q => (h₁ q).key := by
    rw [show (fun q => (h₁ q).key) = fun q => (h q).key from funext fun q => (he q).1]
    have hmiddle : (xs ++ p :: ys).Perm (p :: (xs ++ ys)) := List.perm_middle
    have hperm := hmiddle.map fun q => (h q).key
    exact (List.nodup_cons.1 (hperm.nodup_iff.1 hnd)).1
  obtain ⟨h₂, ha, s₂, hc⟩ := s₁.attach (v := v) hk
  have hlookup : m.lookup (h p).key = some (some p) := (s.hashes _ p).2 ⟨by simp, rfl⟩
  refine ⟨h₁, h₂, hd, ha, s₂.congr_hashmap fun k' => ?_, ?_, he⟩
  · by_cases hk' : k' = (h p).key
    · rw [hk', hlookup, AList.lookup_insert]
    · rw [AList.lookup_insert_ne hk', AList.lookup_erase_ne hk']
  · rw [hc, contents_congr fun q _ => he q]
    have hsplit : contents h (xs ++ p :: ys) =
        contents h xs ++ ((h p).key, (h p).data) :: contents h ys := by simp [contents]
    rw [← contents_keys, hsplit] at hnd
    rw [hsplit, without_append_cons hnd]
    simp [contents]

end Shape

end Cache
end QuicNs3

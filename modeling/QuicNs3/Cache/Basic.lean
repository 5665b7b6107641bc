/-
# `LRUCache`

The class template `LRUCache<K,T>` of `model/net/tools/quic/quic_simple_dispatcher.h`.
It allocates an array `entries_` of nodes once.  A node is either in
`free_entries_` or on the doubly linked list that runs from the sentinel `head_`
to the sentinel `tail_`, the node used last behind `head_`; `hashmap_` maps a key
to its node.

The model keeps the pointers.  `Ptr` names the nodes there are, the heap maps
each to its fields, and every `->` through a null pointer is `none`.  Looking a
key up with `hashmap_[key]` inserts a null pointer when the key is absent, and
that entry stays.  The loop of the constructor counts in an `unsigned int` up to
a `size_t`, so from `2^32` nodes on it does not end; `fuel` bounds its rounds.
-/

import Mathlib.Algebra.Order.Ring.Int
import Mathlib.Data.List.AList

namespace QuicNs3
namespace Cache

/-- The nodes of a cache: the two sentinels and `entries_ + i`. -/
inductive Ptr
  | head
  | tail
  | entry (i : ℕ)
deriving DecidableEq, Repr

/-- `Node<K,T>`. -/
structure Node (K T : Type) where
  key : K
  data : T
  prev : Option Ptr
  next : Option Ptr

/-- The fields of every node. -/
abbrev Heap (K T : Type) := Ptr → Node K T

namespace Heap

variable {K T : Type}

/-- `p->next = q`. -/
def setNext (h : Heap K T) (p : Ptr) (q : Option Ptr) : Heap K T :=
  Function.update h p { h p with next := q }

/-- `p->prev = q`. -/
def setPrev (h : Heap K T) (p : Ptr) (q : Option Ptr) : Heap K T :=
  Function.update h p { h p with prev := q }

/-- `p->key = key; p->data = data`. -/
def setEntry (h : Heap K T) (p : Ptr) (key : K) (data : T) : Heap K T :=
  Function.update h p { h p with key := key, data := data }

/-- `LRUCache::detach`. -/
def detach (h : Heap K T) (node : Ptr) : Option (Heap K T) := do
  let prev ← (h node).prev
  let h := h.setNext prev (h node).next
  let next ← (h node).next
  pure (h.setPrev next (h node).prev)

/-- `LRUCache::attach`. -/
def attach (h : Heap K T) (node : Ptr) : Option (Heap K T) := do
  let h := h.setNext node (h .head).next
  let h := h.setNext .head (some node)
  let next ← (h node).next
  let h := h.setPrev next (some node)
  pure (h.setPrev node (some .head))

end Heap

/-- The data members of `LRUCache<K,T>`; `count` is the number of misses. -/
structure LRUCache (K T : Type) [DecidableEq K] where
  count : ℕ
  hashmap : AList fun _ : K => Option Ptr
  freeEntries : List Ptr
  heap : Heap K T

namespace LRUCache

variable {K T : Type} [DecidableEq K]

/-- The loop of the constructor, `for (unsigned int i = 0; i < size; ++i)`. -/
def fillFree (size : ℕ) : ℕ → ℕ → List Ptr → Option (List Ptr)
  | 0, _, _ => none
  | fuel + 1, i, free =>
    if i < size then fillFree size fuel ((i + 1) % 2 ^ 32) (free ++ [.entry i]) else some free

/-- The constructor, with at most `fuel` tests of its loop. -/
def new [Inhabited K] [Inhabited T] (fuel size : ℕ) : Option (LRUCache K T) := do
  let free ← fillFree size fuel 0 []
  let heap : Heap K T := fun _ => ⟨default, default, none, none⟩
  pure ⟨0, ∅, free, (heap.setNext .head (some .tail)).setPrev .tail (some .head)⟩

/-- `hashmap_[key]`: a key that is absent is inserted with a null pointer. -/
def index (hashmap : AList fun _ : K => Option Ptr) (key : K) :
    Option Ptr × AList fun _ : K => Option Ptr :=
  match hashmap.lookup key with
  | some node => (node, hashmap)
  | none => (none, hashmap.insert key none)

/-- The node a new key is stored in, with what is left: the back of
`free_entries_`, or the last node of the list, taken from its old key. -/
def claim (c : LRUCache K T) : Option (Ptr × LRUCache K T) :=
  match c.freeEntries.getLast? with
  | none => do
    let node ← (c.heap .tail).prev
    let heap ← c.heap.detach node
    pure (node, { c with heap := heap, hashmap := c.hashmap.erase (heap node).key })
  | some node => some (node, { c with freeEntries := c.freeEntries.dropLast })

/-- `LRUCache::Put`. -/
def put (c : LRUCache K T) (key : K) (data : T) : Option (LRUCache K T) :=
  let (node, hashmap) := index c.hashmap key
  match node with
  | some node => do
    let heap ← c.heap.detach node
    let heap ← (heap.setEntry node key data).attach node
    pure { c with heap := heap, hashmap := hashmap }
  | none => do
    let (node, c) ← claim { c with hashmap := hashmap }
    let heap ← (c.heap.setEntry node key data).attach node
    pure { c with heap := heap, hashmap := c.hashmap.insert key (some node) }

/-- `LRUCache::Get`: what is written to `value` on a hit, `none` on a miss. -/
def get (c : LRUCache K T) (key : K) : Option (Option T × LRUCache K T) :=
  let (node, hashmap) := index c.hashmap key
  match node with
  | some node => do
    let heap ← c.heap.detach node
    let heap ← heap.attach node
    pure (some (heap node).data, { c with heap := heap, hashmap := hashmap })
  | none => some (none, { c with count := c.count + 1, hashmap := hashmap })

end LRUCache

/-- A call of one of the two public operations. -/
inductive Call (K T : Type)
  | put (key : K) (data : T)
  | get (key : K)

/-- One call, and what a `Get` returned. -/
def LRUCache.call {K T : Type} [DecidableEq K] (c : LRUCache K T) :
    Call K T → Option (Option T × LRUCache K T)
  | .put key data => (c.put key data).map fun c => (none, c)
  | .get key => c.get key

/-- A sequence of calls, with what each returned. -/
def LRUCache.calls {K T : Type} [DecidableEq K] (c : LRUCache K T) :
    List (Call K T) → Option (List (Option T) × LRUCache K T)
  | [] => some ([], c)
  | x :: xs => do
    let (out, c) ← c.call x
    let (outs, c) ← c.calls xs
    pure (out :: outs, c)

end Cache
end QuicNs3

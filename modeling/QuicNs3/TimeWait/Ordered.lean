/-
# The time wait list in order

Entries go to the end of the list with the time of the clock, so the list is sorted by the
times at which its ids were added, and its first entry is an oldest one.  Therefore the two
loops, which look at the first entry only, remove what they should: `CleanUpOldConnectionIds`
all that is old enough (`expireLoop_eq_filter`), and `TrimTimeWaitListIfNeeded` the oldest
(`trimLoop_eq_drop`).
-/

import QuicNs3.TimeWait.Basic

namespace QuicNs3
namespace TimeWait

open Lib

variable {π : Type} {l : ConnectionIdMap π} {limit : ℕ} {expiration : ℤ}

/-! ## The loops -/

/-- The list is sorted by the times at which its ids were added. -/
def Sorted (l : ConnectionIdMap π) : Prop :=
  l.Pairwise fun e f => e.2.timeAdded ≤ f.2.timeAdded

theorem keys_map {f : ℕ × ConnectionIdData π → ℕ × ConnectionIdData π}
    (hkey : ∀ e, (f e).1 = e.1) : (l.map f).map Prod.fst = l.map Prod.fst := by
  rw [List.map_map, show Prod.fst ∘ f = Prod.fst from funext hkey]

theorem expireLoop_sublist (l : ConnectionIdMap π) : (expireLoop expiration l).Sublist l := by
  induction l with
  | nil => exact .slnil
  | cons e l ih =>
    rw [expireLoop, maybeExpireOldestConnection]
    by_cases h : e.2.timeAdded > expiration
    · rw [if_pos h]
    · rw [if_neg h]
      exact ih.cons e

/-- **Cleaning up** a sorted list removes exactly what is old enough. -/
theorem expireLoop_eq_filter (h : Sorted l) :
    expireLoop expiration l = l.filter fun e => decide (expiration < e.2.timeAdded) := by
  induction l with
  | nil => rfl
  | cons e l ih =>
    obtain ⟨hfirst, hrest⟩ := List.pairwise_cons.1 h
    rw [expireLoop, maybeExpireOldestConnection]
    by_cases hnew : e.2.timeAdded > expiration
    · -- the first entry stays, and all others are younger
      have hall : ∀ f ∈ e :: l, decide (expiration < f.2.timeAdded) = true := by
        intro f hf
        rcases List.mem_cons.1 hf with rfl | hf
        · exact decide_eq_true hnew
        · exact decide_eq_true (lt_of_lt_of_le hnew (hfirst f hf))
      rw [if_pos hnew]
      exact (List.filter_eq_self.2 hall).symm
    · rw [if_neg hnew, List.filter_cons_of_neg (by simpa using hnew)]
      exact ih hrest

/-- **Making room** in a list removes its first entries, and no more than needed. -/
theorem trimLoop_eq_drop (hlimit : 0 < limit) (h : ∀ e ∈ l, e.2.timeAdded ≤ infinite) :
    trimLoop limit l = some (l.drop (l.length + 1 - limit)) := by
  induction l with
  | nil => simp [trimLoop, Nat.not_le.2 hlimit]
  | cons e l ih =>
    have hfirst : ¬e.2.timeAdded > infinite := Int.not_lt.2 (h e (List.mem_cons_self ..))
    rw [trimLoop]
    by_cases hfull : limit ≤ l.length + 1
    · have hcount : (e :: l).length + 1 - limit = (l.length + 1 - limit) + 1 := by
        rw [List.length_cons]
        omega
      rw [if_pos hfull, maybeExpireOldestConnection, if_neg hfirst, hcount, List.drop_succ_cons]
      exact ih fun f hf => h f (List.mem_cons_of_mem _ hf)
    · have hcount : (e :: l).length + 1 - limit = 0 := by
        rw [List.length_cons]
        omega
      rw [if_neg hfull, hcount, List.drop_zero]

/-- Whatever the limit is, a suffix of the list stays. -/
theorem suffix_of_trim {c : Config} {l' : ConnectionIdMap π}
    (h : trimTimeWaitListIfNeeded c l = some l') : l' <:+ l := by
  unfold trimTimeWaitListIfNeeded at h
  split_ifs at h
  · exact Option.some.inj h ▸ List.suffix_refl l
  · generalize c.maxConnections.toNat = limit at h
    induction l with
    | nil =>
      rw [trimLoop] at h
      split_ifs at h
      exact Option.some.inj h ▸ List.suffix_refl []
    | cons e l ih =>
      rw [trimLoop, maybeExpireOldestConnection] at h
      by_cases hfull : limit ≤ l.length + 1
      · rw [if_pos hfull] at h
        by_cases hnew : e.2.timeAdded > infinite
        · rw [if_pos hnew] at h
          exact absurd h (by simp)
        · rw [if_neg hnew] at h
          exact (ih h).trans (List.suffix_cons e l)
      · rw [if_neg hfull] at h
        exact Option.some.inj h ▸ List.suffix_refl _

namespace Manager

variable {m t : Manager π} {id version : ℕ} {rejectedStatelessly : Bool}
  {terminationPackets : Option (List π)}

/-! ## What holds in every state -/

/-- **The list is in order**, and its times are those of the clock. -/
structure Sound (m : Manager π) : Prop where
  nodup : (m.connectionIdMap.map Prod.fst).Nodup
  sorted : Sorted m.connectionIdMap
  le_clock : ∀ e ∈ m.connectionIdMap, e.2.timeAdded ≤ m.clock
  clock_le : m.clock ≤ infinite
  added : ∀ e ∈ m.connectionIdMap, valueAt e.1 m.added = some e.2.timeAdded
  alarm : m.alarm = none

theorem Sound.new {c : Config} {clock : ℤ} (h : clock ≤ infinite) :
    (new c clock : Manager π).Sound where
  nodup := List.nodup_nil
  sorted := List.Pairwise.nil
  le_clock := fun _ he => absurd he List.not_mem_nil
  clock_le := h
  added := fun _ he => absurd he List.not_mem_nil
  alarm := rfl

/-- Entries are removed. -/
theorem Sound.sublist {l : ConnectionIdMap π} (h : m.Sound) (hl : l.Sublist m.connectionIdMap) :
    { m with connectionIdMap := l }.Sound where
  nodup := (hl.map _).nodup h.nodup
  sorted := h.sorted.sublist hl
  le_clock := fun e he => h.le_clock e (hl.subset he)
  clock_le := h.clock_le
  added := fun e he => h.added e (hl.subset he)
  alarm := h.alarm

/-- **What a step does** while no alarm is set. -/
inductive Stepped (m : Manager π) : Op π → Manager π → Prop
  | add {l : ConnectionIdMap π} (id version : ℕ) (rejectedStatelessly : Bool)
      (terminationPackets : Option (List π))
      (hl : trimTimeWaitListIfNeeded m.config (without id m.connectionIdMap) = some l) :
      Stepped m (.addConnectionIdToTimeWait id version rejectedStatelessly terminationPackets)
        { m with
          connectionIdMap :=
            l ++ [(id, m.newData id version rejectedStatelessly terminationPackets)]
          added := without id m.added ++ [(id, m.clock)] }
  /-- A packet changes a number of packets, and no key and no time. -/
  | packet (id : ℕ) (count : ℕ × ConnectionIdData π → ℕ × ConnectionIdData π)
      (hkey : ∀ e, (count e).1 = e.1) (htime : ∀ e, (count e).2.timeAdded = e.2.timeAdded) :
      Stepped m (.processPacket id) { m with connectionIdMap := m.connectionIdMap.map count }
  | cleanUp :
      Stepped m .cleanUpOldConnectionIds
        { m with
          connectionIdMap := expireLoop (m.clock - m.config.timeWaitPeriod) m.connectionIdMap }
  | tick (clock : ℤ) (hle : m.clock ≤ clock) (hmax : clock ≤ infinite) :
      Stepped m (.tick clock) { m with clock := clock }

theorem Sound.stepped {op : Op π} (h : m.Sound) (ht : m.step op = some t) : m.Stepped op t := by
  cases op with
  | addConnectionIdToTimeWait id version rejected packets =>
    obtain ⟨l, hl, rfl⟩ := Option.map_eq_some_iff.1 ht
    exact .add id version rejected packets hl
  | processPacket id =>
    simp only [Manager.step, Manager.processPacket, Option.map_map] at ht
    obtain ⟨d, -, rfl⟩ := Option.map_eq_some_iff.1 ht
    exact .packet id _ (fun e => by split_ifs <;> rfl) (fun e => by split_ifs <;> rfl)
  | cleanUpOldConnectionIds => exact Option.some.inj ht ▸ .cleanUp
  | tick clock =>
    simp only [Manager.step] at ht
    split_ifs at ht with hclock
    exact Option.some.inj ht ▸ .tick clock hclock.1 hclock.2.1
  | onAlarm =>
    rw [Manager.step, h.alarm] at ht
    exact absurd ht (by simp)

theorem Sound.add {l : ConnectionIdMap π} (h : m.Sound)
    (hl : trimTimeWaitListIfNeeded m.config (without id m.connectionIdMap) = some l) :
    { m with
      connectionIdMap := l ++ [(id, m.newData id version rejectedStatelessly terminationPackets)]
      added := without id m.added ++ [(id, m.clock)] }.Sound := by
  have hsub : l.Sublist (without id m.connectionIdMap) := (suffix_of_trim hl).sublist
  have hrest : { m with connectionIdMap := l }.Sound :=
    h.sublist (hsub.trans List.filter_sublist)
  have hother : ∀ e ∈ l, e.1 ≠ id := fun e he => (mem_without.1 (hsub.subset he)).2
  refine ⟨?_, ?_, ?_, h.clock_le, ?_, h.alarm⟩
  · show ((l ++ [(id, _)]).map Prod.fst).Nodup
    rw [List.map_append]
    refine List.nodup_append.2 ⟨hrest.nodup, List.nodup_singleton _, ?_⟩
    intro k hk k' hk'
    obtain ⟨e, he, rfl⟩ := List.mem_map.1 hk
    obtain rfl := List.mem_singleton.1 hk'
    exact hother e he
  · refine List.pairwise_append.2 ⟨hrest.sorted, List.pairwise_singleton _ _, ?_⟩
    intro e he f hf
    obtain rfl := List.mem_singleton.1 hf
    exact hrest.le_clock e he
  · intro e he
    rcases List.mem_append.1 he with he | he
    · exact hrest.le_clock e he
    · obtain rfl := List.mem_singleton.1 he
      exact le_rfl
  · intro e he
    show valueAt e.1 (without id m.added ++ [(id, m.clock)]) = some e.2.timeAdded
    rw [valueAt_put]
    rcases List.mem_append.1 he with he | he
    · rw [if_neg (hother e he)]
      exact hrest.added e he
    · obtain rfl := List.mem_singleton.1 he
      exact if_pos rfl

/-- Keys and times are what counts. -/
theorem Sound.map (h : m.Sound) {count : ℕ × ConnectionIdData π → ℕ × ConnectionIdData π}
    (hkey : ∀ e, (count e).1 = e.1) (htime : ∀ e, (count e).2.timeAdded = e.2.timeAdded) :
    { m with connectionIdMap := m.connectionIdMap.map count }.Sound := by
  refine ⟨?_, ?_, ?_, h.clock_le, ?_, h.alarm⟩
  · show ((m.connectionIdMap.map count).map Prod.fst).Nodup
    rw [keys_map hkey]
    exact h.nodup
  · refine List.pairwise_map.2 (h.sorted.imp fun {e f} hef => ?_)
    rw [htime, htime]
    exact hef
  · intro e he
    obtain ⟨f, hf, rfl⟩ := List.mem_map.1 he
    exact (htime f).trans_le (h.le_clock f hf)
  · intro e he
    obtain ⟨f, hf, rfl⟩ := List.mem_map.1 he
    rw [hkey, htime]
    exact h.added f hf

/-- **One step.** -/
theorem Sound.step {op : Op π} (h : m.Sound) (ht : m.step op = some t) : t.Sound := by
  cases h.stepped ht with
  | add id version rejected packets hl => exact h.add hl
  | packet id count hkey htime => exact h.map hkey htime
  | cleanUp => exact h.sublist (expireLoop_sublist _)
  | tick clock hle hmax =>
    exact ⟨h.nodup, h.sorted, fun e he => (h.le_clock e he).trans hle, hmax, h.added, h.alarm⟩

/-! ## Adding an id -/

theorem Sound.times (h : m.Sound) (id : ℕ) :
    ∀ e ∈ without id m.connectionIdMap, e.2.timeAdded ≤ infinite :=
  fun e he => (h.le_clock e (mem_without.1 he).1).trans h.clock_le

theorem Sound.trim_eq (h : m.Sound) (hlimit : 0 < m.config.maxConnections) :
    trimTimeWaitListIfNeeded m.config (without id m.connectionIdMap) =
      some ((without id m.connectionIdMap).drop
        ((without id m.connectionIdMap).length + 1 - m.config.maxConnections.toNat)) := by
  rw [trimTimeWaitListIfNeeded, if_neg (Int.not_lt.2 hlimit.le),
    trimLoop_eq_drop (Int.pos_iff_toNat_pos.1 hlimit) (h.times id)]

/-- **An id is added** to a list with room for one id or more: the call returns, with the
oldest ids removed if there was no room. -/
theorem Sound.add_eq (h : m.Sound) (hlimit : 0 < m.config.maxConnections) :
    m.addConnectionIdToTimeWait id version rejectedStatelessly terminationPackets =
      some { m with
        connectionIdMap :=
          (without id m.connectionIdMap).drop
              ((without id m.connectionIdMap).length + 1 - m.config.maxConnections.toNat) ++
            [(id, m.newData id version rejectedStatelessly terminationPackets)]
        added := without id m.added ++ [(id, m.clock)] } := by
  rw [Manager.addConnectionIdToTimeWait, h.trim_eq hlimit]
  rfl

/-- The list holds no more ids than it may. -/
def Bounded (m : Manager π) : Prop := (m.connectionIdMap.length : ℤ) ≤ m.config.maxConnections

/-- No step changes the configuration, and none but an added id makes the list longer. -/
theorem Sound.bounded_step {op : Op π} (h : m.Sound) (hlimit : 0 < m.config.maxConnections)
    (hm : m.Bounded) (ht : m.step op = some t) : t.config = m.config ∧ t.Bounded := by
  cases h.stepped ht with
  | add id version rejected packets hl =>
    obtain rfl := Option.some.inj (hl.symm.trans (h.trim_eq hlimit))
    refine ⟨rfl, ?_⟩
    unfold Bounded
    simp only [List.length_append, List.length_drop, List.length_singleton]
    omega
  | packet id count hkey htime =>
    refine ⟨rfl, ?_⟩
    simpa only [Bounded, List.length_map] using hm
  | cleanUp => exact ⟨rfl, le_trans (Int.ofNat_le.2 (expireLoop_sublist _).length_le) hm⟩
  | tick clock hle hmax => exact ⟨rfl, hm⟩

/-! ## Order and bound in every run -/

/-- The list holds each id once, sorted by the times at which the ids were added last, and
no more ids than it may. -/
structure Ordered (m : Manager π) : Prop where
  nodup : (m.connectionIdMap.map Prod.fst).Nodup
  sorted : Sorted m.connectionIdMap
  timed : ∀ e ∈ m.connectionIdMap, valueAt e.1 m.added = some e.2.timeAdded
  bounded : m.Bounded

/-- `CleanUpOldConnectionIds` removes exactly the ids added at or before the time that lies
the period back. -/
def CleansUp (m : Manager π) : Prop :=
  m.cleanUpOldConnectionIds.connectionIdMap = m.connectionIdMap.filter fun e =>
    !decide (e.2.timeAdded ≤ m.clock - m.config.timeWaitPeriod)

/-- `AddConnectionIdToTimeWait` returns, with the id at the end of the list, the number of
packets it had, and no id removed but the oldest of a full list. -/
def Adds (m : Manager π) (id version : ℕ) (rejectedStatelessly : Bool)
    (terminationPackets : Option (List π)) : Prop :=
  ∃ t evicted kept data,
    m.addConnectionIdToTimeWait id version rejectedStatelessly terminationPackets = some t ∧
    without id m.connectionIdMap = evicted ++ kept ∧
    t.connectionIdMap = kept ++ [(id, data)] ∧
    (∀ e ∈ evicted, ∀ k ∈ kept, e.2.timeAdded ≤ k.2.timeAdded) ∧
    (evicted ≠ [] → (t.connectionIdMap.length : ℤ) = m.config.maxConnections) ∧
    data.timeAdded = m.clock ∧
    ∀ d, valueAt id m.connectionIdMap = some d → data.numPackets = d.numPackets

theorem Sound.cleansUp (h : m.Sound) : m.CleansUp := by
  refine (expireLoop_eq_filter h.sorted).trans (List.filter_congr fun e _ => ?_)
  rw [← decide_not]
  exact decide_eq_decide.2 Int.not_le.symm

theorem Sound.adds (h : m.Sound) (hlimit : 0 < m.config.maxConnections) :
    m.Adds id version rejectedStatelessly terminationPackets := by
  set rest := without id m.connectionIdMap with hrest
  set n := rest.length + 1 - m.config.maxConnections.toNat with hn
  refine ⟨_, rest.take n, rest.drop n, _, h.add_eq hlimit, (List.take_append_drop n rest).symm,
    rfl, ?_, ?_, rfl, ?_⟩
  · have hsorted : Sorted rest := h.sorted.sublist List.filter_sublist
    rw [← List.take_append_drop n rest] at hsorted
    exact (List.pairwise_append.1 hsorted).2.2
  · intro hevicted
    have hpos : n ≠ 0 := fun h0 => hevicted (h0 ▸ List.take_zero)
    simp only [List.length_append, List.length_drop, List.length_singleton, ← hrest]
    omega
  · intro d hd
    simp [newData, hd]

/-- **The time wait list is ordered and bounded.**  In every state of every run of a manager
with room for one id or more, the list holds each id once, sorted by the times at which they
were added, and no more than it may; cleaning it up would remove exactly what is old enough,
and adding an id would remove the oldest ids of a full list only and keep the number of
packets of an id that was there. -/
theorem always_ordered (c : Config) (clock : ℤ) (ops : List (Op π)) (hclock : clock ≤ infinite)
    (hlimit : 0 < c.maxConnections) :
    Always Manager.step
      (fun m => m.Ordered ∧ m.CleansUp ∧
        ∀ id version rejectedStatelessly terminationPackets,
          m.Adds id version rejectedStatelessly terminationPackets)
      (Manager.new c clock) ops := by
  have hrun : Always Manager.step (fun m : Manager π => m.config = c ∧ m.Sound ∧ m.Bounded)
      (Manager.new c clock) ops := by
    refine always_of_step (fun m op t hm ht => ?_) ⟨rfl, Sound.new hclock, hlimit.le⟩
    obtain ⟨hc, hsound, hbounded⟩ := hm
    obtain ⟨hconfig, hb⟩ := hsound.bounded_step (hc ▸ hlimit) hbounded ht
    exact ⟨hconfig.trans hc, hsound.step ht, hb⟩
  refine hrun.mono fun m hm => ?_
  obtain ⟨hc, hsound, hbounded⟩ := hm
  exact ⟨⟨hsound.nodup, hsound.sorted, hsound.added, hbounded⟩, hsound.cleansUp,
    fun _ _ _ _ => hsound.adds (hc ▸ hlimit)⟩

/-- A list with room for two: the third id takes the place of the first, and the second
comes back with its packet. -/
theorem ordered_after_eviction :
    let c : Config := ⟨200, 2, by decide⟩
    let ops : List (Op Unit) :=
      [.addConnectionIdToTimeWait 7 39 false none, .tick 5,
        .addConnectionIdToTimeWait 8 39 false none, .processPacket 8, .tick 6,
        .addConnectionIdToTimeWait 9 39 false none, .addConnectionIdToTimeWait 8 39 false none]
    (Lib.run Manager.step (Manager.new c 0) ops).map
        (fun m => m.connectionIdMap.map fun e => (e.1, e.2.numPackets, e.2.timeAdded)) =
      some [(9, 0, 6), (8, 1, 6)] ∧
    Always Manager.step
      (fun m => m.Ordered ∧ m.CleansUp ∧
        ∀ id version rejectedStatelessly terminationPackets,
          m.Adds id version rejectedStatelessly terminationPackets)
      (Manager.new c 0) ops :=
  ⟨by decide, always_ordered _ _ _ (by decide) (by decide)⟩

end Manager

end TimeWait
end QuicNs3

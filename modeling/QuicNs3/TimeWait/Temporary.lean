/-
# How long an id stays in time wait

An id is to leave the list when it has been there for the time wait period.  The clean up
alarm is what should see to that, but `SetConnectionIdCleanUpAlarm` returns before it sets
the alarm, so `CleanUpOldConnectionIds` is called only if something else calls it.

Whether an id is still in the list can be told from the calls alone.  Behind its entry
stands one for each id that was added since (`Holds`), so the entry is gone when as many
have been added as the list may hold, or when the list was cleaned up and the entry was
old enough: `tracked`.

`always_temporary_iff` says what is then left of the property: no id stays for too long in a
run exactly if each id that is added is removed by one of these calls, or added again,
before the clock passes the time at which it is due.  An id that nothing removes stays for
ever, and every packet for it is answered as one of a closed connection
(`not_always_temporary`).
-/

import QuicNs3.TimeWait.Ordered
import Mathlib.Data.List.Infix

namespace QuicNs3
namespace TimeWait

open Lib

variable {π : Type}

/-! ## What the calls say -/

/-- The id that a call adds. -/
def Op.added : Op π → Option ℕ
  | .addConnectionIdToTimeWait id _ _ _ => some id
  | _ => none

/-- The time after a call. -/
def Op.clock (now : ℤ) : Op π → ℤ
  | .tick clock => clock
  | _ => now

/-- The time of a call of `CleanUpOldConnectionIds`. -/
def Op.cleanUp (now : ℤ) : Op π → List ℤ
  | .cleanUpOldConnectionIds => [now]
  | _ => []

/-- The ids that are added. -/
def addedIds (ops : List (Op π)) : List ℕ := ops.filterMap Op.added

/-- The time after the calls. -/
def clockAfter (clock : ℤ) (ops : List (Op π)) : ℤ := ops.foldl Op.clock clock

/-- The times at which `CleanUpOldConnectionIds` is called. -/
def cleanUpTimes (clock : ℤ) : List (Op π) → List ℤ
  | [] => []
  | op :: ops => op.cleanUp clock ++ cleanUpTimes (op.clock clock) ops

/-- **The calls since an id was added remove it**: it is added again, or as many ids are
added as the list may hold, or the list is cleaned up at a time at which the id is due. -/
def Removed (c : Config) (time : ℤ) (id : ℕ) (since : List (Op π)) : Prop :=
  id ∈ addedIds since ∨
    (0 ≤ c.maxConnections ∧ c.maxConnections ≤ (addedIds since).dedup.length) ∨
    ∃ now ∈ cleanUpTimes time since, time + c.timeWaitPeriod ≤ now

instance {c : Config} {time : ℤ} {id : ℕ} {since : List (Op π)} :
    Decidable (Removed c time id since) :=
  inferInstanceAs (Decidable (_ ∨ _ ∨ _))

/-- **The calls are in time**: wherever the clock has passed the time at which an id is
due, the calls since it was added have removed it. -/
def InTime (c : Config) (clock : ℤ) (ops : List (Op π)) : Prop :=
  ∀ before id version rejectedStatelessly terminationPackets since,
    before ++ .addConnectionIdToTimeWait id version rejectedStatelessly terminationPackets ::
        since <+: ops →
      clockAfter clock before + c.timeWaitPeriod < clockAfter (clockAfter clock before) since →
        Removed c (clockAfter clock before) id since

section Calls

variable {ops : List (Op π)} {op : Op π} {clock time : ℤ} {id : ℕ} {c : Config}

theorem inTime_cons :
    InTime c clock (op :: ops) ↔
      (∀ id ∈ op.added, ∀ since ∈ ops.inits,
        clock + c.timeWaitPeriod < clockAfter clock since → Removed c clock id since) ∧
      InTime c (op.clock clock) ops := by
  constructor
  · refine fun h => ⟨fun id hid since hsince hlate => ?_,
      fun before id version rejected packets since hpre hlate => ?_⟩
    · cases op with
      | addConnectionIdToTimeWait k version rejected packets =>
        obtain rfl := Option.some.inj hid
        exact h [] _ version rejected packets since
          (List.cons_prefix_cons.2 ⟨rfl, (List.mem_inits _ _).1 hsince⟩) hlate
      | _ => exact absurd hid (by simp [Op.added])
    · exact h (op :: before) id version rejected packets since
        (List.cons_prefix_cons.2 ⟨rfl, hpre⟩) hlate
  · rintro ⟨hfirst, hrest⟩ before id version rejected packets since hpre hlate
    cases before with
    | nil =>
      obtain ⟨rfl, hsince⟩ := List.cons_prefix_cons.1 hpre
      exact hfirst id rfl since ((List.mem_inits _ _).2 hsince) hlate
    | cons op' before =>
      obtain ⟨rfl, hrest'⟩ := List.cons_prefix_cons.1 hpre
      exact hrest before id version rejected packets since hrest' hlate

instance decidableInTime : (clock : ℤ) → (ops : List (Op π)) → Decidable (InTime c clock ops)
  | _, [] => .isTrue fun _ _ _ _ _ _ hpre => absurd (List.prefix_nil.1 hpre) (by simp)
  | clock, op :: ops =>
    have := decidableInTime (op.clock clock) ops
    decidable_of_iff _ inTime_cons.symm

theorem addedIds_concat : addedIds (ops ++ [op]) = addedIds ops ++ op.added.toList := by
  rw [addedIds, List.filterMap_append, ← addedIds]
  cases h : op.added <;> simp [h]

theorem addedIds_concat_of_quiet (hadd : op.added = none) :
    addedIds (ops ++ [op]) = addedIds ops := by
  rw [addedIds_concat, hadd, Option.toList_none, List.append_nil]

theorem clockAfter_concat : clockAfter clock (ops ++ [op]) = op.clock (clockAfter clock ops) := by
  simp [clockAfter]

theorem cleanUpTimes_concat :
    cleanUpTimes clock (ops ++ [op]) =
      cleanUpTimes clock ops ++ op.cleanUp (clockAfter clock ops) := by
  induction ops generalizing clock with
  | nil => simp [cleanUpTimes, clockAfter]
  | cons op' ops ih =>
    rw [List.cons_append, cleanUpTimes, ih, cleanUpTimes, List.append_assoc]
    rfl

/-- What is removed stays removed. -/
theorem Removed.concat (h : Removed c time id ops) : Removed c time id (ops ++ [op]) := by
  have hsub : addedIds ops ⊆ addedIds (ops ++ [op]) := by
    rw [addedIds_concat]
    exact List.subset_append_left _ _
  have hmono : (addedIds ops).dedup.length ≤ (addedIds (ops ++ [op])).dedup.length :=
    (List.subperm_of_subset (List.nodup_dedup _) fun j hj =>
      List.mem_dedup.2 (hsub (List.mem_dedup.1 hj))).length_le
  rcases h with h | h | ⟨now, hnow, hdue⟩
  · exact .inl (hsub h)
  · exact .inr (.inl ⟨h.1, h.2.trans (Int.ofNat_le.2 hmono)⟩)
  · refine .inr (.inr ⟨now, ?_, hdue⟩)
    rw [cleanUpTimes_concat]
    exact List.mem_append_left _ hnow

/-- A call that adds nothing and does not clean up removes nothing. -/
theorem removed_concat_of_quiet (hadd : op.added = none) (hclean : ∀ now, op.cleanUp now = []) :
    Removed c time id (ops ++ [op]) ↔ Removed c time id ops := by
  unfold Removed
  rw [addedIds_concat_of_quiet hadd, cleanUpTimes_concat, hclean, List.append_nil]

/-- Another id may be the last one that there was room for. -/
theorem removed_concat_of_added {k : ℕ} (hadd : op.added = some k)
    (hclean : ∀ now, op.cleanUp now = []) (hne : k ≠ id) :
    Removed c time id (ops ++ [op]) ↔ Removed c time id ops ∨
      (0 ≤ c.maxConnections ∧ c.maxConnections ≤ (addedIds ops ++ [k]).dedup.length) := by
  have hids : addedIds (ops ++ [op]) = addedIds ops ++ [k] := by rw [addedIds_concat, hadd]; rfl
  constructor
  · rintro (h | h | h)
    · rw [hids, List.mem_append, List.mem_singleton, or_iff_left hne.symm] at h
      exact .inl (.inl h)
    · exact .inr (hids ▸ h)
    · rw [cleanUpTimes_concat, hclean, List.append_nil] at h
      exact .inl (.inr (.inr h))
  · rintro (h | h)
    · exact h.concat
    · exact .inr (.inl (hids ▸ h))

/-- Cleaning up removes an id that is due. -/
theorem removed_concat_cleanUp :
    Removed c time id (ops ++ [.cleanUpOldConnectionIds]) ↔
      Removed c time id ops ∨ time + c.timeWaitPeriod ≤ clockAfter time ops := by
  unfold Removed
  rw [addedIds_concat, cleanUpTimes_concat]
  simp only [Op.added, Op.cleanUp, Option.toList_none, List.append_nil, List.mem_append,
    List.mem_singleton, or_and_right, exists_or, exists_eq_left, or_assoc]

end Calls

/-! ## Where an entry stands -/

section Holds

variable {l : ConnectionIdMap π} {id k : ℕ} {time : ℤ} {since : List ℕ}

/-- The list has an entry for an id that was added at a time, and behind it one for each id
that was added since. -/
def Holds (l : ConnectionIdMap π) (id : ℕ) (time : ℤ) (since : List ℕ) : Prop :=
  ∃ xs d ys, l = xs ++ (id, d) :: ys ∧ d.timeAdded = time ∧
    ∀ k, k ∈ ys.map Prod.fst ↔ k ∈ since

theorem Holds.mem (h : Holds l id time since) : id ∈ l.map Prod.fst := by
  obtain ⟨xs, d, ys, rfl, -⟩ := h
  simp

/-- **Another id is added** to the list: the entry is evicted exactly if as many ids have been
added since as the list may hold. -/
theorem Holds.put (h : Holds l id time since) (hl : (l.map Prod.fst).Nodup) (hne : k ≠ id)
    (limit : ℕ) (data : ConnectionIdData π) :
    let rest := (without k l).drop ((without k l).length + 1 - limit)
    (limit ≤ (since ++ [k]).dedup.length → id ∉ (rest ++ [(k, data)]).map Prod.fst) ∧
      ((since ++ [k]).dedup.length < limit →
        Holds (rest ++ [(k, data)]) id time (since ++ [k])) := by
  obtain ⟨xs, d, ys, rfl, htime, hkeys⟩ := h
  have hsplit : without k (xs ++ (id, d) :: ys) = without k xs ++ (id, d) :: without k ys := by
    rw [without_append, without_cons_of_ne hne.symm]
  have hkeys' : ∀ j, j ∈ (without k ys ++ [(k, data)]).map Prod.fst ↔ j ∈ since ++ [k] := by
    intro j
    rw [List.map_append, List.mem_append, List.mem_append, mem_keys_without, hkeys]
    by_cases hj : j = k <;> simp [hj]
  have hys : id ∉ ys.map Prod.fst ∧ (ys.map Prod.fst).Nodup := by
    rw [List.map_append, List.map_cons] at hl
    exact List.nodup_cons.1 (List.nodup_append.1 hl).2.1
  have hnodup : ((without k ys ++ [(k, data)]).map Prod.fst).Nodup := by
    rw [List.map_append, List.map_singleton]
    refine List.nodup_append.2 ⟨nodup_keys_without hys.2, List.nodup_singleton _, ?_⟩
    rintro a ha b hb rfl
    exact not_mem_keys_without (List.mem_singleton.1 hb ▸ ha)
  have hlen : (without k ys).length + 1 = (since ++ [k]).dedup.length := by
    have hperm := (List.perm_ext_iff_of_nodup hnodup (List.nodup_dedup (since ++ [k]))).2 fun j =>
      (hkeys' j).trans List.mem_dedup.symm
    simpa using hperm.length_eq
  intro rest
  have hrest : rest = (without k xs ++ (id, d) :: without k ys).drop
      ((without k xs).length + ((without k ys).length + 1) + 1 - limit) := by
    rw [← List.length_cons (a := (id, d)), ← List.length_append, ← hsplit]
  constructor
  · intro hfull hmem
    obtain ⟨n, hn⟩ : ∃ n, (without k xs).length + ((without k ys).length + 1) + 1 - limit =
        (without k xs).length + (n + 1) :=
      ⟨(without k ys).length + 1 - limit, by omega⟩
    rw [hrest, hn, List.drop_append, List.drop_of_length_le (by omega), List.nil_append,
      Nat.add_sub_cancel_left, List.drop_succ_cons, List.map_append, List.mem_append] at hmem
    rcases hmem with hmem | hmem
    · exact hys.1 (mem_keys_without.1 (((List.drop_sublist _ _).map _).subset hmem)).1
    · exact hne (List.mem_singleton.1 hmem).symm
  · intro hroom
    refine ⟨(without k xs).drop ((without k xs).length + ((without k ys).length + 1) + 1 - limit),
      d, without k ys ++ [(k, data)], ?_, htime, hkeys'⟩
    rw [hrest, List.drop_append_of_le_length (by omega), List.append_assoc, List.cons_append]

/-- **The list is cleaned up**: the entry goes exactly if it is old enough. -/
theorem Holds.expire (h : Holds l id time since) (hs : Sorted l) (hl : (l.map Prod.fst).Nodup)
    (expiration : ℤ) :
    (time ≤ expiration → id ∉ (expireLoop expiration l).map Prod.fst) ∧
      (expiration < time → Holds (expireLoop expiration l) id time since) := by
  obtain ⟨xs, d, ys, rfl, rfl, hkeys⟩ := h
  rw [expireLoop_eq_filter hs, List.filter_append]
  constructor
  · intro hdue hmem
    obtain ⟨e, he, rfl⟩ := List.mem_map.1 hmem
    rw [← List.filter_append] at he
    obtain ⟨he, hkept⟩ := List.mem_filter.1 he
    have hed : e.2 = d := by
      have hv := (valueAt_eq_some_iff hl).2 he
      have hv' := (valueAt_eq_some_iff hl).2
        (List.mem_append_right xs (List.mem_cons_self (a := (e.1, d)) (l := ys)))
      exact Option.some.inj (hv.symm.trans hv')
    rw [hed] at hkept
    exact absurd (of_decide_eq_true hkept) (Int.not_lt.2 hdue)
  · intro hnew
    have hbehind : ∀ e ∈ (id, d) :: ys, decide (expiration < e.2.timeAdded) = true := by
      intro e he
      refine decide_eq_true ?_
      rcases List.mem_cons.1 he with rfl | he
      · exact hnew
      · have hsorted := (List.pairwise_cons.1 (List.pairwise_append.1 hs).2.1).1 e he
        exact lt_of_lt_of_le hnew hsorted
    rw [List.filter_eq_self.2 hbehind]
    exact ⟨_, d, ys, rfl, rfl, hkeys⟩

/-- A packet leaves keys and times alone. -/
theorem Holds.map (h : Holds l id time since)
    {f : ℕ × ConnectionIdData π → ℕ × ConnectionIdData π} (hkey : ∀ e, (f e).1 = e.1)
    (htime : ∀ e, (f e).2.timeAdded = e.2.timeAdded) : Holds (l.map f) id time since := by
  obtain ⟨xs, d, ys, rfl, rfl, hkeys⟩ := h
  have hentry : f (id, d) = (id, (f (id, d)).2) := Prod.ext (hkey _) rfl
  refine ⟨xs.map f, (f (id, d)).2, ys.map f, ?_, htime _, ?_⟩
  · rw [List.map_append, List.map_cons, hentry]
  · rw [keys_map hkey]
    exact hkeys

end Holds

/-- What `TrimTimeWaitListIfNeeded` leaves, if it returns. -/
theorem trim_cases {c : Config} {l l' : ConnectionIdMap π}
    (htimes : ∀ e ∈ l, e.2.timeAdded ≤ infinite) (h : trimTimeWaitListIfNeeded c l = some l') :
    c.maxConnections < 0 ∧ l' = l ∨
      0 < c.maxConnections ∧ l' = l.drop (l.length + 1 - c.maxConnections.toNat) := by
  unfold trimTimeWaitListIfNeeded at h
  split_ifs at h with hlimit
  · exact .inl ⟨hlimit, (Option.some.inj h).symm⟩
  rcases Nat.eq_zero_or_pos c.maxConnections.toNat with hzero | hpos
  · -- the loop does not end before the list is empty, nor then
    exfalso
    rw [hzero] at h
    clear hzero
    induction l with
    | nil => exact absurd h (by simp [trimLoop])
    | cons e l ih =>
      have hfirst : ¬e.2.timeAdded > infinite := Int.not_lt.2 (htimes e List.mem_cons_self)
      rw [trimLoop, if_pos (Nat.zero_le _), maybeExpireOldestConnection, if_neg hfirst] at h
      exact ih (fun f hf => htimes f (List.mem_cons_of_mem _ hf)) h
  · exact .inr ⟨Int.pos_iff_toNat_pos.2 hpos,
      Option.some.inj (h.symm.trans (trimLoop_eq_drop hpos htimes))⟩

namespace Manager

variable {m t u : Manager π} {op : Op π} {id : ℕ} {time : ℤ}

/-- **No id is in the list** when more than the time wait period has passed since it was
added last. -/
def Temporary (m : Manager π) : Prop :=
  ∀ id time, valueAt id m.added = some time → time + m.config.timeWaitPeriod < m.clock →
    m.isConnectionIdInTimeWait id = false

/-! ## One step -/

/-- Only the clock's own step moves it. -/
theorem Sound.frame_step (h : m.Sound) (ht : m.step op = some t) :
    t.config = m.config ∧ t.clock = op.clock m.clock := by
  cases h.stepped ht <;> exact ⟨rfl, rfl⟩

/-- An id that is not in the list and is not added is not in the list. -/
theorem Sound.absent_step (h : m.Sound) (hid : id ∉ m.connectionIdMap.map Prod.fst)
    (hop : op.added ≠ some id) (ht : m.step op = some t) :
    id ∉ t.connectionIdMap.map Prod.fst := by
  cases h.stepped ht with
  | add k version rejected packets hl =>
    rw [List.map_append, List.mem_append]
    rintro (hmem | hmem)
    · have hsub := (suffix_of_trim hl).sublist.trans List.filter_sublist
      exact hid ((hsub.map _).subset hmem)
    · exact hop (congrArg some (List.mem_singleton.1 hmem).symm)
  | packet k count hkey htime =>
    rw [keys_map hkey]
    exact hid
  | cleanUp => exact fun hmem => hid (((expireLoop_sublist _).map _).subset hmem)
  | tick clock hle hmax => exact hid

/-- **An id that is in the list** stays, behind the ids added since, or is removed, as the
calls say. -/
theorem Sound.held_step {since : List (Op π)} (h : m.Sound)
    (hclock : m.clock = clockAfter time since)
    (hH : Holds m.connectionIdMap id time (addedIds since))
    (hnot : ¬Removed m.config time id since) (hop : op.added ≠ some id)
    (ht : m.step op = some t) :
    (Removed m.config time id (since ++ [op]) → id ∉ t.connectionIdMap.map Prod.fst) ∧
      (¬Removed m.config time id (since ++ [op]) →
        Holds t.connectionIdMap id time (addedIds (since ++ [op]))) := by
  cases h.stepped ht with
  | add k version rejected packets hl =>
    have hne : k ≠ id := fun hk => hop (congrArg some hk)
    have hput := hH.put h.nodup hne
    rw [removed_concat_of_added rfl (fun _ => rfl) hne, or_iff_right hnot, addedIds_concat]
    rcases trim_cases (h.times k) hl with ⟨hlimit, rfl⟩ | ⟨hlimit, rfl⟩
    · -- without a limit the list is as one with a limit that is not reached
      refine ⟨fun hfull => absurd hfull.1 (Int.not_le.2 hlimit), fun _ => ?_⟩
      specialize hput ((without k m.connectionIdMap).length + 1)
        (m.newData k version rejected packets)
      rw [Nat.sub_self, List.drop_zero] at hput
      refine hput.2 (Nat.lt_of_not_le fun hfull => hput.1 hfull ?_)
      rw [List.map_append]
      exact List.mem_append_left _ ((mem_keys_without_of_ne hne.symm).2 hH.mem)
    · specialize hput m.config.maxConnections.toNat (m.newData k version rejected packets)
      refine ⟨fun hfull => hput.1 ?_, fun hroom => hput.2 ?_⟩
      · have := hfull.2
        omega
      · have := mt (And.intro hlimit.le) hroom
        omega
  | packet k count hkey htime =>
    rw [removed_concat_of_quiet rfl fun _ => rfl, addedIds_concat_of_quiet rfl]
    exact ⟨fun hrem => absurd hrem hnot, fun _ => hH.map hkey htime⟩
  | cleanUp =>
    have hexpire := hH.expire h.sorted h.nodup (m.clock - m.config.timeWaitPeriod)
    rw [removed_concat_cleanUp, or_iff_right hnot, addedIds_concat_of_quiet rfl, ← hclock]
    exact ⟨fun hdue => hexpire.1 (by omega), fun hnew => hexpire.2 (by omega)⟩
  | tick clock hle hmax =>
    rw [removed_concat_of_quiet rfl fun _ => rfl, addedIds_concat_of_quiet rfl]
    exact ⟨fun hrem => absurd hrem hnot, fun _ => hH⟩

/-- The record of the additions, after one step. -/
theorem Sound.added_step (h : m.Sound) (ht : m.step op = some t) :
    valueAt id t.added = if op.added = some id then some m.clock else valueAt id m.added := by
  cases h.stepped ht with
  | add k version rejected packets hl =>
    rw [valueAt_put]
    exact if_congr (by rw [Op.added, Option.some.injEq, eq_comm]) rfl rfl
  | packet | cleanUp | tick => rfl

/-! ## A run -/

theorem Sound.run {ops : List (Op π)} (h : m.Sound) (hu : run Manager.step m ops = some u) :
    u.Sound ∧ u.config = m.config ∧ u.clock = clockAfter m.clock ops := by
  induction ops using List.reverseRecOn generalizing u with
  | nil => exact Option.some.inj hu ▸ ⟨h, rfl, rfl⟩
  | append_singleton ops op ih =>
    obtain ⟨v, hv, hstep⟩ := run_concat_eq_some.1 hu
    obtain ⟨hsound, hconfig, hclock⟩ := ih hv
    obtain ⟨hconfig', hclock'⟩ := hsound.frame_step hstep
    exact ⟨hsound.step hstep, hconfig'.trans hconfig, by rw [hclock', hclock, clockAfter_concat]⟩

/-- **Where an added id is**, told from the calls since. -/
theorem Sound.tracked {version : ℕ} {rejected : Bool} {packets : Option (List π)}
    {since : List (Op π)} (h : m.Sound)
    (ht : m.step (.addConnectionIdToTimeWait id version rejected packets) = some t)
    (hid : id ∉ addedIds since) (hu : Lib.run Manager.step t since = some u) :
    valueAt id u.added = some m.clock ∧
      (Removed m.config m.clock id since → id ∉ u.connectionIdMap.map Prod.fst) ∧
      (¬Removed m.config m.clock id since →
        Holds u.connectionIdMap id m.clock (addedIds since)) := by
  have hsound := h.step ht
  induction since using List.reverseRecOn generalizing u with
  | nil =>
    obtain rfl := Option.some.inj hu
    obtain ⟨l, hl, rfl⟩ := Option.map_eq_some_iff.1 ht
    refine ⟨by rw [h.added_step ht]; exact if_pos rfl, fun hrem => ?_, fun _ => ?_⟩
    · -- a list that may hold nothing takes no id
      exfalso
      have hzero : 0 ≤ m.config.maxConnections ∧ m.config.maxConnections ≤ 0 := by
        simpa [Removed, addedIds, cleanUpTimes] using hrem
      rcases trim_cases (h.times id) hl with ⟨hlimit, -⟩ | ⟨hlimit, -⟩ <;> omega
    · exact ⟨l, _, [], rfl, rfl, by simp [addedIds]⟩
  | append_singleton since op ih =>
    obtain ⟨v, hv, hstep⟩ := run_concat_eq_some.1 hu
    rw [addedIds_concat, List.mem_append, not_or] at hid
    have hop : op.added ≠ some id := fun hop => hid.2 (by simp [hop])
    obtain ⟨hval, hgone, hheld⟩ := ih hid.1 hv
    obtain ⟨hv', hconfig, hclock⟩ := hsound.run hv
    obtain ⟨hconfig', hclock'⟩ := h.frame_step ht
    refine ⟨by rw [hv'.added_step hstep, if_neg hop, hval], ?_⟩
    by_cases hrem : Removed m.config m.clock id since
    · exact ⟨fun _ => hv'.absent_step (hgone hrem) hop hstep, fun hnot => absurd hrem.concat hnot⟩
    · rw [← hconfig', ← hconfig] at hrem hheld ⊢
      exact hv'.held_step (hclock.trans (congrArg (clockAfter · since) hclock')) (hheld hrem) hrem
        hop hstep

/-- An id in the record was added a last time, and that time is in the record. -/
theorem exists_last_add {c : Config} {clock : ℤ} {ops : List (Op π)} (hclock : clock ≤ infinite)
    (hu : Lib.run Manager.step (Manager.new c clock) ops = some u)
    (hval : valueAt id u.added = some time) :
    ∃ before version rejected packets since,
      ops = before ++ .addConnectionIdToTimeWait id version rejected packets :: since ∧
        id ∉ addedIds since ∧ time = clockAfter clock before := by
  induction ops using List.reverseRecOn generalizing u with
  | nil =>
    obtain rfl := Option.some.inj hu
    exact absurd hval (by simp [Manager.new, setConnectionIdCleanUpAlarm, valueAt])
  | append_singleton ops op ih =>
    obtain ⟨v, hv, hstep⟩ := run_concat_eq_some.1 hu
    obtain ⟨hsound, -, hclock'⟩ := (Sound.new hclock).run hv
    rw [hsound.added_step hstep] at hval
    by_cases hop : op.added = some id
    · rw [if_pos hop] at hval
      cases op with
      | addConnectionIdToTimeWait k version rejected packets =>
        obtain rfl := Option.some.inj hop
        exact ⟨ops, version, rejected, packets, [], rfl, List.not_mem_nil,
          (Option.some.inj hval).symm.trans hclock'⟩
      | _ => exact absurd hop (by simp [Op.added])
    · rw [if_neg hop] at hval
      obtain ⟨before, version, rejected, packets, since, rfl, hid, htime⟩ := ih hv hval
      refine ⟨before, version, rejected, packets, since ++ [op], by simp, ?_, htime⟩
      rw [addedIds_concat, List.mem_append, Option.mem_toList]
      exact not_or.2 ⟨hid, hop⟩

/-- **Whether an id is in the list**, told from the calls since it was added last. -/
theorem inTimeWait_after_add {c : Config} {clock : ℤ} {before since : List (Op π)} {version : ℕ}
    {rejected : Bool} {packets : Option (List π)} (hclock : clock ≤ infinite)
    (hu : Lib.run Manager.step (Manager.new c clock)
      (before ++ .addConnectionIdToTimeWait id version rejected packets :: since) = some u)
    (hid : id ∉ addedIds since) :
    u.config = c ∧ u.clock = clockAfter (clockAfter clock before) since ∧
      valueAt id u.added = some (clockAfter clock before) ∧
      (u.isConnectionIdInTimeWait id = false ↔ Removed c (clockAfter clock before) id since) := by
  rw [run_append, Option.bind_eq_some_iff] at hu
  obtain ⟨m, hm, hu⟩ := hu
  rw [run_cons, Option.bind_eq_some_iff] at hu
  obtain ⟨v, hadd, hu⟩ := hu
  obtain ⟨hsound, hconfig, hnow⟩ := (Sound.new hclock).run hm
  obtain ⟨hconfig', hnow'⟩ := hsound.frame_step hadd
  obtain ⟨-, hconfig'', hnow''⟩ := (hsound.step hadd).run hu
  obtain ⟨hval, hgone, hheld⟩ := hsound.tracked hadd hid hu
  have hnow : m.clock = clockAfter clock before := hnow
  have hconfig : m.config = c := hconfig
  rw [hconfig, hnow] at hgone hheld
  refine ⟨hconfig''.trans (hconfig'.trans hconfig), ?_, hnow ▸ hval, fun hout => ?_,
    fun hrem => decide_eq_false (hgone hrem)⟩
  · rw [hnow'', hnow', hnow]
    rfl
  · by_contra hnot
    exact of_decide_eq_false hout (hheld hnot).mem

/-- **Time wait is temporary** in a run exactly if its calls are in time: each id that is
added is added again, pushed out by as many others as the list may hold, or cleaned up when
it is due, before the clock passes that time. -/
theorem always_temporary_iff (c : Config) (clock : ℤ) (ops : List (Op π)) (t : Manager π)
    (hclock : clock ≤ infinite) (hrun : Lib.run Manager.step (Manager.new c clock) ops = some t) :
    Always Manager.step Temporary (Manager.new c clock) ops ↔ InTime c clock ops := by
  constructor
  · intro hall before id version rejected packets since hpre hlate
    by_cases hid : id ∈ addedIds since
    · exact .inl hid
    obtain ⟨u, hu⟩ := exists_run_of_prefix hpre hrun
    obtain ⟨hconfig, hnow, hval, hiff⟩ := inTimeWait_after_add hclock hu hid
    refine hiff.1 (hall _ u hpre hu id _ hval ?_)
    rw [hconfig, hnow]
    exact hlate
  · intro hin pre u hpre hu id time hval hlate
    obtain ⟨before, version, rejected, packets, since, rfl, hid, rfl⟩ :=
      exists_last_add hclock hu hval
    obtain ⟨hconfig, hnow, -, hiff⟩ := inTimeWait_after_add hclock hu hid
    rw [hconfig, hnow] at hlate
    exact hiff.2 (hin _ _ _ _ _ _ hpre hlate)

/-- A run in which something else cleans up in time. -/
theorem temporary_with_clean_up :
    let ops : List (Op Unit) :=
      [.addConnectionIdToTimeWait 7 39 false none, .tick 200000000, .cleanUpOldConnectionIds,
        .tick 900000000]
    (Lib.run Manager.step (Manager.new Config.default 0) ops).map Manager.clock =
        some 900000000 ∧
      InTime Config.default 0 ops ∧
      Always Manager.step Temporary (Manager.new Config.default 0) ops := by
  intro ops
  have hin : InTime Config.default 0 ops := by decide
  exact ⟨by decide, hin, (always_temporary_iff _ _ _ _ (by decide) rfl).2 hin⟩

/-- **An id stays for ever:** no alarm is set, the clock passes the period, and the id is
still there. -/
theorem not_always_temporary :
    ¬Always Manager.step Temporary (Manager.new Config.default 0 : Manager Unit)
      [.addConnectionIdToTimeWait 7 39 false none, .tick 200000001] := by
  intro h
  have hin := h _ _ (List.prefix_refl _) rfl 7 0 (by decide) (by decide)
  exact absurd hin (by decide)

end Manager
end TimeWait
end QuicNs3

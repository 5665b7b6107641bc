/-
# Which files are read within bounds

`Initialize` and `CreateQuicSession` index vectors whose lengths come from the files
and check none of them:

| access | in range if |
| --- | --- |
| `sv[0]`, `sv[1]`, `sv[2]` | the line has three parts |
| `sv1.front()`, `sv1[i]`, `sv2[i]` | no part has fewer words than the third, the id apart |
| `ip_clusterID[0]`, `ip_clusterID[1]` | the line has two words |
| `stats[ESTIMATED_BANDWIDTH_MEAN]` | the third part has a word for each statistic up to it |

`accesses_inRange_iff` says for which files every access is.  Which lines of the address
file are loaded is `loadedLines`: the last `size_`, with two exceptions that the walk
makes (`lastLines_loaded`).
-/

import QuicNs3.History.Ends
import QuicNs3.History.Lookup

namespace QuicNs3
namespace History

open Cache Lib

/-- The statistics of `connectionStatsIndex` in its order.  Each has three enumerators,
for the minimum, the maximum and the mean. -/
inductive Statistic
  | bytesSent | packetsSent | streamBytesSent | packetsDiscarded | bytesReceived
  | packetsReceived | packetsProcessed | streamBytesReceived | bytesRetransmitted
  | packetsRetransmitted | bytesSpuriouslyRetransmitted | packetsSpuriouslyRetransmitted
  | packetsLost | slowstartPacketsSent | slowstartPacketsLost | slowstartBytesLost
  | packetsDropped | cryptoRetransmitCount | lossTimeoutCount | tlpCount | rtoCount | minRttUs
  | srttUs | maxPacketSize | maxReceivedPacketSize | estimatedBandwidth | packetsReordered
  | maxSequenceReordering | maxTimeReorderingUs | tcpLossEvents | connectionCreationTime
  | blockedFramesReceived | blockedFramesSent
deriving DecidableEq, Repr

/-- The enumerator of the maximum. -/
def Statistic.max (s : Statistic) : ℕ := 3 * s.ctorIdx + 1

/-- The enumerator of the mean. -/
def Statistic.mean (s : Statistic) : ℕ := 3 * s.ctorIdx + 2

variable {D : Type}

/-- What `CreateQuicSession` takes from the statistics of a client. -/
structure Seed (D : Type) where
  initialWindow : D × D
  window : D × D
  slowstartExit : D × D
  initialRtt : D
  initialSrtt : D

/-- The accesses of `CreateQuicSession`, in its order. -/
def seed (stats : List D) : Except Stop (Seed D) := do
  let initialWindow := (← access stats Statistic.estimatedBandwidth.max,
    ← access stats Statistic.minRttUs.max)
  let window := (← access stats Statistic.estimatedBandwidth.max,
    ← access stats Statistic.minRttUs.mean)
  let slowstartExit := (← access stats Statistic.estimatedBandwidth.mean,
    ← access stats Statistic.minRttUs.mean)
  let initialRtt ← access stats Statistic.minRttUs.mean
  let initialSrtt ← access stats Statistic.srttUs.mean
  pure ⟨initialWindow, window, slowstartExit, initialRtt, initialSrtt⟩

/-- The part of `CreateQuicSession` that uses the history of the client. -/
def ConnectionStatsQuery.createQuicSession (q : ConnectionStatsQuery D) (clientIp : List Char) :
    Except Stop (Option (Seed D) × ConnectionStatsQuery D) := do
  match ← deref (q.query clientIp) with
  | (none, q) => pure (none, q)
  | (some stats, q) => pure (some (← seed stats), q)

section Access

variable {α : Type} {v : List α} {i : ℕ}

theorem access_of_lt (h : i < v.length) (x : α) : access v i = .ok (v.getD i x) := by
  simp [access, List.getElem?_eq_getElem h]

theorem access_of_le (h : v.length ≤ i) : access v i = .error .outOfRange := by
  simp [access, List.getElem?_eq_none h]

theorem access_cases (v : List α) (i : ℕ) :
    (∃ x, access v i = .ok x) ∨ access v i = .error .outOfRange := by
  unfold access
  cases v[i]? with
  | some x => exact .inl ⟨x, rfl⟩
  | none => exact .inr rfl

/-- **A seed needs the mean of the bandwidth**, which is the last of what it reads. -/
theorem seed_outOfRange_iff {stats : List D} :
    seed stats = .error .outOfRange ↔ stats.length ≤ Statistic.estimatedBandwidth.mean := by
  constructor
  · intro h
    by_contra hlt
    have hlength : 77 < stats.length := Nat.lt_of_not_le hlt
    obtain ⟨x, hx⟩ : ∃ x, stats[77]? = some x := ⟨_, List.getElem?_eq_getElem hlength⟩
    have haccess : ∀ i, i ≤ 77 → access stats i = .ok (stats.getD i x) := fun i hi =>
      access_of_lt (by omega) x
    simp only [seed, Statistic.max, Statistic.mean, Statistic.ctorIdx, haccess, bind, Except.bind,
      Nat.reduceMul, Nat.reduceAdd, Nat.reduceLeDiff] at h
    cases h
  · intro hle
    have hmean : access stats Statistic.estimatedBandwidth.mean = .error .outOfRange :=
      access_of_le hle
    rcases access_cases stats Statistic.estimatedBandwidth.max with ⟨x, hx⟩ | hx
    · rcases access_cases stats Statistic.minRttUs.max with ⟨y, hy⟩ | hy
      · rcases access_cases stats Statistic.minRttUs.mean with ⟨z, hz⟩ | hz
        · simp only [seed, hx, hy, hz, hmean, bind, Except.bind]
        · simp only [seed, hx, hy, hz, bind, Except.bind]
      · simp only [seed, hx, hy, bind, Except.bind]
    · simp only [seed, hx, bind, Except.bind]

end Access

section Lines

/-- The words of a part of a line of the statistics file. -/
def words (s : List Char) (part : ℕ) : List (List Char) :=
  pieces ',' ((pieces ';' s).getD part [])

/-- The accesses for a line of the statistics file are in range. -/
def StatsInRange (s : List Char) : Prop :=
  3 ≤ (pieces ';' s).length ∧ (words s 2).length < (words s 0).length ∧
    (words s 2).length ≤ (words s 1).length

instance (s : List Char) : Decidable (StatsInRange s) := inferInstanceAs (Decidable (_ ∧ _ ∧ _))

/-- The id in a line of the statistics file. -/
def idOf (s : List Char) : List Char := (words s 0).getD 0 []

/-- The values of these rows of a line. -/
def rowValues (atof : List Char → D) (sv1 sv2 sv3 : List (List Char)) (m : ℕ) : List D :=
  (List.range m).flatMap fun i =>
    [atof (sv1.getD i []), atof (sv2.getD i []), atof (sv3.getD i [])]

/-- The values in a line of the statistics file. -/
def valuesOf (atof : List Char → D) (s : List Char) : List D :=
  rowValues atof ((words s 0).drop 1) (words s 1) (words s 2) (words s 2).length

/-- The accesses for a line of the address file are in range. -/
def IpInRange (s : List Char) : Prop := 2 ≤ (pieces ',' s).length

instance (s : List Char) : Decidable (IpInRange s) := inferInstanceAs (Decidable (_ ≤ _))

/-- The address in a line of the address file. -/
def ipOf (s : List Char) : List Char := (pieces ',' s).getD 0 []

/-- The cluster in a line of the address file. -/
def clusterOf (s : List Char) : List Char := (pieces ',' s).getD 1 []

variable {atof : List Char → D} {s : List Char} {sv1 sv2 sv3 : List (List Char)} {m : ℕ}

theorem length_valuesOf : (valuesOf atof s).length = 3 * (words s 2).length := by
  simp [valuesOf, rowValues, Nat.mul_comm]

theorem split_eq_pieces (s : List Char) (flag : Char) : split s flag = .ok (pieces flag s) := by
  rw [split, forLines_pieces _ rfl, foldlM_push]
  rfl

theorem parseIp_eq (s : List Char) :
    parseIp s = if IpInRange s then .ok (ipOf s, clusterOf s) else .error .outOfRange := by
  unfold parseIp
  rw [split_eq_pieces]
  by_cases h : IpInRange s
  · have hlength : 2 ≤ (pieces ',' s).length := h
    rw [if_pos h]
    simp only [bind, Except.bind, access_of_lt (show 0 < (pieces ',' s).length by omega) [],
      access_of_lt (show 1 < (pieces ',' s).length by omega) []]
    rfl
  · have hlength : (pieces ',' s).length ≤ 1 := by
      unfold IpInRange at h
      omega
    rw [if_neg h]
    rcases access_cases (pieces ',' s) 0 with ⟨x, hx⟩ | hx
    · simp only [bind, Except.bind, hx, access_of_le hlength]
    · simp only [bind, Except.bind, hx]

/-- Rows that all parts have. -/
theorem foldlM_pushRow_of_le (h₁ : m ≤ sv1.length) (h₂ : m ≤ sv2.length) (h₃ : m ≤ sv3.length) :
    (List.range m).foldlM (pushRow atof sv1 sv2 sv3) [] =
      .ok (rowValues atof sv1 sv2 sv3 m) := by
  induction m with
  | zero => rfl
  | succ m ih =>
    rw [List.range_succ, List.foldlM_append, ih (by omega) (by omega) (by omega)]
    simp only [bind, Except.bind, List.foldlM_cons, List.foldlM_nil, pushRow,
      access_of_lt (show m < sv1.length by omega) [],
      access_of_lt (show m < sv2.length by omega) [],
      access_of_lt (show m < sv3.length by omega) []]
    simp [rowValues, List.range_succ, pure, Except.pure]

/-- Rows that the first or the second part lacks. -/
theorem foldlM_pushRow_of_lt (h : sv1.length < m ∨ sv2.length < m) (h₃ : m ≤ sv3.length) :
    (List.range m).foldlM (pushRow atof sv1 sv2 sv3) [] = .error .outOfRange := by
  induction m with
  | zero => omega
  | succ m ih =>
    rw [List.range_succ, List.foldlM_append]
    by_cases hm : sv1.length < m ∨ sv2.length < m
    · rw [ih hm (by omega)]
      rfl
    · rw [foldlM_pushRow_of_le (by omega) (by omega) (by omega)]
      simp only [bind, Except.bind, List.foldlM_cons, pushRow]
      rcases Nat.lt_or_ge m sv1.length with hlt | hge
      · rw [access_of_lt hlt [], access_of_le (show sv2.length ≤ m by omega)]
      · rw [access_of_le hge]

theorem parseStats_of_parts (h : 3 ≤ (pieces ';' s).length) :
    parseStats atof s = (do
      let clusterID ← access (words s 0) 0
      let stats ← pushRows atof ((words s 0).drop 1) (words s 1) (words s 2)
      pure (clusterID, stats)) := by
  unfold parseStats
  simp only [split_eq_pieces, bind, Except.bind,
    access_of_lt (show 0 < (pieces ';' s).length by omega) [],
    access_of_lt (show 1 < (pieces ';' s).length by omega) [],
    access_of_lt (show 2 < (pieces ';' s).length by omega) []]
  rfl

theorem parseStats_of_few (h : (pieces ';' s).length < 3) :
    parseStats atof s = .error .outOfRange := by
  unfold parseStats
  simp only [split_eq_pieces, bind, Except.bind]
  rcases access_cases (pieces ';' s) 0 with ⟨x, hx⟩ | hx
  · rcases access_cases (pieces ';' s) 1 with ⟨y, hy⟩ | hy
    · simp only [hx, hy, access_of_le (show (pieces ';' s).length ≤ 2 by omega)]
    · simp only [hx, hy]
  · simp only [hx]

/-- **What becomes of a line of the statistics file.**  The loop over its words does not end
if they are too many to count. -/
theorem parseStats_cases (atof : List Char → D) (s : List Char) :
    (StatsInRange s ∧ parseStats atof s = .ok (idOf s, valuesOf atof s)) ∨
      (¬ StatsInRange s ∧ parseStats atof s = .error .outOfRange) ∨
      parseStats atof s = .error .outOfFuel := by
  by_cases hparts : 3 ≤ (pieces ';' s).length
  · rw [parseStats_of_parts hparts]
    by_cases hid : 0 < (words s 0).length
    · have hdrop : ((words s 0).drop 1).length = (words s 0).length - 1 := List.length_drop
      rw [access_of_lt hid []]
      by_cases hrows : min (words s 2).length (2 ^ 32) ≤ ((words s 0).drop 1).length ∧
          min (words s 2).length (2 ^ 32) ≤ (words s 1).length
      · rw [pushRows, foldlM_pushRow_of_le hrows.1 hrows.2 (Nat.min_le_left ..)]
        by_cases hcount : (words s 2).length < 2 ^ 32
        · rw [Nat.min_eq_left (Nat.le_of_lt hcount)] at hrows ⊢
          refine .inl ⟨⟨hparts, by omega, hrows.2⟩, ?_⟩
          simp only [bind, Except.bind, if_pos hcount]
          rfl
        · refine .inr (.inr ?_)
          simp only [bind, Except.bind, if_neg hcount]
      · have hlt : ((words s 0).drop 1).length < min (words s 2).length (2 ^ 32) ∨
            (words s 1).length < min (words s 2).length (2 ^ 32) := by omega
        refine .inr (.inl ⟨fun h => ?_, ?_⟩)
        · have := h.2
          omega
        · rw [pushRows, foldlM_pushRow_of_lt hlt (Nat.min_le_left ..)]
          rfl
    · refine .inr (.inl ⟨fun h => ?_, ?_⟩)
      · have := h.2.1
        omega
      · rw [access_of_le (Nat.le_of_not_lt hid)]
        rfl
  · exact .inr (.inl ⟨fun h => hparts h.1, parseStats_of_few (by omega)⟩)

end Lines

section Loaded

variable {content : List Char} {size fuel : ℕ} {log : Stream}

/-- The walk reaches a position it takes for the start before it has seen `size_` line
ends. -/
def ReachesStart (size : ℕ) (content : List Char) : Prop :=
  ∃ q < content.length - 1, (q % 2 ^ 32 = 0 ∧ content[q]? ≠ some '\n') ∧
    content.dropLast.count '\n' < size + newlines content q

instance (size : ℕ) (content : List Char) : Decidable (ReachesStart size content) :=
  inferInstanceAs (Decidable (∃ q < _, _))

/-- The lines of the address file that are loaded: the last `size_`.  All are if the walk
took some position for the start, and none if it ended at a line end at the start. -/
def loadedLines (size : ℕ) (content : List Char) : List (List Char) :=
  if ReachesStart size content then pieces '\n' content
  else if content[0]? = some '\n' ∧ content.dropLast.count '\n' = size then []
  else (pieces '\n' content).drop (content.dropLast.count '\n' + 1 - size)

theorem newlines_lt_of_newline {p q : ℕ} (hpq : p < q) (h : content[q]? = some '\n') :
    newlines content p < newlines content q := by
  obtain ⟨q, rfl⟩ : ∃ m, q = m + 1 := ⟨q - 1, by omega⟩
  rw [newlines_succ_of_newline h, Nat.lt_succ_iff]
  exact (List.take_sublist_take_left (by omega)).count_le _

/-- **Which lines are loaded.** -/
theorem lastLines_loaded {σ : Type} (hsize : 0 < size) (hlt : size < 2 ^ 32)
    (h : lastLines fuel size content = .ok log) (body : σ → List Char → Except Stop σ) (x : σ) :
    log.forLines '\n' body x = (loadedLines size content).foldlM body x := by
  have hlen := ((lastLines_ends_iff hsize content).1 ⟨fuel, log, h⟩).1
  have hunique : ∀ {fuel' log'}, lastLines fuel' size content = .ok log' → log = log' :=
    fun {fuel'} _ h' => Except.ok.inj ((lastLines_mono h (Nat.le_max_left fuel fuel')).symm.trans
      (lastLines_mono h' (Nat.le_max_right fuel fuel')))
  have hcases := scan_cases (n := -2) (show content.length - 2 < content.length by omega)
    (by decide) hsize (by decide : 0 < 2 ^ 32)
  rw [newlines_before_last hlen, ← openAte_seekg_two hlen] at hcases
  rcases hcases with ⟨q, hq, hstop, hrounds, fuel', hscan⟩ |
    ⟨q, hq, hnewline, hnostop, -, hrounds, fuel', n, hn, hscan⟩ | ⟨-, -, hnever⟩
  · -- the whole file
    have hlog : log = goodAt content 0 := hunique (lastLines_of_scan hscan)
    have hreaches : ReachesStart size content :=
      ⟨q, by omega, ⟨hstop.1, fun hc => not_plainAt_of_newline hc hstop.2⟩,
        by have := hrounds hlt; omega⟩
    rw [loadedLines, if_pos hreaches, hlog, forLines_pieces _ rfl]
    rfl
  · have hnot : ¬ ReachesStart size content := by
      rintro ⟨r, hr, ⟨hmod, hplain⟩, hcount⟩
      rcases Nat.lt_trichotomy r q with hrq | rfl | hrq
      · have := newlines_lt_of_newline hrq hnewline
        omega
      · exact hplain hnewline
      · exact hnostop r hrq (by omega) ⟨hmod, plainAt_of_ne (by omega) hplain⟩
    have hlog := hunique (lastLines_of_scan hscan)
    rw [if_neg hn] at hlog
    cases q with
    | zero =>
      have hone := newlines_zero_of_newline hnewline
      rw [loadedLines, if_neg hnot, if_pos ⟨hnewline, by omega⟩, hlog, forLines_failed _ rfl]
      rfl
    | succ q =>
      have hzero : ¬ (content[0]? = some '\n' ∧ content.dropLast.count '\n' = size) := by
        rintro ⟨hfirst, hcount⟩
        have hmore : newlines content 0 < newlines content (q + 1) :=
          newlines_lt_of_newline (Nat.succ_pos q) hnewline
        rw [newlines_zero_of_newline hfirst] at hmore
        omega
      rw [goodAt_seekg_back, goodAt_seekg_two] at hlog
      rw [loadedLines, if_neg hnot, if_neg hzero, hlog, forLines_pieces _ rfl, goodAt_rest,
        pieces_drop hnewline,
        show content.dropLast.count '\n' + 1 - size = newlines content (q + 1) by omega]
      rfl
  · obtain ⟨r, hr⟩ := exists_scan_of_lastLines h
    exact absurd hr (hnever fuel r)

end Loaded

namespace ConnectionStatsQuery

variable {atof : List Char → D} {size clusterNum : ℕ} {q q' : ConnectionStatsQuery D}

section Load

variable {T : Type} {c : ℕ}

/-- A loop of puts over lines that can all be read. -/
theorem foldlM_reads (parse : List Char → Except Stop (List Char × T))
    (body : LRUCache (List Char) T → List Char → Except Stop (LRUCache (List Char) T))
    (hbody : ∀ cache s, body cache s = (do
      let entry ← parse s
      deref (cache.put entry.1 entry.2)))
    {lines : List (List Char)} {key : List Char → List Char} {value : List Char → T}
    (hlines : ∀ line ∈ lines, parse line = .ok (key line, value line))
    {cache : LRUCache (List Char) T} {r : Recency c (List Char) T} (h : Refines cache r) :
    ∃ cache', lines.foldlM body cache = .ok cache' ∧
      Refines cache' ((lines.map fun s => (key s, value s)).foldl
        (fun r e => r.put e.1 e.2) r) := by
  have hfold : ∃ cache', (lines.map id).foldlM body cache = .ok cache' ∧
      Refines cache' ((lines.map fun s => (key s, value s)).foldl
        (fun r e => r.put e.1 e.2) r) := by
    refine foldlM_refines (fun line hline cache => ?_) h
    rw [hbody, id, hlines line hline]
    rfl
  rwa [List.map_id] at hfold

/-- One that stops at the first line that cannot. -/
theorem foldlM_stops (parse : List Char → Except Stop (List Char × T))
    (body : LRUCache (List Char) T → List Char → Except Stop (LRUCache (List Char) T))
    (hbody : ∀ cache s, body cache s = (do
      let entry ← parse s
      deref (cache.put entry.1 entry.2)))
    {lines : List (List Char)} (hlines : ∃ line ∈ lines, ∃ e, parse line = .error e)
    {cache : LRUCache (List Char) T} {r : Recency c (List Char) T} (h : Refines cache r) :
    ∃ line ∈ lines, ∃ e, parse line = .error e ∧ lines.foldlM body cache = .error e := by
  induction lines generalizing cache r with
  | nil =>
    obtain ⟨line, hline, -⟩ := hlines
    exact absurd hline List.not_mem_nil
  | cons s lines ih =>
    cases hs : parse s with
    | error e =>
      refine ⟨s, List.mem_cons_self .., e, hs, ?_⟩
      rw [List.foldlM_cons, hbody, hs]
      rfl
    | ok entry =>
      obtain ⟨line, hline, e, he⟩ := hlines
      have hrest : line ∈ lines := by
        refine (List.mem_cons.1 hline).resolve_left fun heq => ?_
        rw [heq, hs] at he
        cases he
      obtain ⟨cache', hput, h'⟩ := LRUCache.put_refines h entry.1 entry.2
      obtain ⟨line', hline', e', he', hfold⟩ := ih ⟨line, hrest, e, he⟩ h'
      refine ⟨line', .tail _ hline', e', he', ?_⟩
      rw [List.foldlM_cons, hbody, hs]
      simp only [bind, Except.bind, hput, deref]
      exact hfold

end Load

section Files

variable {statsText ipText : List Char} {fuel : ℕ}

/-- The two files give only accesses that are in range.  `seeds` is about the clients whose
address and whose cluster's last line are both still in their caches. -/
structure FilesInRange (size clusterNum : ℕ) (statsText ipText : List Char) : Prop where
  stats : ∀ line ∈ pieces '\n' statsText, StatsInRange line
  ips : ∀ line ∈ loadedLines size ipText, IpInRange line
  seeds : ∀ address rest line after,
    IsLast ipOf (ipOf address) address rest (loadedLines size ipText) →
    (rest.map ipOf).dedup.length < size →
    IsLast idOf (clusterOf address) line after (pieces '\n' statsText) →
    (after.map idOf).dedup.length < clusterNum →
    Statistic.estimatedBandwidth.ctorIdx < (words line 2).length

/-- No access of `Initialize` and, after it and any queries, none of `CreateQuicSession` is
out of range. -/
def AccessesInRange (atof : List Char → D) (q : ConnectionStatsQuery D)
    (statsText ipText : List Char) : Prop :=
  (∀ fuel, q.initializeLogs atof fuel (some statsText) (some ipText) ≠ .error .outOfRange) ∧
    ∀ fuel q₁, q.initializeLogs atof fuel (some statsText) (some ipText) = .ok q₁ →
      ∀ earlier q₂, q₁.queries earlier = some q₂ →
        ∀ clientIp, q₂.createQuicSession clientIp ≠ .error .outOfRange

/-- A line of the statistics file that cannot be read stops `Initialize`. -/
theorem initializeLogs_of_stats (ipText : List Char)
    {stats : Recency clusterNum (List Char) (List D)} (h : Refines q.clusterToStats stats)
    (hbad : ∃ line ∈ pieces '\n' statsText, ∃ e, parseStats atof line = .error e) :
    ∃ line ∈ pieces '\n' statsText, ∃ e, parseStats atof line = .error e ∧
      ∀ fuel, q.initializeLogs atof fuel (some statsText) (some ipText) = .error e := by
  obtain ⟨line, hline, e, he, hfold⟩ :=
    foldlM_stops (parseStats atof) (putStats atof) (fun _ _ => rfl) hbad h
  refine ⟨line, hline, e, he, fun fuel => ?_⟩
  simp only [initializeLogs, Option.elim_some, bind, Except.bind]
  rw [forLines_pieces _ rfl, Stream.open_rest, hfold]

/-- Where the statistics file can be read, it goes on with the address file. -/
theorem initializeLogs_of_ips (hsize : 0 < q.size) (hlt : q.size < 2 ^ 32)
    {clusters : LRUCache (List Char) (List D)}
    (hstats : (pieces '\n' statsText).foldlM (putStats atof) q.clusterToStats = .ok clusters)
    (fuel : ℕ) :
    q.initializeLogs atof fuel (some statsText) (some ipText) = .error .outOfFuel ∨
      q.initializeLogs atof fuel (some statsText) (some ipText) =
        ((loadedLines q.size ipText).foldlM putIp q.ipToCluster).map
          fun ips => { q with clusterToStats := clusters, ipToCluster := ips } := by
  have hloop : (Stream.open statsText).forLines '\n' (putStats atof) q.clusterToStats =
      .ok clusters := (forLines_pieces _ rfl _).trans hstats
  simp only [initializeLogs, Option.elim_some, bind, Except.bind, hloop]
  cases hlog : lastLines fuel q.size ipText with
  | error e =>
    obtain rfl := lastLines_error hlog
    exact .inl rfl
  | ok log =>
    simp only [lastLines_loaded hsize hlt hlog]
    cases (loadedLines q.size ipText).foldlM putIp q.ipToCluster with
    | error e => exact .inr rfl
    | ok ips => exact .inr rfl

/-- The statistics file can be read. -/
def StatsRead (atof : List Char → D) (statsText : List Char) : Prop :=
  ∀ line ∈ pieces '\n' statsText, StatsInRange line ∧
    parseStats atof line = .ok (idOf line, valuesOf atof line)

theorem statsRead_or (atof : List Char → D) (statsText : List Char) :
    StatsRead atof statsText ∨
      ∃ line ∈ pieces '\n' statsText, ∃ e, parseStats atof line = .error e := by
  by_cases hbad : ∃ line ∈ pieces '\n' statsText, ∃ e, parseStats atof line = .error e
  · exact .inr hbad
  · refine .inl fun line hline => ?_
    rcases parseStats_cases atof line with hok | ⟨-, herror⟩ | hloops
    · exact hok
    · exact absurd ⟨line, hline, _, herror⟩ hbad
    · exact absurd ⟨line, hline, _, hloops⟩ hbad

theorem StatsRead.foldlM (h : StatsRead atof statsText)
    {stats : Recency clusterNum (List Char) (List D)} (hstats : Refines q.clusterToStats stats) :
    ∃ clusters, (pieces '\n' statsText).foldlM (putStats atof) q.clusterToStats = .ok clusters ∧
      Refines clusters (((pieces '\n' statsText).map fun s => (idOf s, valuesOf atof s)).foldl
        (fun r e => r.put e.1 e.2) stats) :=
  foldlM_reads (parseStats atof) (putStats atof) (fun _ _ => rfl)
    (fun line hline => (h line hline).2) hstats

/-- A line of the address file with fewer than two words stops `Initialize`. -/
theorem initializeLogs_of_few (h : StatsRead atof statsText) (hsize : 0 < q.size)
    (hlt : q.size < 2 ^ 32) {ips : Recency size (List Char) (List Char)}
    {stats : Recency clusterNum (List Char) (List D)} (hips : Refines q.ipToCluster ips)
    (hstats : Refines q.clusterToStats stats) {line : List Char}
    (hline : line ∈ loadedLines q.size ipText) (hfew : ¬ IpInRange line) (fuel : ℕ) :
    q.initializeLogs atof fuel (some statsText) (some ipText) = .error .outOfFuel ∨
      q.initializeLogs atof fuel (some statsText) (some ipText) = .error .outOfRange := by
  obtain ⟨clusters, hfold, -⟩ := h.foldlM hstats
  obtain ⟨line', -, e, he, hstop⟩ := foldlM_stops parseIp putIp (fun _ _ => rfl)
    ⟨line, hline, _, (parseIp_eq line).trans (if_neg hfew)⟩ hips
  obtain rfl : e = .outOfRange := by
    rw [parseIp_eq] at he
    split_ifs at he
    exact (Except.error.inj he).symm
  refine (initializeLogs_of_ips hsize hlt hfold fuel).imp_right fun hinit => ?_
  rw [hinit, hstop]
  rfl

/-- **What `Initialize` leaves of two files that can be read.** -/
theorem initializeLogs_of_read (h : StatsRead atof statsText) (hsize : 0 < q.size)
    (hlt : q.size < 2 ^ 32) {ips : Recency q.size (List Char) (List Char)}
    {stats : Recency clusterNum (List Char) (List D)} (hips : Refines q.ipToCluster ips)
    (hstats : Refines q.clusterToStats stats)
    (hread : ∀ line ∈ loadedLines q.size ipText, IpInRange line) :
    ∃ q' : ConnectionStatsQuery D,
      Loaded q' (((loadedLines q.size ipText).map fun s => (ipOf s, clusterOf s)).foldl
          (fun r e => r.put e.1 e.2) ips)
        (((pieces '\n' statsText).map fun s => (idOf s, valuesOf atof s)).foldl
          (fun r e => r.put e.1 e.2) stats) ∧
      ∀ fuel, q.initializeLogs atof fuel (some statsText) (some ipText) = .error .outOfFuel ∨
        q.initializeLogs atof fuel (some statsText) (some ipText) = .ok q' := by
  obtain ⟨clusters, hfold, hclusters⟩ := h.foldlM hstats
  obtain ⟨addresses, hfold', haddresses⟩ := foldlM_reads parseIp putIp (fun _ _ => rfl)
    (fun line hline => (parseIp_eq line).trans (if_pos (hread line hline))) hips
  refine ⟨{ q with clusterToStats := clusters, ipToCluster := addresses },
    ⟨rfl, haddresses, hclusters⟩, fun fuel => ?_⟩
  refine (initializeLogs_of_ips hsize hlt hfold fuel).imp_right fun hinit => ?_
  rw [hinit, hfold']
  rfl

/-- **What a client finds.**  The accesses for it are out of range exactly if both caches
know it and its cluster's values are too few. -/
theorem createQuicSession_outOfRange_iff {ips : Recency size (List Char) (List Char)}
    {stats : Recency clusterNum (List Char) (List D)} (h : Loaded q ips stats)
    (clientIp : List Char) :
    q.createQuicSession clientIp = .error .outOfRange ↔
      ∃ out, (ips.lookup clientIp).bind stats.lookup = some out ∧
        out.length ≤ Statistic.estimatedBandwidth.mean := by
  obtain ⟨q', -, -, hquery, -⟩ := query_refines h clientIp
  simp only [createQuicSession, hquery, deref, bind, Except.bind]
  cases (ips.lookup clientIp).bind stats.lookup with
  | none => simp [pure, Except.pure]
  | some out =>
    simp only [Option.some.injEq, exists_eq_left', ← seed_outOfRange_iff]
    cases hseed : seed out with
    | error e => simp
    | ok x => simp [pure, Except.pure]

/-- What the files leave in the caches, for a client. -/
theorem lookup_loaded {hsize : 0 < size} {hnum : 0 < clusterNum} {clientIp : List Char}
    {out : List D} :
    ((Recency.putAll hsize ((loadedLines size ipText).map fun s => (ipOf s, clusterOf s))).lookup
        clientIp).bind (Recency.putAll hnum ((pieces '\n' statsText).map
          fun s => (idOf s, valuesOf atof s))).lookup = some out ↔
      ∃ address rest line after, ipOf address = clientIp ∧
        IsLast ipOf (ipOf address) address rest (loadedLines size ipText) ∧
        (rest.map ipOf).dedup.length < size ∧
        IsLast idOf (clusterOf address) line after (pieces '\n' statsText) ∧
        (after.map idOf).dedup.length < clusterNum ∧ valuesOf atof line = out := by
  simp only [Option.bind_eq_some_iff, lookup_putAll_map_eq_some_iff]
  constructor
  · rintro ⟨cluster, ⟨before, address, rest, hls, hip, rfl, hnot, hroom⟩,
      before', line, after, hls', hid, hout, hnot', hroom'⟩
    subst hip
    exact ⟨address, rest, line, after, rfl, ⟨rfl, hnot, before, hls⟩, hroom,
      ⟨hid, hnot', before', hls'⟩, hroom', hout⟩
  · rintro ⟨address, rest, line, after, rfl, ⟨-, hnot, before, hls⟩, hroom,
      ⟨hid, hnot', before', hls'⟩, hroom', hout⟩
    exact ⟨clusterOf address, ⟨before, address, rest, hls, rfl, rfl, hnot, hroom⟩,
      before', line, after, hls', hid, hout, hnot', hroom'⟩

/-- **Which files give only accesses in range.**  For every two files on which `Initialize`
does not loop forever. -/
theorem accesses_inRange_iff (atof : List Char → D) (hsize : 0 < size) (hnum : 0 < clusterNum)
    {fuel₀ : ℕ} (hnew : new fuel₀ size clusterNum = some q) (statsText ipText : List Char)
    (hends : ∃ fuel, q.initializeLogs atof fuel (some statsText) (some ipText) ≠
      .error .outOfFuel) :
    AccessesInRange atof q statsText ipText ↔
      FilesInRange size clusterNum statsText ipText := by
  obtain ⟨⟨rfl, hips, hstats⟩, hlt⟩ := new_loaded hsize hnum hnew
  obtain ⟨fuel, hfuel⟩ := hends
  rcases statsRead_or atof statsText with hstatsRead | hbad
  · by_cases hread : ∀ line ∈ loadedLines q.size ipText, IpInRange line
    · obtain ⟨q₁, hloaded, hinit⟩ := initializeLogs_of_read hstatsRead hsize hlt hips hstats hread
      constructor
      · intro h
        refine ⟨fun line hline => (hstatsRead line hline).1, hread, ?_⟩
        intro address rest line after haddress hroom hline hroom'
        by_contra hfew
        refine h.2 fuel q₁ ((hinit fuel).resolve_left hfuel) [] q₁ rfl (ipOf address) ?_
        refine (createQuicSession_outOfRange_iff hloaded _).2 ⟨valuesOf atof line, ?_, ?_⟩
        · exact lookup_loaded.2
            ⟨address, rest, line, after, rfl, haddress, hroom, hline, hroom', rfl⟩
        · rw [length_valuesOf, Statistic.mean]
          omega
      · intro h
        refine ⟨fun fuel' hrange => ?_, fun fuel' q' hq' earlier q₂ hq₂ clientIp hrange => ?_⟩
        · rcases hinit fuel' with hloops | hok
          · cases hrange.symm.trans hloops
          · cases hrange.symm.trans hok
        · obtain rfl : q₁ = q' := by
            rcases hinit fuel' with hloops | hok
            · cases hq'.symm.trans hloops
            · exact Except.ok.inj (hok.symm.trans hq')
          -- queries change no answer
          obtain ⟨q₃, ips, stats, hq₃, hloaded', hipsEq, hstatsEq⟩ :=
            queries_refines hloaded earlier
          obtain rfl : q₃ = q₂ := Option.some.inj (hq₃.symm.trans hq₂)
          obtain ⟨out, hlookup, hfew⟩ := (createQuicSession_outOfRange_iff hloaded' _).1 hrange
          rw [hipsEq, hstatsEq] at hlookup
          obtain ⟨address, rest, line, after, -, haddress, hroom, hline, hroom', rfl⟩ :=
            lookup_loaded.1 hlookup
          have hmany := h.seeds address rest line after haddress hroom hline hroom'
          rw [length_valuesOf, Statistic.mean] at hfew
          omega
    · obtain ⟨line, hline, hfew⟩ : ∃ line ∈ loadedLines q.size ipText, ¬ IpInRange line := by
        simpa using hread
      have hrange := (initializeLogs_of_few hstatsRead hsize hlt hips hstats hline hfew
        fuel).resolve_left hfuel
      exact ⟨fun h => absurd hrange (h.1 fuel), fun h => absurd h.ips hread⟩
  · obtain ⟨line, hline, e, he, hstop⟩ := initializeLogs_of_stats ipText hstats hbad
    rcases parseStats_cases atof line with ⟨-, hok⟩ | ⟨hout, herror⟩ | hloops
    · cases he.symm.trans hok
    · obtain rfl := Except.error.inj (he.symm.trans herror)
      exact ⟨fun h => absurd (hstop fuel) (h.1 fuel), fun h => absurd (h.stats line hline) hout⟩
    · obtain rfl := Except.error.inj (he.symm.trans hloops)
      exact absurd (hstop fuel) hfuel

/-- A line for the cluster `a` with a word for each statistic that is needed. -/
def shortestLine : List Char :=
  separated ';' ([['a'] :: List.replicate 26 ['0'], List.replicate 26 ['0'],
    List.replicate 26 ['0']].map (separated ','))

set_option maxRecDepth 4000 in
/-- A client of that cluster. -/
theorem accesses_inRange_one_client :
    ∃ q : ConnectionStatsQuery (List Char), new 2 1 1 = some q ∧
      AccessesInRange id q shortestLine "x,a".toList := by
  obtain ⟨q, hq⟩ : ∃ q : ConnectionStatsQuery (List Char), new 2 1 1 = some q := ⟨_, rfl⟩
  refine ⟨q, hq, (accesses_inRange_iff id Nat.one_pos Nat.one_pos hq _ _ ⟨5, ?_⟩).2 ?_⟩
  · obtain ⟨q', hq'⟩ : ∃ q', q.initializeLogs id 5 (some shortestLine) (some "x,a".toList) =
        .ok q' := by
      obtain rfl := Option.some.inj hq
      exact ⟨_, rfl⟩
    rw [hq']
    exact nofun
  · have hwords : ∀ line ∈ pieces '\n' shortestLine, 25 < (words line 2).length := by decide
    refine ⟨by decide, by decide, fun address rest line after _ _ hline _ => ?_⟩
    obtain ⟨-, -, before, hlines⟩ := hline
    exact hwords line (by rw [hlines]; simp)

/-- **An empty line in the statistics file is read out of range.** -/
theorem exists_access_outOfRange :
    ∃ (fuel : ℕ) (q : ConnectionStatsQuery (List Char)), new fuel 2000 100 = some q ∧
      (∃ fuel, q.initializeLogs id fuel (some ['\n']) (some "1.2.3.4,7\n".toList) ≠
        .error .outOfFuel) ∧
      ¬ AccessesInRange id q ['\n'] "1.2.3.4,7\n".toList := by
  obtain ⟨fuel, q, hq⟩ : ∃ (fuel : ℕ) (q : ConnectionStatsQuery (List Char)),
      new fuel 2000 100 = some q := exists_new (by decide) (by decide)
  have hrange : q.initializeLogs id 0 (some ['\n']) (some "1.2.3.4,7\n".toList) =
      .error .outOfRange := rfl
  refine ⟨fuel, q, hq, ⟨0, ?_⟩, fun h => h.1 0 hrange⟩
  rw [hrange]
  exact nofun

end Files

end ConnectionStatsQuery

end History
end QuicNs3

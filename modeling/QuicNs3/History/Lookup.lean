/-
# What `Query` returns

`Initialize` leaves two caches that refine the maps of the puts its lines make, of
all lines of the statistics file and of the last `size_` of the address file
(`initializeLogs_refines`).  A query looks both up and changes only their order
(`query_refines`), so after any queries the answer for an address depends on the
files alone (`query_correct`).
-/

import QuicNs3.Cache.Refinement
import QuicNs3.History.Format

namespace QuicNs3
namespace History

open Cache Lib

namespace ConnectionStatsQuery

variable {D : Type} {atof : List Char → D} {c : ℕ}

section Load

/-- The puts of the statistics file. -/
def statsPuts (atof : List Char → D) (lines : List StatsLine) : List (List Char × List D) :=
  lines.map fun line => (line.id.text, line.rows atof)

/-- The puts of the address file. -/
def ipPuts (lines : List IpLine) : List (List Char × List Char) :=
  lines.map fun line => (line.ip.text, line.cluster.text)

/-- A fold that puts each line into a cache, whatever the lines are. -/
theorem foldlM_refines {α T : Type} {body : LRUCache (List Char) T → List Char →
      Except Stop (LRUCache (List Char) T)} {text : α → List Char} {key : α → List Char}
    {value : α → T} {lines : List α}
    (hbody : ∀ a ∈ lines, ∀ cache, body cache (text a) = deref (cache.put (key a) (value a)))
    {cache : LRUCache (List Char) T} {r : Recency c (List Char) T} (h : Refines cache r) :
    ∃ cache', (lines.map text).foldlM body cache = .ok cache' ∧
      Refines cache'
        ((lines.map fun a => (key a, value a)).foldl (fun r e => r.put e.1 e.2) r) := by
  induction lines generalizing cache r with
  | nil => exact ⟨cache, rfl, h⟩
  | cons a lines ih =>
    obtain ⟨cache₁, hput, h₁⟩ := LRUCache.put_refines h (key a) (value a)
    obtain ⟨cache₂, hfold, h₂⟩ := ih (fun b hb => hbody b (.tail _ hb)) h₁
    refine ⟨cache₂, ?_, h₂⟩
    rw [List.map_cons, List.foldlM_cons, hbody a (List.mem_cons_self ..), hput]
    exact hfold

/-- A line whose words cannot be counted is never read to its end. -/
theorem columns_lt_of_foldlM {lines : List StatsLine}
    {cache cache' : LRUCache (List Char) (List D)}
    (h : (lines.map StatsLine.text).foldlM (putStats atof) cache = .ok cache') :
    ∀ line ∈ lines, line.columns.length < 2 ^ 32 := by
  induction lines generalizing cache with
  | nil => simp
  | cons line lines ih =>
    rw [List.map_cons, List.foldlM_cons, putStats, parseStats_text] at h
    split_ifs at h with hlt
    · cases hput : cache.put line.id.text (line.rows atof) with
      | none => simp [bind, Except.bind, hput, deref] at h
      | some cache₁ =>
        simp only [bind, Except.bind, hput, deref] at h
        exact List.forall_mem_cons.2 ⟨hlt, ih h⟩
    · simp [bind, Except.bind] at h

end Load

/-- The two caches refine these maps. -/
def Loaded {size clusterNum : ℕ} (q : ConnectionStatsQuery D)
    (ips : Recency size (List Char) (List Char)) (stats : Recency clusterNum (List Char) (List D)) :
    Prop :=
  q.size = size ∧ Refines q.ipToCluster ips ∧ Refines q.clusterToStats stats

section Loaded

variable {size clusterNum : ℕ} {q : ConnectionStatsQuery D}
  {ips : Recency size (List Char) (List Char)} {stats : Recency clusterNum (List Char) (List D)}

theorem exists_new (hsize : size < 2 ^ 32) (hnum : clusterNum < 2 ^ 32) :
    ∃ fuel q, (new fuel size clusterNum : Option (ConnectionStatsQuery D)) = some q := by
  obtain ⟨ips, hips⟩ := LRUCache.new_eq_some (K := List Char) (T := List Char) hsize
    (by omega : size < size + clusterNum + 1)
  obtain ⟨stats, hstats⟩ := LRUCache.new_eq_some (K := List Char) (T := List D) hnum
    (by omega : clusterNum < size + clusterNum + 1)
  exact ⟨size + clusterNum + 1, ⟨size, clusterNum, stats, ips⟩, by simp [new, hips, hstats]⟩

theorem new_loaded {fuel : ℕ} (hsize : 0 < size) (hnum : 0 < clusterNum)
    (h : new fuel size clusterNum = some q) :
    Loaded q (Recency.empty hsize) (Recency.empty hnum) ∧ size < 2 ^ 32 := by
  simp only [new, Option.bind_eq_bind, Option.bind_eq_some_iff, Option.pure_def,
    Option.some.injEq] at h
  obtain ⟨stats, hstats, ips, hips, rfl⟩ := h
  exact ⟨⟨rfl, LRUCache.new_refines hsize hips, LRUCache.new_refines hnum hstats⟩,
    LRUCache.lt_of_new hips⟩

/-- **A query looks up, and leaves what there is to look up.** -/
theorem query_refines (h : Loaded q ips stats) (ip : List Char) :
    ∃ (q' : ConnectionStatsQuery D) (ips' : Recency size (List Char) (List Char))
      (stats' : Recency clusterNum (List Char) (List D)),
      q.query ip = some ((ips.lookup ip).bind stats.lookup, q') ∧ Loaded q' ips' stats' ∧
      ips'.lookup = ips.lookup ∧ stats'.lookup = stats.lookup := by
  obtain ⟨hsize, hips, hstats⟩ := h
  obtain ⟨cache₁, hget₁, h₁⟩ := LRUCache.get_refines hips ip
  cases hip : ips.lookup ip with
  | none =>
    refine ⟨{ q with ipToCluster := cache₁ }, (ips.get ip).2, stats, ?_, ⟨hsize, h₁, hstats⟩,
      funext (ips.lookup_get ip), rfl⟩
    simp [query, hget₁, hip]
  | some clusterID =>
    obtain ⟨cache₂, hget₂, h₂⟩ := LRUCache.get_refines hstats clusterID
    refine ⟨{ q with ipToCluster := cache₁, clusterToStats := cache₂ }, (ips.get ip).2,
      (stats.get clusterID).2, ?_, ⟨hsize, h₁, h₂⟩, funext (ips.lookup_get ip),
      funext (stats.lookup_get clusterID)⟩
    simp [query, hget₁, hip, hget₂]

/-- The same for a sequence of queries. -/
theorem queries_refines (h : Loaded q ips stats) (earlier : List (List Char)) :
    ∃ (q' : ConnectionStatsQuery D) (ips' : Recency size (List Char) (List Char))
      (stats' : Recency clusterNum (List Char) (List D)),
      q.queries earlier = some q' ∧ Loaded q' ips' stats' ∧
      ips'.lookup = ips.lookup ∧ stats'.lookup = stats.lookup := by
  induction earlier generalizing q ips stats with
  | nil => exact ⟨q, ips, stats, rfl, h, rfl, rfl⟩
  | cons ip earlier ih =>
    obtain ⟨q₁, ips₁, stats₁, hquery, h₁, hi₁, hs₁⟩ := query_refines h ip
    obtain ⟨q₂, ips₂, stats₂, hqueries, h₂, hi₂, hs₂⟩ := ih h₁
    refine ⟨q₂, ips₂, stats₂, ?_, h₂, hi₂.trans hi₁, hs₂.trans hs₁⟩
    simp only [queries, List.foldlM_cons, hquery, Option.map_some] at hqueries ⊢
    exact hqueries

/-- **`Initialize` loads every statistics line and the last address lines.** -/
theorem initializeLogs_refines (atof : List Char → D) (hsize : 0 < size) (hnum : 0 < clusterNum)
    (h : Loaded q (Recency.empty (V := List Char) hsize) (Recency.empty (V := List D) hnum))
    (hlt : size < 2 ^ 32) {lines : List StatsLine}
    (hcolumns : ∀ line ∈ lines, line.columns.length < 2 ^ 32) (final : Bool)
    {addresses : List IpLine} (hne : addresses ≠ []) {final' : Bool}
    (hlen : (fileText (addresses.map IpLine.text) final').length < 2 ^ 31) (fuel : ℕ)
    (hfuel : (fileText (addresses.map IpLine.text) final').length + 2 ≤ fuel) :
    ∃ q', q.initializeLogs atof fuel (some (fileText (lines.map StatsLine.text) final))
        (some (fileText (addresses.map IpLine.text) final')) = .ok q' ∧
      Loaded q' (Recency.putAll hsize (ipPuts (addresses.drop (addresses.length - size))))
        (Recency.putAll hnum (statsPuts atof lines)) := by
  obtain ⟨rfl, hips, hstats⟩ := h
  have hstatsBody : ∀ line ∈ lines, ∀ cache : LRUCache (List Char) (List D),
      putStats atof cache line.text = deref (cache.put line.id.text (line.rows atof)) :=
    fun line hline cache => by
      rw [putStats, parseStats_text, if_pos (hcolumns line hline)]; rfl
  have hipBody : ∀ line ∈ addresses.drop (addresses.length - q.size),
      ∀ cache : LRUCache (List Char) (List Char),
      putIp cache line.text = deref (cache.put line.ip.text line.cluster.text) :=
    fun line _ cache => by rw [putIp, parseIp_text]; rfl
  obtain ⟨clusters, hfold, hclusters⟩ := foldlM_refines hstatsBody hstats
  obtain ⟨ips, hfold', hips'⟩ := foldlM_refines hipBody hips
  obtain ⟨log, hlog, hgood, hw⟩ := lastLines_spec hlt hsize (full_ipText addresses)
    (two_le_length_ipText addresses) (by simpa using hne) hlen hfuel
  rw [List.length_map, ← List.map_drop] at hw
  have hw' : Written '\n' (lines.map StatsLine.text)
      (Stream.open (fileText (lines.map StatsLine.text) final)).rest :=
    written_fileText (full_statsText lines) final
  refine ⟨{ q with clusterToStats := clusters, ipToCluster := ips }, ?_, rfl, hips', hclusters⟩
  simp only [initializeLogs, Option.elim_some, bind, Except.bind, forLines_eq _ rfl hw', hfold,
    hlog, forLines_eq _ hgood hw, hfold']
  rfl

/-- What `Initialize` leaves does not depend on how many rounds were allowed. -/
theorem initializeLogs_mono {q' : ConnectionStatsQuery D} {text text' : List Char}
    {fuel fuel' : ℕ} (h : q.initializeLogs atof fuel (some text) (some text') = .ok q')
    (hle : fuel ≤ fuel') : q.initializeLogs atof fuel' (some text) (some text') = .ok q' := by
  simp only [initializeLogs, Option.elim_some, bind, Except.bind] at h ⊢
  cases hstats : (Stream.open text).forLines '\n' (putStats atof) q.clusterToStats with
  | error e => simp [hstats] at h
  | ok stats =>
    cases hlog : lastLines fuel q.size text' with
    | error e => simp [hstats, hlog] at h
    | ok log => simpa [hstats, hlog, lastLines_mono hlog hle] using h

/-- If it returns, the words of every line could be counted. -/
theorem columns_lt_of_initializeLogs {q' : ConnectionStatsQuery D} {lines : List StatsLine}
    {final : Bool} {log : Option (List Char)} {fuel : ℕ}
    (h : q.initializeLogs atof fuel (some (fileText (lines.map StatsLine.text) final)) log =
      .ok q') : ∀ line ∈ lines, line.columns.length < 2 ^ 32 := by
  have hw : Written '\n' (lines.map StatsLine.text)
      (Stream.open (fileText (lines.map StatsLine.text) final)).rest :=
    written_fileText (full_statsText lines) final
  simp only [initializeLogs, Option.elim_some, bind, Except.bind, forLines_eq _ rfl hw] at h
  cases hfold : (lines.map StatsLine.text).foldlM (putStats atof) q.clusterToStats with
  | error e => simp [hfold] at h
  | ok cache => exact columns_lt_of_foldlM hfold

end Loaded

section Answer

variable {α : Type} {key : α → List Char} {k : List Char} {x : α} {ls after : List α}

/-- `x` is the last line under `k`, and `after` are the lines after it. -/
def IsLast (key : α → List Char) (k : List Char) (x : α) (after ls : List α) : Prop :=
  key x = k ∧ k ∉ after.map key ∧ ∃ before, ls = before ++ x :: after

/-- The address is in these lines, its last line names the cluster, and the cache of
`clusterNum` clusters has not lost it: fewer than that many other clusters have
their last line after the last line of this one. -/
def Known (clusterNum : ℕ) (addresses : List IpLine) (lines : List StatsLine) (ip : List Char)
    (line : StatsLine) : Prop :=
  ∃ address rest after, IsLast (·.ip.text) ip address rest addresses ∧
    IsLast (·.id.text) address.cluster.text line after lines ∧
    (after.map (·.id.text)).dedup.length < clusterNum

theorem lookup_ipPuts {size : ℕ} (hsize : 0 < size) {addresses : List IpLine}
    (hle : addresses.length ≤ size) {ip cluster : List Char} :
    (Recency.putAll hsize (ipPuts addresses)).lookup ip = some cluster ↔
      ∃ address rest, IsLast (·.ip.text) ip address rest addresses ∧
        address.cluster.text = cluster := by
  rw [ipPuts, lookup_putAll_map_eq_some_iff]
  constructor
  · rintro ⟨before, address, rest, hls, hip, hcluster, hnot, -⟩
    exact ⟨address, rest, ⟨hip, hnot, before, hls⟩, hcluster⟩
  · rintro ⟨address, rest, ⟨hip, hnot, before, rfl⟩, hcluster⟩
    refine ⟨before, address, rest, rfl, hip, hcluster, hnot, ?_⟩
    -- no line is lost: there are at most `size_` of them
    calc _ ≤ (rest.map (·.ip.text)).length := (List.dedup_sublist _).length_le
      _ < size := by simp at hle ⊢; omega

theorem lookup_statsPuts {clusterNum : ℕ} (hnum : 0 < clusterNum) {lines : List StatsLine}
    {cluster : List Char} {out : List D} :
    (Recency.putAll hnum (statsPuts atof lines)).lookup cluster = some out ↔
      ∃ line after, IsLast (·.id.text) cluster line after lines ∧
        (after.map (·.id.text)).dedup.length < clusterNum ∧ line.rows atof = out := by
  rw [statsPuts, lookup_putAll_map_eq_some_iff]
  constructor
  · rintro ⟨before, line, after, hls, hid, hout, hnot, hlt⟩
    exact ⟨line, after, ⟨hid, hnot, before, hls⟩, hlt, hout⟩
  · rintro ⟨line, after, ⟨hid, hnot, before, hls⟩, hlt, hout⟩
    exact ⟨before, line, after, hls, hid, hout, hnot, hlt⟩

end Answer

/-- **`Query` returns the history of the client's cluster.**  For well-formed files
`Initialize` returns, and after it and any queries `Query` returns true exactly for
the addresses that are known, with the values of the last line of their cluster. -/
theorem query_correct (atof : List Char → D) {size clusterNum : ℕ} (hsize : 0 < size)
    (hnum : 0 < clusterNum) (lines : List StatsLine) (final : Bool) (addresses : List IpLine)
    (final' : Bool) (hne : addresses ≠ [])
    (hlen : (fileText (addresses.map IpLine.text) final').length < 2 ^ 31) :
    (size < 2 ^ 32 → clusterNum < 2 ^ 32 →
      ∃ fuel q₀, (new fuel size clusterNum : Option (ConnectionStatsQuery D)) = some q₀) ∧
    ∀ (fuel₀ : ℕ) (q₀ : ConnectionStatsQuery D), new fuel₀ size clusterNum = some q₀ →
      ((∀ line ∈ lines, line.columns.length < 2 ^ 32) → ∃ fuel q,
        q₀.initializeLogs atof fuel (some (fileText (lines.map StatsLine.text) final))
          (some (fileText (addresses.map IpLine.text) final')) = .ok q) ∧
      ∀ (fuel : ℕ) (q : ConnectionStatsQuery D),
        q₀.initializeLogs atof fuel (some (fileText (lines.map StatsLine.text) final))
          (some (fileText (addresses.map IpLine.text) final')) = .ok q →
        ∀ earlier : List (List Char), ∃ q', q.queries earlier = some q' ∧
          ∀ ip, ∃ result q'', q'.query ip = some (result, q'') ∧
            (∀ out, result = some out ↔
              ∃ line, Known clusterNum (addresses.drop (addresses.length - size)) lines ip line ∧
                out = line.rows atof) ∧
            ∀ line : StatsLine, ∀ i column, line.columns[i]? = some column →
              (line.rows atof)[3 * i]? = some (atof column.min.text) ∧
              (line.rows atof)[3 * i + 1]? = some (atof column.max.text) ∧
              (line.rows atof)[3 * i + 2]? = some (atof column.mean.text) := by
  refine ⟨exists_new, fun fuel₀ q₀ hnew => ?_⟩
  obtain ⟨hempty, hlt⟩ := new_loaded hsize hnum hnew
  have hload := fun (hcolumns : ∀ line ∈ lines, line.columns.length < 2 ^ 32) =>
    initializeLogs_refines atof hsize hnum hempty hlt hcolumns final hne hlen
  refine ⟨fun hcolumns => ?_, fun fuel q hq earlier => ?_⟩
  · obtain ⟨q, hq, -⟩ := hload hcolumns _ (Nat.le_refl _)
    exact ⟨_, q, hq⟩
  · obtain ⟨q₁, hq₁, hloaded⟩ := hload (columns_lt_of_initializeLogs hq) _
      (Nat.le_max_right fuel _)
    obtain rfl : q₁ = q :=
      Except.ok.inj (hq₁.symm.trans (initializeLogs_mono hq (Nat.le_max_left ..)))
    obtain ⟨q', ips, stats, hqueries, hloaded', hips, hstats⟩ := queries_refines hloaded earlier
    refine ⟨q', hqueries, fun ip => ?_⟩
    obtain ⟨q'', -, -, hquery, -⟩ := query_refines hloaded' ip
    refine ⟨_, q'', hquery, fun out => ?_, fun line i column => rows_getElem? atof line⟩
    have hle : (addresses.drop (addresses.length - size)).length ≤ size := by
      rw [List.length_drop]; omega
    rw [hips, hstats, Option.bind_eq_some_iff]
    simp only [lookup_ipPuts hsize hle, lookup_statsPuts]
    constructor
    · rintro ⟨cluster, ⟨address, rest, haddress, rfl⟩, line, after, hline, hdedup, rfl⟩
      exact ⟨line, ⟨address, rest, after, haddress, hline, hdedup⟩, rfl⟩
    · rintro ⟨line, ⟨address, rest, after, haddress, hline, hdedup⟩, rfl⟩
      exact ⟨_, ⟨address, rest, haddress, rfl⟩, line, after, hline, hdedup, rfl⟩

/-- One client in one cluster, found after a query for another client. -/
theorem query_correct_one_client :
    ∃ q₀ q q' q'', (new 2 1 1 : Option (ConnectionStatsQuery (List Char))) = some q₀ ∧
      q₀.initializeLogs id 5 (some "a,1;2;3\n".toList) (some "x,a".toList) = .ok q ∧
      q.queries ["y".toList] = some q' ∧
      q'.query "x".toList = some (some ["1".toList, "2".toList, "3".toList], q'') := by
  let word {delims : List Char} (c : Char) (hc : c ∉ delims) : Field delims :=
    ⟨[c], by simp, fun d hd h => hc (List.mem_singleton.1 h ▸ hd)⟩
  let line : StatsLine := ⟨word 'a' (by decide),
    [⟨word '1' (by decide), word '2' (by decide), word '3' (by decide)⟩], by simp⟩
  let address : IpLine := ⟨word 'x' (by decide), word 'a' (by decide)⟩
  obtain ⟨-, h⟩ := query_correct id Nat.one_pos Nat.one_pos [line] true [address] false (by simp)
    (by decide)
  obtain ⟨q₀, hq₀⟩ : ∃ q₀, (new 2 1 1 : Option (ConnectionStatsQuery (List Char))) = some q₀ :=
    ⟨_, rfl⟩
  obtain ⟨q, hq⟩ : ∃ q, q₀.initializeLogs id 5 (some "a,1;2;3\n".toList) (some "x,a".toList) =
      .ok q := by
    obtain rfl := Option.some.inj hq₀
    exact ⟨_, rfl⟩
  obtain ⟨q', hq', hall⟩ := (h 2 q₀ hq₀).2 5 q hq ["y".toList]
  obtain ⟨result, q'', hquery, hiff, -⟩ := hall "x".toList
  have hresult : result = some (line.rows id) := (hiff _).2 ⟨line, ⟨address, [], [],
    ⟨rfl, by simp, [], rfl⟩, ⟨rfl, by simp, [], rfl⟩, by simp⟩, rfl⟩
  subst hresult
  exact ⟨q₀, q, q', q'', hq₀, hq, hq', hquery⟩

end ConnectionStatsQuery

end History
end QuicNs3

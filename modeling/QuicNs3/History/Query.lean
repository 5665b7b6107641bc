/-
# `ConnectionStatsQuery`

The class of that name in `model/net/tools/quic/quic_simple_dispatcher.{h,cc}`: two
caches, from a client's address to the id of its cluster and from there to the
statistics of the cluster, loaded from two files by `Initialize`.

A line of the statistics file is split at `;` into three parts and each part at
`,`; the first word of the first part is the id, and the words of the parts are
pushed in turn.  Only the end of the other file is loaded: `Initialize` opens it at
its end and walks backwards over at most `size_` line ends, one character at a
time, with `int nCurentPos` the last position at which it saw something else.

`atof` is a parameter, a vector access outside the vector is `Stop.outOfRange`, and
`fuel` bounds the rounds of the backward walk, which does not end on every file.
-/

import QuicNs3.Cache.Basic
import QuicNs3.History.Stream

namespace QuicNs3
namespace History

open Cache

/-- `split(s, sv, flag)`. -/
def split (s : List Char) (flag : Char) : Except Stop (List (List Char)) :=
  (Stream.open s).forLines flag (fun sv temp => .ok (sv ++ [temp])) []

/-- `v[i]`. -/
def access {α : Type} (v : List α) (i : ℕ) : Except Stop α :=
  match v[i]? with
  | some x => .ok x
  | none => .error .outOfRange

/-- A call on a cache, which fails through a null pointer. -/
def deref {α : Type} : Option α → Except Stop α
  | some x => .ok x
  | none => .error .nullPointer

variable {D : Type}

/-- The body of the loop over the words: `stats` with the three values of row `i`. -/
def pushRow (atof : List Char → D) (sv1 sv2 sv3 : List (List Char)) (stats : List D) (i : ℕ) :
    Except Stop (List D) := do
  let x ← access sv1 i
  let y ← access sv2 i
  let z ← access sv3 i
  pure (stats ++ [atof x, atof y, atof z])

/-- `for (unsigned int i = 0; i < sv3.size(); i++)`.  The counter wraps after `2^32`
rounds and the loop does not end then. -/
def pushRows (atof : List Char → D) (sv1 sv2 sv3 : List (List Char)) : Except Stop (List D) := do
  let stats ← (List.range (min sv3.length (2 ^ 32))).foldlM (pushRow atof sv1 sv2 sv3) []
  if sv3.length < 2 ^ 32 then pure stats else .error .outOfFuel

/-- The id and the statistics of a line. -/
def parseStats (atof : List Char → D) (s : List Char) : Except Stop (List Char × List D) := do
  let sv ← split s ';'
  let sv1 ← split (← access sv 0) ','
  let sv2 ← split (← access sv 1) ','
  let sv3 ← split (← access sv 2) ','
  let clusterID ← access sv1 0
  let stats ← pushRows atof (sv1.drop 1) sv2 sv3
  pure (clusterID, stats)

/-- The conversion of a stream position to `int`. -/
def toInt (p : ℤ) : ℤ := p.bmod (2 ^ 32)

/-- The inner loop of the walk: back to the end of the line before, or to the start
of the file. -/
def scanLine : ℕ → Stream → ℤ → Except Stop (Stream × ℤ)
  | 0, _, _ => .error .outOfFuel
  | fuel + 1, log, nCurentPos =>
    let (c, log) := log.peek
    if c = some '\n' then .ok (log, nCurentPos)
    else
      let (p, log) := log.tellg
      let nCurentPos := toInt p
      if nCurentPos = 0 then .ok (log, nCurentPos)
      else scanLine fuel (log.seekg (-1) .cur) nCurentPos

/-- The outer loop of the walk, `for (unsigned int i = 0; i < size_; i++)`. -/
def scan (size : ℕ) : ℕ → ℕ → Stream → ℤ → Except Stop (Stream × ℤ)
  | 0, _, _, _ => .error .outOfFuel
  | fuel + 1, i, log, nCurentPos =>
    if i < size then do
      let (log, nCurentPos) ← scanLine fuel log nCurentPos
      if nCurentPos = 0 then pure (log, nCurentPos)
      else scan size fuel ((i + 1) % 2 ^ 32) (log.seekg (-1) .cur) nCurentPos
    else .ok (log, nCurentPos)

/-- The stream from which the last lines are read. -/
def lastLines (fuel size : ℕ) (content : List Char) : Except Stop Stream := do
  let log := (Stream.openAte content).seekg (-2) .cur
  let (log, nCurentPos) ← scan size fuel 0 log (-2)
  if nCurentPos = 0 then pure (log.clear.seekg 0 .beg) else pure (log.seekg 2 .cur)

/-- The address and the id in a line. -/
def parseIp (s : List Char) : Except Stop (List Char × List Char) := do
  let ipClusterID ← split s ','
  pure (← access ipClusterID 0, ← access ipClusterID 1)

/-- The data members of `ConnectionStatsQuery`. -/
structure ConnectionStatsQuery (D : Type) where
  size : ℕ
  clusterNum : ℕ
  clusterToStats : LRUCache (List Char) (List D)
  ipToCluster : LRUCache (List Char) (List Char)

namespace ConnectionStatsQuery

/-- The constructor from two sizes.  The other two constructors are this one at
`clusterNum_ = 100`, and `size_ = 2000` if that is not given either. -/
def new (fuel size clusterNum : ℕ) :
    Option (ConnectionStatsQuery D) := do
  pure ⟨size, clusterNum, ← LRUCache.new fuel clusterNum, ← LRUCache.new fuel size⟩

/-- The body of the loop over the statistics file. -/
def putStats (atof : List Char → D) (cache : LRUCache (List Char) (List D)) (s : List Char) :
    Except Stop (LRUCache (List Char) (List D)) := do
  let (clusterID, stats) ← parseStats atof s
  deref (cache.put clusterID stats)

/-- The body of the loop over the address file. -/
def putIp (cache : LRUCache (List Char) (List Char)) (s : List Char) :
    Except Stop (LRUCache (List Char) (List Char)) := do
  let (ip, clusterID) ← parseIp s
  deref (cache.put ip clusterID)

/-- `Initialize`, on the contents of its two files, `none` for one that does not open. -/
def initializeLogs (atof : List Char → D) (fuel : ℕ) (q : ConnectionStatsQuery D)
    (clusterStatsLog clusterToIPLog : Option (List Char)) :
    Except Stop (ConnectionStatsQuery D) := do
  let clusterStatsLog ← clusterStatsLog.elim (.error .exit) .ok
  let stats ← (Stream.open clusterStatsLog).forLines '\n' (putStats atof) q.clusterToStats
  let clusterToIPLog ← clusterToIPLog.elim (.error .exit) .ok
  let log ← lastLines fuel q.size clusterToIPLog
  let ips ← log.forLines '\n' putIp q.ipToCluster
  pure { q with clusterToStats := stats, ipToCluster := ips }

/-- `Query`: what it writes to `stats` if it returns true. -/
def query (q : ConnectionStatsQuery D) (ip : List Char) :
    Option (Option (List D) × ConnectionStatsQuery D) := do
  match ← q.ipToCluster.get ip with
  | (none, ips) => pure (none, { q with ipToCluster := ips })
  | (some clusterID, ips) =>
    let (stats, clusters) ← q.clusterToStats.get clusterID
    pure (stats, { q with ipToCluster := ips, clusterToStats := clusters })

/-- A sequence of queries, for what they leave. -/
def queries (q : ConnectionStatsQuery D) (ips : List (List Char)) :
    Option (ConnectionStatsQuery D) :=
  ips.foldlM (fun q ip => (q.query ip).map Prod.snd) q

end ConnectionStatsQuery

end History
end QuicNs3

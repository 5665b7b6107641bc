/-
# The connection log

When a stream closes, `QuicSession::CloseStreamInner` writes a line with the statistics
of its connection: `operator<<` of `model/net/quic/core/quic_connection_stats.cc`, values
separated by commas.  The history the server starts from is made of such lines, and
`connectionStatsIndex` of `model/net/tools/quic/quic_simple_dispatcher.h` numbers its
columns: a minimum, a maximum and a mean for every statistic.

Statistics are unbounded here where the source has fixed widths.
`QuicBandwidth::ToDebugValue` divides doubles; every division is rounded as the
hardware does it (`Lib.binary64`).
-/

import QuicNs3.Lib.Decimal

namespace QuicNs3
namespace Log

open Lib

/-- The statistics, in the order of `connectionStatsIndex`. -/
inductive Statistic
  | bytesSent | packetsSent | streamBytesSent | packetsDiscarded | bytesReceived
  | packetsReceived | packetsProcessed | streamBytesReceived | bytesRetransmitted
  | packetsRetransmitted | bytesSpuriouslyRetransmitted | packetsSpuriouslyRetransmitted
  | packetsLost | slowstartPacketsSent | slowstartPacketsLost | slowstartBytesLost
  | packetsDropped | cryptoRetransmitCount | lossTimeoutCount | tlpCount | rtoCount | minRttUs
  | srttUs | maxPacketSize | maxReceivedPacketSize | estimatedBandwidth | packetsReordered
  | maxSequenceReordering | maxTimeReorderingUs | tcpLossEvents | connectionCreationTime
  | blockedFramesReceived | blockedFramesSent
deriving DecidableEq, Repr

/-- `QuicConnectionStats`.  A bandwidth is its bits per second, a time its microseconds. -/
structure QuicConnectionStats where
  bytesSent : ℕ
  packetsSent : ℕ
  streamBytesSent : ℕ
  packetsDiscarded : ℕ
  bytesReceived : ℕ
  packetsReceived : ℕ
  packetsProcessed : ℕ
  streamBytesReceived : ℕ
  bytesRetransmitted : ℕ
  packetsRetransmitted : ℕ
  bytesSpuriouslyRetransmitted : ℕ
  packetsSpuriouslyRetransmitted : ℕ
  packetsLost : ℕ
  slowstartPacketsSent : ℕ
  slowstartPacketsLost : ℕ
  slowstartBytesLost : ℕ
  packetsDropped : ℕ
  cryptoRetransmitCount : ℕ
  lossTimeoutCount : ℕ
  tlpCount : ℕ
  rtoCount : ℕ
  minRttUs : ℤ
  srttUs : ℤ
  maxPacketSize : ℕ
  maxReceivedPacketSize : ℕ
  estimatedBandwidth : ℕ
  packetsReordered : ℕ
  maxSequenceReordering : ℕ
  maxTimeReorderingUs : ℤ
  tcpLossEvents : ℕ
  connectionCreationTime : ℤ
  blockedFramesReceived : ℕ
  blockedFramesSent : ℕ
deriving DecidableEq, Repr

/-- The constructor. -/
def QuicConnectionStats.new : QuicConnectionStats :=
  ⟨0, 0, 0, 0, 0, 0, 0, 0, 0, 0, 0, 0, 0, 0, 0, 0, 0, 0, 0, 0, 0, 0, 0, 0, 0, 0, 0, 0, 0, 0,
    0, 0, 0⟩

/-- The divisor and the letter of the unit a bandwidth is written in. -/
def debugUnit (bitsPerSecond : ℕ) : ℕ × Char :=
  if bitsPerSecond < 8000000 then (1000, 'k')
  else if bitsPerSecond < 8000000000 then (1000000, 'M')
  else (1000000000, 'G')

/-- `QuicBandwidth::ToDebugValue`. -/
def toDebugValue (bitsPerSecond : ℕ) : List Char :=
  if bitsPerSecond < 80000 then
    decimal bitsPerSecond ++ " bits/s (".toList ++ decimal (bitsPerSecond / 8) ++
      " bytes/s)".toList
  else
    let (divisor, unit) := debugUnit bitsPerSecond
    let x := binary64 bitsPerSecond 1
    let bitsPerSecondWithUnit := binary64 x.1 (x.2 * divisor)
    let bytesPerSecondWithUnit := binary64 bitsPerSecondWithUnit.1 (bitsPerSecondWithUnit.2 * 8)
    fixed2 bitsPerSecondWithUnit ++ ' ' :: unit :: "bits/s (".toList ++
      fixed2 bytesPerSecondWithUnit ++ ' ' :: unit :: "bytes/s)".toList

/-- What `operator<<` writes of one statistic. -/
def QuicConnectionStats.render (s : QuicConnectionStats) : Statistic → List Char
  | .bytesSent => decimal s.bytesSent
  | .packetsSent => decimal s.packetsSent
  | .streamBytesSent => decimal s.streamBytesSent
  | .packetsDiscarded => decimal s.packetsDiscarded
  | .bytesReceived => decimal s.bytesReceived
  | .packetsReceived => decimal s.packetsReceived
  | .packetsProcessed => decimal s.packetsProcessed
  | .streamBytesReceived => decimal s.streamBytesReceived
  | .bytesRetransmitted => decimal s.bytesRetransmitted
  | .packetsRetransmitted => decimal s.packetsRetransmitted
  | .bytesSpuriouslyRetransmitted => decimal s.bytesSpuriouslyRetransmitted
  | .packetsSpuriouslyRetransmitted => decimal s.packetsSpuriouslyRetransmitted
  | .packetsLost => decimal s.packetsLost
  | .slowstartPacketsSent => decimal s.slowstartPacketsSent
  | .slowstartPacketsLost => decimal s.slowstartPacketsLost
  | .slowstartBytesLost => decimal s.slowstartBytesLost
  | .packetsDropped => decimal s.packetsDropped
  | .cryptoRetransmitCount => decimal s.cryptoRetransmitCount
  | .lossTimeoutCount => decimal s.lossTimeoutCount
  | .tlpCount => decimal s.tlpCount
  | .rtoCount => decimal s.rtoCount
  | .minRttUs => decimalInt s.minRttUs
  | .srttUs => decimalInt s.srttUs
  | .maxPacketSize => decimal s.maxPacketSize
  | .maxReceivedPacketSize => decimal s.maxReceivedPacketSize
  | .estimatedBandwidth => toDebugValue s.estimatedBandwidth
  | .packetsReordered => decimal s.packetsReordered
  | .maxSequenceReordering => decimal s.maxSequenceReordering
  | .maxTimeReorderingUs => decimalInt s.maxTimeReorderingUs
  | .tcpLossEvents => decimal s.tcpLossEvents
  | .connectionCreationTime => decimalInt s.connectionCreationTime
  | .blockedFramesReceived => decimal s.blockedFramesReceived
  | .blockedFramesSent => decimal s.blockedFramesSent

/-- The number in a field that holds one. -/
def QuicConnectionStats.number (s : QuicConnectionStats) : Statistic → Option ℤ
  | .bytesSent => some s.bytesSent
  | .packetsSent => some s.packetsSent
  | .streamBytesSent => some s.streamBytesSent
  | .packetsDiscarded => some s.packetsDiscarded
  | .bytesReceived => some s.bytesReceived
  | .packetsReceived => some s.packetsReceived
  | .packetsProcessed => some s.packetsProcessed
  | .streamBytesReceived => some s.streamBytesReceived
  | .bytesRetransmitted => some s.bytesRetransmitted
  | .packetsRetransmitted => some s.packetsRetransmitted
  | .bytesSpuriouslyRetransmitted => some s.bytesSpuriouslyRetransmitted
  | .packetsSpuriouslyRetransmitted => some s.packetsSpuriouslyRetransmitted
  | .packetsLost => some s.packetsLost
  | .slowstartPacketsSent => some s.slowstartPacketsSent
  | .slowstartPacketsLost => some s.slowstartPacketsLost
  | .slowstartBytesLost => some s.slowstartBytesLost
  | .packetsDropped => some s.packetsDropped
  | .cryptoRetransmitCount => some s.cryptoRetransmitCount
  | .lossTimeoutCount => some s.lossTimeoutCount
  | .tlpCount => some s.tlpCount
  | .rtoCount => some s.rtoCount
  | .minRttUs => some s.minRttUs
  | .srttUs => some s.srttUs
  | .maxPacketSize => some s.maxPacketSize
  | .maxReceivedPacketSize => some s.maxReceivedPacketSize
  | .estimatedBandwidth => none
  | .packetsReordered => some s.packetsReordered
  | .maxSequenceReordering => some s.maxSequenceReordering
  | .maxTimeReorderingUs => some s.maxTimeReorderingUs
  | .tcpLossEvents => some s.tcpLossEvents
  | .connectionCreationTime => some s.connectionCreationTime
  | .blockedFramesReceived => some s.blockedFramesReceived
  | .blockedFramesSent => some s.blockedFramesSent

/-- `operator<<`. -/
def QuicConnectionStats.print (s : QuicConnectionStats) : List Char :=
  List.flatten [
    decimal s.bytesSent, [','],
    decimal s.packetsSent,
    decimal s.streamBytesSent, [','],
    decimal s.packetsDiscarded, [','],
    decimal s.bytesReceived, [','],
    decimal s.packetsReceived, [','],
    decimal s.packetsProcessed, [','],
    decimal s.streamBytesReceived, [','],
    decimal s.bytesRetransmitted, [','],
    decimal s.packetsRetransmitted, [','],
    decimal s.bytesSpuriouslyRetransmitted, [','],
    decimal s.packetsSpuriouslyRetransmitted, [','],
    decimal s.packetsLost, [','],
    decimal s.slowstartPacketsSent, [','],
    decimal s.slowstartPacketsLost, [','],
    decimal s.slowstartBytesLost, [','],
    decimal s.packetsDropped, [','],
    decimal s.cryptoRetransmitCount, [','],
    decimal s.lossTimeoutCount, [','],
    decimal s.tlpCount, [','],
    decimal s.rtoCount, [','],
    decimalInt s.minRttUs, [','],
    decimalInt s.srttUs, [','],
    decimal s.maxPacketSize, [','],
    decimal s.maxReceivedPacketSize, [','],
    toDebugValue s.estimatedBandwidth, [','],
    decimal s.packetsReordered, [','],
    decimal s.maxSequenceReordering, [','],
    decimalInt s.maxTimeReorderingUs, [','],
    decimal s.tcpLossEvents, [','],
    decimalInt s.connectionCreationTime, [','],
    decimal s.blockedFramesReceived, [','],
    decimal s.blockedFramesSent]

/-- The statistics in the order of `connectionStatsIndex`. -/
def Statistic.all : List Statistic :=
  [.bytesSent, .packetsSent, .streamBytesSent, .packetsDiscarded, .bytesReceived,
  .packetsReceived, .packetsProcessed, .streamBytesReceived, .bytesRetransmitted,
  .packetsRetransmitted, .bytesSpuriouslyRetransmitted, .packetsSpuriouslyRetransmitted,
  .packetsLost, .slowstartPacketsSent, .slowstartPacketsLost, .slowstartBytesLost,
  .packetsDropped, .cryptoRetransmitCount, .lossTimeoutCount, .tlpCount, .rtoCount, .minRttUs,
  .srttUs, .maxPacketSize, .maxReceivedPacketSize, .estimatedBandwidth, .packetsReordered,
  .maxSequenceReordering, .maxTimeReorderingUs, .tcpLossEvents, .connectionCreationTime,
  .blockedFramesReceived, .blockedFramesSent]

/-- What an entry of `connectionStatsIndex` is of its statistic. -/
inductive Entry
  | min | max | mean
deriving DecidableEq, Repr

/-- `connectionStatsIndex`: the entry at position `i` is the enumerator with value `i`. -/
def connectionStatsIndex : List (Statistic × Entry) :=
  Statistic.all.flatMap fun x => [(x, .min), (x, .max), (x, .mean)]

end Log
end QuicNs3

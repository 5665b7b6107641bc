import QuicNs3.Lib.Run
import QuicNs3.Lib.Linked
import QuicNs3.Lib.Recency
import QuicNs3.Alarm.Lost
import QuicNs3.Alarm.Fires
import QuicNs3.Alarm.Outlive
import QuicNs3.Cache.Bound
import QuicNs3.History.Access
import QuicNs3.Congestion.Minimum
import QuicNs3.Congestion.Range
import QuicNs3.Congestion.Flight
import QuicNs3.Congestion.Migration
import QuicNs3.Log.Line
import QuicNs3.Client.Deaf
import QuicNs3.Client.Request
import QuicNs3.Client.Resend
import QuicNs3.Packets.Chains
import QuicNs3.Packets.Crypto
import QuicNs3.Packets.InFlight
import QuicNs3.Packets.Pending
import QuicNs3.Packets.Recovery
import QuicNs3.Packets.Reported
import QuicNs3.Packets.Spurious
import QuicNs3.Dispatch.Dead
import QuicNs3.Rtt.Delay
import QuicNs3.Rtt.Initial
import QuicNs3.Rtt.Smoothed
import QuicNs3.Server.Basic
import QuicNs3.Server.Once
import QuicNs3.Server.Response
import QuicNs3.Streams.Counts
import QuicNs3.Streams.Credit
import QuicNs3.Streams.HandOver
import QuicNs3.Streams.Sent
import QuicNs3.Closing.Records
import QuicNs3.Experiment.Networks
import QuicNs3.Sockets.Names
import QuicNs3.Spdy.DataFrames
import QuicNs3.TimeWait.Temporary
import QuicNs3.Wire.Headers
import QuicNs3.Reassembly.Delivery
import QuicNs3.Reassembly.Refinement
import QuicNs3.Acks.Received

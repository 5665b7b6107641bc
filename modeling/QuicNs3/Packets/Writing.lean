/-
# What packets are written

The part of `net/quic/core/quic_packet_creator.cc` that decides which frames of a packet
are kept for retransmission and whether it is a crypto packet, and the statistics that
`QuicConnection::WritePacket` (`net/quic/core/quic_connection.cc`) keeps of a packet once
it is written.

The frames of a retransmission are added without being saved, as the map of unacked
packets still has them.  The flag of a crypto packet is set where a frame is saved, so
a retransmission never carries it, whatever it repeats.

Left out is what does not reach the sent packet manager: sizes, padding and encryption
are inputs.  A packet that is not written, or not any more, makes no call.
-/

import QuicNs3.Packets.Manager

namespace QuicNs3
namespace Packets

/-- `kCryptoStreamId`. -/
def kCryptoStreamId : ℕ := 1

/-- A frame given to `AddFrame`: one that `ShouldRetransmit`, or an ack, a stop waiting, a
padding or an MTU probe, which is not repeated. -/
inductive AddedFrame
  | retransmittable (frame : Frame)
  | control
  deriving Repr, DecidableEq

namespace SerializedPacket

/-- `AddFrame`, as far as the frames to retransmit go. -/
def addFrame (saveRetransmittableFrames : Bool) (p : SerializedPacket) :
    AddedFrame → SerializedPacket
  | .control => p
  | .retransmittable frame =>
    if saveRetransmittableFrames then
      { p with
        retransmittableFrames := p.retransmittableFrames ++ [frame]
        hasCryptoHandshake := p.hasCryptoHandshake || decide (frame = .stream kCryptoStreamId) }
    else p

/-- `ClearPacket`, as far as the frames to retransmit go. -/
def clearPacket (p : SerializedPacket) : SerializedPacket :=
  { p with retransmittableFrames := [], hasCryptoHandshake := false }

/-- The packet that the frames make. -/
def withFrames (saveRetransmittableFrames : Bool) (p : SerializedPacket)
    (frames : List AddedFrame) : SerializedPacket :=
  frames.foldl (addFrame saveRetransmittableFrames) p.clearPacket

/-- `CreateAndSerializeStreamFrame`: one stream frame, and no look at its stream. -/
def withStreamFrame (p : SerializedPacket) (streamId : ℕ) : SerializedPacket :=
  { p.clearPacket with retransmittableFrames := [.stream streamId] }

end SerializedPacket

/-- The packets the creator makes, with their `original_packet_number` and
`transmission_type`: by `Flush`, by `CreateAndSerializeStreamFrame` and by
`ReserializeAllFrames`. -/
inductive Serialized : SerializedPacket → ℕ → TransmissionType → Prop
  | flush (p : SerializedPacket) (frames : List AddedFrame) :
    Serialized (p.withFrames true frames) 0 .notRetransmission
  | streamFrame (p : SerializedPacket) (streamId : ℕ) :
    Serialized (p.withStreamFrame streamId) 0 .notRetransmission
  | reserialize (p : SerializedPacket) (frames : List AddedFrame) {original : ℕ}
      {type : TransmissionType} (horiginal : original ≠ 0) (htype : type ≠ .notRetransmission) :
    Serialized (p.withFrames false frames) original type

/-- What an operation sends has been made by the creator. -/
def Op.Written : Op → Prop
  | .send p original _ type _ => Serialized p original type
  | _ => True

/-- A packet whose frames are saved is marked as a crypto packet only if it has some. -/
theorem frames_withFrames (p : SerializedPacket) (frames : List AddedFrame) :
    (p.withFrames true frames).hasCryptoHandshake = true →
      (p.withFrames true frames).retransmittableFrames ≠ [] := by
  refine List.foldlRecOn
    (motive := fun q : SerializedPacket =>
      q.hasCryptoHandshake = true → q.retransmittableFrames ≠ []) _ _
    (fun h => absurd h Bool.false_ne_true) fun q hq frame _ => ?_
  cases frame with
  | control => exact hq
  | retransmittable frame => exact fun _ => by simp [SerializedPacket.addFrame]

/-- One whose frames are not saved is never marked. -/
theorem crypto_withFrames (p : SerializedPacket) (frames : List AddedFrame) :
    (p.withFrames false frames).hasCryptoHandshake = false := by
  refine List.foldlRecOn
    (motive := fun q : SerializedPacket => q.hasCryptoHandshake = false) _ _ rfl
    fun q hq frame _ => ?_
  cases frame with
  | control => exact hq
  | retransmittable frame => exact hq

/-- **A crypto packet is a new one, and has frames.** -/
theorem Serialized.crypto {p : SerializedPacket} {original : ℕ} {type : TransmissionType}
    (h : Serialized p original type) (hc : p.hasCryptoHandshake = true) :
    original = 0 ∧ p.retransmittableFrames ≠ [] := by
  cases h with
  | flush p frames => exact ⟨rfl, frames_withFrames p frames hc⟩
  | streamFrame p streamId => exact absurd hc Bool.false_ne_true
  | reserialize p frames _ _ =>
    exact absurd ((crypto_withFrames p frames).symm.trans hc) Bool.false_ne_true

/-- **What has an original is a retransmission.** -/
theorem Serialized.retransmission {p : SerializedPacket} {original : ℕ} {type : TransmissionType}
    (h : Serialized p original type) (h0 : original ≠ 0) : type ≠ .notRetransmission := by
  cases h with
  | flush p frames => exact absurd rfl h0
  | streamFrame p streamId => exact absurd rfl h0
  | reserialize p frames _ htype => exact htype

/-! ## The connection -/

/-- A connection: its sent packet manager and the statistics of what it has written. -/
structure Connection (ρ : Type) where
  manager : SentPacketManager ρ
  packetsSent : ℕ
  packetsRetransmitted : ℕ
  /-- The packets written as retransmissions. -/
  retransmitted : List ℕ
  deriving Repr, DecidableEq

namespace Connection

variable {ρ : Type} (R : RttStats ρ)

def new (manager : SentPacketManager ρ) : Connection ρ where
  manager := manager
  packetsSent := 0
  packetsRetransmitted := 0
  retransmitted := []

/-- The end of `WritePacket`, after `OnPacketSent`. -/
def recordWritten (c : Connection ρ) (p : SerializedPacket) (type : TransmissionType) :
    Connection ρ :=
  { c with
    packetsSent := c.packetsSent + 1
    packetsRetransmitted := c.packetsRetransmitted + if type ≠ .notRetransmission then 1 else 0
    retransmitted :=
      if type ≠ .notRetransmission then c.retransmitted ++ [p.packetNumber] else c.retransmitted }

/-- An operation of the manager, and what the connection notes of it. -/
def step (c : Connection ρ) (o : Op) : Option (Connection ρ) :=
  (c.manager.step R o).map fun manager =>
    match o with
    | .send p _ _ type _ => { c with manager := manager }.recordWritten p type
    | _ => { c with manager := manager }

end Connection

end Packets
end QuicNs3

import Qperf.Quic.PacketRoundTrip

/-!
# Packet numbers of several spaces

The unpacker keeps one largest packet number for all packet number spaces.  It finds the
numbers of a sequence of packets as long as each of them is near to the largest number
of the packets before, from whatever space these are.  After a large number in one space
the packets of another space are lost.
-/

namespace Qperf.Quic

open Qperf.Foundation

/-- A packet of the peer that arrives, with the keys that the receiver has then. -/
structure Arrival where
  packer : PacketPacker
  encLevel : EncryptionLevel
  header : ExtendedHeader
  raw : List UInt8
  cs : Openers
  rcvTime : Time

/-- The packet was packed by the peer, and the receiver has the keys to open it. -/
structure Arrival.Authentic (a : Arrival) : Prop where
  builds : a.packer.Builds a.encLevel a.header
  version : a.encLevel ≠ .oneRTT → isSupportedVersion a.packer.version
  nonneg : 0 ≤ a.header.packetNumber
  lt : a.header.packetNumber < 2 ^ 62
  packed : ∃ payload sealer num packet p',
    a.packer.writeAndSealPacket a.header payload a.encLevel sealer num =
      .ok (packet, p') ∧
    packet.raw = a.raw ∧ a.cs.Inverts a.encLevel a.rcvTime a.header.keyPhase sealer

namespace PacketUnpacker

def receive (u : PacketUnpacker) (a : Arrival) :
    Except UnpackError (UnpackedPacket × PacketUnpacker) := do
  let parsed ← liftParse (parsePacket a.raw a.packer.destConnID.length)
  u.unpack a.cs parsed.hdr a.rcvTime parsed.data

def receiveAll : PacketUnpacker → List Arrival → Except UnpackError (List PacketNumber)
  | _, [] => .ok []
  | u, a :: arrivals => do
    let (unpacked, u) ← u.receive a
    let numbers ← u.receiveAll arrivals
    return unpacked.packetNumber :: numbers

/-- Each number is less than half of its window away from the expected one. -/
def AllNear : PacketUnpacker → List Arrival → Prop
  | _, [] => True
  | u, a :: arrivals =>
    Near (2 ^ (8 * a.header.packetNumberLen) : Nat) (u.largestRcvdPacketNumber + 1)
      a.header.packetNumber ∧
    AllNear ⟨max u.largestRcvdPacketNumber a.header.packetNumber⟩ arrivals

variable {u : PacketUnpacker} {a : Arrival} {arrivals : List Arrival}

theorem receive_of_near (ha : a.Authentic) (hlargest : 0 ≤ u.largestRcvdPacketNumber)
    (hnear : Near (2 ^ (8 * a.header.packetNumberLen) : Nat)
      (u.largestRcvdPacketNumber + 1) a.header.packetNumber) :
    ∃ unpacked, u.receive a =
        .ok (unpacked, ⟨max u.largestRcvdPacketNumber a.header.packetNumber⟩) ∧
      unpacked.packetNumber = a.header.packetNumber := by
  obtain ⟨payload, sealer, num, packet, p', hpacked, hraw, hcs⟩ := ha.packed
  obtain ⟨hdr, unpacked, hparse, hunpack, hnumber, -⟩ := ha.builds.unpacks hpacked
    ha.version hcs (ha.builds.decodes hlargest ha.nonneg ha.lt hnear)
  rw [hraw] at hparse hunpack
  refine ⟨unpacked, ?_, hnumber⟩
  rw [receive, hparse, liftParse, ok_bind]
  exact hunpack

/-- Every packet of the sequence is given its own number. -/
theorem receiveAll_of_near (harrivals : ∀ a ∈ arrivals, a.Authentic)
    (hlargest : 0 ≤ u.largestRcvdPacketNumber) (hnear : u.AllNear arrivals) :
    u.receiveAll arrivals = .ok (arrivals.map (·.header.packetNumber)) := by
  induction arrivals generalizing u with
  | nil => rfl
  | cons a arrivals ih =>
    obtain ⟨ha, harrivals⟩ := List.forall_mem_cons.mp harrivals
    obtain ⟨hfirst, hrest⟩ := hnear
    obtain ⟨unpacked, hreceive, hnumber⟩ := receive_of_near ha hlargest hfirst
    rw [receiveAll, hreceive, ok_bind]
    dsimp only
    rw [ih harrivals (hlargest.trans (le_max_left _ _)) hrest, ok_bind, hnumber]
    rfl

end PacketUnpacker

/-! ## A large number in the Initial space -/

def packPing (p : PacketPacker) (encLevel : EncryptionLevel) (header : ExtendedHeader) :
    Except PackError (PackedPacket × PacketPacker) :=
  p.writeAndSealPacket header { frames := [.control .ping], length := 1 } encLevel
    (numberSealer (decide (encLevel ≠ .oneRTT))) 0

def pingArrival (p : PacketPacker) (encLevel : EncryptionLevel)
    (header : ExtendedHeader) : Arrival where
  packer := p
  encLevel := encLevel
  header := header
  raw := ((packPing p encLevel header).toOption.map fun r => r.1.raw).getD []
  cs := numberOpeners
  rcvTime := 0

theorem pingArrival_authentic {p : PacketPacker} {encLevel : EncryptionLevel}
    {header : ExtendedHeader} (hbuilds : p.Builds encLevel header)
    (hversion : isSupportedVersion p.version) (hnonneg : 0 ≤ header.packetNumber)
    (hlt : header.packetNumber < 2 ^ 62) (hpacked : (packPing p encLevel header).isOk) :
    (pingArrival p encLevel header).Authentic := by
  refine ⟨hbuilds, fun _ => hversion, hnonneg, hlt, ?_⟩
  cases hpack : packPing p encLevel header with
  | error err =>
    rw [hpack] at hpacked
    cases hpacked
  | ok result =>
    refine ⟨_, _, _, result.1, result.2, hpack, ?_, numberOpeners_inverts encLevel 0 _⟩
    rw [pingArrival, hpack]
    rfl

def initialArrival (pn : PacketNumber) : Arrival :=
  pingArrival (numberPacker pn) .initial ((numberPacker pn).longHeader .initial pn)

def oneRTTArrival : Arrival := pingArrival (numberPacker 0) .oneRTT numberHeader

theorem initialArrival_authentic {pn : PacketNumber} (hnonneg : 0 ≤ pn)
    (hlt : pn < 2 ^ 62) (hpacked : (packPing (numberPacker pn) .initial
      ((numberPacker pn).longHeader .initial pn)).isOk) : (initialArrival pn).Authentic :=
  pingArrival_authentic (by rw [PacketPacker.Builds, if_neg (by decide)]; rfl) rfl
    hnonneg hlt hpacked

theorem oneRTTArrival_authentic : oneRTTArrival.Authentic :=
  pingArrival_authentic ⟨.zero, rfl⟩ rfl (by decide) (by decide) (by decide +kernel)

namespace PacketUnpacker

theorem receiveAll_of_near_small :
    (⟨0⟩ : PacketUnpacker).receiveAll [initialArrival 5, oneRTTArrival] = .ok [5, 0] := by
  refine receiveAll_of_near ?_ (by decide) ?_
  · simp only [List.forall_mem_cons]
    exact ⟨initialArrival_authentic (by decide) (by decide) (by decide +kernel),
      oneRTTArrival_authentic, List.forall_mem_nil _⟩
  · refine ⟨⟨?_, ?_⟩, ⟨?_, ?_⟩, trivial⟩ <;> decide +kernel

theorem receiveAll_large :
    (initialArrival (2 ^ 31 - 1)).Authentic ∧ oneRTTArrival.Authentic ∧
      (initialArrival (2 ^ 31 - 1)).header.packetNumber = 2 ^ 31 - 1 ∧
      oneRTTArrival.header.packetNumber = 0 ∧
      (⟨0⟩ : PacketUnpacker).receiveAll [initialArrival (2 ^ 31 - 1), oneRTTArrival] =
        .error (.aead .decryptionFailed) :=
  ⟨initialArrival_authentic (by decide) (by decide) (by decide +kernel),
    oneRTTArrival_authentic, rfl, rfl, by decide +kernel⟩

end PacketUnpacker

end Qperf.Quic

import Qperf.Foundation.Traces
import Qperf.Quic.Headers

/-!
# Key updates

`updatableAEAD` seals and opens 1-RTT packets.  Only the lowest bit of the key phase is
in the header; a packet with the other bit is opened with the previous keys if it comes
before the first packet of the current phase, and with the next keys otherwise.  An
endpoint updates its keys when a packet of the current phase was acknowledged.

An AEAD is represented by the key phase that its keys belong to.
-/

namespace Qperf.Quic

open Qperf.Foundation

inductive AEADError where
  | protocolViolation (message : String)
  | keysDropped
  | decryptionFailed
  deriving DecidableEq, Repr

/--
A packet in the network.  `acked` are the numbers of the packets that its sender had
opened, which it may acknowledge.
-/
structure SealedPacket where
  pn : PacketNumber
  key : Nat
  keyPhase : KeyPhaseBit
  acked : List PacketNumber
  deriving DecidableEq, Repr

/-- A packet opens exactly with the keys that it was sealed with. -/
def aeadOpen (key : Nat) (packet : SealedPacket) : Except AEADError Unit :=
  if packet.key = key then .ok () else .error .decryptionFailed

def keyPhaseBit (keyPhase : Nat) : KeyPhaseBit :=
  if keyPhase % 2 = 1 then .one else .zero

structure UpdatableAEAD where
  keyPhase : Nat := 0
  largestAcked : PacketNumber := invalidPacketNumber
  keyUpdateInterval : Nat
  prevRcvAEADExpiry : Time := 0
  prevRcvAEAD : Option Nat := none
  firstRcvdWithCurrentKey : PacketNumber := invalidPacketNumber
  firstSentWithCurrentKey : PacketNumber := invalidPacketNumber
  numRcvdWithCurrentKey : Nat := 0
  numSentWithCurrentKey : Nat := 0
  rcvAEAD : Nat := 0
  sendAEAD : Nat := 0
  nextRcvAEAD : Nat := 1
  nextSendAEAD : Nat := 1
  deriving DecidableEq, Repr

namespace UpdatableAEAD

def rollKeys (a : UpdatableAEAD) (now pto : Time) : UpdatableAEAD :=
  { a with
    keyPhase := a.keyPhase + 1
    firstRcvdWithCurrentKey := invalidPacketNumber
    firstSentWithCurrentKey := invalidPacketNumber
    numRcvdWithCurrentKey := 0
    numSentWithCurrentKey := 0
    prevRcvAEAD := some a.rcvAEAD
    prevRcvAEADExpiry := now + 3 * pto
    rcvAEAD := a.nextRcvAEAD
    sendAEAD := a.nextSendAEAD
    nextRcvAEAD := a.nextRcvAEAD + 1
    nextSendAEAD := a.nextSendAEAD + 1 }

def dropPrevious (a : UpdatableAEAD) (rcvTime : Time) : UpdatableAEAD :=
  if a.prevRcvAEAD.isSome ∧ rcvTime > a.prevRcvAEADExpiry then
    { a with prevRcvAEAD := none, prevRcvAEADExpiry := 0 }
  else a

def Unexpired (a : UpdatableAEAD) (rcvTime : Time) : Prop :=
  a.prevRcvAEAD.isSome → rcvTime ≤ a.prevRcvAEADExpiry

instance (a : UpdatableAEAD) (rcvTime : Time) : Decidable (a.Unexpired rcvTime) :=
  inferInstanceAs (Decidable (_ → _))

def received (a : UpdatableAEAD) (pn : PacketNumber) : UpdatableAEAD :=
  { a with
    numRcvdWithCurrentKey := a.numRcvdWithCurrentKey + 1
    firstRcvdWithCurrentKey :=
      if a.firstRcvdWithCurrentKey = invalidPacketNumber then pn
      else a.firstRcvdWithCurrentKey }

def BeforeCurrent (a : UpdatableAEAD) (pn : PacketNumber) : Prop :=
  a.firstRcvdWithCurrentKey = invalidPacketNumber ∨ pn < a.firstRcvdWithCurrentKey

instance (a : UpdatableAEAD) (pn : PacketNumber) : Decidable (a.BeforeCurrent pn) :=
  inferInstanceAs (Decidable (_ ∨ _))

def openUnexpired (a : UpdatableAEAD) (rcvTime pto : Time) (packet : SealedPacket) :
    Except AEADError Unit × UpdatableAEAD :=
  if packet.keyPhase ≠ keyPhaseBit a.keyPhase then
    if a.BeforeCurrent packet.pn then
      if a.keyPhase = 0 then (.error (.protocolViolation "wrong initial keyphase"), a)
      else
        match a.prevRcvAEAD with
        | none => (.error .keysDropped, a)
        | some key => (aeadOpen key packet, a)
    else
      match aeadOpen a.nextRcvAEAD packet with
      | .error err => (.error err, a)
      | .ok () =>
        -- Opening succeeded.  Check if the peer was allowed to update.
        if a.firstSentWithCurrentKey = invalidPacketNumber then
          (.error (.protocolViolation "keys updated too quickly"), a)
        else
          (.ok (), { a.rollKeys rcvTime pto with firstRcvdWithCurrentKey := packet.pn })
  else
    match aeadOpen a.rcvAEAD packet with
    | .error err => (.error err, a)
    | .ok () => (.ok (), a.received packet.pn)

def openPacket (a : UpdatableAEAD) (rcvTime pto : Time) (packet : SealedPacket) :
    Except AEADError Unit × UpdatableAEAD :=
  (a.dropPrevious rcvTime).openUnexpired rcvTime pto packet

/-- `Seal`, as far as it changes the state; the packet is sealed with `sendAEAD`. -/
def sealPacket (a : UpdatableAEAD) (pn : PacketNumber) : UpdatableAEAD :=
  { a with
    firstSentWithCurrentKey :=
      if a.firstSentWithCurrentKey = invalidPacketNumber then pn
      else a.firstSentWithCurrentKey
    numSentWithCurrentKey := a.numSentWithCurrentKey + 1 }

def setLargestAcked (a : UpdatableAEAD) (pn : PacketNumber) : UpdatableAEAD :=
  { a with largestAcked := pn }

def updateAllowed (a : UpdatableAEAD) : Bool :=
  a.firstSentWithCurrentKey ≠ invalidPacketNumber &&
    a.largestAcked ≠ invalidPacketNumber &&
    a.largestAcked ≥ a.firstSentWithCurrentKey

def shouldInitiateKeyUpdate (a : UpdatableAEAD) : Bool :=
  a.updateAllowed &&
    (a.numRcvdWithCurrentKey ≥ a.keyUpdateInterval ||
      a.numSentWithCurrentKey ≥ a.keyUpdateInterval)

/-- `KeyPhase`, which may update the keys; its result is the bit of the new state. -/
def maybeUpdate (a : UpdatableAEAD) (now pto : Time) : UpdatableAEAD :=
  if a.shouldInitiateKeyUpdate then a.rollKeys now pto else a

end UpdatableAEAD

/-! ## Two endpoints -/

structure KeyEndpoint where
  aead : UpdatableAEAD
  sent : List SealedPacket := []
  opened : List SealedPacket := []
  deriving DecidableEq, Repr

namespace KeyEndpoint

/--
`PackPacket` asks for the key phase before it knows whether there is anything to send.
The session packs and unpacks packets in one goroutine.
-/
def pack (e : KeyEndpoint) (now pto : Time) : Option PacketNumber → KeyEndpoint
  | none => { e with aead := e.aead.maybeUpdate now pto }
  | some pn =>
    let aead := e.aead.maybeUpdate now pto
    { e with
      aead := aead.sealPacket pn
      sent := e.sent ++
        [⟨pn, aead.sendAEAD, keyPhaseBit aead.keyPhase, e.opened.map (·.pn)⟩] }

def receive (e : KeyEndpoint) (rcvTime pto : Time) (packet : SealedPacket) :
    KeyEndpoint :=
  match e.aead.openPacket rcvTime pto packet with
  | (.ok (), aead) => { e with aead, opened := e.opened ++ [packet] }
  | (.error _, aead) => { e with aead }

def acknowledge (e : KeyEndpoint) (pn : PacketNumber) : KeyEndpoint :=
  { e with aead := e.aead.setLargestAcked pn }

end KeyEndpoint

inductive Side where
  | client
  | server
  deriving DecidableEq, Repr

def Side.peer : Side → Side
  | .client => .server
  | .server => .client

abbrev KeyState := Side → KeyEndpoint

inductive KeyEvent where
  | pack (side : Side) (now pto : Time) (pn : Option PacketNumber)
  | receive (side : Side) (rcvTime pto : Time) (packet : SealedPacket)
  | acknowledge (side : Side) (pn : PacketNumber)
  deriving DecidableEq, Repr

namespace KeyState

def new (interval : Side → Nat) : KeyState := fun side =>
  { aead := { keyUpdateInterval := interval side } }

/--
Packet numbers increase; the network delivers any packet of the peer, any number of
times; an acknowledgement is in a packet that was opened; previous keys do not expire.
-/
inductive Step (s : KeyState) : KeyEvent → KeyState → Prop where
  | pack (side : Side) (now pto : Time) (pn : Option PacketNumber)
      (hpn : ∀ n ∈ pn, 0 ≤ n ∧ ∀ p ∈ (s side).sent, p.pn < n) :
      Step s (.pack side now pto pn)
        (Function.update s side ((s side).pack now pto pn))
  | receive (side : Side) (rcvTime pto : Time) (packet : SealedPacket)
      (hsent : packet ∈ (s side.peer).sent)
      (hunexpired : (s side).aead.Unexpired rcvTime) :
      Step s (.receive side rcvTime pto packet)
        (Function.update s side ((s side).receive rcvTime pto packet))
  | acknowledge (side : Side) (pn : PacketNumber) (packet : SealedPacket)
      (hopened : packet ∈ (s side).opened) (hacked : pn ∈ packet.acked) :
      Step s (.acknowledge side pn)
        (Function.update s side ((s side).acknowledge pn))

end KeyState

/-! ## What one endpoint keeps -/

structure KeyEndpoint.Sound (e : KeyEndpoint) : Prop where
  rcvKey : e.aead.rcvAEAD = e.aead.keyPhase
  sendKey : e.aead.sendAEAD = e.aead.keyPhase
  nextRcvKey : e.aead.nextRcvAEAD = e.aead.keyPhase + 1
  nextSendKey : e.aead.nextSendAEAD = e.aead.keyPhase + 1
  previous : e.aead.keyPhase ≠ 0 → e.aead.prevRcvAEAD = some (e.aead.keyPhase - 1)
  sentKeys : ∀ p ∈ e.sent, p.key ≤ e.aead.keyPhase
  sentBits : ∀ p ∈ e.sent, p.keyPhase = keyPhaseBit p.key
  sentNumbers : ∀ p ∈ e.sent, 0 ≤ p.pn
  ordered : ∀ p ∈ e.sent, ∀ q ∈ e.sent, p.key < q.key → p.pn < q.pn
  firstSent : e.aead.firstSentWithCurrentKey ≠ invalidPacketNumber →
    ∃ p ∈ e.sent, p.key = e.aead.keyPhase ∧ p.pn = e.aead.firstSentWithCurrentKey
  sentFirst : ∀ p ∈ e.sent, p.key = e.aead.keyPhase →
    e.aead.firstSentWithCurrentKey ≠ invalidPacketNumber
  openedKeys : ∀ p ∈ e.opened, p.key ≤ e.aead.keyPhase
  firstOpened : e.aead.firstRcvdWithCurrentKey ≠ invalidPacketNumber →
    ∃ p ∈ e.opened, p.key = e.aead.keyPhase ∧ p.pn = e.aead.firstRcvdWithCurrentKey
  openedFirst : ∀ p ∈ e.opened, p.key = e.aead.keyPhase →
    e.aead.firstRcvdWithCurrentKey ≠ invalidPacketNumber
  acked : ∀ p ∈ e.sent, ∀ n ∈ p.acked, ∃ q ∈ e.opened, q.pn = n ∧ q.key ≤ p.key
  largestAcked : e.aead.largestAcked ≠ invalidPacketNumber →
    ∃ p ∈ e.opened, e.aead.largestAcked ∈ p.acked

namespace KeyEndpoint.Sound

variable {e : KeyEndpoint}

theorem new (interval : Nat) : Sound { aead := { keyUpdateInterval := interval } } := by
  constructor <;> simp

theorem rollKeys (h : e.Sound) (now pto : Time) :
    Sound { e with aead := e.aead.rollKeys now pto } := by
  constructor <;> simp only [UpdatableAEAD.rollKeys]
  case rcvKey => exact h.nextRcvKey
  case sendKey => exact h.nextSendKey
  case nextRcvKey => rw [h.nextRcvKey]
  case nextSendKey => rw [h.nextSendKey]
  case previous => simp [h.rcvKey]
  case sentKeys => exact fun p hp => Nat.le_succ_of_le (h.sentKeys p hp)
  case sentBits => exact h.sentBits
  case sentNumbers => exact h.sentNumbers
  case ordered => exact h.ordered
  case firstSent => simp
  case sentFirst =>
    intro p hp hkey
    have := h.sentKeys p hp
    omega
  case openedKeys => exact fun p hp => Nat.le_succ_of_le (h.openedKeys p hp)
  case firstOpened => simp
  case openedFirst =>
    intro p hp hkey
    have := h.openedKeys p hp
    omega
  case acked => exact h.acked
  case largestAcked => exact h.largestAcked

theorem sealPacket {pn : PacketNumber} {packet : SealedPacket} (h : e.Sound)
    (hnonneg : 0 ≤ pn) (hlast : ∀ p ∈ e.sent, p.pn < pn) (hpacket : packet =
      ⟨pn, e.aead.sendAEAD, keyPhaseBit e.aead.keyPhase, e.opened.map (·.pn)⟩) :
    Sound { e with aead := e.aead.sealPacket pn, sent := e.sent ++ [packet] } := by
  have hkey : packet.key = e.aead.keyPhase := by rw [hpacket, ← h.sendKey]
  have hpn : packet.pn = pn := by rw [hpacket]
  have hvalid : pn ≠ invalidPacketNumber := by
    simp only [PacketNumber, invalidPacketNumber] at *
    omega
  constructor <;> simp only [UpdatableAEAD.sealPacket, List.forall_mem_append,
    List.forall_mem_singleton]
  case rcvKey => exact h.rcvKey
  case sendKey => exact h.sendKey
  case nextRcvKey => exact h.nextRcvKey
  case nextSendKey => exact h.nextSendKey
  case previous => exact h.previous
  case sentKeys => exact ⟨h.sentKeys, hkey.le⟩
  case sentBits => exact ⟨h.sentBits, by rw [hkey, hpacket]⟩
  case sentNumbers => exact ⟨h.sentNumbers, hpn ▸ hnonneg⟩
  case ordered =>
    refine ⟨fun p hp => ⟨h.ordered p hp, fun _ => hpn ▸ hlast p hp⟩, ?_, ?_⟩
    · -- No packet has a later phase than the new one.
      intro p hp hlt
      have := h.sentKeys p hp
      omega
    · exact fun hlt => absurd hlt (lt_irrefl _)
  case firstSent =>
    intro hfirst
    split
    · exact ⟨packet, by simp, hkey, hpn⟩
    · rename_i hsome
      obtain ⟨p, hp, hpkey, hppn⟩ := h.firstSent hsome
      exact ⟨p, by simp [hp], hpkey, hppn⟩
  case sentFirst =>
    have hset : (if e.aead.firstSentWithCurrentKey = invalidPacketNumber then pn
        else e.aead.firstSentWithCurrentKey) ≠ invalidPacketNumber := by
      split <;> assumption
    exact ⟨fun _ _ _ => hset, fun _ => hset⟩
  case openedKeys => exact h.openedKeys
  case firstOpened => exact h.firstOpened
  case openedFirst => exact h.openedFirst
  case acked =>
    refine ⟨h.acked, ?_⟩
    intro n hn
    rw [hpacket] at hn
    obtain ⟨q, hq, rfl⟩ := List.mem_map.mp hn
    exact ⟨q, hq, rfl, hkey ▸ h.openedKeys q hq⟩
  case largestAcked => exact h.largestAcked

theorem opened {packet : SealedPacket} {first : PacketNumber} {count : Nat} (h : e.Sound)
    (hkey : packet.key ≤ e.aead.keyPhase)
    (hfirst : first = e.aead.firstRcvdWithCurrentKey ∨
      first = packet.pn ∧ packet.key = e.aead.keyPhase)
    (hset : packet.key = e.aead.keyPhase ∨
      e.aead.firstRcvdWithCurrentKey ≠ invalidPacketNumber →
      first ≠ invalidPacketNumber) :
    Sound { e with
      aead := { e.aead with
        numRcvdWithCurrentKey := count, firstRcvdWithCurrentKey := first }
      opened := e.opened ++ [packet] } := by
  constructor <;> simp only [List.forall_mem_append, List.forall_mem_singleton]
  case rcvKey => exact h.rcvKey
  case sendKey => exact h.sendKey
  case nextRcvKey => exact h.nextRcvKey
  case nextSendKey => exact h.nextSendKey
  case previous => exact h.previous
  case sentKeys => exact h.sentKeys
  case sentBits => exact h.sentBits
  case sentNumbers => exact h.sentNumbers
  case ordered => exact h.ordered
  case firstSent => exact h.firstSent
  case sentFirst => exact h.sentFirst
  case openedKeys => exact ⟨h.openedKeys, hkey⟩
  case firstOpened =>
    intro hvalid
    rcases hfirst with rfl | ⟨rfl, hcurrent⟩
    · obtain ⟨p, hp, hpkey, hppn⟩ := h.firstOpened hvalid
      exact ⟨p, by simp [hp], hpkey, hppn⟩
    · exact ⟨packet, by simp, hcurrent, rfl⟩
  case openedFirst =>
    exact ⟨fun p hp hpkey => hset (.inr (h.openedFirst p hp hpkey)),
      fun hcurrent => hset (.inl hcurrent)⟩
  case acked =>
    intro p hp n hn
    obtain ⟨q, hq, hpn, hle⟩ := h.acked p hp n hn
    exact ⟨q, by simp [hq], hpn, hle⟩
  case largestAcked =>
    intro hvalid
    obtain ⟨p, hp, hacked⟩ := h.largestAcked hvalid
    exact ⟨p, by simp [hp], hacked⟩

private theorem acknowledge {pn : PacketNumber} {packet : SealedPacket} (h : e.Sound)
    (hopened : packet ∈ e.opened) (hacked : pn ∈ packet.acked) :
    (e.acknowledge pn).Sound :=
  { h with largestAcked := fun _ => ⟨packet, hopened, hacked⟩ }

end KeyEndpoint.Sound

namespace UpdatableAEAD

variable {a a' : UpdatableAEAD} {rcvTime pto : Time} {packet : SealedPacket}

theorem dropPrevious_of_unexpired (h : a.Unexpired rcvTime) :
    a.dropPrevious rcvTime = a := by
  refine if_neg ?_
  rintro ⟨hsome, hlate⟩
  exact absurd (h hsome) (not_le.mpr hlate)

inductive Opens (a : UpdatableAEAD) (rcvTime pto : Time) (packet : SealedPacket) :
    UpdatableAEAD → Prop where
  | current (hkey : packet.key = a.rcvAEAD) :
      Opens a rcvTime pto packet (a.received packet.pn)
  | previous (hphase : a.keyPhase ≠ 0) (hkey : a.prevRcvAEAD = some packet.key) :
      Opens a rcvTime pto packet a
  | next (hkey : packet.key = a.nextRcvAEAD) :
      Opens a rcvTime pto packet
        { a.rollKeys rcvTime pto with firstRcvdWithCurrentKey := packet.pn }

private theorem aeadOpen_eq_ok {key : Nat} (h : aeadOpen key packet = .ok ()) :
    packet.key = key := by
  unfold aeadOpen at h
  split at h
  · assumption
  · cases h

theorem openUnexpired_cases {r : Except AEADError Unit}
    (h : a.openUnexpired rcvTime pto packet = (r, a')) :
    (∃ err, r = .error err ∧ a' = a) ∨ r = .ok () ∧ a.Opens rcvTime pto packet a' := by
  unfold openUnexpired at h
  split at h
  · split at h
    · split at h
      · cases h
        exact .inl ⟨_, rfl, rfl⟩
      · rename_i hphase
        split at h
        · cases h
          exact .inl ⟨_, rfl, rfl⟩
        · rename_i key hprev
          cases h
          cases hopen : aeadOpen key packet with
          | error err => exact .inl ⟨err, rfl, rfl⟩
          | ok _ =>
            exact .inr ⟨rfl, .previous hphase (aeadOpen_eq_ok hopen ▸ hprev)⟩
    · split at h
      · cases h
        exact .inl ⟨_, rfl, rfl⟩
      · rename_i hopen
        split at h <;> cases h
        · exact .inl ⟨_, rfl, rfl⟩
        · exact .inr ⟨rfl, .next (aeadOpen_eq_ok hopen)⟩
  · split at h <;> cases h
    · exact .inl ⟨_, rfl, rfl⟩
    · rename_i hopen
      exact .inr ⟨rfl, .current (aeadOpen_eq_ok hopen)⟩

private theorem maybeUpdate_cases (a : UpdatableAEAD) (now pto : Time) :
    a.maybeUpdate now pto = a ∨
      a.maybeUpdate now pto = a.rollKeys now pto ∧
        a.firstSentWithCurrentKey ≠ invalidPacketNumber ∧ a.largestAcked ≠ invalidPacketNumber ∧
        a.firstSentWithCurrentKey ≤ a.largestAcked := by
  unfold maybeUpdate
  split
  · rename_i hupdate
    simp only [shouldInitiateKeyUpdate, updateAllowed, Bool.and_eq_true,
      decide_eq_true_eq] at hupdate
    obtain ⟨⟨⟨hfirst, hacked⟩, hle⟩, _⟩ := hupdate
    exact .inr ⟨rfl, hfirst, hacked, hle⟩
  · exact .inl rfl

end UpdatableAEAD

theorem KeyEndpoint.receive_cases (e : KeyEndpoint) {rcvTime : Time}
    (h : e.aead.Unexpired rcvTime) (pto : Time) (packet : SealedPacket) :
    e.receive rcvTime pto packet = e ∨
      ∃ aead, e.aead.Opens rcvTime pto packet aead ∧
        e.receive rcvTime pto packet = { e with aead, opened := e.opened ++ [packet] } := by
  unfold KeyEndpoint.receive UpdatableAEAD.openPacket
  rw [UpdatableAEAD.dropPrevious_of_unexpired h]
  rcases hopen : e.aead.openUnexpired rcvTime pto packet with ⟨r, aead⟩
  rcases UpdatableAEAD.openUnexpired_cases hopen with ⟨err, rfl, rfl⟩ | ⟨rfl, hopens⟩
  · exact .inl rfl
  · exact .inr ⟨aead, hopens, rfl⟩

/-! ## What the two endpoints agree on -/

/--
An endpoint is at most one phase ahead, and only if the peer has opened and sent
packets of its own phase.
-/
structure KeyEndpoint.Ahead (x y : KeyEndpoint) : Prop where
  le : x.aead.keyPhase ≤ y.aead.keyPhase + 1
  used : x.aead.keyPhase = y.aead.keyPhase + 1 →
    (∃ p ∈ y.opened, p.key = y.aead.keyPhase) ∧ ∃ p ∈ y.sent, p.key = y.aead.keyPhase

structure KeyEndpoint.Agrees (x y : KeyEndpoint) : Prop where
  sound : x.Sound
  opened : ∀ p ∈ x.opened, p ∈ y.sent
  ahead : x.Ahead y

namespace KeyEndpoint.Agrees

variable {x x' y : KeyEndpoint} {now rcvTime pto : Time} {packet : SealedPacket}

theorem peer (h : y.Agrees x) (hphase : x'.aead.keyPhase = x.aead.keyPhase)
    (hsent : ∀ p ∈ x.sent, p ∈ x'.sent) (hopened : ∀ p ∈ x.opened, p ∈ x'.opened) :
    y.Agrees x' := by
  refine ⟨h.sound, fun p hp => hsent p (h.opened p hp), ?_, ?_⟩
  · rw [hphase]
    exact h.ahead.le
  · rw [hphase]
    intro heq
    obtain ⟨⟨p, hp, hpkey⟩, q, hq, hqkey⟩ := h.ahead.used heq
    exact ⟨⟨p, hopened p hp, hpkey⟩, q, hsent q hq, hqkey⟩

theorem peer_updated (h : y.Agrees x) (hphase : x'.aead.keyPhase = x.aead.keyPhase + 1)
    (hsent : ∀ p ∈ x.sent, p ∈ x'.sent) : y.Agrees x' := by
  have hle := h.ahead.le
  refine ⟨h.sound, fun p hp => hsent p (h.opened p hp), ?_, ?_⟩ <;> omega

theorem acknowledged (hx : x.Agrees y) (hy : y.Agrees x)
    (hfirst : x.aead.firstSentWithCurrentKey ≠ invalidPacketNumber)
    (hacked : x.aead.largestAcked ≠ invalidPacketNumber)
    (hle : x.aead.firstSentWithCurrentKey ≤ x.aead.largestAcked) :
    (∃ p ∈ y.opened, p.key = x.aead.keyPhase) ∧ ∃ p ∈ y.sent, p.key = x.aead.keyPhase := by
  obtain ⟨first, hsent, hkey, hpn⟩ := hx.sound.firstSent hfirst
  obtain ⟨ack, hopened, hmem⟩ := hx.sound.largestAcked hacked
  have hack := hx.opened ack hopened
  obtain ⟨q, hq, hqpn, hqkey⟩ := hy.sound.acked ack hack _ hmem
  have hackKey := hx.sound.openedKeys ack hopened
  have hcurrent : x.aead.keyPhase ≤ q.key := by
    by_contra hlt
    have hbefore := hx.sound.ordered q (hy.opened q hq) first hsent (by omega)
    rw [hqpn, hpn] at hbefore
    exact absurd hle (not_le.mpr hbefore)
  exact ⟨⟨q, hq, by omega⟩, ack, hack, by omega⟩

theorem maybeUpdate (hx : x.Agrees y) (hy : y.Agrees x) (now pto : Time) :
    Agrees { x with aead := x.aead.maybeUpdate now pto } y ∧
      y.Agrees { x with aead := x.aead.maybeUpdate now pto } := by
  rcases x.aead.maybeUpdate_cases now pto with hsame | ⟨hroll, hfirst, hacked, hle⟩
  · rw [hsame]
    exact ⟨hx, hy⟩
  · rw [hroll]
    obtain ⟨⟨p, hp, hpkey⟩, q, hq, hqkey⟩ := acknowledged hx hy hfirst hacked hle
    have hphase := hy.sound.sentKeys q hq
    refine ⟨⟨hx.sound.rollKeys now pto, hx.opened, ?_, ?_⟩, hy.peer_updated rfl fun _ h => h⟩ <;>
      simp only [UpdatableAEAD.rollKeys]
    · omega
    · intro heq
      exact ⟨⟨p, hp, by omega⟩, q, hq, by omega⟩

private theorem pack {pn : Option PacketNumber} (hx : x.Agrees y) (hy : y.Agrees x)
    (hpn : ∀ n ∈ pn, 0 ≤ n ∧ ∀ p ∈ x.sent, p.pn < n) :
    (x.pack now pto pn).Agrees y ∧ y.Agrees (x.pack now pto pn) := by
  obtain ⟨hupdated, hpeer⟩ := hx.maybeUpdate hy now pto
  cases pn with
  | none => exact ⟨hupdated, hpeer⟩
  | some n =>
    obtain ⟨hnonneg, hlast⟩ := hpn n rfl
    exact ⟨⟨hupdated.sound.sealPacket hnonneg hlast rfl, hupdated.opened,
        ⟨hupdated.ahead.le, hupdated.ahead.used⟩⟩,
      hpeer.peer rfl (fun p hp => List.mem_append_left _ hp) fun p hp => hp⟩

theorem openPacket {aead : UpdatableAEAD} (hx : x.Agrees y) (hy : y.Agrees x)
    (hsent : packet ∈ y.sent) (hopens : x.aead.Opens rcvTime pto packet aead) :
    Agrees { x with aead, opened := x.opened ++ [packet] } y ∧
      y.Agrees { x with aead, opened := x.opened ++ [packet] } := by
  have hopened : ∀ p ∈ x.opened ++ [packet], p ∈ y.sent := by
    simpa only [List.forall_mem_append, List.forall_mem_singleton] using ⟨hx.opened, hsent⟩
  have hvalid : packet.pn ≠ invalidPacketNumber := by
    have := hy.sound.sentNumbers packet hsent
    simp only [PacketNumber, invalidPacketNumber] at *
    omega
  cases hopens with
  | current hkey =>
    rw [hx.sound.rcvKey] at hkey
    refine ⟨⟨hx.sound.opened hkey.le ?_ ?_, hopened, ⟨hx.ahead.le, hx.ahead.used⟩⟩,
      hy.peer rfl (fun p hp => hp) fun p hp => List.mem_append_left _ hp⟩
    · split
      · exact .inr ⟨rfl, hkey⟩
      · exact .inl rfl
    · intro _
      split <;> assumption
  | previous hphase hkey =>
    rw [hx.sound.previous hphase, Option.some_inj] at hkey
    refine ⟨⟨hx.sound.opened (by omega) (.inl rfl) ?_, hopened, ⟨hx.ahead.le, hx.ahead.used⟩⟩,
      hy.peer rfl (fun p hp => hp) fun p hp => List.mem_append_left _ hp⟩
    rintro (hcurrent | hfirst)
    · omega
    · exact hfirst
  | next hkey =>
    rw [hx.sound.nextRcvKey] at hkey
    have hkeys := hy.sound.sentKeys packet hsent
    refine ⟨⟨(hx.sound.rollKeys rcvTime pto).opened hkey.le
      (.inr ⟨rfl, hkey⟩) fun _ => hvalid, hopened, ?_, ?_⟩,
      hy.peer_updated rfl fun _ h => h⟩ <;>
      simp only [UpdatableAEAD.rollKeys] <;> omega

/-! ## Opening the peer's packets -/

private theorem keyPhaseBit_succ_ne (n : Nat) : keyPhaseBit (n + 1) ≠ keyPhaseBit n := by
  unfold keyPhaseBit
  rcases Nat.mod_two_eq_zero_or_one n with h | h
  · simp [Nat.add_mod, h]
  · simp [Nat.add_mod, h]

section

variable (hx : x.Agrees y) (hy : y.Agrees x) (hsent : packet ∈ y.sent)
include hx hy hsent

theorem beforeCurrent (hkey : packet.key < x.aead.keyPhase) : x.aead.BeforeCurrent packet.pn := by
  by_cases hfirst : x.aead.firstRcvdWithCurrentKey = invalidPacketNumber
  · exact .inl hfirst
  · obtain ⟨p, hp, hpkey, hppn⟩ := hx.sound.firstOpened hfirst
    refine .inr (hppn ▸ ?_)
    exact hy.sound.ordered packet hsent p (hx.opened p hp) (by omega)

private theorem not_beforeCurrent (hkey : packet.key = x.aead.keyPhase + 1) :
    ¬ x.aead.BeforeCurrent packet.pn := by
  have hphase : y.aead.keyPhase = x.aead.keyPhase + 1 := by
    have := hy.sound.sentKeys packet hsent
    have := hy.ahead.le
    omega
  obtain ⟨⟨p, hp, hpkey⟩, _⟩ := hy.ahead.used hphase
  have hfirst := hx.sound.openedFirst p hp hpkey
  obtain ⟨q, hq, hqkey, hqpn⟩ := hx.sound.firstOpened hfirst
  rintro (hnone | hbefore)
  · exact hfirst hnone
  · have := hy.sound.ordered q (hx.opened q hq) packet hsent (by omega)
    rw [hqpn] at this
    exact lt_asymm hbefore this

theorem openPacket_ok (hunexpired : x.aead.Unexpired rcvTime)
    (hle : packet.key ≤ x.aead.keyPhase + 1) (hge : x.aead.keyPhase ≤ packet.key + 1) :
    (x.aead.openPacket rcvTime pto packet).1 = .ok () := by
  unfold UpdatableAEAD.openPacket
  rw [UpdatableAEAD.dropPrevious_of_unexpired hunexpired]
  have hbit := hy.sound.sentBits packet hsent
  obtain hcurrent | hprevious | hnext : packet.key = x.aead.keyPhase ∨
      packet.key + 1 = x.aead.keyPhase ∨ packet.key = x.aead.keyPhase + 1 := by
    omega
  · simp [UpdatableAEAD.openUnexpired, hbit, hcurrent, hx.sound.rcvKey, aeadOpen]
  · have hbefore := hx.beforeCurrent hy hsent (by omega)
    have hprev := hx.sound.previous (by omega)
    have hne := keyPhaseBit_succ_ne packet.key
    simp [UpdatableAEAD.openUnexpired, hbit, ← hprevious, hne.symm, hbefore, hprev,
      aeadOpen]
  · have hafter := hx.not_beforeCurrent hy hsent hnext
    obtain ⟨_, p, hp, hpkey⟩ := hy.ahead.used (by
      have := hy.sound.sentKeys packet hsent
      have := hy.ahead.le
      omega)
    have hfirst := hx.sound.sentFirst p hp hpkey
    have hne := keyPhaseBit_succ_ne x.aead.keyPhase
    simp [UpdatableAEAD.openUnexpired, hbit, hnext, hne, hafter, hx.sound.nextRcvKey,
      aeadOpen, hfirst]

theorem openPacket_older (hunexpired : x.aead.Unexpired rcvTime)
    (hlt : packet.key + 1 < x.aead.keyPhase) :
    (x.aead.openPacket rcvTime pto packet).1 = .error .decryptionFailed := by
  unfold UpdatableAEAD.openPacket
  rw [UpdatableAEAD.dropPrevious_of_unexpired hunexpired]
  have hprev := hx.sound.previous (by omega)
  have hbefore := hx.beforeCurrent hy hsent (by omega)
  have hrcv : aeadOpen x.aead.rcvAEAD packet = .error .decryptionFailed := by
    rw [hx.sound.rcvKey]
    exact if_neg (by omega)
  have hprevious : aeadOpen (x.aead.keyPhase - 1) packet = .error .decryptionFailed :=
    if_neg (by omega)
  unfold UpdatableAEAD.openUnexpired
  split
  · rw [if_neg (by omega), hprev]
    exact hprevious
  · rw [hrcv]

end

end KeyEndpoint.Agrees

namespace KeyState

variable {s s' : KeyState} {event : KeyEvent} {events : List KeyEvent}

def Agreed (s : KeyState) : Prop := ∀ side : Side, (s side).Agrees (s side.peer)

theorem Agreed.new (interval : Side → Nat) : (KeyState.new interval).Agreed := by
  intro side
  exact ⟨.new _, by simp [KeyState.new], by simp [KeyState.new], by simp [KeyState.new]⟩

theorem peer_peer (side : Side) : side.peer.peer = side := by
  cases side <;> rfl

private theorem peer_ne (side : Side) : side.peer ≠ side := by
  cases side <;> decide

theorem Agreed.update {side : Side} {e : KeyEndpoint}
    (h : e.Agrees (s side.peer) ∧ (s side.peer).Agrees e) :
    Agreed (Function.update s side e) := by
  intro other
  obtain rfl | rfl : other = side ∨ other = side.peer := by
    cases other <;> cases side <;> simp [Side.peer]
  · rw [Function.update_self, Function.update_of_ne (peer_ne other)]
    exact h.1
  · rw [peer_peer, Function.update_self, Function.update_of_ne (peer_ne side)]
    exact h.2

theorem Agreed.step (h : s.Agreed) (hstep : s.Step event s') : s'.Agreed := by
  cases hstep with
  | pack side now pto pn hpn =>
    have hpeer := h side.peer
    rw [peer_peer] at hpeer
    exact .update ((h side).pack hpeer hpn)
  | receive side rcvTime pto packet hsent hunexpired =>
    have hpeer := h side.peer
    rw [peer_peer] at hpeer
    rcases (s side).receive_cases hunexpired pto packet with
      hsame | ⟨aead, hopens, hreceived⟩
    · rw [hsame]
      exact .update ⟨h side, hpeer⟩
    · rw [hreceived]
      exact .update ((h side).openPacket hpeer hsent hopens)
  | acknowledge side pn packet hopened hacked =>
    have hpeer := h side.peer
    rw [peer_peer] at hpeer
    exact .update ⟨⟨(h side).sound.acknowledge hopened hacked, (h side).opened,
      ⟨(h side).ahead.le, (h side).ahead.used⟩⟩,
      hpeer.peer rfl (fun p hp => hp) fun p hp => hp⟩

/--
The endpoints stay within one key phase of each other.  No packet of the peer is taken
for a violation of the protocol, and one sealed within one phase of the receiver's is
opened.
-/
theorem run_agrees {interval : Side → Nat}
    (h : Trace Step (KeyState.new interval) events s) (side : Side) :
    (s side).aead.keyPhase ≤ (s side.peer).aead.keyPhase + 1 ∧
      ∀ packet ∈ (s side.peer).sent, ∀ rcvTime pto, (s side).aead.Unexpired rcvTime →
        (∀ message, ((s side).aead.openPacket rcvTime pto packet).1 ≠
          .error (.protocolViolation message)) ∧
        (packet.key ≤ (s side).aead.keyPhase + 1 → (s side).aead.keyPhase ≤ packet.key + 1 →
          ((s side).aead.openPacket rcvTime pto packet).1 = .ok ()) := by
  have hagreed : s.Agreed := h.invariant Agreed (.new interval) fun _ _ _ hs hstep =>
    hs.step hstep
  have hx := hagreed side
  have hy := hagreed side.peer
  rw [peer_peer] at hy
  refine ⟨hx.ahead.le, fun packet hsent rcvTime pto hunexpired => ?_⟩
  refine ⟨fun message => ?_, hx.openPacket_ok hy hsent hunexpired⟩
  have hle : packet.key ≤ (s side).aead.keyPhase + 1 :=
    (hy.sound.sentKeys packet hsent).trans hy.ahead.le
  by_cases hge : (s side).aead.keyPhase ≤ packet.key + 1
  · rw [hx.openPacket_ok hy hsent hunexpired hle hge]
    intro h
    cases h
  · rw [hx.openPacket_older hy hsent hunexpired (by omega)]
    intro h
    cases h

theorem run_agrees_updated : ∃ s, Trace Step (KeyState.new fun _ => 1)
    [.pack .client 0 1 (some 0), .receive .server 0 1 ⟨0, 0, .zero, []⟩,
      .pack .server 0 1 (some 0), .receive .client 0 1 ⟨0, 0, .zero, [0]⟩,
      .acknowledge .client 0, .pack .client 0 1 (some 1)] s ∧
    (s .client).aead.keyPhase = 1 ∧ (s .server).aead.keyPhase = 0 ∧
    ((s .server).aead.openPacket 0 1 ⟨1, 1, .one, [0]⟩).1 = .ok () := by
  have hrun : Trace Step (KeyState.new fun _ => 1) _ _ := Trace.nil
    |>.snoc (.pack .client 0 1 (some 0) (by decide))
    |>.snoc (.receive .server 0 1 ⟨0, 0, .zero, []⟩ (by decide) (by decide))
    |>.snoc (.pack .server 0 1 (some 0) (by decide))
    |>.snoc (.receive .client 0 1 ⟨0, 0, .zero, [0]⟩ (by decide) (by decide))
    |>.snoc (.acknowledge .client 0 ⟨0, 0, .zero, [0]⟩ (by decide) (by decide))
    |>.snoc (.pack .client 0 1 (some 1) (by decide))
  refine ⟨_, hrun, by decide, by decide, ?_⟩
  exact ((run_agrees hrun .server).2 ⟨1, 1, .one, [0]⟩ (by decide) 0 1 (by decide)).2
    (by decide) (by decide)

end KeyState

end Qperf.Quic

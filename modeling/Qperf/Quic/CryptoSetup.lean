import Qperf.Quic.Headers

/-!
# Keys

The keys of the crypto setup.  Sealing and header protection are those of the TLS
library: a sealer adds `aeadOverhead` bytes, and the mask of a header protector is
any function of the sample.
-/

namespace Qperf.Quic

inductive Perspective where
  | server
  | client
  deriving DecidableEq, Repr

/-! ## Sealing -/

def aeadOverhead : Nat := 16

structure HeaderProtector where
  mask : List UInt8 → Nat → UInt8
  isLongHeader : Bool

def HeaderProtector.apply (p : HeaderProtector) (sample : List UInt8)
    (firstByte : UInt8) (hdrBytes : List UInt8) : UInt8 × List UInt8 :=
  (firstByte ^^^ (p.mask sample 0 &&& if p.isLongHeader then 0xf else 0x1f),
    hdrBytes.mapIdx fun i b => b ^^^ p.mask sample (i + 1))

/-- `sealData src pn ad` is the ciphertext with its tag. -/
structure Sealer where
  sealData : List UInt8 → PacketNumber → List UInt8 → List UInt8
  length_sealData : ∀ src pn ad,
    (sealData src pn ad).length = src.length + aeadOverhead
  headerProtector : HeaderProtector

/-! ## Keys -/

inductive SealerError where
  | keysDropped
  | noHandshakeSealer
  | no1RTTSealer
  deriving DecidableEq, Repr

/-- Of the openers only whether they are set matters here. -/
structure CryptoSetup where
  writeEncLevel : EncryptionLevel
  initialOpener : Bool
  initialSealer : Option Sealer
  handshakeOpener : Bool
  handshakeSealer : Option Sealer
  oneRTTSealer : Option Sealer
  keyPhase : KeyPhaseBit

namespace CryptoSetup

def getInitialSealer (c : CryptoSetup) : Except SealerError Sealer :=
  match c.initialSealer with
  | none => .error .keysDropped
  | some sealer => .ok sealer

def getHandshakeSealer (c : CryptoSetup) : Except SealerError Sealer :=
  match c.handshakeSealer with
  | none =>
    if c.initialSealer.isNone then .error .keysDropped
    else .error .noHandshakeSealer
  | some sealer => .ok sealer

def get1RTTSealer (c : CryptoSetup) : Except SealerError Sealer :=
  match c.oneRTTSealer with
  | none => .error .no1RTTSealer
  | some sealer => .ok sealer

def sealer (c : CryptoSetup) : EncryptionLevel → Option Sealer
  | .initial => c.initialSealer
  | _ => c.handshakeSealer

def getSealer (c : CryptoSetup) : EncryptionLevel → Except SealerError Sealer
  | .initial => c.getInitialSealer
  | _ => c.getHandshakeSealer

theorem getSealer_cases (c : CryptoSetup) (encLevel : EncryptionLevel) :
    (c.sealer encLevel = none ∧ ∃ err, c.getSealer encLevel = .error err) ∨
      ∃ sealer, c.sealer encLevel = some sealer ∧ c.getSealer encLevel = .ok sealer := by
  cases encLevel <;> simp only [sealer, getSealer, getInitialSealer, getHandshakeSealer] <;>
    split <;> simp_all
  all_goals split <;> simp

end CryptoSetup

end Qperf.Quic

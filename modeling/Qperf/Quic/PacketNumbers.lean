import Qperf.Quic.FrameRoundTrip
import Qperf.Quic.Headers

/-!
# Truncated packet numbers

A packet number is written with two to four bytes.  The receiver adds the epoch, a
multiple of `epochDelta`, that brings it closest to the number it expects next.  The
candidates differ by multiples of `epochDelta`, so that at most one of them is nearer
than half of it.
-/

namespace Qperf.Quic

open Qperf.Foundation Qperf.Foundation.Reader

/-! ## Decoding -/

/-- `n & ^mask` for numbers of type `int64`. -/
def andNot (n mask : Int) : Int :=
  (BitVec.ofInt 64 n &&& ~~~ BitVec.ofInt 64 mask).toInt

def delta (a b : PacketNumber) : PacketNumber := if a < b then b - a else a - b

def closestTo (target a b : PacketNumber) : PacketNumber :=
  if delta target a < delta target b then a else b

def epochDelta : Nat → PacketNumber
  | 1 => 2 ^ 8
  | 2 => 2 ^ 16
  | 3 => 2 ^ 24
  | 4 => 2 ^ 32
  | _ => 0

def decodePacketNumber (packetNumberLength : Nat)
    (lastPacketNumber wirePacketNumber : PacketNumber) : PacketNumber :=
  let epochDelta := epochDelta packetNumberLength
  let epoch := andNot lastPacketNumber (epochDelta - 1)
  let prevEpochBegin := if epoch > epochDelta then epoch - epochDelta else 0
  let nextEpochBegin := epoch + epochDelta
  closestTo (lastPacketNumber + 1) (epoch + wirePacketNumber)
    (closestTo (lastPacketNumber + 1) (prevEpochBegin + wirePacketNumber)
      (nextEpochBegin + wirePacketNumber))

/-! ## Reading -/

def readUint24 : FrameReader Nat := do
  let b3 ← readByte .eof
  let b2 ← readByte .eof
  let b1 ← readByte .eof
  return b1.toNat + b2.toNat <<< 8 + b3.toNat <<< 16

def readUint32 : FrameReader Nat := do
  let b4 ← readByte .eof
  let b3 ← readByte .eof
  let b2 ← readByte .eof
  let b1 ← readByte .eof
  return b1.toNat + b2.toNat <<< 8 + b3.toNat <<< 16 + b4.toNat <<< 24

def readPacketNumberOfLen : Nat → FrameReader Nat
  | 1 => do
    let n ← readByte .eof
    return n.toNat
  | 2 => readUint16
  | 3 => readUint24
  | 4 => readUint32
  | len => throw (.message ("invalid packet number length: " ++ toString len))

def readPacketNumber (typeByte : UInt8) : FrameReader (Nat × PacketNumber) := do
  let packetNumberLen := (typeByte &&& 0x3).toNat + 1
  let n ← readPacketNumberOfLen packetNumberLen
  return (packetNumberLen, n)

/-! ## Clearing bits -/

private theorem and_not_add_and (x y : BitVec 64) : (x &&& ~~~ y) + (x &&& y) = x := by
  rw [BitVec.add_eq_or_of_and_eq_zero]
  · ext i hi
    simp only [BitVec.getElem_or, BitVec.getElem_and, BitVec.getElem_not]
    cases x[i] <;> cases y[i] <;> rfl
  · ext i hi
    simp only [BitVec.getElem_and, BitVec.getElem_not, BitVec.getElem_zero]
    cases x[i] <;> cases y[i] <;> rfl

private theorem toNat_and_low (x : BitVec 64) {k : Nat} (hk : k ≤ 62) :
    (x &&& BitVec.ofNat 64 (2 ^ k - 1)).toNat = x.toNat % 2 ^ k := by
  have hpow : 2 ^ k ≤ 2 ^ 62 := Nat.pow_le_pow_right (by decide) hk
  rw [BitVec.toNat_and, BitVec.toNat_ofNat, Nat.mod_eq_of_lt (by omega),
    Nat.and_two_pow_sub_one_eq_mod]

private theorem toNat_ofInt_emod (n : Int) {k : Nat} (hk : k ≤ 62) :
    (((BitVec.ofInt 64 n).toNat % 2 ^ k : Nat) : Int) = n % (2 ^ k : Nat) := by
  have hdvd : ((2 ^ k : Nat) : Int) ∣ (2 ^ 64 : Nat) :=
    Int.natCast_dvd_natCast.mpr (Nat.pow_dvd_pow 2 (by omega))
  rw [BitVec.toNat_ofInt, Int.natCast_emod,
    Int.toNat_of_nonneg (Int.emod_nonneg _ (by decide)), Int.emod_emod_of_dvd _ hdvd]

theorem andNot_eq {n : Int} {k : Nat} (hk : k ≤ 62) (hlow : -1 ≤ n) (hhigh : n < 2 ^ 63) :
    andNot n ((2 ^ k : Nat) - 1) = n - n % (2 ^ k : Nat) := by
  have hpow : 2 ^ k ≤ 2 ^ 62 := Nat.pow_le_pow_right (by decide) hk
  have hpos : 0 < 2 ^ k := Nat.two_pow_pos k
  have hmask : BitVec.ofInt 64 ((2 ^ k : Nat) - 1) = BitVec.ofNat 64 (2 ^ k - 1) := by
    rw [← BitVec.ofInt_natCast, Int.natCast_sub hpos]
    rfl
  have hlowBits : (BitVec.ofInt 64 n &&& BitVec.ofNat 64 (2 ^ k - 1)).toInt =
      n % (2 ^ k : Nat) := by
    have hnat := toNat_and_low (BitVec.ofInt 64 n) hk
    rw [BitVec.toInt_eq_toNat_of_lt (by omega), hnat, toNat_ofInt_emod n hk]
  have hn : (BitVec.ofInt 64 n).toInt = n := by
    rw [BitVec.toInt_ofInt]
    apply Int.bmod_eq_of_le <;> omega
  have hsplit := and_not_add_and (BitVec.ofInt 64 n) (BitVec.ofNat 64 (2 ^ k - 1))
  rw [andNot, hmask, BitVec.eq_sub_iff_add_eq.mpr hsplit, BitVec.toInt_sub, hn, hlowBits]
  apply Int.bmod_eq_of_le <;> omega

/-! ## The closest number -/

/-- `pn` is nearer to `target` than half of the distance of the candidates. -/
def Near (d target pn : PacketNumber) : Prop :=
  2 * (pn - target) < d ∧ 2 * (target - pn) < d

private theorem eq_or_adjacent {d : Int} (hd : 0 < d) (q q' : Int)
    (hlow : d * q < d * q' + 2 * d) (hhigh : d * q' < d * q + 2 * d) :
    d * q' = d * q - d ∨ d * q' = d * q ∨ d * q' = d * q + d := by
  have h1 : q < q' + 2 := by
    apply lt_of_mul_lt_mul_left _ hd.le
    linarith
  have h2 : q' < q + 2 := by
    apply lt_of_mul_lt_mul_left _ hd.le
    linarith
  rcases (by omega : q' = q - 1 ∨ q' = q ∨ q' = q + 1) with rfl | rfl | rfl
  · exact .inl (by ring)
  · exact .inr (.inl rfl)
  · exact .inr (.inr (by ring))

def Candidate (d pn a : PacketNumber) : Prop := a = pn ∨ a + d ≤ pn ∨ pn + d ≤ a

theorem closestTo_eq_or (target a b : PacketNumber) :
    closestTo target a b = a ∨ closestTo target a b = b := by
  unfold closestTo
  split
  · exact .inl rfl
  · exact .inr rfl

theorem Candidate.closestTo {d pn a b : PacketNumber} (ha : Candidate d pn a)
    (hb : Candidate d pn b) (target : PacketNumber) :
    Candidate d pn (closestTo target a b) := by
  rcases closestTo_eq_or target a b with heq | heq
  · rw [heq]
    exact ha
  · rw [heq]
    exact hb

theorem Near.delta_lt {d target pn a : PacketNumber} (h : Near d target pn)
    (ha : a + d ≤ pn ∨ pn + d ≤ a) : delta target pn < delta target a := by
  unfold Near at h
  unfold delta
  lia

theorem Near.closestTo {d target pn a b : PacketNumber} (h : Near d target pn)
    (ha : Candidate d pn a) (hb : Candidate d pn b) (hpn : a = pn ∨ b = pn) :
    closestTo target a b = pn := by
  rcases ha with rfl | hfar
  · rcases hb with rfl | hfar'
    · rcases closestTo_eq_or target b b with heq | heq <;> exact heq
    · exact if_pos (h.delta_lt hfar')
  · rcases hpn with rfl | rfl
    · have := h.delta_lt hfar
      lia
    · exact if_neg (lt_asymm (h.delta_lt hfar))

private theorem exists_epoch {d : Int} (hd : 0 < d) (n : Int) :
    ∃ q, n - n % d = d * q ∧ d * q ≤ n ∧ n < d * q + d := by
  have hdiv := Int.mul_ediv_add_emod n d
  have hlt := Int.emod_lt_of_pos n hd
  have hnonneg := Int.emod_nonneg n hd.ne'
  exact ⟨n / d, by linarith, by linarith, by linarith⟩

private theorem epoch_cases {d q : Int} (hd : 0 < d) (h : -d ≤ d * q) :
    d * q = -d ∨ d * q = 0 ∨ d ≤ d * q := by
  have hq : -1 ≤ q := by
    apply le_of_mul_le_mul_left _ hd
    linarith
  rcases (by omega : q = -1 ∨ q = 0 ∨ 1 ≤ q) with rfl | rfl | hone
  · exact .inl (by ring)
  · exact .inr (.inl (mul_zero d))
  · exact .inr (.inr (le_mul_of_one_le_right hd.le hone))

theorem decodePacketNumber_of_near {len k : Nat} (hlen : epochDelta len = (2 ^ k : Nat))
    (hk : k ≤ 32) {largest pn : PacketNumber} (hlargest : -1 ≤ largest) (hpn : 0 ≤ pn)
    (hmax : pn < 2 ^ 62) (hnear : Near (2 ^ k : Nat) (largest + 1) pn) :
    decodePacketNumber len largest (pn % (2 ^ k : Nat)) = pn := by
  have hpow : 2 ^ k ≤ 2 ^ 32 := Nat.pow_le_pow_right (by decide) hk
  have hd : (0 : Int) < (2 ^ k : Nat) := Int.natCast_pos.mpr (Nat.two_pow_pos k)
  have hlow := hnear.1
  have hhigh := hnear.2
  simp only [PacketNumber] at *
  rw [decodePacketNumber, hlen, andNot_eq (by omega) hlargest (by omega)]
  generalize ((2 ^ k : Nat) : Int) = d at *
  obtain ⟨q, hq, hle, hlt⟩ := exists_epoch hd largest
  obtain ⟨q', hq', hle', hlt'⟩ := exists_epoch hd pn
  have hepoch' := epoch_cases hd (q := q') (by linarith)
  have hadjacent := eq_or_adjacent hd q q' (by linarith) (by linarith)
  have hw : pn % d = pn - d * q' := by linarith
  simp only [hq, hw]
  generalize d * q = epoch at *
  generalize d * q' = epoch' at *
  -- Each of the three candidates is `pn` or far from it, and one of them is `pn`.
  have hprev : Candidate d pn ((if epoch > d then epoch - d else 0) + (pn - epoch')) := by
    unfold Candidate
    lia
  have hnext : Candidate d pn (epoch + d + (pn - epoch')) := by
    unfold Candidate
    lia
  have hcurrent : Candidate d pn (epoch + (pn - epoch')) := by
    unfold Candidate
    lia
  have hone : epoch + (pn - epoch') = pn ∨
      (if epoch > d then epoch - d else 0) + (pn - epoch') = pn ∨
      epoch + d + (pn - epoch') = pn := by lia
  rcases hone with hpn' | hpn'
  · exact hnear.closestTo hcurrent (hprev.closestTo hnext _) (.inl hpn')
  · have hinner := hnear.closestTo hprev hnext hpn'
    exact hnear.closestTo hcurrent (.inl hinner) (.inr hinner)

/-! ## Writing and reading -/

private theorem reads_readUint24 (i : Nat) : Reads readUint24 (bigEndian 3 i) (i % 2 ^ 24) := by
  have hvalue : _ = i % 2 ^ 24 := ofBigEndian_bigEndian 3 i
  iterate 3 apply Reads.cons
  refine reads_pure_of_eq (Eq.trans ?_ hvalue)
  simp only [bigEndian, ofBigEndian, Nat.shiftLeft_eq, List.length]
  ring

theorem reads_readUint32 (i : Nat) : Reads readUint32 (bigEndian 4 i) (i % 2 ^ 32) := by
  have hvalue : _ = i % 2 ^ 32 := ofBigEndian_bigEndian 4 i
  iterate 4 apply Reads.cons
  refine reads_pure_of_eq (Eq.trans ?_ hvalue)
  simp only [bigEndian, ofBigEndian, Nat.shiftLeft_eq, List.length]
  ring

theorem reads_readPacketNumberOfLen {len : Nat} (hpos : 1 ≤ len) (hle : len ≤ 4) (i : Nat) :
    Reads (readPacketNumberOfLen len) (bigEndian len i) (i % 2 ^ (8 * len)) := by
  rcases (by omega : len = 1 ∨ len = 2 ∨ len = 3 ∨ len = 4) with rfl | rfl | rfl | rfl
  · intro rest
    change Except.ok ((UInt8.ofNat i).toNat, rest) = _
    rw [UInt8.toNat_ofNat']
  · exact reads_readUint16 i
  · exact reads_readUint24 i
  · exact reads_readUint32 i

theorem epochDelta_eq {len : Nat} (hpos : 2 ≤ len) (hle : len ≤ 4) :
    epochDelta len = (2 ^ (8 * len) : Nat) := by
  rcases (by omega : len = 2 ∨ len = 3 ∨ len = 4) with rfl | rfl | rfl <;> rfl

private theorem near_of_length {pn u largest : PacketNumber} (hle : u ≤ pn)
    (hdiff : pn - u < 2 ^ 31) (hlow : u - 1 ≤ largest) (hhigh : largest ≤ pn - 1) :
    Near (2 ^ (8 * getPacketNumberLengthForHeader pn u) : Nat) (largest + 1) pn := by
  have hmod : (pn - u) % 2 ^ 64 = pn - u := Int.emod_eq_of_lt (by lia) (by lia)
  unfold getPacketNumberLengthForHeader Near
  simp only [hmod, PacketNumber]
  split_ifs <;> lia

/-- A receiver that is not too far behind or ahead finds the packet number. -/
theorem decodePacketNumber_written (h : ExtendedHeader) (typeByte : UInt8)
    (u largest : PacketNumber) (hu : 0 ≤ u) (hle : u ≤ h.packetNumber)
    (hmax : h.packetNumber < 2 ^ 62) (hdiff : h.packetNumber - u < 2 ^ 31)
    (hlen : h.packetNumberLen = getPacketNumberLengthForHeader h.packetNumber u)
    (htype : (typeByte &&& 0x3).toNat + 1 = h.packetNumberLen)
    (hlargest : u - 1 ≤ largest ∧ largest ≤ h.packetNumber - 1 ∨
      0 ≤ largest ∧
        |h.packetNumber - (largest + 1)| < 2 ^ (8 * h.packetNumberLen - 1)) :
    ∃ bytes wire, h.writePacketNumber = .ok bytes ∧
      (∀ rest, readPacketNumber typeByte (bytes ++ rest) =
        .ok ((h.packetNumberLen, wire), rest)) ∧
      decodePacketNumber h.packetNumberLen largest wire = h.packetNumber := by
  have hbounds := getPacketNumberLengthForHeader_bounds h.packetNumber u
  rw [← hlen] at hbounds
  have hwrite : h.writePacketNumber =
      .ok (bigEndian h.packetNumberLen (wrapByteCount h.packetNumber)) :=
    if_pos ⟨by omega, hbounds.2⟩
  have hread := reads_readPacketNumberOfLen (Nat.le_of_succ_le hbounds.1) hbounds.2
    (wrapByteCount h.packetNumber)
  have hwire : ((wrapByteCount h.packetNumber % 2 ^ (8 * h.packetNumberLen) : Nat) :
      Int) = h.packetNumber % (2 ^ (8 * h.packetNumberLen) : Nat) := by
    rw [Int.natCast_emod, natCast_wrapByteCount (by lia) (by unfold maxVarInt8; lia)]
  have hnear : -1 ≤ largest ∧
      Near (2 ^ (8 * h.packetNumberLen) : Nat) (largest + 1) h.packetNumber := by
    rcases hlargest with ⟨hlow, hhigh⟩ | ⟨hnonneg, hnear⟩
    · rw [hlen]
      exact ⟨by lia, near_of_length hle hdiff hlow hhigh⟩
    · have hpow : (2 ^ (8 * h.packetNumberLen) : Nat) = 2 * 2 ^ (8 * h.packetNumberLen - 1) := by
        rw [← Nat.pow_succ']
        congr 1
        omega
      obtain ⟨hlow, hhigh⟩ := abs_lt.mp hnear
      refine ⟨by lia, ?_⟩
      push_cast
      exact ⟨by linarith, by linarith⟩
  refine ⟨_, h.packetNumber % (2 ^ (8 * h.packetNumberLen) : Nat), hwrite, ?_, ?_⟩
  · rw [readPacketNumber, htype, ← hwire]
    exact hread.bind_pure rfl
  · exact decodePacketNumber_of_near (epochDelta_eq hbounds.1 hbounds.2) (by omega)
      hnear.1 (by lia) hmax hnear.2

theorem decodePacketNumber_written_twoBytes :
    ∃ bytes wire, ExtendedHeader.writePacketNumber
        { packetNumber := 70000, packetNumberLen := 2 } = .ok bytes ∧
      (∀ rest, readPacketNumber 0x41 (bytes ++ rest) = .ok ((2, wire), rest)) ∧
      decodePacketNumber 2 69990 wire = 70000 :=
  decodePacketNumber_written { packetNumber := 70000, packetNumberLen := 2 } 0x41 69000
    69990 (by decide) (by decide) (by decide) (by decide) (by decide) (by decide)
    (.inl (by decide))

end Qperf.Quic

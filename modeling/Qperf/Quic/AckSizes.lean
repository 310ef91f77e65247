import Qperf.Quic.AckFrames

/-!
# The size limit of ACK frames

`numEncodableAckRanges` adds up an estimate of the length that leaves out the length of
the first range.  At the first range that does not fit it returns one less than the
number of ranges in front of it.  A frame may therefore be too long, and it may also
leave out a range that would have fitted.
-/

namespace Qperf.Quic

open Qperf.Foundation

namespace AckFrame

def lenWithRanges (f : AckFrame) (num : Nat) : Nat :=
  match f.ackRanges with
  | [] => 0
  | first :: ranges => 1 + varIntsSize (f.encodedFields first ranges num)

/-- The length of the first range itself, which is encoded in front of the others. -/
def firstRangeLen (f : AckFrame) : Nat :=
  match f.ackRanges with
  | [] => 0
  | first :: _ => varIntSize (wrapByteCount (first.largest - first.smallest))

/-- The gap and the length of range `i`, which is not the first one. -/
def rangeLen (f : AckFrame) (i : Nat) : Nat :=
  match f.ackRanges[i - 1]?, f.ackRanges[i]? with
  | some previous, some r =>
    varIntSize (encodeAckRange previous r).1 + varIntSize (encodeAckRange previous r).2
  | _, _ => 0

/--
The length of a frame with `num` ranges, without that of the first one, and with two bytes
for their number.
-/
def lenWithoutFirst (f : AckFrame) (num : Nat) : Nat :=
  match f.ackRanges with
  | [] => 0
  | first :: ranges =>
    1 + varIntSize (wrapByteCount first.largest) +
      varIntSize (encodeAckDelay f.delayTime) + 2 +
      varIntsSize (encodeAckRanges first (ranges.take (num - 1)))

/-- The frame keeps to the limit and leaves no range out that would fit. -/
def SizeLimited (f : AckFrame) : Prop :=
  ∃ num bytes, f.numEncodableAckRanges = .ok num ∧ f.write = .ok bytes ∧
    bytes.length ≤ maxAckFrameSize ∧
    (num < f.ackRanges.length → maxAckFrameSize < f.lenWithRanges (num + 1))

variable {f : AckFrame}

theorem lenWithoutFirst_mono (f : AckFrame) {m n : Nat} (hle : m ≤ n) :
    f.lenWithoutFirst m ≤ f.lenWithoutFirst n := by
  unfold lenWithoutFirst
  split
  · exact Nat.le_refl _
  · exact Nat.add_le_add_left (varIntsSize_take_mono _ _ (Nat.sub_le_sub_right hle 1)) _

theorem varIntsSize_take_succ (previous : AckRange) (ranges : List AckRange) {j : Nat}
    {r r' : AckRange} (hr : (previous :: ranges)[j]? = some r) (hr' : ranges[j]? = some r') :
    varIntsSize (encodeAckRanges previous (ranges.take (j + 1))) =
      varIntsSize (encodeAckRanges previous (ranges.take j)) +
        (varIntSize (encodeAckRange r r').1 + varIntSize (encodeAckRange r r').2) := by
  induction ranges generalizing previous j with
  | nil => cases hr'
  | cons q ranges ih =>
    cases j with
    | zero =>
      cases hr
      cases hr'
      rw [List.take_succ_cons, varIntsSize_encodeAckRanges_cons]
      exact Nat.add_comm ..
    | succ j =>
      rw [List.take_succ_cons, List.take_succ_cons, varIntsSize_encodeAckRanges_cons,
        varIntsSize_encodeAckRanges_cons, ih q hr hr']
      omega

theorem lenWithoutFirst_succ {k : Nat} (hpos : 1 ≤ k) (hk : k < f.ackRanges.length) :
    f.lenWithoutFirst (k + 1) = f.lenWithoutFirst k + f.rangeLen k := by
  obtain ⟨j, rfl⟩ : ∃ j, k = j + 1 := ⟨k - 1, by omega⟩
  unfold lenWithoutFirst rangeLen
  cases hranges : f.ackRanges with
  | nil => simp [hranges] at hk
  | cons first ranges =>
    rw [hranges, List.length_cons, Nat.succ_lt_succ_iff] at hk
    have hj : j < (first :: ranges).length := Nat.lt_succ_of_lt hk
    have hr : (first :: ranges)[j]? = some (first :: ranges)[j] :=
      List.getElem?_eq_getElem hj
    have hr' : ranges[j]? = some ranges[j] := List.getElem?_eq_getElem hk
    simp only [Nat.add_sub_cancel, List.getElem?_cons_succ, hr, hr']
    rw [varIntsSize_take_succ first ranges hr hr']
    omega

theorem le_of_lenWithoutFirst {k : Nat} (hk : k ≤ f.ackRanges.length)
    (h : f.lenWithoutFirst k ≤ maxAckFrameSize) : k ≤ 501 := by
  unfold lenWithoutFirst maxAckFrameSize at h
  cases hranges : f.ackRanges with
  | nil => simp [hranges] at hk; omega
  | cons first ranges =>
    rw [hranges, List.length_cons] at hk
    simp only [hranges] at h
    have hcount := length_encodeAckRanges first (ranges.take (k - 1))
    rw [List.length_take, Nat.min_eq_left (by omega)] at hcount
    omega

theorem lenWithRanges_add_two (hne : f.ackRanges ≠ []) {k : Nat} (hpos : 1 ≤ k)
    (hk : k ≤ 501) : f.lenWithRanges k + 2 =
      f.lenWithoutFirst k + f.firstRangeLen + varIntSize (k - 1) := by
  obtain ⟨first, ranges, hranges⟩ := List.exists_cons_of_ne_nil hne
  have hcount : wrapByteCount ((k : Int) - 1) = k - 1 := by
    unfold wrapByteCount
    omega
  simp only [lenWithRanges, lenWithoutFirst, firstRangeLen, hranges, encodedFields,
    varIntsSize, List.map_append, List.sum_append, List.map_cons, List.map_nil,
    List.sum_cons, List.sum_nil, hcount]
  omega

theorem lenWithoutFirst_two_le (f : AckFrame) : f.lenWithoutFirst 2 ≤ maxAckFrameSize := by
  unfold lenWithoutFirst maxAckFrameSize
  split
  · exact Nat.zero_le _
  · next first ranges _ =>
    have hfirst := varIntSize_le (wrapByteCount first.largest)
    have hdelay := varIntSize_le (encodeAckDelay f.delayTime)
    cases ranges with
    | nil => simp only [List.take_nil, varIntsSize_encodeAckRanges_nil]; omega
    | cons r ranges =>
      have hgap := varIntSize_le (encodeAckRange first r).1
      have hlen := varIntSize_le (encodeAckRange first r).2
      rw [List.take_succ_cons, List.take_zero, varIntsSize_encodeAckRanges_cons,
        varIntsSize_encodeAckRanges_nil]
      omega

theorem Valid.numEncodableAckRanges_cases (h : f.Valid) :
    ∃ num bytes, f.numEncodableAckRanges = .ok num ∧ f.write = .ok bytes ∧
      bytes.length = f.lenWithRanges num ∧
      (num = f.ackRanges.length ∧ f.lenWithoutFirst f.ackRanges.length ≤ maxAckFrameSize ∨
      ∃ k < f.ackRanges.length, num + 1 = k ∧ f.lenWithoutFirst k ≤ maxAckFrameSize ∧
        maxAckFrameSize < f.lenWithoutFirst (k + 1)) := by
  have hne := h.ranges
  cases hranges : f.ackRanges with
  | nil => simp [validateAckRanges, hranges] at hne
  | cons first ranges =>
    obtain ⟨-, -, -, hbelow⟩ := h.below hranges
    obtain ⟨hfirst, hdelay, hroom⟩ := h.front_fits hranges
    obtain ⟨num, hnum, hpos, hle, -⟩ := h.numEncodableAckRanges hranges
    have hencodable := h.encodable_encodedFields hranges hpos (Nat.le_trans hle (by decide))
    obtain ⟨bytes, hbytes, hlen⟩ := writeFrame_of_encodable 0x2 hencodable []
    refine ⟨num, bytes, hnum, ?_, ?_, ?_⟩
    · simp only [AckFrame.write, hranges, hnum]
      exact hbytes
    · simp only [lenWithRanges, hranges]
      exact hlen
    · obtain ⟨num', hloop, hcase⟩ :=
        hbelow.encodableLoop_cases (i := 1) (Nat.le_of_add_right_le hroom)
      have hsame : num' = num := by
        simp only [AckFrame.numEncodableAckRanges, hranges, varIntLen_of_le hfirst,
          varIntLen_of_le hdelay, ok_bind, hloop] at hnum
        exact Except.ok.inj hnum
      simp only [lenWithoutFirst, hranges, List.length_cons]
      rcases hcase with ⟨hall, hsize⟩ | ⟨j, hj, hcut, hsize, hexceeds⟩
      · refine .inl ⟨by omega, ?_⟩
        rwa [Nat.add_sub_cancel, List.take_length]
      · exact .inr ⟨j + 1, Nat.succ_lt_succ hj, by omega, hsize, hexceeds⟩

/--
What is left of the limit without the first range: enough for that range if all ranges
are encoded, or else too little for it, but enough once the range before the first one
that does not fit is left out as well.
-/
def SlackForFirst (f : AckFrame) : Prop :=
  (∃ slack, f.lenWithoutFirst f.ackRanges.length + slack = maxAckFrameSize ∧
    f.firstRangeLen + varIntSize (f.ackRanges.length - 1) ≤ slack + 2) ∨
  ∃ k slack, 1 < k ∧ k < f.ackRanges.length ∧
    f.lenWithoutFirst k + slack = maxAckFrameSize ∧ slack < f.rangeLen k ∧
    slack + 2 < f.firstRangeLen + varIntSize (k - 1) ∧
    f.firstRangeLen + varIntSize (k - 2) ≤ slack + 2 + f.rangeLen (k - 1)

theorem slackForFirst_of_all (hne : f.ackRanges ≠ [])
    (hall : f.lenWithoutFirst f.ackRanges.length ≤ maxAckFrameSize) :
    f.SlackForFirst ↔ f.lenWithRanges f.ackRanges.length ≤ maxAckFrameSize := by
  have hpos := List.length_pos_iff.mpr hne
  have hlen := lenWithRanges_add_two hne hpos (le_of_lenWithoutFirst le_rfl hall)
  constructor
  · rintro (⟨slack, hslack, hroom⟩ | ⟨k, slack, hk, hlt, hslack, hrange, -⟩)
    · omega
    · have hmono := f.lenWithoutFirst_mono (show k + 1 ≤ f.ackRanges.length from hlt)
      rw [lenWithoutFirst_succ (Nat.le_of_lt hk) hlt] at hmono
      omega
  · intro hle
    exact .inl ⟨maxAckFrameSize - f.lenWithoutFirst f.ackRanges.length, by omega, by omega⟩

theorem slackForFirst_of_cut {k : Nat} (hlt : k < f.ackRanges.length)
    (hfits : f.lenWithoutFirst k ≤ maxAckFrameSize)
    (hexceeds : maxAckFrameSize < f.lenWithoutFirst (k + 1)) :
    f.SlackForFirst ↔ f.lenWithRanges (k - 1) ≤ maxAckFrameSize ∧
      maxAckFrameSize < f.lenWithRanges k := by
  have hne : f.ackRanges ≠ [] := List.length_pos_iff.mp (Nat.zero_lt_of_lt hlt)
  have hk : 1 < k := by
    by_contra hnot
    have := f.lenWithoutFirst_mono (show k + 1 ≤ 2 by omega)
    have := f.lenWithoutFirst_two_le
    omega
  have hbound := le_of_lenWithoutFirst (Nat.le_of_lt hlt) hfits
  have hlen := lenWithRanges_add_two hne (Nat.le_of_lt hk) hbound
  have hlen' := lenWithRanges_add_two hne (k := k - 1) (by omega) (by omega)
  have hsucc := lenWithoutFirst_succ (f := f) (Nat.le_of_lt hk) hlt
  have hsucc' := lenWithoutFirst_succ (f := f) (k := k - 1) (by omega) (by omega)
  rw [Nat.sub_add_cancel (Nat.le_of_lt hk)] at hsucc'
  rw [show k - 1 - 1 = k - 2 by omega] at hlen'
  constructor
  · rintro (⟨slack, hslack, -⟩ | ⟨j, slack, hj, hjlt, hslack, hrange, hlong, hshort⟩)
    · have := f.lenWithoutFirst_mono (show k + 1 ≤ f.ackRanges.length from hlt)
      omega
    · -- Only one number of ranges is the largest that fits.
      have hsame : j = k := by
        have hjsucc := lenWithoutFirst_succ (f := f) (Nat.le_of_lt hj) hjlt
        rcases Nat.lt_trichotomy j k with hless | heq | hless
        · have := f.lenWithoutFirst_mono (show j + 1 ≤ k from hless)
          omega
        · exact heq
        · have := f.lenWithoutFirst_mono (show k + 1 ≤ j from hless)
          omega
      subst hsame
      omega
  · rintro ⟨hshort, hlong⟩
    exact .inr ⟨k, maxAckFrameSize - f.lenWithoutFirst k, hk, hlt, by omega, by omega,
      by omega, by omega⟩

/-- The limit is kept, and used up, exactly if the slack is right for the first range. -/
theorem sizeLimited_iff (f : AckFrame) (h : f.Valid) :
    f.SizeLimited ↔ f.SlackForFirst := by
  obtain ⟨num, bytes, hnum, hwrite, hlen, hcase⟩ := h.numEncodableAckRanges_cases
  have hlimited : f.SizeLimited ↔ f.lenWithRanges num ≤ maxAckFrameSize ∧
      (num < f.ackRanges.length → maxAckFrameSize < f.lenWithRanges (num + 1)) := by
    constructor
    · rintro ⟨num', bytes', hnum', hwrite', hle, hfirst⟩
      rw [hnum] at hnum'
      rw [hwrite] at hwrite'
      cases hnum'
      cases hwrite'
      exact ⟨hlen ▸ hle, hfirst⟩
    · rintro ⟨hle, hfirst⟩
      exact ⟨num, bytes, hnum, hwrite, hlen.symm ▸ hle, hfirst⟩
  rw [hlimited]
  rcases hcase with ⟨rfl, hall⟩ | ⟨k, hk, rfl, hfits, hexceeds⟩
  · have hne : f.ackRanges ≠ [] := by
      intro hnil
      have hranges := h.ranges
      simp [validateAckRanges, hnil] at hranges
    rw [slackForFirst_of_all hne hall]
    exact ⟨And.left, fun hle => ⟨hle, fun hlt => absurd hlt (Nat.lt_irrefl _)⟩⟩
  · rw [slackForFirst_of_cut hk hfits hexceeds, Nat.add_sub_cancel]
    exact ⟨fun hboth => ⟨hboth.1, hboth.2 (Nat.lt_of_succ_lt hk)⟩,
      fun hboth => ⟨hboth.1, fun _ => hboth.2⟩⟩

def wideRanges (n : Nat) : List AckRange :=
  (List.range n).reverse.map fun i =>
    ⟨(2 * i + 1) * 2 ^ 31, (2 * i + 1) * 2 ^ 31 + 2 ^ 30⟩

theorem sizeLimited_iff_wide : SizeLimited ⟨[⟨10, 12⟩, ⟨3, 5⟩], 20000⟩ ∧
    SizeLimited ⟨wideRanges 63, 8000 * 2 ^ 30⟩ := by
  have hshort : (⟨[⟨10, 12⟩, ⟨3, 5⟩], 20000⟩ : AckFrame).Valid :=
    ⟨by decide, by decide, by decide, by decide, by decide⟩
  have hlong : (⟨wideRanges 63, 8000 * 2 ^ 30⟩ : AckFrame).Valid :=
    ⟨by decide +kernel, by decide +kernel, by decide +kernel, by decide, by decide⟩
  exact ⟨(sizeLimited_iff _ hshort).mpr (.inl ⟨993, by decide, by decide⟩),
    (sizeLimited_iff _ hlong).mpr (.inr ⟨62, 5, by decide +kernel⟩)⟩

/--
The frame with 62 wide ranges and a long delay takes 1002 bytes.  The one with a single
packet in front of them is cut to 61 ranges, although 62 ranges take 988 bytes.
-/
theorem sizeLimit_missed :
    (∃ (f : AckFrame) (bytes : List UInt8), f.Valid ∧ f.write = .ok bytes ∧
      bytes.length = 1002) ∧
    ∃ f : AckFrame, f.Valid ∧ f.ackRanges.length = 63 ∧ f.numEncodableAckRanges = .ok 61 ∧
      f.lenWithRanges 62 = 988 := by
  constructor
  · have hwrite : (AckFrame.write ⟨wideRanges 62, 8000 * 2 ^ 30⟩).map List.length = .ok 1002 := by
      decide +kernel
    obtain ⟨bytes, hbytes, hlength⟩ := map_eq_ok hwrite
    exact ⟨_, bytes, ⟨by decide +kernel, by decide +kernel, by decide +kernel, by decide,
      by decide⟩, hbytes, hlength⟩
  · exact ⟨⟨⟨2 ^ 40, 2 ^ 40⟩ :: wideRanges 62, 0⟩, ⟨by decide +kernel, by decide +kernel,
      by decide +kernel, by decide, by decide⟩, by decide +kernel, by decide +kernel,
      by decide +kernel⟩

end AckFrame

end Qperf.Quic

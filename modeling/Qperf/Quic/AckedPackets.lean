import Qperf.Quic.ReceivedPackets

/-!
# The packets that an ACK frame acknowledges

`determineNewlyAckedPackets` goes through the outstanding packets in ascending order and
through the ranges of the ACK frame at the same time, from the lowest one on.  A range is
given up only when a packet above it was seen, so that no packet of it is missed.
`AcksPacket` finds the range by binary search.
-/

namespace Qperf.Quic

open Qperf.Foundation SentPacketHandler

/-! ## Ranges -/

def AckRange.Contains (r : AckRange) (p : PacketNumber) : Prop :=
  r.smallest ≤ p ∧ p ≤ r.largest

instance (r : AckRange) (p : PacketNumber) : Decidable (r.Contains p) :=
  inferInstanceAs (Decidable (_ ∧ _))

def InAckRanges (ranges : List AckRange) (p : PacketNumber) : Prop :=
  ∃ r ∈ ranges, r.Contains p

instance (ranges : List AckRange) (p : PacketNumber) :
    Decidable (InAckRanges ranges p) :=
  inferInstanceAs (Decidable (∃ r ∈ ranges, _))

def AckFrame.Acks (f : AckFrame) (p : PacketNumber) : Prop := InAckRanges f.ackRanges p

instance (f : AckFrame) (p : PacketNumber) : Decidable (f.Acks p) :=
  inferInstanceAs (Decidable (InAckRanges ..))

@[mk_iff]
structure Climbing (ranges : List AckRange) : Prop where
  apart : ranges.Pairwise fun a b => a.largest + 1 < b.smallest
  nonempty : ∀ r ∈ ranges, r.smallest ≤ r.largest

variable {ranges : List AckRange}

theorem climbing_cons {r : AckRange} :
    Climbing (r :: ranges) ↔ r.smallest ≤ r.largest ∧
      (∀ b ∈ ranges, r.largest + 1 < b.smallest) ∧ Climbing ranges := by
  rw [climbing_iff, climbing_iff, pairwise_forall_cons]

theorem pairwise_of_rangesDescend (hdescend : AckFrame.rangesDescend ranges = true)
    (hnonempty : ∀ r ∈ ranges, r.smallest ≤ r.largest) :
    ranges.Pairwise fun a b => b.largest + 1 < a.smallest := by
  induction ranges with
  | nil => exact .nil
  | cons r ranges ih =>
    obtain ⟨-, hrest⟩ := List.forall_mem_cons.mp hnonempty
    cases ranges with
    | nil => exact List.pairwise_singleton ..
    | cons next ranges =>
      simp only [AckFrame.rangesDescend, Bool.and_eq_true, decide_eq_true_eq] at hdescend
      have htail := ih hdescend.2 hrest
      obtain ⟨hbelow, -⟩ := List.pairwise_cons.mp htail
      refine List.pairwise_cons.mpr ⟨List.forall_mem_cons.mpr ⟨by lia, ?_⟩, htail⟩
      intro b hb
      have := hbelow b hb
      lia

theorem AckFrame.descending {f : AckFrame} (h : f.validateAckRanges = true) :
    f.ackRanges ≠ [] ∧ (f.ackRanges.Pairwise fun a b => b.largest + 1 < a.smallest) ∧
      ∀ r ∈ f.ackRanges, r.smallest ≤ r.largest := by
  simp only [validateAckRanges, Bool.and_eq_true, Bool.not_eq_true',
    List.isEmpty_eq_false_iff, List.all_eq_true, decide_eq_true_eq] at h
  obtain ⟨⟨hne, hnonempty⟩, hdescend⟩ := h
  exact ⟨hne, pairwise_of_rangesDescend hdescend hnonempty, hnonempty⟩

theorem AckFrame.climbing {f : AckFrame} (h : f.validateAckRanges = true) :
    Climbing f.ackRanges.reverse := by
  obtain ⟨-, hapart, hnonempty⟩ := f.descending h
  exact ⟨List.pairwise_reverse.mpr hapart, fun r hr => hnonempty r (List.mem_reverse.mp hr)⟩

private theorem inAckRanges_reverse (ranges : List AckRange) (p : PacketNumber) :
    InAckRanges ranges.reverse p ↔ InAckRanges ranges p := by
  simp [InAckRanges]

theorem inAckRanges_cons (r : AckRange) (ranges : List AckRange) (p : PacketNumber) :
    InAckRanges (r :: ranges) p ↔ r.Contains p ∨ InAckRanges ranges p := by
  simp [InAckRanges]

/-! ## The pass over the packets -/

theorem Climbing.skipRanges {largest p : PacketNumber}
    (h : Climbing ranges) (hlargest : InAckRanges ranges largest) (hp : p ≤ largest) :
    ∃ r rest, skipRanges p ranges = r :: rest ∧ p ≤ r.largest ∧ Climbing (r :: rest) ∧
      (∀ b ∈ r :: rest, b ∈ ranges) ∧
      ∀ q, p ≤ q → (InAckRanges (r :: rest) q ↔ InAckRanges ranges q) := by
  induction ranges with
  | nil =>
    obtain ⟨r, hr, -⟩ := hlargest
    exact (List.not_mem_nil hr).elim
  | cons r ranges ih =>
    obtain ⟨-, -, hrest⟩ := climbing_cons.mp h
    cases ranges with
    | nil =>
      obtain ⟨last, hlast, -, hle⟩ := hlargest
      obtain rfl := List.mem_singleton.mp hlast
      exact ⟨last, [], rfl, hp.trans hle, h, fun _ hb => hb, fun _ _ => Iff.rfl⟩
    | cons next ranges =>
      rw [SentPacketHandler.skipRanges]
      split
      · next hskip =>
        have hnot (q : PacketNumber) (hq : p ≤ q) : ¬ r.Contains q :=
          fun hcontains => absurd hcontains.2 (by lia)
        have hlargest' : InAckRanges (next :: ranges) largest :=
          ((inAckRanges_cons ..).mp hlargest).resolve_left (hnot largest hp)
        obtain ⟨r', rest, hskip', hle, hclimbing, hmem, hiff⟩ := ih hrest hlargest'
        refine ⟨r', rest, hskip', hle, hclimbing,
          fun b hb => List.mem_cons_of_mem r (hmem b hb), fun q hq => ?_⟩
        rw [hiff q hq, inAckRanges_cons r, or_iff_right (hnot q hq)]
      · next hstop =>
        exact ⟨r, next :: ranges, rfl, by lia, h, fun _ hb => hb, fun _ _ => Iff.rfl⟩

section Packets

variable {φ : Type} {lowest largest : PacketNumber} {packets : List (SentPacket φ)}

abbrev AscendingPackets (packets : List (SentPacket φ)) : Prop :=
  packets.Pairwise fun p q => p.packetNumber < q.packetNumber

theorem filter_eq_nil_of_above {ranges : List AckRange} {p : SentPacket φ}
    (hpackets : AscendingPackets (p :: packets)) (hp : p.packetNumber > largest)
    (hbound : ∀ q, InAckRanges ranges q → q ≤ largest) :
    (p :: packets).filter (fun q => InAckRanges ranges q.packetNumber) = [] := by
  obtain ⟨hbelow, -⟩ := List.pairwise_cons.mp hpackets
  simp only [List.filter_eq_nil_iff, decide_eq_true_eq]
  intro q hq hin
  have hle := hbound _ hin
  rcases List.mem_cons.mp hq with rfl | hq
  · lia
  · have := hbelow q hq
    lia

theorem newlyAckedLoop_ranges {ranges : List AckRange} (h : Climbing ranges)
    (hlargest : InAckRanges ranges largest)
    (hbound : ∀ q, InAckRanges ranges q → lowest ≤ q ∧ q ≤ largest)
    (hpackets : AscendingPackets packets) :
    newlyAckedLoop true lowest largest ranges packets =
      .ok (packets.filter fun p => InAckRanges ranges p.packetNumber) := by
  induction packets generalizing ranges with
  | nil => rfl
  | cons p packets ih =>
    obtain ⟨hbelow, htail⟩ := List.pairwise_cons.mp hpackets
    rw [newlyAckedLoop]
    split
    · next hlow =>
      have hnot : ¬ InAckRanges ranges p.packetNumber :=
        fun hin => absurd (hbound _ hin).1 (not_le.mpr hlow)
      rw [ih h hlargest hbound htail, List.filter_cons_of_neg (by simpa using hnot)]
    split
    · next hhigh =>
      rw [filter_eq_nil_of_above hpackets hhigh fun q hq => (hbound q hq).2]
    · next hlow hhigh =>
      obtain ⟨r, rest, hskip, hle, hclimbing, hmem, hiff⟩ :=
        h.skipRanges hlargest (not_lt.mp hhigh)
      obtain ⟨-, habove, -⟩ := climbing_cons.mp hclimbing
      have hrest := ih hclimbing ((hiff largest (not_lt.mp hhigh)).mpr hlargest)
        (fun q ⟨b, hb, hq⟩ => hbound q ⟨b, hmem b hb, hq⟩) htail
      -- The packets that follow are in the same ranges as before.
      have hsame : packets.filter (fun q => InAckRanges (r :: rest) q.packetNumber) =
          packets.filter fun q => InAckRanges ranges q.packetNumber := by
        apply List.filter_congr
        intro q hq
        rw [decide_eq_decide]
        exact hiff _ (hbelow q hq).le
      simp only [if_true, hskip]
      split
      · next hsmallest =>
        have hin : InAckRanges ranges p.packetNumber :=
          (hiff _ (le_refl _)).mp ⟨r, List.mem_cons_self, hsmallest, hle⟩
        rw [if_neg (not_lt.mpr hle), hrest, ok_bind, hsame,
          List.filter_cons_of_pos (by simpa using hin)]
        rfl
      · next hsmallest =>
        have hnot : ¬ InAckRanges ranges p.packetNumber := by
          rw [← hiff _ (le_refl _), inAckRanges_cons]
          rintro (hr | ⟨b, hb, hb'⟩)
          · exact hsmallest hr.1
          · have := habove b hb
            have := hb'.1
            lia
        rw [hrest, hsame, List.filter_cons_of_neg (by simpa using hnot)]

theorem newlyAckedLoop_single (ranges : List AckRange) (hpackets : AscendingPackets packets) :
    newlyAckedLoop false lowest largest ranges packets =
      .ok (packets.filter fun p => InAckRanges [⟨lowest, largest⟩] p.packetNumber) := by
  have hin (q : PacketNumber) : InAckRanges [⟨lowest, largest⟩] q ↔ lowest ≤ q ∧ q ≤ largest := by
    simp [InAckRanges, AckRange.Contains]
  induction packets with
  | nil => rfl
  | cons p packets ih =>
    obtain ⟨hbelow, htail⟩ := List.pairwise_cons.mp hpackets
    rw [newlyAckedLoop]
    split
    · next hlow =>
      have hnot : ¬ InAckRanges [⟨lowest, largest⟩] p.packetNumber :=
        fun h => absurd ((hin _).mp h).1 (not_le.mpr hlow)
      rw [ih htail, List.filter_cons_of_neg (by simpa using hnot)]
    split
    · next hhigh =>
      rw [filter_eq_nil_of_above hpackets hhigh fun q hq => ((hin q).mp hq).2]
    · next hlow hhigh =>
      have hacked : InAckRanges [⟨lowest, largest⟩] p.packetNumber :=
        (hin _).mpr ⟨not_lt.mp hlow, not_lt.mp hhigh⟩
      rw [ih htail, ok_bind, List.filter_cons_of_pos (by simpa using hacked)]
      rfl

end Packets

/-! ## Binary search -/

theorem sortSearchLoop_spec {f : Nat → Bool} {n turns i j : Nat} (hle : i ≤ j)
    (hturns : j - i ≤ turns) (hmono : ∀ k l, k ≤ l → l < n → f k = true → f l = true)
    (hj : j ≤ n) (hlow : ∀ k < i, f k = false) (hhigh : ∀ k, j ≤ k → k < n → f k = true) :
    (∀ k < sortSearchLoop f turns i j, f k = false) ∧
      ∀ k, sortSearchLoop f turns i j ≤ k → k < n → f k = true := by
  induction turns generalizing i j with
  | zero =>
    obtain rfl : i = j := by omega
    exact ⟨hlow, hhigh⟩
  | succ turns ih =>
    rw [sortSearchLoop]
    dsimp only
    split
    · split
      · next hmiddle =>
        apply ih
        · omega
        · omega
        · omega
        · exact hlow
        · exact fun k hk hkn => hmono _ k hk hkn hmiddle
      · next hmiddle =>
        apply ih
        · omega
        · omega
        · exact hj
        · intro k hk
          by_contra htrue
          apply hmiddle
          apply hmono k _ (by omega) (by omega)
          simpa using htrue
        · exact hhigh
    · next hdone =>
      obtain rfl : i = j := by omega
      exact ⟨hlow, hhigh⟩

private theorem sortSearch_spec {f : Nat → Bool} {n : Nat}
    (hmono : ∀ k l, k ≤ l → l < n → f k = true → f l = true) :
    (∀ k < sortSearch n f, f k = false) ∧ ∀ k, sortSearch n f ≤ k → k < n → f k = true :=
  sortSearchLoop_spec (Nat.zero_le n) (Nat.le_refl _) hmono (Nat.le_refl n)
    (fun _ hk => absurd hk (Nat.not_lt_zero _)) fun _ hk hkn => absurd hkn (by omega)

theorem sortSearch_ranges {ranges : List AckRange} {p : PacketNumber}
    (hapart : ranges.Pairwise fun a b => b.largest + 1 < a.smallest)
    (hnonempty : ∀ r ∈ ranges, r.smallest ≤ r.largest) (hlow : ∃ r ∈ ranges, r.smallest ≤ p) :
    ∃ r, ranges[sortSearch ranges.length fun i =>
        ranges[i]?.any fun r => p ≥ r.smallest]? = some r ∧
      (p ≤ r.largest ↔ InAckRanges ranges p) := by
  have hreached (i : Nat) (hi : i < ranges.length) :
      (ranges[i]?.any fun r => p ≥ r.smallest) = true ↔ ranges[i].smallest ≤ p := by
    simp [hi]
  have hbelow := List.pairwise_iff_getElem.mp hapart
  have hmono (k l : Nat) (hkl : k ≤ l) (hl : l < ranges.length)
      (hk : (ranges[k]?.any fun r => p ≥ r.smallest) = true) :
      (ranges[l]?.any fun r => p ≥ r.smallest) = true := by
    rcases Nat.eq_or_lt_of_le hkl with rfl | hlt
    · exact hk
    · have hk' : k < ranges.length := Nat.lt_trans hlt hl
      have hsmallest := (hreached k hk').mp hk
      have hapart' := hbelow k l hk' hl hlt
      have hne := hnonempty _ (List.getElem_mem hl)
      exact (hreached l hl).mpr (by lia)
  obtain ⟨hbefore, hfrom⟩ := sortSearch_spec hmono
  generalize sortSearch ranges.length _ = i at *
  have hi : i < ranges.length := by
    obtain ⟨r, hr, hsmallest⟩ := hlow
    obtain ⟨k, hk, rfl⟩ := List.mem_iff_getElem.mp hr
    have htrue := (hreached k hk).mpr hsmallest
    by_contra hout
    rw [hbefore k (by omega)] at htrue
    exact absurd htrue Bool.false_ne_true
  have hsmallest := (hreached i hi).mp (hfrom i (Nat.le_refl i) hi)
  refine ⟨ranges[i], List.getElem?_eq_getElem hi, ?_, ?_⟩
  · exact fun hle => ⟨_, List.getElem_mem hi, hsmallest, hle⟩
  · rintro ⟨b, hb, hb'⟩
    obtain ⟨k, hk, rfl⟩ := List.mem_iff_getElem.mp hb
    have hik : i ≤ k := by
      by_contra hlt
      have htrue := (hreached k hk).mpr hb'.1
      rw [hbefore k (by omega)] at htrue
      exact absurd htrue Bool.false_ne_true
    rcases Nat.eq_or_lt_of_le hik with rfl | hlt
    · exact hb'.2
    · have hapart' := hbelow i k hi hk hlt
      have := hb'.2
      lia

namespace AckFrame

variable {f : AckFrame}

theorem bounds (h : f.validateAckRanges = true) :
    ∃ lowest largest, f.lowestAcked = .ok lowest ∧ f.largestAcked = .ok largest ∧
      (∃ r ∈ f.ackRanges, r.smallest = lowest) ∧ f.Acks largest ∧
      (∀ q, f.Acks q → lowest ≤ q ∧ q ≤ largest) ∧
      (f.hasMissingRanges = false → f.ackRanges = [⟨lowest, largest⟩]) := by
  obtain ⟨hne, hapart, hnonempty⟩ := f.descending h
  have hlarger : f.ackRanges.Pairwise fun a b => b.largest ≤ a.largest :=
    hapart.imp_of_mem fun ha _ hab => by have := hnonempty _ ha; lia
  have hsmaller : f.ackRanges.Pairwise fun a b => b.smallest ≤ a.smallest :=
    hapart.imp_of_mem fun _ hb hab => by have := hnonempty _ hb; lia
  refine ⟨(f.ackRanges.getLast hne).smallest, (f.ackRanges.head hne).largest, ?_, ?_,
    ⟨_, List.getLast_mem hne, rfl⟩, ?_, ?_, ?_⟩
  · rw [lowestAcked, List.getLast?_eq_some_getLast hne]
  · rw [largestAcked, List.head?_eq_some_head hne]
  · have hfirst := List.head_mem hne
    exact ⟨_, hfirst, hnonempty _ hfirst, le_refl _⟩
  · rintro q ⟨r, hr, hlow, hhigh⟩
    have hlast := hsmaller.rel_getLast_of_rel_getLast_getLast hr (le_refl _)
    have hfirst := hlarger.rel_head_of_rel_head_head hr (le_refl _)
    exact ⟨hlast.trans hlow, hhigh.trans hfirst⟩
  · intro hmissing
    have hlength : f.ackRanges.length = 1 := by
      have := List.length_pos_of_ne_nil hne
      simp only [hasMissingRanges, decide_eq_false_iff_not] at hmissing
      omega
    obtain ⟨r, hr⟩ := List.length_eq_one_iff.mp hlength
    simp only [hr, List.getLast_singleton, List.head_cons]

theorem acksPacket_eq (h : f.validateAckRanges = true) (p : PacketNumber) :
    f.acksPacket p = .ok (decide (f.Acks p)) := by
  obtain ⟨lowest, largest, hlowest, hlargest, ⟨last, hlast, rfl⟩, -, hbound, -⟩ :=
    f.bounds h
  rw [acksPacket, hlowest, hlargest, ok_bind, ok_bind]
  split
  · next hout =>
    have hnot : ¬ f.Acks p := by
      intro hacks
      have := hbound p hacks
      rcases hout with hlow | hhigh <;> lia
    rw [decide_eq_false hnot]
    rfl
  · next hin =>
    obtain ⟨-, hapart, hnonempty⟩ := f.descending h
    obtain ⟨r, hr, hiff⟩ := sortSearch_ranges (p := p) hapart hnonempty
      ⟨last, hlast, not_lt.mp fun hlow => hin (.inl hlow)⟩
    simp only [hr]
    exact congrArg Except.ok (decide_eq_decide.mpr hiff)

end AckFrame

/--
Exactly the outstanding packets in the ranges are acknowledged.  The source has `int64`
numbers; those of a frame that `parseAckFrame` accepts are below 2 ^ 62 (`AckFrame.Parsed`),
as `ReadVarInt` returns no others.
-/
theorem newlyAcked_exact {φ : Type} (f : AckFrame) (h : f.validateAckRanges = true) :
    (∀ space : PacketNumberSpace φ, AscendingPackets space.history.packets →
      ∃ lowest largest, f.lowestAcked = .ok lowest ∧ f.largestAcked = .ok largest ∧
        determineNewlyAckedPackets f lowest largest space =
          .ok (space.history.packets.filter fun p => f.Acks p.packetNumber)) ∧
      ∀ p, f.acksPacket p = .ok (decide (f.Acks p)) := by
  refine ⟨?_, f.acksPacket_eq h⟩
  intro space hpackets
  obtain ⟨lowest, largest, hlowest, hlargest, -, hacked, hbound, hsingle⟩ := f.bounds h
  refine ⟨lowest, largest, hlowest, hlargest, ?_⟩
  rw [determineNewlyAckedPackets]
  cases hmissing : f.hasMissingRanges with
  | true =>
    rw [newlyAckedLoop_ranges (f.climbing h) ((inAckRanges_reverse ..).mpr hacked)
      (fun q hq => hbound q ((inAckRanges_reverse ..).mp hq)) hpackets]
    congr 1
    apply List.filter_congr
    intro p _
    exact decide_eq_decide.mpr (inAckRanges_reverse ..)
  | false =>
    rw [newlyAckedLoop_single _ hpackets]
    simp only [AckFrame.Acks, hsingle hmissing]

def fourPackets : PacketNumberSpace Unit where
  history := [1, 2, 3, 4].foldl
    (fun h pn => h.sentPacket ⟨pn, [()], -1, 1200, .oneRTT, 0, true⟩) .new
  pns := .new 5 500 0
  lossTime := 0
  largestAcked := -1
  largestSent := 4

theorem newlyAcked_exact_gap :
    ∃ lowest largest, AckFrame.lowestAcked ⟨[⟨4, 6⟩, ⟨1, 2⟩], 0⟩ = .ok lowest ∧
      AckFrame.largestAcked ⟨[⟨4, 6⟩, ⟨1, 2⟩], 0⟩ = .ok largest ∧
      determineNewlyAckedPackets ⟨[⟨4, 6⟩, ⟨1, 2⟩], 0⟩ lowest largest fourPackets =
        .ok (fourPackets.history.packets.filter fun p =>
          AckFrame.Acks ⟨[⟨4, 6⟩, ⟨1, 2⟩], 0⟩ p.packetNumber) :=
  (newlyAcked_exact ⟨[⟨4, 6⟩, ⟨1, 2⟩], 0⟩ (by decide)).1 fourPackets (by decide)

end Qperf.Quic

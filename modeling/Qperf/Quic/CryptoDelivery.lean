import Mathlib.Data.List.FinRange
import Mathlib.Data.List.GetD
import Qperf.Foundation.Traces
import Qperf.Quic.CryptoStreams
import Qperf.Quic.SorterFrames

/-!
# Delivery of TLS messages

The messages that one end writes to its crypto stream are cut into CRYPTO frames.  The
other end puts the frames into order and cuts the bytes into messages again.  The frame
sorter accepts at most 1000 gaps, so that frames that arrive in a bad order may be
refused.
-/

namespace Qperf.Quic

open Qperf.Foundation

def maxCryptoStreamOffset : Nat := 16 * 2 ^ 10

/-! ## The receiving half of a crypto stream -/

inductive CryptoError where
  | invalidOffset (offset : Nat)
  | afterFinish
  | sorter (err : SorterError)
  | moreData
  deriving DecidableEq, Repr

structure CryptoReceiver where
  queue : FrameSorter
  msgBuf : List UInt8
  highestOffset : Nat
  finished : Bool

namespace FrameSorter

/--
The loop that pops until there is no data.  Every turn but the last takes an entry, so
that `turns` is at least their number.
-/
def popAll : Nat → FrameSorter → List UInt8 × FrameSorter
  | 0, s => ([], s)
  | turns + 1, s =>
    match s.pop.data with
    | none => ([], s.pop.sorter)
    | some data =>
      let (rest, final) := popAll turns s.pop.sorter
      (data.bytes ++ rest, final)

end FrameSorter

namespace CryptoReceiver

def new : CryptoReceiver := ⟨.new, [], 0, false⟩

/-- After an error the session closes the connection. -/
def handleCryptoFrame (s : CryptoReceiver) (f : CryptoFrame) :
    Except CryptoError CryptoReceiver :=
  let highestOffset := f.offset + f.data.length
  if highestOffset > maxCryptoStreamOffset then .error (.invalidOffset highestOffset)
  else if s.finished then
    if highestOffset > s.highestOffset then .error .afterFinish else .ok s
  else
    let pushed := s.queue.push ⟨f.data, none⟩ f.offset none
    match pushed.error with
    | some err => .error (.sorter err)
    | none =>
      let (data, queue) := pushed.sorter.popAll pushed.sorter.queue.keys.length
      .ok { s with
        queue
        msgBuf := s.msgBuf ++ data
        highestOffset := max s.highestOffset highestOffset }

def messageLen (bytes : List UInt8) : Nat :=
  4 + (bytes.getD 1 0).toNat <<< 16 + (bytes.getD 2 0).toNat <<< 8 + (bytes.getD 3 0).toNat

def getCryptoData (s : CryptoReceiver) : Option (List UInt8) × CryptoReceiver :=
  if s.msgBuf.length < 4 then (none, s)
  else
    let msgLen := messageLen s.msgBuf
    if s.msgBuf.length < msgLen then (none, s)
    else (some (s.msgBuf.take msgLen), { s with msgBuf := s.msgBuf.drop msgLen })

def finish (s : CryptoReceiver) : Except CryptoError CryptoReceiver :=
  if s.queue.hasMoreData then .error .moreData else .ok { s with finished := true }

end CryptoReceiver

/-- A TLS message: its header has the length of its body. -/
def IsMessage (m : List UInt8) : Prop :=
  4 ≤ m.length ∧ m.length = CryptoReceiver.messageLen m

/-! ## Two crypto streams -/

structure CryptoExchange where
  sender : CryptoStream
  written : Nat
  frames : List CryptoFrame
  receiver : CryptoReceiver
  delivered : List CryptoFrame
  results : List (List UInt8)

inductive CryptoEvent where
  | write (n : Nat)
  | pop (maxLen : Nat)
  | deliver (f : CryptoFrame)
  | getCryptoData

namespace CryptoExchange

def new : CryptoExchange := ⟨.new, 0, [], .new, [], []⟩

def write (stream : List UInt8) (s : CryptoExchange) (n : Nat) : CryptoExchange :=
  { s with
    sender := s.sender.write (FrameSorter.segmentAt stream s.written n)
    written := s.written + n }

/-- The frames that were popped are delivered in any order, any number of times. -/
inductive Step (stream : List UInt8) (s : CryptoExchange) :
    CryptoEvent → CryptoExchange → Prop where
  | write {n : Nat} (hle : s.written + n ≤ stream.length) :
      Step stream s (.write n) (s.write stream n)
  | pop {maxLen : Nat} {f : CryptoFrame} {sender : CryptoStream}
      (hpop : s.sender.popCryptoFrame maxLen = .ok (f, sender)) :
      Step stream s (.pop maxLen) { s with sender, frames := s.frames ++ [f] }
  | deliver {f : CryptoFrame} {receiver : CryptoReceiver} (hmem : f ∈ s.frames)
      (hok : s.receiver.handleCryptoFrame f = .ok receiver) :
      Step stream s (.deliver f) { s with receiver, delivered := s.delivered ++ [f] }
  | getCryptoData :
      Step stream s .getCryptoData
        { s with
          receiver := s.receiver.getCryptoData.2
          results := s.results ++ s.receiver.getCryptoData.1.toList }

end CryptoExchange

/-! ## Popping until there is no data -/

namespace FrameSorter

variable {s : FrameSorter} {stream : List UInt8}

theorem segmentAt_append (stream : List UInt8) (offset n m : Nat) :
    segmentAt stream offset n ++ segmentAt stream (offset + n) m =
      segmentAt stream offset (n + m) := by
  unfold segmentAt
  rw [List.take_add, List.drop_drop]

structure AfterPopAll (stream : List UInt8) (s : FrameSorter) (bytes : List UInt8)
    (final : FrameSorter) : Prop where
  assembled : Assembled stream final
  received : final.received = s.received
  gaps : final.gaps = s.gaps
  readPos : final.readPos = s.readPos + bytes.length
  bytes : bytes = segmentAt stream s.readPos bytes.length
  drained : final.queue.lookup final.readPos = none
  entries : ∀ P, EveryEntry P s.queue → EveryEntry P final.queue

private theorem length_keys_pop {data : Slice} (hdata : s.pop.data = some data) :
    s.pop.sorter.queue.keys.length + 1 = s.queue.keys.length := by
  obtain ⟨entry, hentry, -, hsorter⟩ := lookup_of_pop hdata
  have hmem : s.readPos ∈ s.queue.keys := by
    rw [← AList.mem_keys, ← AList.lookup_isSome, hentry]
    rfl
  rw [hsorter]
  rw [AList.keys_erase, List.length_erase_of_mem hmem]
  have := List.length_pos_of_mem hmem
  omega

theorem Assembled.popAll (h : Assembled stream s) {turns : Nat}
    (hturns : s.queue.keys.length ≤ turns) :
    AfterPopAll stream s (s.popAll turns).1 (s.popAll turns).2 := by
  induction turns generalizing s with
  | zero =>
    refine ⟨h, rfl, rfl, rfl, rfl, ?_, fun _ hP => hP⟩
    change s.queue.lookup s.readPos = none
    rw [AList.lookup_eq_none, AList.mem_keys,
      List.eq_nil_of_length_eq_zero (Nat.le_zero.mp hturns)]
    exact List.not_mem_nil
  | succ turns ih =>
    unfold FrameSorter.popAll
    split
    · next hnone =>
      obtain ⟨hlookup, hsame⟩ := lookup_eq_none_of_pop hnone
      rw [hsame]
      exact ⟨h, rfl, rfl, rfl, rfl, hlookup, fun _ hP => hP⟩
    · next data hdata =>
      have hpop := h.pop hdata
      have hkeys := length_keys_pop hdata
      obtain ⟨entry, hentry, -, hsorter⟩ := lookup_of_pop hdata
      have hrest := ih hpop.assembled (by omega)
      refine ⟨hrest.assembled, hrest.received.trans hpop.received, ?_, ?_, ?_,
        hrest.drained, ?_⟩
      · rw [hrest.gaps, hsorter]
      · rw [hrest.readPos, hpop.readPos, List.length_append]
        exact Nat.add_assoc ..
      · have hfirst := hpop.bytes
        have hsecond := hrest.bytes
        rw [hpop.readPos] at hsecond
        rw [List.length_append, ← segmentAt_append]
        exact congrArg₂ _ hfirst hsecond
      · intro P hP
        refine hrest.entries P ?_
        rw [hsorter]
        exact hP.erase s.readPos

end FrameSorter

namespace CryptoExchange

open FrameSorter

variable {stream : List UInt8} {messages : List (List UInt8)} {s s' : CryptoExchange}
variable {f g : CryptoFrame}

/-! ## What the sender keeps -/

def Holds (f : CryptoFrame) (x : Nat) : Prop := f.offset ≤ x ∧ x < f.offset + f.data.length

structure Sent (stream : List UInt8) (s : CryptoExchange) : Prop where
  length : s.sender.writeOffset + s.sender.writeBuf.length = s.written
  bound : s.written ≤ stream.length
  writeBuf : s.sender.writeBuf =
    segmentAt stream s.sender.writeOffset s.sender.writeBuf.length
  frames : ∀ f ∈ s.frames, f.data = segmentAt stream f.offset f.data.length ∧
    f.offset + f.data.length ≤ s.sender.writeOffset
  unique : ∀ f ∈ s.frames, ∀ g ∈ s.frames, ∀ x, Holds f x → Holds g x →
    f.offset = g.offset ∧ f.data.length = g.data.length
  cover : ∀ x < s.sender.writeOffset, ∃ f ∈ s.frames, Holds f x

theorem Sent.new (stream : List UInt8) : Sent stream .new := by
  constructor <;> simp [CryptoExchange.new, CryptoStream.new, segmentAt]

private theorem popCryptoFrame_eq_ok {sender sender' : CryptoStream} {maxLen : Nat}
    (h : sender.popCryptoFrame maxLen = .ok (f, sender')) :
    ∃ n ≤ sender.writeBuf.length, f = ⟨sender.writeOffset, sender.writeBuf.take n⟩ ∧
      sender' = ⟨sender.writeOffset + n, sender.writeBuf.drop n⟩ := by
  obtain ⟨maxDataLen, -, h⟩ := bind_eq_ok.mp h
  cases h
  exact ⟨_, Nat.min_le_right .., rfl, rfl⟩

theorem Sent.write (h : Sent stream s) {n : Nat} (hle : s.written + n ≤ stream.length) :
    Sent stream (s.write stream n) := by
  have hlen := h.length
  have hsegment := length_segmentAt hle
  refine ⟨?_, hle, ?_, h.frames, h.unique, h.cover⟩
  · change s.sender.writeOffset + (s.sender.writeBuf ++ segmentAt stream s.written n).length
      = s.written + n
    rw [List.length_append, hsegment]
    omega
  · change s.sender.writeBuf ++ segmentAt stream s.written n =
      segmentAt stream s.sender.writeOffset
        (s.sender.writeBuf ++ segmentAt stream s.written n).length
    rw [List.length_append, hsegment, ← segmentAt_append, hlen, ← h.writeBuf]

theorem Sent.pop (h : Sent stream s) {maxLen : Nat} {sender : CryptoStream}
    (hpop : s.sender.popCryptoFrame maxLen = .ok (f, sender)) :
    Sent stream { s with sender, frames := s.frames ++ [f] } := by
  obtain ⟨n, hn, rfl, rfl⟩ := popCryptoFrame_eq_ok hpop
  have hlen := h.length
  have htake : (s.sender.writeBuf.take n).length = n := List.length_take_of_le hn
  have hdrop : (s.sender.writeBuf.drop n).length = s.sender.writeBuf.length - n :=
    List.length_drop
  have hbelow : ∀ f ∈ s.frames, ∀ x, Holds f x → x < s.sender.writeOffset :=
    fun f hf x hx => Nat.lt_of_lt_of_le hx.2 (h.frames f hf).2
  constructor <;> simp only [List.forall_mem_append, List.forall_mem_singleton]
  case length =>
    omega
  case bound => exact h.bound
  case writeBuf =>
    rw [hdrop]
    nth_rewrite 1 [h.writeBuf]
    unfold segmentAt
    rw [List.drop_take, List.drop_drop]
  case frames =>
    refine ⟨fun f hf => ⟨(h.frames f hf).1, ?_⟩, ?_, ?_⟩
    · have := (h.frames f hf).2
      omega
    · rw [htake]
      nth_rewrite 1 [h.writeBuf]
      unfold segmentAt
      rw [List.take_take, Nat.min_eq_left hn]
    · rw [htake]
  case unique =>
    refine ⟨fun f hf => ⟨h.unique f hf, ?_⟩, fun f hf => ?_, fun _ _ _ => ⟨trivial, trivial⟩⟩
    · intro x hx hnew
      exact absurd hnew.1 (Nat.not_le.mpr (hbelow f hf x hx))
    · intro x hnew hx
      exact absurd hnew.1 (Nat.not_le.mpr (hbelow f hf x hx))
  case cover =>
    intro x hx
    by_cases hold : x < s.sender.writeOffset
    · obtain ⟨f, hf, hin⟩ := h.cover x hold
      exact ⟨f, List.mem_append_left _ hf, hin⟩
    · refine ⟨_, List.mem_append_right _ (List.mem_singleton_self _), ?_, ?_⟩
      · exact Nat.le_of_not_lt hold
      · rw [htake]
        exact hx

/-! ## What the receiver keeps -/

structure Received (messages : List (List UInt8)) (s : CryptoExchange) : Prop where
  assembled : Assembled messages.flatten s.receiver.queue
  whole : Whole (fun p n => ∃ f ∈ s.frames, f.offset = p ∧ f.data.length = n)
    s.receiver.queue.queue
  known : ∀ x, x ∈ s.receiver.queue.received ↔ ∃ f ∈ s.delivered, Holds f x
  drained : s.receiver.queue.queue.lookup s.receiver.queue.readPos = none
  gaps : s.receiver.queue.gaps.length ≤ maxStreamFrameSorterGaps
  finished : s.receiver.finished = false
  subset : ∀ f ∈ s.delivered, f ∈ s.frames
  bytes : s.results.flatten ++ s.receiver.msgBuf =
    messages.flatten.take s.receiver.queue.readPos
  returned : s.results <+: messages

structure Delivers (messages : List (List UInt8)) (s : CryptoExchange) : Prop where
  sent : Sent messages.flatten s
  received : Received messages s

structure Pushes (messages : List (List UInt8)) (s : CryptoExchange) (f : CryptoFrame)
    (pushed : Pushed) : Prop where
  error : pushed.error =
    if maxStreamFrameSorterGaps < pushed.sorter.gaps.length then some .tooManyGaps else none
  after : pushed.error = none →
    AfterPush messages.flatten s.receiver.queue f.offset f.data.length pushed.sorter
  whole : pushed.error = none →
    Whole (fun p n => ∃ f ∈ s.frames, f.offset = p ∧ f.data.length = n) pushed.sorter.queue

theorem Received.new (messages : List (List UInt8)) : Received messages .new := by
  have hnew := Assembled.new messages.flatten
  constructor
  case assembled => exact hnew
  case whole =>
    intro p entry hentry
    cases hentry
  case known =>
    intro x
    constructor
    · rintro ⟨hlt, hnot⟩
      exact absurd ⟨_, List.mem_singleton_self _, Nat.zero_le x, hlt⟩ hnot
    · rintro ⟨f, hf, -⟩
      cases hf
  case drained => rfl
  case gaps => decide
  case finished => rfl
  case subset =>
    intro f hf
    cases hf
  case bytes => rfl
  case returned => exact List.nil_prefix

theorem Sent.end_le (h : Sent stream s) (hf : f ∈ s.frames) :
    f.offset + f.data.length ≤ stream.length := by
  have hend := (h.frames f hf).2
  have hlen := h.length
  have hbound := h.bound
  omega

theorem Sent.length_eq (h : Sent stream s) (hf : f ∈ s.frames) (hg : g ∈ s.frames)
    (hoffset : g.offset = f.offset) (hpos : 0 < f.data.length)
    (hpos' : 0 < g.data.length) : g.data.length = f.data.length := by
  refine (h.unique g hg f hf f.offset ⟨?_, ?_⟩ ⟨Nat.le_refl _, ?_⟩).2 <;> omega

section Frames

variable (h : Delivers messages s) (hf : f ∈ s.frames)
variable (hsize : messages.flatten.length ≤ maxCryptoStreamOffset)

include h

include hsize in
theorem Delivers.last_gap :
    ∃ g ∈ s.receiver.queue.gaps, maxCryptoStreamOffset < g.stop := by
  have hnot : maxCryptoStreamOffset ∉ s.receiver.queue.received := by
    intro hmem
    obtain ⟨f, hf, -, hlt⟩ := (h.received.known _).mp hmem
    have hend := h.sent.end_le (h.received.subset f hf)
    omega
  by_contra hnone
  refine hnot ⟨by decide, fun hmissing => hnone ?_⟩
  obtain ⟨g, hg, -, hlt⟩ := hmissing
  exact ⟨g, hg, hlt⟩

include hf

theorem Delivers.all_or_none :
    (∀ x, f.offset ≤ x → x < f.offset + f.data.length → x ∈ s.receiver.queue.received) ∨
      ∀ x, f.offset ≤ x → x < f.offset + f.data.length → x ∉ s.receiver.queue.received := by
  by_cases hsome : ∃ x, Holds f x ∧ x ∈ s.receiver.queue.received
  · obtain ⟨x, hx, hmem⟩ := hsome
    obtain ⟨g, hg, hgx⟩ := (h.received.known x).mp hmem
    obtain ⟨hoffset, hlength⟩ := h.sent.unique f hf g (h.received.subset g hg) x hx hgx
    refine .inl fun y hy hy' => (h.received.known y).mpr ⟨g, hg, ?_, ?_⟩
    · rwa [← hoffset]
    · rwa [← hoffset, ← hlength]
  · exact .inr fun x hx hx' hmem => hsome ⟨x, ⟨hx, hx'⟩, hmem⟩

theorem Delivers.reconcilable :
    s.receiver.queue.Reconcilable f.offset f.data.length := by
  intro old hold hlt
  obtain ⟨g, hg, hoffset, hlength⟩ := h.received.whole f.offset old hold
  change g.data.length = old.data.length at hlength
  have hpos : 0 < old.data.length :=
    h.received.assembled.tiles.positive f.offset _ (by rw [blocksOf, hold]; rfl)
  have := h.sent.length_eq hf hg hoffset (by omega) (by omega)
  omega

theorem Delivers.whole_push
    (herror : (s.receiver.queue.push ⟨f.data, none⟩ f.offset none).error = none) :
    Whole (fun p n => ∃ f ∈ s.frames, f.offset = p ∧ f.data.length = n)
      (s.receiver.queue.push ⟨f.data, none⟩ f.offset none).sorter.queue := by
  by_cases hlen : (⟨f.data, none⟩ : Slice).length = 0
  · rw [push_eq_of_duplicate (if_pos hlen)]
    exact h.received.whole
  · refine h.received.whole.push h.received.assembled ⟨f, hf, rfl, rfl⟩ ?_
      (h.all_or_none hf) herror
    rintro n hn ⟨g, hg, hoffset, rfl⟩
    exact h.sent.length_eq hf hg hoffset (Nat.pos_of_ne_zero hlen) hn

include hsize

theorem Delivers.pushes :
    Pushes messages s f (s.receiver.queue.push ⟨f.data, none⟩ f.offset none) := by
  have hend := h.sent.end_le hf
  obtain ⟨g, hg, hstop⟩ := h.last_gap hsize
  refine ⟨?_, ?_, h.whole_push hf⟩
  · refine push_error h.received.assembled.separated hg ?_ h.received.gaps
    change f.offset + f.data.length < g.stop
    omega
  · have hpush := @Assembled.push _ _ h.received.assembled _ _ hend
      (h.reconcilable hf) none none
    rw [← (h.sent.frames f hf).1] at hpush
    exact hpush

/-! ## The number of gaps -/

omit h hf hsize in
theorem gaps_length_le {sorter : FrameSorter} (hsep : Separated sorter.gaps)
    {frames : List CryptoFrame} (hknown : ∀ x ∈ sorter.received,
      ∃ f ∈ frames, Holds f x ∧ ∀ y, Holds f y → y ∈ sorter.received) :
    sorter.gaps.length ≤ frames.length + 1 := by
  have hstarts : sorter.gaps.map ByteInterval.start ⊆
      0 :: frames.map fun f => f.offset + f.data.length := by
    intro start hstart
    obtain ⟨g, hg, rfl⟩ := List.mem_map.mp hstart
    have hgap := hsep.nonempty g hg
    cases hzero : g.start with
    | zero => exact List.mem_cons_self ..
    | succ x =>
      obtain ⟨f, hf, ⟨hle, hlt⟩, hall⟩ := hknown x (mem_before_gap hsep hg hzero.symm)
      refine List.mem_cons_of_mem _ (List.mem_map.mpr ⟨f, hf, ?_⟩)
      by_contra hne
      exact notMem_received hg (by omega) hgap (hall g.start ⟨by omega, by omega⟩)
  have hcount := (List.subperm_of_subset (nodup_starts hsep) hstarts).length_le
  rwa [List.length_map, List.length_cons, List.length_map] at hcount

theorem Delivers.gaps_push_le :
    (s.receiver.queue.push ⟨f.data, none⟩ f.offset none).sorter.gaps.length ≤
      s.frames.length + 1 := by
  obtain ⟨g, hg, hstop⟩ := h.last_gap hsize
  have hend := h.sent.end_le hf
  have hsep := h.received.assembled.separated
  have hlt : f.offset + (⟨f.data, none⟩ : Slice).length < g.stop := by
    change f.offset + f.data.length < g.stop
    omega
  have hreceived := push_received hsep hg hlt none
  refine gaps_length_le (separated_push hsep ..) ?_
  generalize s.receiver.queue.push ⟨f.data, none⟩ f.offset none = pushed at hreceived ⊢
  have hold : s.receiver.queue.received ⊆ pushed.sorter.received := by
    rcases hreceived with hsame | hunion
    · rw [hsame]
    · rw [hunion]
      exact Set.subset_union_left
  intro x hx
  by_cases hbefore : x ∈ s.receiver.queue.received
  · obtain ⟨g, hg, hin⟩ := (h.received.known x).mp hbefore
    refine ⟨g, h.received.subset g hg, hin, fun y hy => hold ?_⟩
    exact (h.received.known y).mpr ⟨g, hg, hy⟩
  · rcases hreceived with hsame | hunion
    · rw [hsame] at hx
      exact absurd hx hbefore
    · rw [hunion] at hx ⊢
      exact ⟨f, hf, hx.resolve_left hbefore, fun y hy => .inr hy⟩

/-! ## Delivering a frame -/

omit h hf hsize in
theorem handleCryptoFrame_eq {r : CryptoReceiver} (hfinished : r.finished = false)
    (hend : f.offset + f.data.length ≤ maxCryptoStreamOffset) {pushed : Pushed}
    (hpushed : r.queue.push ⟨f.data, none⟩ f.offset none = pushed)
    {popped : List UInt8 × FrameSorter}
    (hpopped : pushed.sorter.popAll pushed.sorter.queue.keys.length = popped) :
    r.handleCryptoFrame f =
      match pushed.error with
      | some err => .error (.sorter err)
      | none => .ok { r with
          queue := popped.2
          msgBuf := r.msgBuf ++ popped.1
          highestOffset := max r.highestOffset (f.offset + f.data.length) } := by
  unfold CryptoReceiver.handleCryptoFrame
  simp only [if_neg (Nat.not_lt.mpr hend), hfinished, Bool.false_eq_true, if_false,
    hpushed, hpopped]

theorem Delivers.received_frame {receiver : CryptoReceiver}
    (hok : s.receiver.handleCryptoFrame f = .ok receiver) :
    Received messages { s with receiver, delivered := s.delivered ++ [f] } := by
  have hpushes := h.pushes hf hsize
  rw [handleCryptoFrame_eq h.received.finished ((h.sent.end_le hf).trans hsize) rfl rfl] at hok
  split at hok
  · cases hok
  · next hnone =>
    cases hok
    have hafter := hpushes.after hnone
    have hgaps := hpushes.error
    rw [hnone] at hgaps
    have hpopped := hafter.assembled.popAll (Nat.le_refl _)
    constructor
    case assembled => exact hpopped.assembled
    case whole => exact hpopped.entries _ (hpushes.whole hnone)
    case known =>
      intro x
      rw [hpopped.received, hafter.received, Set.mem_union, h.received.known]
      simp only [List.mem_append, List.mem_singleton, or_and_right, exists_or,
        exists_eq_left]
      exact Iff.rfl
    case drained => exact hpopped.drained
    case gaps =>
      rw [hpopped.gaps]
      by_contra hmany
      rw [if_pos (Nat.lt_of_not_le hmany)] at hgaps
      cases hgaps
    case finished => exact h.received.finished
    case subset =>
      intro g hg
      rcases List.mem_append.mp hg with hg | hg
      · exact h.received.subset g hg
      · rw [List.mem_singleton.mp hg]
        exact hf
    case bytes =>
      have hbytes := hpopped.bytes
      rw [hafter.readPos] at hbytes
      rw [← List.append_assoc, h.received.bytes, hpopped.readPos, hafter.readPos,
        Delivery.take_append_segmentAt hbytes]
    case returned => exact h.received.returned

theorem Delivers.handleCryptoFrame :
    if (s.receiver.queue.push ⟨f.data, none⟩ f.offset none).sorter.gaps.length ≤
        maxStreamFrameSorterGaps then ∃ receiver, s.receiver.handleCryptoFrame f = .ok receiver
    else s.receiver.handleCryptoFrame f = .error (.sorter .tooManyGaps) := by
  have herror := (h.pushes hf hsize).error
  rw [handleCryptoFrame_eq h.received.finished ((h.sent.end_le hf).trans hsize) rfl rfl,
    herror]
  split
  · next hle =>
    rw [if_neg (Nat.not_lt.mpr hle)]
    exact ⟨_, rfl⟩
  · next hgt => rw [if_pos (Nat.lt_of_not_le hgt)]

end Frames

/-! ## Cutting the bytes into messages -/

theorem messageLen_append {bytes : List UInt8} (hlen : 4 ≤ bytes.length) (rest : List UInt8) :
    CryptoReceiver.messageLen (bytes ++ rest) = CryptoReceiver.messageLen bytes := by
  unfold CryptoReceiver.messageLen
  rw [List.getD_append _ _ _ 1 (by omega), List.getD_append _ _ _ 2 (by omega),
    List.getD_append _ _ _ 3 (by omega)]

theorem getCryptoData_eq {r : CryptoReceiver} {rest : List (List UInt8)}
    (hmessages : ∀ m ∈ rest, IsMessage m) {unread : List UInt8}
    (hbuf : r.msgBuf ++ unread = rest.flatten) :
    r.getCryptoData = (none, r) ∧ (∀ m ∈ rest.head?, r.msgBuf.length < m.length) ∨
      ∃ m rest', rest = m :: rest' ∧ ∃ bytes, r.msgBuf = m ++ bytes ∧
        r.getCryptoData = (some m, { r with msgBuf := bytes }) := by
  cases rest with
  | nil =>
    have hnil : r.msgBuf = [] := (List.append_eq_nil_iff.mp hbuf).1
    refine .inl ⟨?_, fun m hm => nomatch hm⟩
    unfold CryptoReceiver.getCryptoData
    rw [if_pos (by rw [hnil]; decide)]
  | cons m rest =>
    obtain ⟨hfour, hlength⟩ := hmessages m (List.mem_cons_self ..)
    rw [List.flatten_cons] at hbuf
    by_cases hshort : r.msgBuf.length < m.length
    · refine .inl ⟨?_, fun m' hm' => by cases hm'; exact hshort⟩
      unfold CryptoReceiver.getCryptoData
      split
      · rfl
      · next hlong =>
        have hlen : CryptoReceiver.messageLen r.msgBuf = m.length := by
          rw [← messageLen_append (Nat.le_of_not_lt hlong) unread, hbuf,
            messageLen_append hfour, ← hlength]
        simp only [hlen, if_pos hshort]
    · obtain ⟨bytes, hbytes⟩ : ∃ bytes, r.msgBuf = m ++ bytes := by
        have hprefix : m <+: r.msgBuf := List.prefix_of_prefix_length_le
          ⟨rest.flatten, rfl⟩ ⟨unread, hbuf⟩ (Nat.le_of_not_lt hshort)
        obtain ⟨bytes, hbytes⟩ := hprefix
        exact ⟨bytes, hbytes.symm⟩
      refine .inr ⟨m, rest, rfl, bytes, hbytes, ?_⟩
      have hlen : CryptoReceiver.messageLen r.msgBuf = m.length := by
        rw [hbytes, messageLen_append hfour, ← hlength]
      unfold CryptoReceiver.getCryptoData
      simp only [hlen, if_neg hshort, if_neg (show ¬ r.msgBuf.length < 4 by omega)]
      rw [hbytes, List.take_left, List.drop_left]

theorem Received.rest (h : Received messages s) (hmessages : ∀ m ∈ messages, IsMessage m) :
    ∃ rest, messages = s.results ++ rest ∧ (∀ m ∈ rest, IsMessage m) ∧
      s.receiver.msgBuf ++ messages.flatten.drop s.receiver.queue.readPos = rest.flatten := by
  obtain ⟨rest, hrest⟩ := h.returned
  refine ⟨rest, hrest.symm, fun m hm => ?_, ?_⟩
  · exact hmessages m (by rw [← hrest]; exact List.mem_append_right _ hm)
  have hflat : s.results.flatten ++
      (s.receiver.msgBuf ++ messages.flatten.drop s.receiver.queue.readPos) =
        s.results.flatten ++ rest.flatten := by
    rw [← List.append_assoc, h.bytes, List.take_append_drop, ← List.flatten_append, hrest]
  exact List.append_cancel_left hflat

theorem Received.getCryptoData (h : Received messages s)
    (hmessages : ∀ m ∈ messages, IsMessage m) :
    Received messages
      { s with
        receiver := s.receiver.getCryptoData.2
        results := s.results ++ s.receiver.getCryptoData.1.toList } := by
  obtain ⟨rest, hrest, hmsgs, hbuf⟩ := h.rest hmessages
  rcases getCryptoData_eq hmsgs hbuf with ⟨hnone, -⟩ | ⟨m, rest', rfl, bytes, hbytes, hsome⟩
  · rw [hnone]
    simpa only [Option.toList_none, List.append_nil] using h
  · rw [hsome]
    have hflat : (s.results ++ [m]).flatten ++ bytes =
        messages.flatten.take s.receiver.queue.readPos := by
      rw [← h.bytes, hbytes]
      simp
    exact ⟨h.assembled, h.whole, h.known, h.drained, h.gaps, h.finished, h.subset, hflat,
      rest', by rw [hrest]; simp⟩

/-! ## Runs -/

theorem Received.of_frames (h : Received messages s) {frames : List CryptoFrame}
    (hsub : ∀ f ∈ s.frames, f ∈ frames) (sender : CryptoStream) (written : Nat) :
    Received messages { s with sender, written, frames } := by
  refine { h with whole := ?_, subset := ?_ }
  · intro p entry hentry
    obtain ⟨f, hf, hdata⟩ := h.whole p entry hentry
    exact ⟨f, hsub f hf, hdata⟩
  · exact fun f hf => hsub f (h.subset f hf)

theorem Delivers.step (hmessages : ∀ m ∈ messages, IsMessage m)
    (hsize : messages.flatten.length ≤ maxCryptoStreamOffset) (h : Delivers messages s)
    {event : CryptoEvent} (hstep : Step messages.flatten s event s') :
    Delivers messages s' := by
  cases hstep with
  | write hle => exact ⟨h.sent.write hle, h.received.of_frames (fun _ hf => hf) _ _⟩
  | pop hpop =>
    refine ⟨h.sent.pop hpop, h.received.of_frames ?_ _ _⟩
    exact fun f hf => List.mem_append_left _ hf
  | deliver hmem hok =>
    refine ⟨?_, h.received_frame hmem hsize hok⟩
    obtain ⟨hlength, hbound, hbuf, hframes, hunique, hcover⟩ := h.sent
    exact ⟨hlength, hbound, hbuf, hframes, hunique, hcover⟩
  | getCryptoData =>
    refine ⟨?_, h.received.getCryptoData hmessages⟩
    obtain ⟨hlength, hbound, hbuf, hframes, hunique, hcover⟩ := h.sent
    exact ⟨hlength, hbound, hbuf, hframes, hunique, hcover⟩

theorem Delivers.of_trace (hmessages : ∀ m ∈ messages, IsMessage m)
    (hsize : messages.flatten.length ≤ maxCryptoStreamOffset) {events : List CryptoEvent}
    (hrun : Trace (Step messages.flatten) new events s) : Delivers messages s :=
  hrun.invariant (Delivers messages) ⟨.new _, .new _⟩
    fun _ _ _ h hstep => h.step hmessages hsize hstep

theorem Delivers.complete (hmessages : ∀ m ∈ messages, IsMessage m)
    (h : Delivers messages s) (hwritten : s.written = messages.flatten.length)
    (hpopped : s.sender.writeBuf = []) (hall : ∀ f ∈ s.frames, f ∈ s.delivered)
    (hnil : s.receiver.getCryptoData.1 = none) : s.results = messages := by
  have hoffset : s.sender.writeOffset = messages.flatten.length := by
    have hlen := h.sent.length
    rw [hpopped, hwritten] at hlen
    exact hlen
  have hread : messages.flatten.length ≤ s.receiver.queue.readPos := by
    refine h.received.assembled.tiles.le_of_blocks_eq_none ?_ fun x hx => ?_
    · rw [blocksOf, h.received.drained]
      rfl
    · obtain ⟨f, hf, hin⟩ := h.sent.cover x (by rwa [hoffset])
      exact (h.received.known x).mpr ⟨f, hall f hf, hin⟩
  obtain ⟨rest, hrest, hmsgs, hbuf⟩ := h.received.rest hmessages
  rcases getCryptoData_eq hmsgs hbuf with ⟨-, hshort⟩ | ⟨m, rest', -, bytes, -, hsome⟩
  · cases rest with
    | nil => rw [hrest, List.append_nil]
    | cons m rest =>
      have hlt := hshort m rfl
      rw [List.drop_eq_nil_of_le hread, List.append_nil] at hbuf
      rw [hbuf, List.flatten_cons, List.length_append] at hlt
      omega
  · rw [hsome] at hnil
    cases hnil

/--
The messages are returned in their order, and all of them once all frames were
delivered.  A frame is refused exactly if it leaves more than 1000 gaps, and fewer than
1000 frames never do.
-/
theorem delivers_messages (hmessages : ∀ m ∈ messages, IsMessage m)
    (hsize : messages.flatten.length ≤ maxCryptoStreamOffset) {events : List CryptoEvent}
    (hrun : Trace (Step messages.flatten) new events s) :
    s.results <+: messages ∧
      (s.written = messages.flatten.length → s.sender.writeBuf = [] →
        (∀ f ∈ s.frames, f ∈ s.delivered) → s.receiver.getCryptoData.1 = none →
          s.results = messages) ∧
      (∀ f ∈ s.frames,
        if (s.receiver.queue.push ⟨f.data, none⟩ f.offset none).sorter.gaps.length ≤
            maxStreamFrameSorterGaps then
          ∃ receiver, s.receiver.handleCryptoFrame f = .ok receiver
        else s.receiver.handleCryptoFrame f = .error (.sorter .tooManyGaps)) ∧
      (s.frames.length < maxStreamFrameSorterGaps →
        ∀ f ∈ s.frames, ∃ receiver, s.receiver.handleCryptoFrame f = .ok receiver) := by
  have h := Delivers.of_trace hmessages hsize hrun
  refine ⟨h.received.returned, h.complete hmessages,
    fun f hf => h.handleCryptoFrame hf hsize, fun hfew f hf => ?_⟩
  have hgaps := h.gaps_push_le hf hsize
  have hframe := h.handleCryptoFrame hf hsize
  rwa [if_pos (by omega)] at hframe

def step (stream : List UInt8) (s : CryptoExchange) : CryptoEvent → Option CryptoExchange
  | .write n => if s.written + n ≤ stream.length then some (s.write stream n) else none
  | .pop maxLen =>
    match s.sender.popCryptoFrame maxLen with
    | .error _ => none
    | .ok (f, sender) => some { s with sender, frames := s.frames ++ [f] }
  | .deliver f =>
    if f ∈ s.frames then
      match s.receiver.handleCryptoFrame f with
      | .error _ => none
      | .ok receiver => some { s with receiver, delivered := s.delivered ++ [f] }
    else none
  | .getCryptoData =>
    some { s with
      receiver := s.receiver.getCryptoData.2
      results := s.results ++ s.receiver.getCryptoData.1.toList }

theorem Step.of_step {event : CryptoEvent} (h : s.step stream event = some s') :
    Step stream s event s' := by
  cases event <;> simp only [CryptoExchange.step] at h
  case write n =>
    split at h
    · next hle =>
      cases h
      exact .write hle
    · cases h
  case pop maxLen =>
    split at h
    · cases h
    · next hpop =>
      cases h
      exact .pop hpop
  case deliver f =>
    split at h
    · next hmem =>
      split at h
      · cases h
      · next hok =>
        cases h
        exact .deliver hmem hok
    · cases h
  case getCryptoData =>
    cases h
    exact .getCryptoData

theorem delivers_messages_swapped :
    ∃ s, [.write 4, .pop 5, .pop 5, .deliver ⟨2, [0, 0]⟩, .deliver ⟨0, [1, 0]⟩,
        .getCryptoData].foldlM (step [[1, 0, 0, 0]].flatten) new = some s ∧
      s.results = [[1, 0, 0, 0]] := by
  obtain ⟨s, hs, hobs⟩ := Option.map_eq_some_iff.mp (show Option.map
      (fun s => (s.written, s.sender.writeBuf, s.receiver.getCryptoData.1,
        decide (∀ f ∈ s.frames, f ∈ s.delivered)))
      ([.write 4, .pop 5, .pop 5, .deliver ⟨2, [0, 0]⟩, .deliver ⟨0, [1, 0]⟩,
        .getCryptoData].foldlM (step [[1, 0, 0, 0]].flatten) new) =
      some (4, [], none, true) by decide +kernel)
  simp only [Prod.mk.injEq, decide_eq_true_eq] at hobs
  obtain ⟨hwritten, hpopped, hnil, hall⟩ := hobs
  have hrun := (Trace.of_foldlM hs).imp fun _ _ _ => Step.of_step
  refine ⟨s, hs, (delivers_messages ?_ (by decide) hrun).2.1 hwritten hpopped hall hnil⟩
  intro m hm
  rw [List.mem_singleton.mp hm]
  exact ⟨by decide, by decide⟩

/-! ## A thousand frames -/

theorem popCryptoFrame_byte (hsize : stream.length ≤ maxCryptoStreamOffset) {n : Nat}
    (hn : n < stream.length) :
    ∃ maxLen byte, CryptoStream.popCryptoFrame ⟨n, stream.drop n⟩ maxLen =
      .ok (⟨n, [byte]⟩, ⟨n + 1, stream.drop (n + 1)⟩) := by
  obtain ⟨sender, hsender⟩ : ∃ sender : CryptoStream, sender = ⟨n, stream.drop n⟩ :=
    ⟨_, rfl⟩
  have hlen : sender.writeBuf.length = stream.length - n := by
    rw [hsender, List.length_drop]
  have hvalid : sender.Valid := by
    refine Nat.le_trans ?_ (hsize.trans (by decide))
    rw [hlen, hsender]
    exact Nat.le_of_eq (Nat.add_sub_cancel' (Nat.le_of_lt hn))
  have hheader := sender.frameHeaderLen_le
  have hroom : sender.room (sender.frameHeaderLen + 1) = 1 := by
    unfold CryptoStream.room
    rw [if_neg (by omega), if_neg (by omega)]
    omega
  refine ⟨sender.frameHeaderLen + 1, stream[n], ?_⟩
  rw [← hsender, hvalid.popCryptoFrame (by omega), CryptoStream.nextFrame,
    CryptoStream.afterFrame, hroom, hsender, List.drop_eq_getElem_cons hn]
  rfl

theorem exists_odd_bytes (hsize : stream.length ≤ maxCryptoStreamOffset)
    (haccepts : ∀ events s, Trace (Step stream) new events s → ∀ f ∈ s.frames,
      ∃ receiver, s.receiver.handleCryptoFrame f = .ok receiver)
    {k : Nat} (hk : 2 * k ≤ stream.length) :
    ∃ events s, Trace (Step stream) new events s ∧ s.sender = ⟨2 * k, stream.drop (2 * k)⟩ ∧
      ∀ x, (∃ f ∈ s.delivered, Holds f x) ↔ x < 2 * k ∧ x % 2 = 1 := by
  induction k with
  | zero =>
    refine ⟨_, _, .snoc .nil (.write (n := stream.length) ?_), ?_, ?_⟩
    · exact Nat.le_of_eq (Nat.zero_add _)
    · simp [CryptoExchange.write, CryptoStream.write, CryptoExchange.new,
        CryptoStream.new, segmentAt]
    · simp [CryptoExchange.write, CryptoExchange.new]
  | succ k ih =>
    obtain ⟨events, s, hrun, hsender, hdelivered⟩ := ih (by omega)
    obtain ⟨_, first, hpop⟩ := popCryptoFrame_byte hsize (n := 2 * k) (by omega)
    rw [← hsender] at hpop
    obtain ⟨_, byte, hpop'⟩ := popCryptoFrame_byte hsize (n := 2 * k + 1) (by omega)
    have hpopped := (hrun.snoc (.pop hpop)).snoc (.pop hpop')
    have hmem : (⟨2 * k + 1, [byte]⟩ : CryptoFrame) ∈
        s.frames ++ [⟨2 * k, [first]⟩] ++ [⟨2 * k + 1, [byte]⟩] :=
      List.mem_append_right _ (List.mem_singleton_self _)
    obtain ⟨receiver, hok⟩ := haccepts _ _ hpopped _ hmem
    refine ⟨_, _, hpopped.snoc (.deliver hmem hok), rfl, fun x => ?_⟩
    simp only [List.mem_append, List.mem_singleton, or_and_right, exists_or,
      exists_eq_left, hdelivered]
    simp only [Holds, List.length_singleton]
    omega

theorem length_gaps_ge {sorter : FrameSorter} {n : Nat}
    (hodd : ∀ k < n, 2 * k + 1 ∈ sorter.received)
    (heven : ∀ k ≤ n, Missing sorter.gaps (2 * k)) : n + 1 ≤ sorter.gaps.length := by
  choose gapOf hmem hcontains using fun k : Fin (n + 1) => heven k (by omega)
  have hinjective : Function.Injective gapOf := by
    refine .of_lt_imp_ne fun k l hkl heq => ?_
    have hstart := (hcontains k).1
    have hstop := (hcontains l).2
    rw [← heq] at hstop
    exact notMem_received (hmem k) (by omega) (by omega) (hodd k (by omega))
  have hsub : List.ofFn gapOf ⊆ sorter.gaps := List.forall_mem_ofFn_iff.mpr hmem
  have hcount := (List.subperm_of_subset (List.nodup_ofFn.mpr hinjective) hsub).length_le
  rwa [List.length_ofFn] at hcount

def longMessage : List UInt8 := [1, 0, 7, 204] ++ List.replicate 1996 0

theorem length_longMessage : longMessage.length = 2000 := by
  rw [longMessage, List.length_append, List.length_replicate]
  rfl

private theorem isMessage_longMessage : IsMessage longMessage := by
  have hlen : CryptoReceiver.messageLen longMessage = 2000 := by
    rfl
  rw [IsMessage, hlen, length_longMessage]
  exact ⟨by decide, rfl⟩

theorem refuses_byte_frames :
    ∃ messages : List (List UInt8), (∀ m ∈ messages, IsMessage m) ∧
      messages.flatten.length ≤ maxCryptoStreamOffset ∧
      ∃ events s, Trace (Step messages.flatten) new events s ∧
        ∃ f ∈ s.frames, s.receiver.handleCryptoFrame f = .error (.sorter .tooManyGaps) := by
  have hmessages : ∀ m ∈ [longMessage], IsMessage m := by
    intro m hm
    rw [List.mem_singleton.mp hm]
    exact isMessage_longMessage
  have hlength : [longMessage].flatten.length = 2000 := by
    rw [List.flatten_singleton, length_longMessage]
  have hsize : [longMessage].flatten.length ≤ maxCryptoStreamOffset := by
    rw [hlength]
    decide
  refine ⟨[longMessage], hmessages, hsize, ?_⟩
  by_contra hnone
  have haccepts : ∀ events s, Trace (Step [longMessage].flatten) new events s →
      ∀ f ∈ s.frames, ∃ receiver, s.receiver.handleCryptoFrame f = .ok receiver := by
    intro events s hrun f hf
    have hframe := (Delivers.of_trace hmessages hsize hrun).handleCryptoFrame hf hsize
    split at hframe
    · exact hframe
    · exact absurd ⟨events, s, hrun, f, hf, hframe⟩ hnone
  obtain ⟨events, s, hrun, -, hdelivered⟩ :=
    exists_odd_bytes hsize haccepts (k := 1000) (Nat.le_of_eq hlength.symm)
  have hreceived := (Delivers.of_trace hmessages hsize hrun).received
  have hmany : 1000 + 1 ≤ s.receiver.queue.gaps.length := by
    refine length_gaps_ge (fun k hk => ?_) fun k hk => ?_
    · exact (hreceived.known _).mpr ((hdelivered _).mpr (by omega))
    · by_contra hnot
      have hbound : 2 * k < maxByteCount := by
        unfold maxByteCount
        omega
      have hodd := (hdelivered _).mp ((hreceived.known _).mp ⟨hbound, hnot⟩)
      omega
  have hfew := hreceived.gaps
  unfold maxStreamFrameSorterGaps at hfew
  omega

end CryptoExchange

end Qperf.Quic

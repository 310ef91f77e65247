import Qperf.Foundation.Components
import Qperf.Foundation.Traces
import Qperf.Quic.ReceiveSteps

/-!
# Credit of a connection for received data

The streams of a connection share its flow controller.  What a stream reads, and what is
left when it is abandoned, is credited to the connection.  `CancelRead`, a final frame on
a canceled stream, `RESET_STREAM` and the end of the data complete a stream, and none of
them looks at the others: the credit is counted once only if the stream was not
complete before.
-/

namespace Qperf.Quic

open Qperf.Foundation

/-! ## One receiving half -/

namespace ReceiveStream

def Done (t : ReceiveStream) : Prop :=
  t.finRead = true ∨ t.resetRemotely = true ∨
    t.canceledRead = true ∧ t.flowController.receivedFinalOffset = true

variable {t t' : ReceiveStream} {connection connection' : ReceiveController}

theorem Positioned.not_done (h : t.Positioned)
    (hopen : t.flowController.receivedFinalOffset = false) : ¬ t.Done := by
  rintro (hread | hreset | ⟨-, hfinal⟩)
  · rw [h.read hread] at hopen
    cases hopen
  · rw [h.reset hreset] at hopen
    cases hopen
  · rw [hfinal] at hopen
    cases hopen

theorem Done.received {flowController : StreamController} {offset : Nat} {final : Bool}
    (hreceived : t.flowController.Received connection offset final
      (flowController, connection')) (hdone : t.Done) :
    (t.received flowController offset final).Done := by
  rcases hdone with hread | hreset | ⟨hcanceled, hfinal⟩
  · exact .inl hread
  · exact .inr (.inl hreset)
  · exact .inr (.inr ⟨hcanceled, (hreceived.settled hfinal).1⟩)

end ReceiveStream

namespace ReceiveHalf

open ReceiveStream

variable {h h' : ReceiveHalf} {connection connection' : ReceiveController}

/-- What the stream has credited to the connection. -/
def credit (h : ReceiveHalf) : Nat :=
  h.stream.flowController.bytesRead + h.abandoned.sum

def highest (h : ReceiveHalf) : Nat := h.stream.flowController.highestReceived

def Copies (h : ReceiveHalf) : Prop :=
  ∃ len copied, h.call = some ⟨len, copied, true⟩

instance (h : ReceiveHalf) : Decidable h.Copies :=
  decidable_of_iff (∃ call ∈ h.call, call.copying = true)
    ⟨fun ⟨⟨len, copied, _⟩, hcall, hcopying⟩ => ⟨len, copied, hcopying ▸ hcall⟩,
      fun ⟨len, copied, hcall⟩ => ⟨⟨len, copied, true⟩, hcall, rfl⟩⟩

structure Once (h : ReceiveHalf) : Prop where
  positioned : h.stream.Positioned
  started : h.completed + h.completing.length ≤ 1
  done : 0 < h.completed + h.completing.length → h.stream.Done
  abandoned : h.abandoned.length ≤ h.completed
  calling : h.call ≠ none → h.stream.finRead = false
  copying : h.Copies → h.stream.canceledRead = false ∧
    (h.stream.currentFrameIsLast = true → h.stream.resetRemotely = false)
  credited : h.credit ≤ h.highest

private theorem once_new (id : StreamID) (receiveWindow maxReceiveWindow : Nat) :
    Once (new id receiveWindow maxReceiveWindow) where
  positioned := positioned_new ..
  started := Nat.zero_le _
  done := fun h => absurd h (Nat.lt_irrefl 0)
  abandoned := Nat.le_refl _
  calling := fun h => absurd rfl h
  copying := by
    rintro ⟨len, copied, hcall⟩
    cases hcall
  credited := Nat.le_refl _

structure Moves (h h' : ReceiveHalf) (connection connection' : ReceiveController) :
    Prop where
  bytesRead : connection'.bytesRead + h.credit = connection.bytesRead + h'.credit
  highestReceived :
    connection'.highestReceived + h.highest = connection.highestReceived + h'.highest
  bounded : connection.highestReceived < 2 ^ 64 → connection'.highestReceived < 2 ^ 64

variable {completed : Bool} {copied : List UInt8} {t : ReceiveStream}

theorem Once.update (ho : Once h) (hpos : t.Positioned) (hfin : t.finRead = h.stream.finRead)
    (hcopying : h.Copies → t.canceledRead = false ∧
      (t.currentFrameIsLast = true → t.resetRemotely = false))
    (hdone : h.stream.Done → t.Done) (hstart : completed = true → ¬ h.stream.Done ∧ t.Done)
    (hread : t.flowController.bytesRead = h.stream.flowController.bytesRead)
    (hhighest : h.highest ≤ t.flowController.highestReceived) :
    Once (h.update t completed) := by
  refine ⟨hpos, ?_, ?_, ho.abandoned, fun hcall => hfin.trans (ho.calling hcall), hcopying,
    ?_⟩
  · cases completed with
    | false => exact ho.started
    | true =>
      have hzero : ¬ 0 < h.completed + h.completing.length :=
        fun hpos => (hstart rfl).1 (ho.done hpos)
      change h.completed + (h.completing ++ [none]).length ≤ 1
      rw [List.length_append, List.length_singleton]
      omega
  · cases completed with
    | false => exact fun hpos => hdone (ho.done hpos)
    | true => exact fun _ => (hstart rfl).2
  · refine Nat.le_trans ?_ hhighest
    change t.flowController.bytesRead + h.abandoned.sum ≤ _
    rw [hread]
    exact ho.credited

/-- What the code takes for granted about the events of a stream. -/
def Admits (h : ReceiveHalf) : HalfEvent → Prop
  | .handleStreamFrame frame _ =>
    h.stream.canceledRead = true → frame.finBit = true →
      h.stream.flowController.receivedFinalOffset = false
  | .handleResetStreamFrame .. =>
    h.stream.closedForShutdown = true ∨ h.stream.resetRemotely = true ∨
      h.stream.finRead = false ∧
      ¬ (h.stream.canceledRead = true ∧
        h.stream.flowController.receivedFinalOffset = true) ∧
      ¬ (h.Copies ∧ h.stream.currentFrameIsLast = true)
  | .cancelRead _ => ¬ h.Copies
  | .closeForShutdown _ | .startRead .. | .wakeRead _ | .finishCopy _
  | .streamCompleted _ | .onStreamCompleted _ | .getWindowUpdate _ => True

instance (h : ReceiveHalf) : DecidablePred h.Admits
  | .handleStreamFrame .. => inferInstanceAs (Decidable (_ → _ → _))
  | .handleResetStreamFrame .. =>
    inferInstanceAs (Decidable (_ ∨ _ ∨ _ ∧ ¬ (_ ∧ _) ∧ ¬ (_ ∧ _)))
  | .cancelRead _ => inferInstanceAs (Decidable (¬ _))
  | .closeForShutdown _ | .startRead .. | .wakeRead _ | .finishCopy _
  | .streamCompleted _ | .onStreamCompleted _ | .getWindowUpdate _ =>
    inferInstanceAs (Decidable True)

theorem Once.streamFrame (ho : Once h) {frame : StreamFrame} {putBack : Callback}
    (hadmits : h.Admits (.handleStreamFrame frame putBack))
    (hhandled : h.stream.StreamHandled connection frame putBack
      ((t, connection'), completed)) : Once (h.update t completed) := by
  have hpos := hhandled.positioned ho.positioned
  cases hhandled with
  | canceled hreceived hcanceled =>
    refine ho.update hpos rfl ho.copying (.received hreceived) (fun hfin => ?_)
      hreceived.bytesRead_eq.1 hreceived.le_highestReceived.1
    refine ⟨ho.positioned.not_done (hadmits hcanceled hfin), .inr (.inr ⟨hcanceled, ?_⟩)⟩
    exact hreceived.receivedFinalOffset_eq.trans (by rw [hfin, Bool.or_true])
  | pushed hreceived =>
    have hdone : h.stream.Done → _ := Done.received hreceived
    exact ho.update hpos rfl ho.copying hdone (fun hfin => by cases hfin)
      hreceived.bytesRead_eq.1 hreceived.le_highestReceived.1

theorem Once.resetFrame (ho : Once h) {byteOffset errorCode : Nat}
    (hadmits : h.Admits (.handleResetStreamFrame byteOffset errorCode))
    (hhandled : h.stream.ResetHandled connection byteOffset
      ((t, connection'), completed)) : Once (h.update t completed) := by
  have hpos := hhandled.positioned ho.positioned
  cases hhandled with
  | ignored =>
    exact ho.update hpos rfl ho.copying id (fun hfin => by cases hfin) rfl (Nat.le_refl _)
  | duplicate hreceived =>
    exact ho.update hpos rfl ho.copying (.received hreceived) (fun hfin => by cases hfin)
      hreceived.bytesRead_eq.1 hreceived.le_highestReceived.1
  | reset hreceived hclosed hreset err =>
    rcases hadmits with hclosed' | hreset' | ⟨hread, hcanceled, hlast⟩
    · rw [hclosed] at hclosed'
      cases hclosed'
    · rw [hreset] at hreset'
      cases hreset'
    · refine ho.update hpos rfl ?_ (fun _ => .inr (.inl rfl)) (fun _ => ⟨?_, .inr (.inl rfl)⟩)
        hreceived.bytesRead_eq.1 hreceived.le_highestReceived.1
      · exact fun hcopies => ⟨(ho.copying hcopies).1,
          fun hisLast => absurd ⟨hcopies, hisLast⟩ hlast⟩
      · rintro (hread' | hreset' | hdone)
        · rw [hread] at hread'
          cases hread'
        · rw [hreset] at hreset'
          cases hreset'
        · exact hcanceled hdone

theorem Once.cancel (ho : Once h) {errorCode : Nat} (hadmits : h.Admits (.cancelRead errorCode)) :
    Once (h.update (h.stream.cancelRead errorCode).1
      (h.stream.cancelRead errorCode).2.1) := by
  have hpos := ho.positioned.cancelRead errorCode
  rw [ReceiveStream.cancelRead] at hpos ⊢
  split
  · exact ho.update ho.positioned rfl ho.copying id (fun hfin => by cases hfin) rfl
      (Nat.le_refl _)
  · next hopen =>
    simp only [Bool.or_eq_true, not_or] at hopen
    obtain ⟨⟨hread, hcanceled⟩, hreset⟩ := hopen
    have hnot : ¬ h.stream.Done := by
      rintro (hread' | hreset' | ⟨hcanceled', -⟩)
      · exact hread hread'
      · exact hreset hreset'
      · exact hcanceled hcanceled'
    rw [if_neg (by simp [hread, hcanceled, hreset])] at hpos
    refine ho.update hpos rfl (fun hcopies => absurd hcopies hadmits)
      (fun hdone => absurd hdone hnot) (fun hfinal => ⟨hnot, .inr (.inr ⟨rfl, ?_⟩)⟩) rfl
      (Nat.le_refl _)
    exact ho.positioned.final (by simpa using hfinal)

/-! ## Reading -/

theorem Once.readsOn (ho : Once h) {t' : ReceiveStream} (hpos : t.Positioned)
    (hfin : t.finRead = false) (hdone : h.stream.Done → t.Done)
    (hcredit : t.flowController.bytesRead + h.abandoned.sum ≤
      t.flowController.highestReceived) (len : Nat)
    {action : ReadAction} (hreads : t.ReadsOn (t', action)) :
    Once (h.act t' len copied action) := by
  have hdequeued := hreads.dequeued
  obtain ⟨hcanceled, hreset, hfin', hcontroller, -⟩ := hdequeued.same_fields
  have hpos' := hdequeued.positioned hpos
  have hdone' : h.stream.Done → t'.Done := by
    intro hd
    have hd' := hdone hd
    rwa [Done, ← hcanceled, ← hreset, ← hfin', ← hcontroller] at hd'
  rw [← hcontroller] at hcredit
  rw [hfin] at hfin'
  cases hreads with
  | finish =>
    refine ⟨hpos', ho.started, fun hlt => hdone' (ho.done hlt), ho.abandoned,
      fun hcall => absurd rfl hcall, ?_, hcredit⟩
    rintro ⟨len, copied, hcall⟩
    cases hcall
  | wait =>
    refine ⟨hpos', ho.started, fun hlt => hdone' (ho.done hlt), ho.abandoned,
      fun _ => hfin', ?_, hcredit⟩
    rintro ⟨len, copied, hcall⟩
    cases hcall
  | copy _ hnotCanceled hnotReset =>
    exact ⟨hpos', ho.started, fun hlt => hdone' (ho.done hlt), ho.abandoned,
      fun _ => hfin', fun _ => ⟨hcanceled.trans hnotCanceled,
        fun _ => hreset.trans hnotReset⟩, hcredit⟩

structure Room (h : ReceiveHalf) (connection : ReceiveController) : Prop where
  others : connection.bytesRead + h.highest ≤ connection.highestReceived + h.credit
  stream : h.highest ≤ connection.highestReceived
  bounded : connection.highestReceived < 2 ^ 64

theorem Once.not_done (ho : Once h) (hcopies : h.Copies)
    (hreset : h.stream.resetRemotely = false) : ¬ h.stream.Done := by
  obtain ⟨len, copied, hcall⟩ := hcopies
  rintro (hread | hreset' | ⟨hcanceled, -⟩)
  · rw [ho.calling (by simp [hcall])] at hread
    cases hread
  · rw [hreset] at hreset'
    cases hreset'
  · rw [(ho.copying ⟨len, copied, hcall⟩).1] at hcanceled
    cases hcanceled

theorem Once.abandoned_eq_nil (ho : Once h) (hdone : ¬ h.stream.Done) :
    h.abandoned = [] := by
  have hzero : ¬ 0 < h.completed + h.completing.length := fun hlt => hdone (ho.done hlt)
  have hlen := ho.abandoned
  exact List.eq_nil_of_length_eq_zero (by omega)

structure Credited (h : ReceiveHalf) (connection : ReceiveController) (t : ReceiveStream)
    (connection' : ReceiveController) : Prop where
  finRead : t.finRead = h.stream.finRead
  canceledRead : t.canceledRead = h.stream.canceledRead
  resetRemotely : t.resetRemotely = h.stream.resetRemotely
  isLast : t.currentFrameIsLast = h.stream.currentFrameIsLast
  final : t.flowController.receivedFinalOffset =
    h.stream.flowController.receivedFinalOffset
  highest : t.flowController.highestReceived = h.highest
  credit : t.flowController.bytesRead + h.abandoned.sum ≤ h.highest
  bytesRead : connection'.bytesRead + h.credit =
    connection.bytesRead + (t.flowController.bytesRead + h.abandoned.sum)
  highestReceived : connection'.highestReceived = connection.highestReceived

theorem Once.copyCurrent (ho : Once h) (hroom : h.Room connection) {len : Nat}
    {copied' : List UInt8} (hcall : h.call = some ⟨len, copied, true⟩)
    (hcopied : h.copyCurrent connection len copied = ((t, connection'), copied')) :
    Credited h connection t connection' := by
  rw [ReceiveHalf.copyCurrent, Prod.mk.injEq] at hcopied
  obtain ⟨hstream, -⟩ := hcopied
  have hle := ho.positioned.le_highestReceived (h.stream.length_copyBytes_le
    (len - copied.length))
  generalize (h.stream.copyBytes (len - copied.length)).length = m at hstream hle
  rw [addBytesRead] at hstream
  split at hstream
  · cases hstream
    exact ⟨rfl, rfl, rfl, rfl, rfl, rfl, ho.credited, rfl, rfl⟩
  · next hreset =>
    have hnone := ho.abandoned_eq_nil
      (ho.not_done ⟨len, copied, hcall⟩ (Bool.eq_false_iff.mpr hreset))
    obtain ⟨hothers, hstreamLe, hbounded⟩ := hroom
    have hcredit : h.credit = h.stream.flowController.bytesRead := by
      rw [credit, hnone]
      rfl
    change _ ≤ h.highest at hle
    have hown : add64 h.stream.flowController.bytesRead m =
        h.stream.flowController.bytesRead + m := add64_eq (by omega)
    have hconnection : add64 connection.bytesRead m = connection.bytesRead + m :=
      add64_eq (by omega)
    cases hstream
    have hread : (((h.stream.advance m).flowController.addBytesRead connection
        m).1).bytesRead = h.stream.flowController.bytesRead + m := by
      rw [← hown]
      exact ReceiveController.bytesRead_addBytesRead ..
    refine ⟨rfl, rfl, rfl, rfl, rfl, ReceiveController.highestReceived_addBytesRead .., ?_,
      ?_, ReceiveController.highestReceived_addBytesRead ..⟩
    · rw [hread, hnone]
      exact hle
    · rw [hread, hcredit, hnone]
      change (connection.addBytesRead m).bytesRead + _ = _
      rw [ReceiveController.bytesRead_addBytesRead, hconnection, List.sum_nil]
      omega

theorem Credited.done (hc : Credited h connection t connection')
    (hdone : h.stream.Done) : t.Done := by
  rwa [Done, hc.finRead, hc.resetRemotely, hc.canceledRead, hc.final]

theorem Once.ends (ho : Once h)
    (hc : Credited h connection t connection') (hcopies : h.Copies)
    (hlast : t.currentFrameIsLast = true) (len : Nat) (copied : List UInt8)
    (hpos : ReceiveStream.Positioned { t with finRead := true }) :
    Once (h.act { t with finRead := true } len copied (.finish true (some .eof))) := by
  rw [hc.isLast] at hlast
  have hnot := ho.not_done hcopies ((ho.copying hcopies).2 hlast)
  have hzero : ¬ 0 < h.completed + h.completing.length := fun hlt => hnot (ho.done hlt)
  refine ⟨hpos, ?_, fun _ => .inl rfl, ho.abandoned, fun hcall => absurd rfl hcall, ?_, ?_⟩
  · change h.completed + (h.completing ++ [none]).length ≤ 1
    rw [List.length_append, List.length_singleton]
    omega
  · rintro ⟨len, copied, hcall⟩
    cases hcall
  · change t.flowController.bytesRead + h.abandoned.sum ≤ t.flowController.highestReceived
    rw [hc.highest]
    exact hc.credit

/-! ## Completing the stream -/

theorem Once.looksUp (ho : Once h) (index : Nat) (finRead : Option Bool) :
    Once { h with completing := h.completing.set index finRead } := by
  obtain ⟨h₁, h₂, h₃, h₄, h₅, h₆, h₇⟩ := ho
  refine ⟨h₁, ?_, ?_, h₄, h₅, h₆, h₇⟩
  · rwa [List.length_set]
  · rwa [List.length_set]

private theorem length_eraseIdx_add {index : Nat} {looked : Option Bool}
    (hindex : h.completing[index]? = some looked) :
    (h.completing.eraseIdx index).length + 1 = h.completing.length := by
  have hlt := (List.getElem?_eq_some_iff.mp hindex).1
  rw [List.length_eraseIdx_of_lt hlt]
  omega

private theorem abandon_counts {c : StreamController} {unread : Nat}
    (hunread : sub64 c.highestReceived c.bytesRead = unread)
    (hlt : connection.bytesRead + unread < 2 ^ 64) :
    (c.abandon connection).bytesRead = connection.bytesRead + unread ∧
      (c.abandon connection).highestReceived = connection.highestReceived := by
  rw [StreamController.abandon, hunread]
  split
  · rw [ReceiveController.bytesRead_addBytesRead, add64_eq hlt,
      ReceiveController.highestReceived_addBytesRead]
    exact ⟨rfl, rfl⟩
  · have hzero : unread = 0 := by omega
    rw [hzero]
    exact ⟨rfl, rfl⟩

theorem Once.complete (ho : Once h) (hroom : h.Room connection) {index : Nat}
    {finRead : Bool} (hindex : h.completing[index]? = some (some finRead))
    (hcomplete : h.complete connection index finRead = (h', connection')) :
    Once h' ∧ Moves h h' connection connection' := by
  have hlen := length_eraseIdx_add hindex
  have hstarted := ho.started
  have hdone : h.stream.Done := ho.done (by omega)
  obtain ⟨h₁, -, -, h₄, h₅, h₆, h₇⟩ := ho
  rw [ReceiveHalf.complete] at hcomplete
  split at hcomplete
  · cases hcomplete
    refine ⟨⟨h₁, ?_, fun _ => hdone, Nat.le_succ_of_le h₄, h₅, h₆, h₇⟩, rfl, rfl, id⟩
    change h.completed + 1 + (h.completing.eraseIdx index).length ≤ 1
    omega
  · have hnone : h.abandoned = [] := List.eq_nil_of_length_eq_zero (by omega)
    cases hcomplete
    obtain ⟨hothers, hstreamLe, hbounded⟩ := hroom
    have hcredit : h.credit = h.stream.flowController.bytesRead := by
      rw [credit, hnone]
      rfl
    rw [hcredit] at h₇ hothers
    have hunread : sub64 h.stream.flowController.highestReceived
        h.stream.flowController.bytesRead = h.highest - h.stream.flowController.bytesRead :=
      sub64_eq h₇ (Nat.lt_of_le_of_lt hstreamLe hbounded)
    have hcounts := abandon_counts hunread (show connection.bytesRead + _ < 2 ^ 64 by omega)
    have hall : h.stream.flowController.bytesRead +
        (h.abandoned ++ [sub64 h.stream.flowController.highestReceived
          h.stream.flowController.bytesRead]).sum = h.highest := by
      rw [hnone, hunread, List.nil_append, List.sum_singleton]
      omega
    refine ⟨⟨h₁, ?_, fun _ => hdone, ?_, h₅, h₆, ?_⟩, ?_, ?_, ?_⟩
    · change h.completed + 1 + (h.completing.eraseIdx index).length ≤ 1
      omega
    · rw [hnone]
      exact Nat.le_add_left ..
    · exact Nat.le_of_eq hall
    · change (h.stream.flowController.abandon connection).bytesRead + h.credit =
        connection.bytesRead + (h.stream.flowController.bytesRead + List.sum _)
      rw [hall, hcounts.1, hcredit]
      omega
    · exact congrArg (· + h.highest) hcounts.2
    · exact fun hlt => lt_of_eq_of_lt hcounts.2 hlt

/-! ## Steps -/

private theorem credit_act (h : ReceiveHalf) (t : ReceiveStream) (len : Nat)
    (copied : List UInt8) (action : ReadAction) :
    (h.act t len copied action).credit = t.flowController.bytesRead + h.abandoned.sum := by
  cases action <;> rfl

private theorem highest_act (h : ReceiveHalf) (t : ReceiveStream) (len : Nat)
    (copied : List UInt8) (action : ReadAction) :
    (h.act t len copied action).highest = t.flowController.highestReceived := by
  cases action <;> rfl

theorem Credited.moves {t' : ReceiveStream} (hc : Credited h connection t connection')
    (hcontroller : t'.flowController = t.flowController) (len : Nat)
    (copied : List UInt8) (action : ReadAction) :
    Moves h (h.act t' len copied action) connection connection' := by
  constructor
  · rw [credit_act, hcontroller]
    exact hc.bytesRead
  · rw [highest_act, hcontroller, hc.highest, hc.highestReceived]
  · exact fun hlt => lt_of_eq_of_lt hc.highestReceived hlt

theorem Once.credited_self (ho : Once h) : Credited h connection h.stream connection :=
  ⟨rfl, rfl, rfl, rfl, rfl, rfl, ho.credited, rfl, rfl⟩

theorem Once.readsOn_moves (ho : Once h) {t' : ReceiveStream}
    (hc : Credited h connection t connection') (hpos : t.Positioned)
    (hread : h.stream.finRead = false) {len : Nat}
    {action : ReadAction} (hreads : t.ReadsOn (t', action)) :
    Once (h.act t' len copied action) ∧
      Moves h (h.act t' len copied action) connection connection' := by
  obtain ⟨-, -, -, hcontroller, -⟩ := hreads.dequeued.same_fields
  refine ⟨ho.readsOn hpos (hc.finRead.trans hread) hc.done ?_ len hreads,
    hc.moves hcontroller ..⟩
  rw [hc.highest]
  exact hc.credit

theorem Received.moves {offset : Nat} {final : Bool} {flowController : StreamController}
    (hreceived : h.stream.flowController.Received connection offset final
      (flowController, connection')) (hcontroller : t.flowController = flowController)
    (hlt : connection.highestReceived + offset < 2 ^ 64) :
    Moves h (h.update t completed) connection connection' := by
  obtain ⟨hread, hread'⟩ := hreceived.bytesRead_eq
  have hhighest := hreceived.increment hlt
  have hle := hreceived.le_highestReceived.1
  have hwraps : connection.highestReceived < 2 ^ 64 → connection'.highestReceived < 2 ^ 64 := by
    intro hbounded
    cases hreceived with
    | known => exact hbounded
    | higher =>
      rw [add64]
      exact Nat.mod_lt _ (Nat.two_pow_pos 64)
  subst hcontroller
  constructor
  · change connection'.bytesRead + _ =
      connection.bytesRead + (t.flowController.bytesRead + h.abandoned.sum)
    rw [hread, hread']
    rfl
  · change connection'.highestReceived + h.stream.flowController.highestReceived =
      connection.highestReceived + t.flowController.highestReceived
    omega
  · exact hwraps

theorem Once.windowUpdate (ho : Once h) {flowController : StreamController}
    (hcounts : h.stream.flowController.toReceiveController.SameCounts
      flowController.toReceiveController)
    (hfinal : flowController.receivedFinalOffset =
      h.stream.flowController.receivedFinalOffset)
    (hcounts' : connection.SameCounts connection') :
    Once { h with stream := { h.stream with flowController } } ∧
      Moves h { h with stream := { h.stream with flowController } } connection
        connection' := by
  have hpos := ho.positioned.sameCounts hcounts hfinal
  obtain ⟨-, h₂, h₃, h₄, h₅, h₆, h₇⟩ := ho
  refine ⟨⟨hpos, h₂, fun hlt => ?_, h₄, h₅, h₆, ?_⟩, ?_, ?_, ?_⟩
  · exact (h₃ hlt).imp_right (Or.imp_right (And.imp_right hfinal.trans))
  · change flowController.bytesRead + h.abandoned.sum ≤ flowController.highestReceived
    rw [hcounts.bytesRead, hcounts.highestReceived]
    exact h₇
  · change connection'.bytesRead + h.credit =
      connection.bytesRead + (flowController.bytesRead + h.abandoned.sum)
    rw [hcounts.bytesRead, hcounts'.bytesRead]
    rfl
  · change connection'.highestReceived + h.highest =
      connection.highestReceived + flowController.highestReceived
    rw [hcounts.highestReceived, hcounts'.highestReceived]
    rfl
  · exact fun hlt => lt_of_eq_of_lt hcounts'.highestReceived hlt

def Fits (connection : ReceiveController) : HalfEvent → Prop
  | .handleStreamFrame frame _ =>
    connection.highestReceived + (frame.offset + frame.data.length) < 2 ^ 64
  | .handleResetStreamFrame byteOffset _ =>
    connection.highestReceived + byteOffset < 2 ^ 64
  | .cancelRead _ | .closeForShutdown _ | .startRead .. | .wakeRead _ | .finishCopy _
  | .streamCompleted _ | .onStreamCompleted _ | .getWindowUpdate _ => True

instance (connection : ReceiveController) : DecidablePred (Fits connection)
  | .handleStreamFrame .. | .handleResetStreamFrame .. =>
    inferInstanceAs (Decidable (_ < _))
  | .cancelRead _ | .closeForShutdown _ | .startRead .. | .wakeRead _ | .finishCopy _
  | .streamCompleted _ | .onStreamCompleted _ | .getWindowUpdate _ =>
    inferInstanceAs (Decidable True)

theorem Once.step (ho : Once h) (hroom : h.Room connection) {event : HalfEvent}
    (hadmits : h.Admits event) (hfits : Fits connection event)
    (hstep : HalfStep h connection event h' connection') :
    Once h' ∧ Moves h h' connection connection' := by
  have hpos := hstep.positioned ho.positioned
  cases hstep with
  | idle => exact ⟨ho, rfl, rfl, id⟩
  | streamFrame hhandled =>
    refine ⟨ho.streamFrame hadmits hhandled, ?_⟩
    cases hhandled with
    | canceled hreceived | pushed hreceived => exact Received.moves hreceived rfl hfits
  | resetFrame hhandled =>
    refine ⟨ho.resetFrame hadmits hhandled, ?_⟩
    cases hhandled with
    | ignored => exact ⟨rfl, rfl, id⟩
    | duplicate hreceived | reset hreceived => exact Received.moves hreceived rfl hfits
  | @cancel errorCode =>
    have hcontroller : (h.stream.cancelRead errorCode).1.flowController =
        h.stream.flowController := by
      rw [ReceiveStream.cancelRead]
      split <;> rfl
    refine ⟨ho.cancel hadmits, ?_, ?_, id⟩
    · change _ = connection.bytesRead +
        ((h.stream.cancelRead errorCode).1.flowController.bytesRead + h.abandoned.sum)
      rw [hcontroller]
      rfl
    · change _ = connection.highestReceived +
        (h.stream.cancelRead errorCode).1.flowController.highestReceived
      rw [hcontroller]
      rfl
  | shutdown =>
    obtain ⟨h₁, h₂, h₃, h₄, h₅, h₆, h₇⟩ := ho
    exact ⟨⟨hpos, h₂, h₃, h₄, h₅, h₆, h₇⟩, rfl, rfl, id⟩
  | atEnd hcall hread =>
    obtain ⟨h₁, h₂, h₃, h₄, -, -, h₇⟩ := ho
    refine ⟨⟨h₁, h₂, h₃, h₄, fun hne => absurd rfl hne, ?_, h₇⟩, rfl, rfl, id⟩
    rintro ⟨len, copied, hcopy⟩
    cases hcopy
  | readsOn hcalls hreads =>
    have hread : h.stream.finRead = false := by
      rcases hcalls with ⟨-, hread, -⟩ | hcall
      · exact hread
      · exact ho.calling (by simp [hcall])
    exact ho.readsOn_moves ho.credited_self ho.positioned hread hreads
  | copies hcall hcopied hreads =>
    exact ho.readsOn_moves (ho.copyCurrent hroom hcall hcopied)
      (Positioned.copyCurrent ho.positioned hcopied) (ho.calling (by simp [hcall])) hreads
  | ends hcall hcopied hread hlast =>
    have hc := ho.copyCurrent hroom hcall hcopied
    refine ⟨ho.ends hc ⟨_, _, hcall⟩ hlast _ _ hpos, hc.moves ?_ ..⟩
    rfl
  | looksUp => exact ⟨ho.looksUp .., rfl, rfl, id⟩
  | completes hindex hcomplete => exact ho.complete hroom hindex hcomplete
  | windowUpdate hupdate =>
    obtain ⟨hcounts, hfinal, hcounts'⟩ :=
      StreamController.sameCounts_getWindowUpdate hupdate
    exact ho.windowUpdate hcounts hfinal hcounts'

end ReceiveHalf

/-! ## The streams of a connection -/

structure ReceiveSession where
  streams : List ReceiveHalf
  connection : ReceiveController

inductive ReceiveSessionEvent where
  | openStream (streamID : StreamID) (receiveWindow maxReceiveWindow : Nat)
  | stream (index : Nat) (event : HalfEvent)
  | getWindowUpdate (timing : Timing)

namespace ReceiveSession

variable {s s' : ReceiveSession} {convert : Nat → Nat}

def new (receiveWindow maxReceiveWindow : Nat) : ReceiveSession :=
  ⟨[], .new receiveWindow maxReceiveWindow⟩

def step (convert : Nat → Nat) (s : ReceiveSession) :
    ReceiveSessionEvent → Except ReceiveError ReceiveSession
  | .openStream streamID receiveWindow maxReceiveWindow =>
    .ok { s with
      streams := s.streams ++ [.new streamID receiveWindow maxReceiveWindow] }
  | .stream index event =>
    match s.streams[index]? with
    | none => .ok s
    | some h => do
      let (h, connection) ← h.step convert s.connection event
      return ⟨s.streams.set index h, connection⟩
  | .getWindowUpdate timing =>
    .ok { s with connection := (s.connection.getWindowUpdate timing).1 }

/-- What the code takes for granted, and no counter wraps around. -/
def Admits (s : ReceiveSession) : ReceiveSessionEvent → Prop
  | .stream index event => ∀ h ∈ s.streams[index]?,
      h.Admits event ∧ ReceiveHalf.Fits s.connection event
  | .openStream .. | .getWindowUpdate _ => True

instance (s : ReceiveSession) : DecidablePred s.Admits
  | .stream index event => inferInstanceAs (Decidable (∀ h ∈ s.streams[index]?,
      h.Admits event ∧ ReceiveHalf.Fits s.connection event))
  | .openStream .. | .getWindowUpdate _ => inferInstanceAs (Decidable True)

structure Counted (s : ReceiveSession) : Prop where
  once : ∀ h ∈ s.streams, h.Once
  bytesRead : s.connection.bytesRead = (s.streams.map ReceiveHalf.credit).sum
  highestReceived :
    s.connection.highestReceived = (s.streams.map ReceiveHalf.highest).sum
  bounded : s.connection.highestReceived < 2 ^ 64

private theorem counted_new (receiveWindow maxReceiveWindow : Nat) :
    Counted (new receiveWindow maxReceiveWindow) where
  once := fun h hmem => by cases hmem
  bytesRead := rfl
  highestReceived := rfl
  bounded := Nat.two_pow_pos 64

theorem Counted.room (hc : s.Counted) {index : Nat} {h : ReceiveHalf}
    (hindex : s.streams[index]? = some h) : h.Room s.connection where
  others := by
    rw [hc.bytesRead, hc.highestReceived]
    exact sum_map_add_le hindex fun h hmem => (hc.once h hmem).credited
  stream := by
    rw [hc.highestReceived]
    have hmem := List.mem_of_getElem? hindex
    exact List.le_sum_of_mem (List.mem_map_of_mem hmem)
  bounded := hc.bounded

theorem Counted.stream (hc : s.Counted) {index : Nat} {h h' : ReceiveHalf}
    (hindex : s.streams[index]? = some h) {event : HalfEvent}
    {connection : ReceiveController} (hadmits : s.Admits (.stream index event))
    (hstep : h.step convert s.connection event = .ok (h', connection)) :
    Counted ⟨s.streams.set index h', connection⟩ := by
  have ho := hc.once h (List.mem_of_getElem? hindex)
  obtain ⟨hadmits, hfits⟩ := hadmits h hindex
  obtain ⟨ho', hmoves⟩ := ho.step (hc.room hindex) hadmits hfits
    (ReceiveHalf.step_cases ho.positioned hstep)
  refine ⟨?_, ?_, ?_, hmoves.bounded hc.bounded⟩
  · intro g hg
    rcases List.mem_or_eq_of_mem_set hg with hg | rfl
    · exact hc.once g hg
    · exact ho'
  · have hsum := sum_map_set (b := h') ReceiveHalf.credit hindex
    have hread := hc.bytesRead
    have hmoved := hmoves.bytesRead
    dsimp only
    omega
  · have hsum := sum_map_set (b := h') ReceiveHalf.highest hindex
    have hhighest := hc.highestReceived
    have hmoved := hmoves.highestReceived
    dsimp only
    omega

theorem Counted.openStream (hc : s.Counted) (streamID : StreamID)
    (receiveWindow maxReceiveWindow : Nat) :
    Counted { s with
      streams := s.streams ++ [.new streamID receiveWindow maxReceiveWindow] } where
  once := by
    intro h hmem
    rcases List.mem_append.mp hmem with hmem | hmem
    · exact hc.once h hmem
    · rw [List.mem_singleton.mp hmem]
      exact ReceiveHalf.once_new ..
  bytesRead := by
    rw [List.map_append, List.sum_append, ← hc.bytesRead]
    rfl
  highestReceived := by
    rw [List.map_append, List.sum_append, ← hc.highestReceived]
    rfl
  bounded := hc.bounded

theorem Counted.sameCounts (hc : s.Counted) {connection : ReceiveController}
    (hcounts : s.connection.SameCounts connection) : Counted { s with connection } where
  once := hc.once
  bytesRead := hcounts.bytesRead.trans hc.bytesRead
  highestReceived := hcounts.highestReceived.trans hc.highestReceived
  bounded := lt_of_eq_of_lt hcounts.highestReceived hc.bounded

theorem Counted.step (hc : s.Counted) {event : ReceiveSessionEvent}
    (hstep : s.step convert event = .ok s') (hadmits : s.Admits event) : s'.Counted := by
  cases event with
  | openStream streamID receiveWindow maxReceiveWindow =>
    cases hstep
    exact hc.openStream ..
  | stream index event =>
    simp only [ReceiveSession.step] at hstep
    split at hstep
    · cases hstep
      exact hc
    · next h hindex =>
      obtain ⟨⟨h', connection⟩, hok, heq⟩ := bind_eq_ok.mp hstep
      cases heq
      exact hc.stream hindex hadmits hok
  | getWindowUpdate timing =>
    cases hstep
    exact hc.sameCounts (s.connection.sameCounts_getWindowUpdate timing)

theorem Counted.le (hc : s.Counted) :
    s.connection.bytesRead ≤ s.connection.highestReceived := by
  rw [hc.bytesRead, hc.highestReceived]
  exact List.sum_le_sum fun h hmem => (hc.once h hmem).credited

/-- Credit is counted once as long as the events are those that the code expects. -/
theorem counts_once {receiveWindow maxReceiveWindow : Nat} {events : List ReceiveSessionEvent}
    (hrun : Trace (fun s event s' => step convert s event = .ok s' ∧ s.Admits event)
      (new receiveWindow maxReceiveWindow) events s) :
    s.connection.bytesRead ≤ s.connection.highestReceived ∧
      ∀ h ∈ s.streams, h.abandoned.length ≤ 1 ∧ h.completed ≤ 1 := by
  have hc := hrun.invariant Counted (counted_new ..)
    fun _ _ _ hc hstep => hc.step hstep.1 hstep.2
  refine ⟨hc.le, fun h hmem => ?_⟩
  have ho := hc.once h hmem
  have hstarted := ho.started
  have habandoned := ho.abandoned
  omega

def canceledAfterFin : List ReceiveSessionEvent :=
  [.openStream 0 100 100,
    .stream 0 (.handleStreamFrame ⟨0, 0, [1, 2, 3], true, true⟩ 0),
    .stream 0 (.cancelRead 7), .stream 0 (.streamCompleted 0),
    .stream 0 (.onStreamCompleted 0)]

def repeatedFin : List ReceiveSessionEvent :=
  canceledAfterFin ++ [.stream 0 (.handleStreamFrame ⟨0, 0, [1, 2, 3], true, true⟩ 1),
      .stream 0 (.streamCompleted 0), .stream 0 (.onStreamCompleted 0)]

theorem counts_once_canceledAfterFin :
    ∃ s, Trace (fun s event s' => step id s event = .ok s' ∧ s.Admits event)
        (new 100 100) canceledAfterFin s ∧ s.connection.bytesRead = 3 ∧
      s.connection.bytesRead ≤ s.connection.highestReceived := by
  have hobs : (canceledAfterFin.foldlM
      (fun (s : ReceiveSession) event => if s.Admits event then step id s event
        else .error (.sorter .noGapFound)) (new 100 100)).map
      (fun s => s.connection.bytesRead) = .ok 3 := by
    decide +kernel
  obtain ⟨s, hs, hread⟩ := map_eq_ok hobs
  have hrun := Trace.of_foldlM_checked hs
  exact ⟨s, hrun, hread, (counts_once hrun).1⟩

theorem credits_twice : ∃ s, repeatedFin.foldlM (step id) (new 100 100) = .ok s ∧
      s.connection.highestReceived < s.connection.bytesRead ∧
      ∃ h ∈ s.streams, 1 < h.abandoned.length ∧ 1 < h.completed := by
  have hobs : (repeatedFin.foldlM (step id) (new 100 100)).map (fun s => decide
        (s.connection.highestReceived < s.connection.bytesRead ∧
          ∃ h ∈ s.streams, 1 < h.abandoned.length ∧ 1 < h.completed)) = .ok true := by
    decide +kernel
  obtain ⟨s, hs, htwice⟩ := map_eq_ok hobs
  exact ⟨s, hs, of_decide_eq_true htwice⟩

end ReceiveSession

end Qperf.Quic

import Qperf.Quic.ReceiveStream

/-!
# Steps of a receiving half

`HalfStep` says once what a step of the half can do.  The positions of the reader, of the
sorter and of the flow controller agree after every step.
-/

namespace Qperf.Quic

open Qperf.Foundation

namespace ReceiveHalf

variable {h h' : ReceiveHalf} {connection connection' : ReceiveController}

def copyCurrent (h : ReceiveHalf) (connection : ReceiveController) (len : Nat)
    (copied : List UInt8) : (ReceiveStream × ReceiveController) × List UInt8 :=
  let bytes := h.stream.copyBytes (len - copied.length)
  ((h.stream.advance bytes.length).addBytesRead connection bytes.length, copied ++ bytes)

def Calls (h : ReceiveHalf) (len : Nat) (copied : List UInt8) : Prop :=
  h.call = none ∧ h.stream.finRead = false ∧ copied = [] ∨
    h.call = some ⟨len, copied, false⟩

inductive HalfStep (h : ReceiveHalf) (connection : ReceiveController) :
    HalfEvent → ReceiveHalf → ReceiveController → Prop where
  | idle {event : HalfEvent} : HalfStep h connection event h connection
  | streamFrame {frame : StreamFrame} {putBack : Callback} {t : ReceiveStream}
      {connection' : ReceiveController} {completed : Bool}
      (hhandled : h.stream.StreamHandled connection frame putBack
        ((t, connection'), completed)) :
      HalfStep h connection (.handleStreamFrame frame putBack) (h.update t completed)
        connection'
  | resetFrame {byteOffset errorCode : Nat} {t : ReceiveStream}
      {connection' : ReceiveController} {completed : Bool}
      (hhandled : h.stream.ResetHandled connection byteOffset
        ((t, connection'), completed)) :
      HalfStep h connection (.handleResetStreamFrame byteOffset errorCode)
        (h.update t completed) connection'
  | cancel {errorCode : Nat} :
      HalfStep h connection (.cancelRead errorCode)
        (h.update (h.stream.cancelRead errorCode).1 (h.stream.cancelRead errorCode).2.1)
        connection
  | shutdown {err : Option StreamError} :
      HalfStep h connection (.closeForShutdown err)
        { h with stream := h.stream.closeForShutdown err } connection
  | atEnd {len : Nat} {expired : Bool} (hcall : h.call = none)
      (hread : h.stream.finRead = true) :
      HalfStep h connection (.startRead len expired)
        (h.act h.stream len [] (.finish false (some .eof))) connection
  | readsOn {event : HalfEvent} {len : Nat} {copied : List UInt8} {t : ReceiveStream}
      {action : ReadAction} (hcalls : h.Calls len copied)
      (hreads : h.stream.ReadsOn (t, action)) :
      HalfStep h connection event (h.act t len copied action) connection
  | copies {expired : Bool} {len : Nat} {copied copied' : List UInt8}
      {t t' : ReceiveStream} {connection' : ReceiveController} {action : ReadAction}
      (hcall : h.call = some ⟨len, copied, true⟩)
      (hcopied : h.copyCurrent connection len copied = ((t, connection'), copied'))
      (hreads : t.ReadsOn (t', action)) :
      HalfStep h connection (.finishCopy expired) (h.act t' len copied' action)
        connection'
  | ends {expired : Bool} {len : Nat} {copied copied' : List UInt8}
      {t : ReceiveStream} {connection' : ReceiveController}
      (hcall : h.call = some ⟨len, copied, true⟩)
      (hcopied : h.copyCurrent connection len copied = ((t, connection'), copied'))
      (hread : t.readPosInFrame = t.frameBytes.length)
      (hlast : t.currentFrameIsLast = true) :
      HalfStep h connection (.finishCopy expired)
        (h.act { t with finRead := true } len copied' (.finish true (some .eof)))
        connection'
  | looksUp {index : Nat} (hindex : h.completing[index]? = some none) :
      HalfStep h connection (.streamCompleted index)
        { h with completing := h.completing.set index (some h.stream.finRead) }
        connection
  | completes {index : Nat} {finRead : Bool} {next : ReceiveHalf}
      {connection' : ReceiveController}
      (hindex : h.completing[index]? = some (some finRead))
      (hcomplete : h.complete connection index finRead = (next, connection')) :
      HalfStep h connection (.onStreamCompleted index) next connection'
  | windowUpdate {timing : Timing} {flowController : StreamController}
      {connection' : ReceiveController} {convert : Nat → Nat} {offset : Nat}
      (hupdate : h.stream.flowController.getWindowUpdate convert connection timing =
        ((flowController, connection'), offset)) :
      HalfStep h connection (.getWindowUpdate timing)
        { h with stream := { h.stream with flowController } } connection'

end ReceiveHalf

namespace ReceiveStream

variable {t : ReceiveStream} {connection : ReceiveController}

theorem addBytesRead_fields (t : ReceiveStream) (connection : ReceiveController)
    (m : Nat) :
    ∃ flowController, (t.addBytesRead connection m).1 = { t with flowController } ∧
      (flowController.receivedFinalOffset = t.flowController.receivedFinalOffset ∧
        flowController.highestReceived = t.flowController.highestReceived ∧
        flowController.bytesRead ≤ t.flowController.bytesRead + m) := by
  rw [addBytesRead]
  split
  · exact ⟨t.flowController, rfl, rfl, rfl, Nat.le_add_right ..⟩
  · refine ⟨_, rfl, rfl, ReceiveController.highestReceived_addBytesRead .., ?_⟩
    change (t.flowController.toReceiveController.addBytesRead m).bytesRead ≤ _
    rw [ReceiveController.bytesRead_addBytesRead, add64]
    exact Nat.mod_le ..

theorem Positioned.copy (h : t.Positioned) {m : Nat}
    (hm : m ≤ t.frameBytes.length - t.readPosInFrame) :
    ((t.advance m).addBytesRead connection m).1.Positioned := by
  have hadvanced := h.advance hm
  have hcredited := h.credited
  obtain ⟨flowController, heq, hfinal, hhighest, hread⟩ :=
    (t.advance m).addBytesRead_fields connection m
  rw [heq]
  obtain ⟨h₁, h₂, h₃, h₄, h₅, -, h₇, h₈, h₉, h₁₀⟩ := hadvanced
  refine ⟨h₁, h₂, hhighest ▸ h₃, h₄, h₅, ?_, ?_, ?_, ?_, ?_⟩
  · change flowController.bytesRead ≤ t.readOffset + m
    change flowController.bytesRead ≤ t.flowController.bytesRead + m at hread
    omega
  · exact fun hne => hfinal.trans (h₇ hne)
  · exact fun hl => hfinal.trans (h₈ hl)
  · exact fun hr => hfinal.trans (h₉ hr)
  · exact fun hr => hfinal.trans (h₁₀ hr)

theorem Positioned.cancelRead (h : t.Positioned) (errorCode : Nat) :
    (t.cancelRead errorCode).1.Positioned := by
  rw [ReceiveStream.cancelRead]
  split
  · exact h
  · obtain ⟨h₁, h₂, h₃, h₄, h₅, h₆, h₇, h₈, h₉, h₁₀⟩ := h
    exact ⟨h₁, h₂, h₃, h₄, h₅, h₆, h₇, h₈, h₉, h₁₀⟩

theorem Positioned.closeForShutdown (h : t.Positioned) (err : Option StreamError) :
    (t.closeForShutdown err).Positioned := by
  obtain ⟨h₁, h₂, h₃, h₄, h₅, h₆, h₇, h₈, h₉, h₁₀⟩ := h
  exact ⟨h₁, h₂, h₃, h₄, h₅, h₆, h₇, h₈, h₉, h₁₀⟩

theorem Positioned.sameCounts (h : t.Positioned) {flowController : StreamController}
    (hcounts : t.flowController.toReceiveController.SameCounts
      flowController.toReceiveController)
    (hfinal : flowController.receivedFinalOffset = t.flowController.receivedFinalOffset) :
    Positioned { t with flowController } := by
  obtain ⟨h₁, h₂, h₃, h₄, h₅, h₆, h₇, h₈, h₉, h₁₀⟩ := h
  refine ⟨h₁, h₂, hcounts.highestReceived ▸ h₃, h₄, h₅, hcounts.bytesRead ▸ h₆, ?_, ?_,
    ?_, ?_⟩
  · exact fun hne => hfinal.trans (h₇ hne)
  · exact fun hl => hfinal.trans (h₈ hl)
  · exact fun hr => hfinal.trans (h₉ hr)
  · exact fun hr => hfinal.trans (h₁₀ hr)

theorem ReadsOn.dequeued {next : ReceiveStream} {action : ReadAction}
    (h : t.ReadsOn (next, action)) : t.Dequeued next := by
  cases h <;> assumption

end ReceiveStream

namespace ReceiveHalf

open ReceiveStream

variable {h h' : ReceiveHalf} {connection connection' : ReceiveController}

@[simp]
theorem stream_act (h : ReceiveHalf) (t : ReceiveStream) (len : Nat)
    (copied : List UInt8) (action : ReadAction) :
    (h.act t len copied action).stream = t := by
  cases action <;> rfl

theorem complete_fields {index : Nat} {finRead : Bool}
    (hcomplete : h.complete connection index finRead = (h', connection')) :
    h'.stream = h.stream ∧ h'.call = h.call ∧ h'.results = h.results := by
  rw [complete] at hcomplete
  split at hcomplete <;> cases hcomplete <;> exact ⟨rfl, rfl, rfl⟩

theorem Positioned.copyCurrent (hpos : h.stream.Positioned) {len : Nat}
    {copied copied' : List UInt8} {t : ReceiveStream}
    (hcopied : h.copyCurrent connection len copied = ((t, connection'), copied')) :
    t.Positioned := by
  have ht : (h.copyCurrent connection len copied).1.1 = t := by rw [hcopied]
  rw [← ht]
  exact hpos.copy (length_copyBytes_le ..)

theorem step_cases {convert : Nat → Nat} {event : HalfEvent} (hpos : h.stream.Positioned)
    (hstep : h.step convert connection event = .ok (h', connection')) :
    HalfStep h connection event h' connection' := by
  cases event with
  | handleStreamFrame frame putBack =>
    obtain ⟨⟨⟨t, c⟩, completed⟩, hok, heq⟩ := bind_eq_ok.mp hstep
    cases heq
    exact .streamFrame (handleStreamFrame_handled hok)
  | handleResetStreamFrame byteOffset errorCode =>
    obtain ⟨⟨⟨t, c⟩, completed⟩, hok, heq⟩ := bind_eq_ok.mp hstep
    cases heq
    exact .resetFrame (handleResetStreamFrame_handled hok)
  | cancelRead errorCode =>
    cases hstep
    exact .cancel
  | closeForShutdown err =>
    cases hstep
    exact .shutdown
  | startRead len expired =>
    simp only [step] at hstep
    split at hstep
    · cases hstep
      exact .idle
    · next hcall =>
      cases hstep
      rcases startRead_cases hpos.inFrame len expired with ⟨hread, heq⟩ | ⟨hread, hreads⟩
      · rw [heq]
        exact .atEnd hcall hread
      · exact .readsOn (.inl ⟨hcall, hread, rfl⟩) hreads
  | wakeRead expired =>
    simp only [step] at hstep
    split at hstep
    · next hcall =>
      cases hstep
      exact .readsOn (.inr hcall) (readsOn_wakeRead hpos.inFrame ..)
    · cases hstep
      exact .idle
  | finishCopy expired =>
    simp only [step] at hstep
    split at hstep
    · next len copied hcall =>
      cases hcopied : h.copyCurrent connection len copied with
      | mk credited copied' =>
      have hin := (Positioned.copyCurrent hpos hcopied).inFrame
      rw [copyCurrent, Prod.mk.injEq] at hcopied
      rw [hcopied.1, hcopied.2] at hstep
      cases hstep
      rcases finishCopy_cases hin len copied'.length expired with
        ⟨hread, hlast, heq⟩ | hreads
      · rw [heq]
        exact .ends hcall (Prod.ext hcopied.1 hcopied.2) hread hlast
      · exact .copies hcall (Prod.ext hcopied.1 hcopied.2) hreads
    · cases hstep
      exact .idle
  | streamCompleted index =>
    simp only [step] at hstep
    split at hstep
    · next hindex =>
      cases hstep
      exact .looksUp hindex
    · cases hstep
      exact .idle
  | onStreamCompleted index =>
    simp only [step] at hstep
    split at hstep
    · next hindex => exact .completes hindex (Except.ok.inj hstep)
    · cases hstep
      exact .idle
  | getWindowUpdate timing =>
    cases hstep
    exact .windowUpdate rfl

theorem HalfStep.positioned {event : HalfEvent}
    (hstep : HalfStep h connection event h' connection') (hpos : h.stream.Positioned) :
    h'.stream.Positioned := by
  cases hstep with
  | idle => exact hpos
  | streamFrame hhandled | resetFrame hhandled => exact hhandled.positioned hpos
  | cancel => exact hpos.cancelRead _
  | shutdown => exact hpos.closeForShutdown _
  | atEnd => exact hpos
  | readsOn _ hreads =>
    rw [stream_act]
    exact hreads.dequeued.positioned hpos
  | copies _ hcopied hreads =>
    rw [stream_act]
    exact hreads.dequeued.positioned (Positioned.copyCurrent hpos hcopied)
  | ends _ hcopied _ hlast =>
    obtain ⟨h₁, h₂, h₃, h₄, h₅, h₆, h₇, h₈, h₉, -⟩ := Positioned.copyCurrent hpos hcopied
    exact ⟨h₁, h₂, h₃, h₄, h₅, h₆, h₇, h₈, h₉, fun _ => h₈ hlast⟩
  | looksUp => exact hpos
  | completes _ hcomplete =>
    rw [(complete_fields hcomplete).1]
    exact hpos
  | windowUpdate hupdate =>
    obtain ⟨hcounts, hfinal, -⟩ := StreamController.sameCounts_getWindowUpdate hupdate
    exact hpos.sameCounts hcounts hfinal

end ReceiveHalf

end Qperf.Quic

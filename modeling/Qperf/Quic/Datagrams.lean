import Qperf.Quic.ParsedHeaders

/-!
# Coalesced packets

A datagram may hold several packets with long headers and at last one with a short header.
`handlePacketImpl` cuts off one packet after the other.  A datagram is routed by a second
parser, `ParseConnectionID`, before.
-/

namespace Qperf.Quic

open Qperf.Foundation

def parseConnectionID (data : List UInt8) (shortHeaderConnIDLen : Nat) :
    Except ParseError ConnectionID :=
  match data with
  | [] => .error .eof
  | firstByte :: _ =>
    if ¬ firstByte &&& 0x80 > 0 then
      if data.length < shortHeaderConnIDLen + 1 then .error .eof
      else .ok ((data.drop 1).take shortHeaderConnIDLen)
    else if data.length < 6 then .error .eof
    else
      let destConnIDLen := (data.getD 5 0).toNat
      if data.length < 6 + destConnIDLen then .error .eof
      else .ok ((data.drop 6).take destConnIDLen)

/-! ## Splitting -/

/--
The variables of the loop.  `packetData` is the field `data` of the packet that was received
or cloned last; `stopped` is set by `break`, and `handled` are the pieces that were given to
`handleSinglePacket`.
-/
structure DatagramLoop (σ : Type) where
  data : List UInt8
  packetData : List UInt8
  counter : UInt8 := 0
  lastConnID : ConnectionID := []
  processed : Bool := false
  stopped : Bool := false
  session : σ
  handled : List (List UInt8) := []

namespace DatagramLoop

variable {σ : Type}

def done (l : DatagramLoop σ) : Bool := l.data.isEmpty || l.stopped

def body (srcConnIDLen : Nat)
    (handleSinglePacket : σ → List UInt8 → Header → Bool × σ) (l : DatagramLoop σ) :
    DatagramLoop σ :=
  let packetData := if l.counter > 0 then l.data else l.packetData
  match parsePacket packetData srcConnIDLen with
  | .error _ => { l with packetData, stopped := true }
  | .ok packet =>
    if l.counter > 0 ∧ packet.hdr.destConnectionID ≠ l.lastConnID then
      { l with packetData, stopped := true }
    else
      let (wasProcessed, session) := handleSinglePacket l.session packet.data packet.hdr
      { data := packet.rest
        packetData := packet.data
        counter := l.counter + 1
        lastConnID := packet.hdr.destConnectionID
        processed := l.processed || wasProcessed
        stopped := false
        session
        handled := l.handled ++ [packet.data] }

def run (srcConnIDLen : Nat)
    (handleSinglePacket : σ → List UInt8 → Header → Bool × σ) (turns : Nat)
    (l : DatagramLoop σ) : Except Empty (DatagramLoop σ) :=
  whilePrefix done (fun l => .ok (l.body srcConnIDLen handleSinglePacket)) turns l

def start (datagram : List UInt8) (session : σ) : DatagramLoop σ where
  data := datagram
  packetData := datagram
  session := session

end DatagramLoop

/-! ## One packet -/

def Header.Understood (hdr : Header) : Prop :=
  hdr.isLongHeader = false ∨ hdr.version = 0 ∨ isSupportedVersion hdr.version = true

variable {data rest : List UInt8} {connIDLen : Nat} {packet : ParsedPacket}

theorem ParsedAs.understood_eq {hdr : Header} {understood : Bool}
    (h : ParsedAs connIDLen hdr understood data rest) (hversion : hdr.Understood) :
    understood = true := by
  cases h with
  | short => rfl
  | long hlong _ _ _ htail =>
    cases htail with
    | unsupported hne hunsupported =>
      rcases hversion with hshort | hzero | hsupported
      · rw [hlong] at hshort
        cases hshort
      · exact absurd hzero hne
      · rw [hunsupported] at hsupported
        cases hsupported
    | _ => rfl

theorem LongTail.length_pos {hdr : Header} {tail : List UInt8}
    (h : LongTail hdr true tail rest) : 1 ≤ tail.length := by
  cases h with
  | versionNegotiation _ _ _ hsize => omega
  | retry => simp
  | initial _ _ htoken =>
    have hsize := htoken.size
    have hpos := varIntSize_pos hdr.token.length
    simp only [List.length_append]
    omega
  | numbered _ _ hlength => exact (varIntSize_pos _).trans hlength.size

theorem CutPacket.split (hcut : CutPacket packet data rest)
    (hparsed : ParsedAs connIDLen packet.hdr true data rest) :
    packet.data ++ packet.rest = data ∧
      (packet.hdr.isLongHeader = true → 8 ≤ packet.data.length) ∧
      (packet.hdr.isLongHeader = false → packet.rest = []) := by
  cases hlong : packet.hdr.isLongHeader with
  | false =>
    obtain ⟨hdata, hrest⟩ := hcut.short hlong
    rw [hdata, hrest, List.append_nil]
    exact ⟨rfl, nofun, fun _ => rfl⟩
  | true =>
    obtain ⟨hfits, hdata, hrest⟩ := hcut.long hlong
    obtain ⟨tail, htail, hlen⟩ := hparsed.length_long hlong
    have hpos := htail.length_pos
    have hparsedLen := hcut.parsedLen
    rw [hdata, hrest]
    refine ⟨List.take_append_drop _ _, fun _ => ?_, nofun⟩
    rw [List.length_take]
    omega

private theorem parsePacket_split (h : parsePacket data connIDLen = .ok packet)
    (hversion : packet.hdr.Understood) :
    packet.data ++ packet.rest = data ∧
      (packet.hdr.isLongHeader = true → 8 ≤ packet.data.length) := by
  obtain ⟨understood, rest, hparsed, -, hcut⟩ := parsePacket_eq_ok h
  obtain rfl := hparsed.understood_eq hversion
  obtain ⟨hsplit, hlong, -⟩ := (hcut rfl).split hparsed
  exact ⟨hsplit, hlong⟩

theorem parsePacket_front (h : parsePacket data connIDLen = .ok packet) :
    (∃ dropped, data = packet.data ++ packet.rest ++ dropped) ∧
      (packet.rest ≠ [] → 8 ≤ packet.data.length) := by
  obtain ⟨understood, rest, hparsed, hnot, hcut⟩ := parsePacket_eq_ok h
  cases understood with
  | false =>
    obtain ⟨hdata, hrest⟩ := hnot rfl
    rw [hdata, hrest]
    exact ⟨⟨data, rfl⟩, fun hne => absurd rfl hne⟩
  | true =>
    obtain ⟨hsplit, hlong, hshort⟩ := (hcut rfl).split hparsed
    refine ⟨⟨[], by rw [hsplit, List.append_nil]⟩, fun hne => ?_⟩
    cases hkind : packet.hdr.isLongHeader with
    | true => exact hlong hkind
    | false => exact absurd (hshort hkind) hne

theorem parseConnectionID_eq (h : parsePacket data connIDLen = .ok packet) :
    parseConnectionID data connIDLen = .ok packet.hdr.destConnectionID := by
  obtain ⟨understood, rest, hparsed, -, -⟩ := parsePacket_eq_ok h
  cases hparsed with
  | short hlong _ hbit hdest =>
    rw [List.cons_append, parseConnectionID, if_pos hbit,
      if_neg (by simp only [List.length_cons, List.length_append]; omega),
      List.drop_succ_cons, List.drop_zero, List.take_left' hdest]
  | @long _ _ destLen srcLen version tail _ hlong hbit hversion hdest =>
    match version, hversion with
    | [b₁, b₂, b₃, b₄], _ =>
      simp only [List.cons_append, List.nil_append, List.append_assoc]
      rw [parseConnectionID, if_neg (not_not.mpr hbit),
        if_neg (by simp only [List.length_cons, List.length_append]; omega)]
      simp only [List.getD_cons_succ, List.getD_cons_zero, List.drop_succ_cons,
        List.drop_zero]
      rw [if_neg (by simp only [List.length_cons, List.length_append]; omega),
        List.take_left' hdest]

/-! ## The loop -/

namespace DatagramLoop

variable {σ : Type} {datagram : List UInt8} {l : DatagramLoop σ}
variable {handleSinglePacket : σ → List UInt8 → Header → Bool × σ}

/--
The pieces handled so far stand at the front of the datagram.  Each of them has at least
eight bytes, unless it is the last one.
-/
structure Splits (datagram : List UInt8) (l : DatagramLoop σ) : Prop where
  pieces : ∃ dropped, datagram = l.handled.flatten ++ l.data ++ dropped
  counter : l.counter.toNat = l.handled.length
  eight : l.data ≠ [] → 8 * l.handled.length ≤ l.handled.flatten.length
  first : l.handled = [] → l.packetData = l.data

theorem Splits.start (datagram : List UInt8) (session : σ) :
    Splits datagram (start datagram session) where
  pieces := ⟨[], by simp [DatagramLoop.start]⟩
  counter := rfl
  eight := fun _ => Nat.zero_le _
  first := fun _ => rfl

theorem Splits.handled_lt (hs : Splits datagram l) (hlen : datagram.length ≤ maxReceivePacketSize)
    (hdata : l.data ≠ []) : l.handled.length < 182 := by
  obtain ⟨dropped, hpieces⟩ := hs.pieces
  have height := hs.eight hdata
  have htotal := congrArg List.length hpieces
  simp only [List.length_append] at htotal
  unfold maxReceivePacketSize at hlen
  omega

theorem data_ne_nil (hdone : l.done = false) : l.data ≠ [] := by
  intro hnil
  rw [done, hnil] at hdone
  cases hdone

theorem Splits.packetData (hs : Splits datagram l) :
    (if l.counter > 0 then l.data else l.packetData) = l.data := by
  split
  · rfl
  · next hzero =>
    have hcounter : l.counter.toNat = 0 := by
      exact Nat.eq_zero_of_not_pos hzero
    rw [hs.counter] at hcounter
    exact hs.first (List.eq_nil_of_length_eq_zero hcounter)

inductive Turn (datagram : List UInt8) (l l' : DatagramLoop σ) : Prop where
  | stops (hsplits : Splits datagram l') (hdone : l'.done = true)
  | handles (hsplits : Splits datagram l')
      (hhandled : l'.handled.length = l.handled.length + 1)

variable (handleSinglePacket) in
theorem Splits.body (hs : Splits datagram l)
    (hlen : datagram.length ≤ maxReceivePacketSize) (hdone : l.done = false)
    (srcConnIDLen : Nat) :
    Turn datagram l (l.body srcConnIDLen handleSinglePacket) := by
  have hdata := data_ne_nil hdone
  have hcount := hs.handled_lt hlen hdata
  have hstop : Turn datagram l { l with packetData := l.data, stopped := true } :=
    .stops ⟨hs.pieces, hs.counter, hs.eight, fun _ => rfl⟩ (Bool.or_true _)
  unfold DatagramLoop.body
  rw [hs.packetData]
  dsimp only
  split
  · exact hstop
  · next packet hparse =>
    split
    · exact hstop
    obtain ⟨⟨dropped', hpacket⟩, height⟩ := parsePacket_front hparse
    obtain ⟨dropped, hpieces⟩ := hs.pieces
    refine .handles ⟨⟨dropped' ++ dropped, ?_⟩, ?_, ?_, ?_⟩ (by simp)
    · rw [hpieces, hpacket]
      simp
    · rw [UInt8.toNat_add, hs.counter, List.length_append]
      exact Nat.mod_eq_of_lt (by change l.handled.length + 1 < 256; omega)
    · intro hrest
      have hpiece := height hrest
      have hbefore := hs.eight hdata
      simp only [List.length_append, List.length_cons, List.length_nil, List.flatten_append,
        List.flatten_cons, List.flatten_nil]
      omega
    · intro hnil
      simp at hnil

theorem run_splits (hlen : datagram.length ≤ maxReceivePacketSize) (srcConnIDLen : Nat)
    (session : σ) {turns : Nat}
    (hrun : run srcConnIDLen handleSinglePacket turns (start datagram session) = .ok l) :
    Splits datagram l ∧ (l.done = true ∨ l.handled.length = turns) := by
  induction turns generalizing l with
  | zero =>
    cases hrun
    exact ⟨.start datagram session, .inr rfl⟩
  | succ turns ih =>
    obtain ⟨t, ht, hlast⟩ := whilePrefix_succ_cases hrun
    obtain ⟨hsplits, hturns⟩ := ih ht
    rcases hlast with ⟨hdone, rfl⟩ | ⟨hdone, hbody⟩
    · exact ⟨hsplits, .inl hdone⟩
    · cases hbody
      have hcount := hturns.resolve_left (by simp [hdone])
      cases hsplits.body handleSinglePacket hlen hdone srcConnIDLen with
      | stops hsplits hstops => exact ⟨hsplits, .inl hstops⟩
      | handles hsplits hhandled => exact ⟨hsplits, .inr (by rw [hhandled, hcount])⟩

variable (handleSinglePacket) in
private theorem exists_run (srcConnIDLen turns : Nat) (l : DatagramLoop σ) :
    ∃ l', run srcConnIDLen handleSinglePacket turns l = .ok l' :=
  match run srcConnIDLen handleSinglePacket turns l with
  | .ok l' => ⟨l', rfl⟩
  | .error e => e.elim

/--
Packets are cut off from the front, a datagram has fewer than 256 of them, and the two
parsers agree on the connection ID.
-/
theorem splits_datagrams (srcConnIDLen : Nat)
    (handleSinglePacket : σ → List UInt8 → Header → Bool × σ) :
    (∀ data packet, parsePacket data srcConnIDLen = .ok packet → packet.hdr.Understood →
      packet.data ++ packet.rest = data ∧
        (packet.hdr.isLongHeader = true → 8 ≤ packet.data.length)) ∧
    (∀ (datagram : List UInt8) (session : σ), datagram.length ≤ maxReceivePacketSize →
      (∃ l, l.done = true ∧ l.handled.length < 256 ∧ ∀ turns, 182 ≤ turns →
        run srcConnIDLen handleSinglePacket turns (start datagram session) = .ok l) ∧
      ∀ turns l, run srcConnIDLen handleSinglePacket turns (start datagram session) = .ok l →
        l.counter.toNat = l.handled.length ∧
          ∃ leftover, datagram = l.handled.flatten ++ leftover) ∧
    ∀ data packet, parsePacket data srcConnIDLen = .ok packet →
      parseConnectionID data srcConnIDLen = .ok packet.hdr.destConnectionID := by
  refine ⟨fun _ _ => parsePacket_split, ?_, fun _ _ => parseConnectionID_eq⟩
  intro datagram session hlen
  constructor
  · obtain ⟨l, hrun⟩ := exists_run handleSinglePacket srcConnIDLen 182
      (start datagram session)
    obtain ⟨hsplits, hturns⟩ := run_splits hlen srcConnIDLen session hrun
    have hdone : l.done = true := by
      by_contra hcontra
      have hdata := data_ne_nil (Bool.eq_false_iff.mpr hcontra)
      have hlt := hsplits.handled_lt hlen hdata
      have hcount := hturns.resolve_left hcontra
      omega
    refine ⟨l, hdone, ?_, fun turns hle => ?_⟩
    · rw [← hsplits.counter]
      exact l.counter.toNat_lt
    · obtain ⟨more, rfl⟩ := Nat.exists_eq_add_of_le hle
      exact whilePrefix_of_done hrun hdone more
  · intro turns l hrun
    obtain ⟨hsplits, -⟩ := run_splits hlen srcConnIDLen session hrun
    obtain ⟨dropped, hpieces⟩ := hsplits.pieces
    exact ⟨hsplits.counter, l.data ++ dropped, by rw [hpieces, List.append_assoc]⟩

def coalesced : List UInt8 := [0xe0, 0x51, 0x47, 0x4f, 0xff, 0, 0, 0, 0x40, 1, 2]

theorem splits_datagrams_coalesced :
    ∃ l, l.handled = [[0xe0, 0x51, 0x47, 0x4f, 0xff, 0, 0, 0], [0x40, 1, 2]] ∧
      l.done = true ∧ (∀ turns, 182 ≤ turns →
        run 0 (fun (s : Unit) _ _ => (true, s)) turns (start coalesced ()) = .ok l) ∧
      parseConnectionID coalesced 0 = .ok [] := by
  obtain ⟨-, hsplits, hconnID⟩ := splits_datagrams 0 fun (s : Unit) _ _ => (true, s)
  obtain ⟨⟨l, hdone, -, hrun⟩, -⟩ := hsplits coalesced () (by decide)
  have hhandled : (run 0 (fun (s : Unit) _ _ => (true, s)) 182
      (start coalesced ())).map (fun l => l.handled) =
        .ok [[0xe0, 0x51, 0x47, 0x4f, 0xff, 0, 0, 0], [0x40, 1, 2]] := by
    decide +kernel
  rw [hrun 182 (by decide)] at hhandled
  have hparse : (parsePacket coalesced 0).map (fun packet => packet.hdr.destConnectionID) =
      .ok [] := by
    decide +kernel
  obtain ⟨packet, hpacket, hdest⟩ := map_eq_ok hparse
  refine ⟨l, Except.ok.inj hhandled, hdone, hrun, ?_⟩
  rw [hconnID coalesced packet hpacket, hdest]

end DatagramLoop

end Qperf.Quic

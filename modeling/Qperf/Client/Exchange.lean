import Qperf.Client.Blocks

/-!
# One request and its response

`sendRequest` asks for a resource with a single byte, the server answers with
the body of the first block that has this id, and the client reads until it has
as many bytes as its own block announces.  The transport may split the response
into reads in any way.
-/

namespace Qperf.Client

/-! ## The server -/

def serverBlockSlice (filteredEntries : List FilteredEntry) :
    List StreamControlBlock :=
  (buildStreamControlBlockSlice filteredEntries).map makeResponseBody

/-- The bytes that `handleRequest` writes; a `nil` block is dereferenced. -/
def handleRequest (slice : List StreamControlBlock) (requestBody : UInt8) :
    Option (List UInt8) := do
  let resourceId := requestBody.toUInt16
  let targetControlBlock ← getStreamControlBlockByResourceId slice resourceId
  some targetControlBlock.responseBody

/-! ## The client -/

def requestBody (block : StreamControlBlock) : List UInt8 :=
  memset (List.replicate 1 0) block.resourceId.toUInt8

/--
The receive loop over the results of the successive reads.  Without a further
read the loop waits.
-/
def receiveLoop (responseSize : UInt32) :
    List (List UInt8) → Nat → List UInt8 → Option (List UInt8)
  | [], receivedSize, receivedBytes =>
    if UInt32.ofNat receivedSize < responseSize then none
    else some receivedBytes
  | chunk :: chunks, receivedSize, receivedBytes =>
    if UInt32.ofNat receivedSize < responseSize then
      receiveLoop responseSize chunks (receivedSize + chunk.length)
        (receivedBytes ++ chunk)
    else some receivedBytes

inductive SendOutcome where
  | waiting
  | validationFailed (block : StreamControlBlock)
  | finished (block : StreamControlBlock)
  deriving DecidableEq

def sendRequest (block : StreamControlBlock) (startedAt finishedAt : Int64)
    (reads : List (List UInt8)) : SendOutcome :=
  let block := block.markStarted startedAt
  match receiveLoop block.responseSize reads 0 [] with
  | none => .waiting
  | some receivedBytes =>
    if validateResponse receivedBytes block.responseSize block.resourceId then
      .finished (block.markFinished finishedAt)
    else .validationFailed block

/-! ## The transport -/

def receiveBufferSize : Nat := 1000

/-- The reads deliver the body in order, each with at least one byte. -/
structure Delivers (reads : List (List UInt8)) (body : List UInt8) : Prop where
  flatten : reads.flatten = body
  nonempty : ∀ chunk ∈ reads, 1 ≤ chunk.length
  bounded : ∀ chunk ∈ reads, chunk.length ≤ receiveBufferSize

theorem Delivers.singletons (body : List UInt8) :
    Delivers (body.map fun b => [b]) body where
  flatten := by
    induction body with
    | nil => rfl
    | cons b body ih => simpa using ih
  nonempty := by simp
  bounded := by simp [receiveBufferSize]

theorem Delivers.append {first second : List (List UInt8)}
    {body rest : List UInt8} (h : Delivers first body)
    (h' : Delivers second rest) : Delivers (first ++ second) (body ++ rest) where
  flatten := by rw [List.flatten_append, h.flatten, h'.flatten]
  nonempty := List.forall_mem_append.mpr ⟨h.nonempty, h'.nonempty⟩
  bounded := List.forall_mem_append.mpr ⟨h.bounded, h'.bounded⟩

theorem ofNat_lt_iff {receivedSize : Nat} {responseSize : UInt32} (h : receivedSize < 2 ^ 32) :
    UInt32.ofNat receivedSize < responseSize ↔ receivedSize < responseSize.toNat := by
  rw [UInt32.lt_iff_toNat_lt, UInt32.toNat_ofNat', Nat.mod_eq_of_lt h]

section Receive

variable {responseSize : UInt32} {reads : List (List UInt8)}
  {body : List UInt8}

theorem receiveLoop_append (responseSize : UInt32)
    (first second : List (List UInt8)) (receivedSize : Nat) (receivedBytes : List UInt8)
    (h : receivedSize + first.flatten.length < responseSize.toNat) :
    receiveLoop responseSize (first ++ second) receivedSize receivedBytes =
      receiveLoop responseSize second (receivedSize + first.flatten.length)
        (receivedBytes ++ first.flatten) := by
  have hlimit := responseSize.toNat_lt
  induction first generalizing receivedSize receivedBytes with
  | nil => simp
  | cons chunk first ih =>
    simp only [List.flatten_cons, List.length_append] at h
    rw [List.cons_append, receiveLoop, if_pos, ih _ _ (by omega)]
    · simp [Nat.add_assoc]
    · rw [ofNat_lt_iff (by omega)]
      omega

theorem receiveLoop_done {receivedSize : Nat} {receivedBytes : List UInt8}
    (h : ¬ UInt32.ofNat receivedSize < responseSize) :
    receiveLoop responseSize reads receivedSize receivedBytes = some receivedBytes := by
  cases reads <;> rw [receiveLoop, if_neg h]

theorem receiveLoop_short (h : Delivers reads body) (hshort : body.length < responseSize.toNat) :
    receiveLoop responseSize reads 0 [] = none := by
  have hlimit := responseSize.toNat_lt
  have happend := receiveLoop_append responseSize reads [] 0 [] (by rw [h.flatten]; omega)
  rw [List.append_nil] at happend
  rw [happend, receiveLoop, if_pos]
  rw [h.flatten, ofNat_lt_iff (by omega)]
  omega

theorem receiveLoop_reaching (first second : List (List UInt8)) (chunk : List UInt8)
    (hbefore : first.flatten.length < responseSize.toNat)
    (hreach : responseSize.toNat ≤ first.flatten.length + chunk.length)
    (hlimit : first.flatten.length + chunk.length < 2 ^ 32) :
    receiveLoop responseSize (first ++ chunk :: second) 0 [] = some (first.flatten ++ chunk) := by
  rw [receiveLoop_append _ _ _ _ _ (by omega), receiveLoop, if_pos, receiveLoop_done]
  · simp
  · rw [ofNat_lt_iff (by omega)]
    omega
  · rw [ofNat_lt_iff (by omega)]
    omega

theorem receiveLoop_exact (h : Delivers reads body) (hlength : body.length = responseSize.toNat) :
    receiveLoop responseSize reads 0 [] = some body := by
  have hlimit := responseSize.toNat_lt
  rcases List.eq_nil_or_concat reads with rfl | ⟨first, last, rfl⟩
  · have hbody : [] = body := h.flatten
    subst hbody
    rw [receiveLoop_done]
    rw [ofNat_lt_iff (by omega), ← hlength]
    simp
  · have hflatten : first.flatten ++ last = body := by
      simpa using h.flatten
    have hlast := h.nonempty last (by simp)
    have hsum : first.flatten.length + last.length = body.length := by
      rw [← hflatten, List.length_append]
    rw [List.concat_eq_append, receiveLoop_reaching first [] last (by omega)
      (by omega) (by omega), hflatten]

end Receive

/-! ## Looking up the resource -/

def Positioned (filteredEntries : List FilteredEntry) : Prop :=
  ∀ (i : Nat) (entry : FilteredEntry), filteredEntries[i]? = some entry →
    entry.resourceId = i

private theorem toNat_ofInt_natCast (i : Nat) : (UInt16.ofInt i).toNat = i % 2 ^ 16 := by
  have hmod : ((i : Int) % 2 ^ 16).toNat = i % 2 ^ 16 := by omega
  rw [UInt16.ofInt, UInt16.toNat_ofNat', hmod, Nat.mod_mod]

private theorem toNat_responseSize {entry : FilteredEntry}
    (hnonneg : 0 ≤ entry.responseSize) (hlt : entry.responseSize < 2 ^ 32) :
    ((buildStreamControlBlock entry).responseSize.toNat : Int) = entry.responseSize := by
  simp only [buildStreamControlBlock, UInt32.ofInt, UInt32.toNat_ofNat']
  omega

private theorem requestBody_eq (block : StreamControlBlock) :
    requestBody block = [block.resourceId.toUInt8] := by
  rw [requestBody, memset_eq]
  rfl

section Lookup

variable {filteredEntries : List FilteredEntry}

private theorem getElem_serverBlockSlice {i : Nat} {entry : FilteredEntry}
    (h : filteredEntries[i]? = some entry) :
    (serverBlockSlice filteredEntries)[i]? =
      some (makeResponseBody (buildStreamControlBlock entry)) := by
  simp [serverBlockSlice, buildStreamControlBlockSlice, h]

theorem handleRequest_eq (hid : Positioned filteredEntries) {i : Nat}
    {served : FilteredEntry} (hserved : filteredEntries[i % 256]? = some served) :
    handleRequest (serverBlockSlice filteredEntries) (UInt16.ofInt i).toUInt8 =
      some (List.replicate (buildStreamControlBlock served).responseSize.toNat
        (UInt16.ofInt i).toUInt8) := by
  have hbyte : ∀ k : Nat, (UInt16.ofInt k).toUInt8.toNat = k % 256 := by
    intro k
    rw [UInt16.toNat_toUInt8, toNat_ofInt_natCast]
    omega
  have hblock : ∀ {k : Nat} {entry : FilteredEntry}, filteredEntries[k]? = some entry →
      (makeResponseBody (buildStreamControlBlock entry)).resourceId = UInt16.ofInt k := by
    intro k entry hentry
    simp [makeResponseBody, buildStreamControlBlock, hid k entry hentry]
  have hfind : getStreamControlBlockByResourceId
      (serverBlockSlice filteredEntries) (UInt16.ofInt i).toUInt8.toUInt16 =
        some (makeResponseBody (buildStreamControlBlock served)) := by
    obtain ⟨hlt, hget⟩ := List.getElem?_eq_some_iff.mp (getElem_serverBlockSlice hserved)
    rw [getStreamControlBlockByResourceId, List.find?_eq_some_iff_getElem]
    refine ⟨?_, i % 256, hlt, hget, fun j hj => ?_⟩
    · rw [hblock hserved, decide_eq_true_eq, ← UInt16.toNat_inj,
        toNat_ofInt_natCast, UInt8.toNat_toUInt16, hbyte]
      omega
    · have hlen : j < filteredEntries.length := by
        have := (List.getElem?_eq_some_iff.mp hserved).1
        omega
      have hentry := List.getElem?_eq_getElem hlen
      obtain ⟨_, hgetj⟩ := List.getElem?_eq_some_iff.mp (getElem_serverBlockSlice hentry)
      rw [hgetj, hblock hentry]
      simp only [Bool.not_eq_true', decide_eq_false_iff_not,
        ← UInt16.toNat_inj, toNat_ofInt_natCast, UInt8.toNat_toUInt16, hbyte]
      omega
  have hvalue : (buildStreamControlBlock served).resourceId.toUInt8 =
      (UInt16.ofInt i).toUInt8 := by
    have hserved' : (buildStreamControlBlock served).resourceId =
        UInt16.ofInt (i % 256 : Nat) := hblock hserved
    rw [hserved', ← UInt8.toNat_inj, hbyte, hbyte, Nat.mod_mod]
  simp only [handleRequest, hfind, Option.bind_eq_bind, Option.bind_some,
    responseBody_makeResponseBody, hvalue]

end Lookup

/-! ## The exchange -/

/--
The client asks for the entry at position `i`, and the block of that entry is
marked as finished however the response of the server is split into reads.
-/
def Completes (filteredEntries : List FilteredEntry) (i : Nat) : Prop :=
  ∃ block request body,
    (buildStreamControlBlockSlice filteredEntries)[i]? = some block ∧
      requestBody block = [request] ∧
      handleRequest (serverBlockSlice filteredEntries) request = some body ∧
      ∀ reads, Delivers reads body → ∀ startedAt finishedAt,
        sendRequest block startedAt finishedAt reads =
          .finished ((block.markStarted startedAt).markFinished finishedAt)

section Outcome

variable {block : StreamControlBlock} {startedAt finishedAt : Int64}
  {reads : List (List UInt8)} {body : List UInt8}

theorem sendRequest_finished {block' : StreamControlBlock}
    (h : sendRequest block startedAt finishedAt reads = .finished block') :
    ∃ received, receiveLoop block.responseSize reads 0 [] = some received ∧
      validateResponse received block.responseSize block.resourceId = true := by
  simp only [sendRequest, markStarted_responseSize, markStarted_resourceId] at h
  split at h
  · cases h
  · rename_i received hreceived
    refine ⟨received, hreceived, ?_⟩
    by_contra hinvalid
    simp [hinvalid] at h

theorem sendRequest_of_delivers
    (hbody : body = List.replicate block.responseSize.toNat block.resourceId.toUInt8)
    (hpos : 0 < block.responseSize.toNat) (h : Delivers reads body) :
    sendRequest block startedAt finishedAt reads =
      .finished ((block.markStarted startedAt).markFinished finishedAt) := by
  have hlimit := block.responseSize.toNat_lt
  have hlength : body.length = block.responseSize.toNat := by simp [hbody]
  have hvalid : validateResponse body block.responseSize block.resourceId = true :=
    (validateResponse_iff (by omega)).mpr ⟨hpos, hbody⟩
  have hreceived := receiveLoop_exact h hlength
  simp only [sendRequest, markStarted_responseSize, markStarted_resourceId,
    hreceived, hvalid, if_true]

theorem not_finished_of_empty {block' : StreamControlBlock}
    (hzero : block.responseSize.toNat = 0) :
    sendRequest block startedAt finishedAt reads ≠ .finished block' := by
  intro h
  obtain ⟨received, hreceived, hvalid⟩ := sendRequest_finished h
  rw [receiveLoop_done (by rw [ofNat_lt_iff (by omega)]; omega)] at hreceived
  cases hreceived
  have := (validateResponse_iff (by simp)).mp hvalid
  omega

theorem exists_split_not_finished (block block' : StreamControlBlock)
    (startedAt finishedAt : Int64) (body : List UInt8) (hlimit : body.length < 2 ^ 32)
    (hlength : body.length ≠ block.responseSize.toNat) :
    ∃ reads, Delivers reads body ∧
      sendRequest block startedAt finishedAt reads ≠ .finished block' := by
  rcases Nat.lt_or_gt_of_ne hlength with hshort | hlong
  · refine ⟨_, Delivers.singletons body, fun h => ?_⟩
    obtain ⟨received, hreceived, -⟩ := sendRequest_finished h
    rw [receiveLoop_short (Delivers.singletons body) hshort] at hreceived
    cases hreceived
  · by_cases hzero : block.responseSize.toNat = 0
    · exact ⟨_, Delivers.singletons body, not_finished_of_empty hzero⟩
    · -- The read that reaches the announced size brings one byte more.
      obtain ⟨size, hsize⟩ : ∃ size, block.responseSize.toNat = size + 1 :=
        ⟨block.responseSize.toNat - 1, by omega⟩
      have hsplit : body = body.take size ++
          ((body.drop size).take 2 ++ body.drop (size + 2)) := by
        rw [← List.drop_drop, List.take_append_drop, List.take_append_drop]
      have hfirst := Delivers.singletons (body.take size)
      have hchunk : ((body.drop size).take 2).length = 2 := by
        rw [List.length_take, List.length_drop]
        omega
      have hread : Delivers [(body.drop size).take 2] ((body.drop size).take 2) :=
        ⟨by simp, by simp [hchunk], by simp [hchunk, receiveBufferSize]⟩
      have hreads := hfirst.append
        (hread.append (Delivers.singletons (body.drop (size + 2))))
      rw [← hsplit] at hreads
      refine ⟨_, hreads, fun h => ?_⟩
      obtain ⟨received, hreceived, hvalid⟩ := sendRequest_finished h
      have hbefore : (body.take size).length = size := by
        rw [List.length_take]
        omega
      rw [List.singleton_append, receiveLoop_reaching _ _ _
        (by rw [hfirst.flatten]; omega) (by rw [hfirst.flatten]; omega)
        (by rw [hfirst.flatten]; omega), hfirst.flatten] at hreceived
      have hreceived := Option.some.inj hreceived
      have hcount : received.length = size + 2 := by
        rw [← hreceived, List.length_append, hbefore, hchunk]
      have hreplicate := ((validateResponse_iff (by omega)).mp hvalid).2
      rw [hreplicate, List.length_replicate] at hcount
      omega

end Outcome

section Completes

variable {filteredEntries : List FilteredEntry}
  {i : Nat} {entry served : FilteredEntry}

private theorem exists_served (hentry : filteredEntries[i]? = some entry) :
    ∃ served, filteredEntries[i % 256]? = some served := by
  have hlt := (List.getElem?_eq_some_iff.mp hentry).1
  have hmod : i % 256 < filteredEntries.length := by omega
  exact ⟨_, List.getElem?_eq_getElem hmod⟩

private theorem getElem_buildStreamControlBlockSlice
    (hentry : filteredEntries[i]? = some entry) :
    (buildStreamControlBlockSlice filteredEntries)[i]? =
      some (buildStreamControlBlock entry) := by
  simp [buildStreamControlBlockSlice, hentry]

private theorem requestBody_buildStreamControlBlock (hid : Positioned filteredEntries)
    (hentry : filteredEntries[i]? = some entry) :
    requestBody (buildStreamControlBlock entry) = [(UInt16.ofInt i).toUInt8] := by
  rw [requestBody_eq, ← hid i entry hentry]
  rfl

theorem completes_iff_toNat (hid : Positioned filteredEntries)
    (hentry : filteredEntries[i]? = some entry)
    (hserved : filteredEntries[i % 256]? = some served) :
    Completes filteredEntries i ↔
      (buildStreamControlBlock entry).responseSize.toNat ≠ 0 ∧
        (buildStreamControlBlock served).responseSize.toNat =
          (buildStreamControlBlock entry).responseSize.toNat := by
  have hblock := getElem_buildStreamControlBlockSlice hentry
  have hrequest := requestBody_buildStreamControlBlock hid hentry
  have hbody := handleRequest_eq hid hserved
  constructor
  · rintro ⟨block, request, body, hblock', hrequest', hbody', hall⟩
    rw [hblock] at hblock'
    cases hblock'
    rw [hrequest] at hrequest'
    cases hrequest'
    rw [hbody] at hbody'
    cases hbody'
    refine ⟨fun hzero => not_finished_of_empty hzero
      (hall _ (Delivers.singletons _) 0 0), ?_⟩
    by_contra hne
    obtain ⟨reads, hreads, hnot⟩ := exists_split_not_finished
      (buildStreamControlBlock entry)
      (((buildStreamControlBlock entry).markStarted 0).markFinished 0) 0 0
      (List.replicate (buildStreamControlBlock served).responseSize.toNat
        (UInt16.ofInt i).toUInt8)
      (by simpa using UInt32.toNat_lt _) (by simpa using hne)
    exact hnot (hall reads hreads 0 0)
  · rintro ⟨hpos, hequal⟩
    refine ⟨_, _, _, hblock, hrequest, hbody, fun reads hreads startedAt
      finishedAt => sendRequest_of_delivers ?_ (by omega) hreads⟩
    rw [hequal, ← hid i entry hentry]
    rfl

end Completes

/--
A request completes exactly when its response is not empty and the entry that
its low byte names has a response of the same size.
-/
theorem exchange_completes_iff {filteredEntries : List FilteredEntry}
    (hid : Positioned filteredEntries) (hsize : ∀ entry ∈ filteredEntries,
      0 ≤ entry.responseSize ∧ entry.responseSize < 2 ^ 32)
    {i : Nat} {entry : FilteredEntry} (hentry : filteredEntries[i]? = some entry) :
    Completes filteredEntries i ↔
      0 < entry.responseSize ∧ ∃ served, filteredEntries[i % 256]? = some served ∧
          served.responseSize = entry.responseSize := by
  obtain ⟨served, hserved⟩ := exists_served hentry
  have hmem := hsize entry (List.mem_of_getElem? hentry)
  have hmem' := hsize served (List.mem_of_getElem? hserved)
  have hentrySize := toNat_responseSize hmem.1 hmem.2
  have hservedSize := toNat_responseSize hmem'.1 hmem'.2
  rw [completes_iff_toNat hid hentry hserved]
  constructor
  · rintro ⟨hpos, hequal⟩
    exact ⟨by omega, served, hserved, by omega⟩
  · rintro ⟨hpos, served', hserved', hequal⟩
    rw [hserved] at hserved'
    cases hserved'
    omega

/-! ## Configurations of given sizes -/

def configuredEntry (i : Nat) (size : Int) : FilteredEntry where
  resourceId := i
  requestUrl := "https://a/"
  responseSize := size
  remainingSize := size
  resourceType := "image"
  dependencies := []
  domain := "a"
  method := "GET"
  isStarted := false

def configured (sizes : List Int) : List FilteredEntry :=
  sizes.mapIdx configuredEntry

theorem getElem_configured {sizes : List Int} {i : Nat} {size : Int} (h : sizes[i]? = some size) :
    (configured sizes)[i]? = some (configuredEntry i size) := by
  simp [configured, h]

theorem configured_positioned (sizes : List Int) : Positioned (configured sizes) := by
  intro i entry hentry
  rw [configured, List.getElem?_mapIdx, Option.map_eq_some_iff] at hentry
  obtain ⟨size, -, rfl⟩ := hentry
  rfl

theorem exchange_completes_configured : Completes (configured [1500, 700]) 1 :=
  (exchange_completes_iff (configured_positioned _)
    (by simp [configured, configuredEntry]) rfl).mpr
    ⟨by simp [configuredEntry], _, rfl, rfl⟩

theorem exchange_never_completes : ¬ Completes (configured [0]) 0 ∧
      ¬ Completes (configured (1500 :: List.replicate 256 700)) 256 := by
  constructor
  · rw [completes_iff_toNat (configured_positioned _)
      (getElem_configured rfl) (getElem_configured rfl)]
    decide
  · have hreplicate : ∀ n,
        (1500 :: List.replicate (n + 1) 700 : List Int)[n + 1]? = some 700 := by
      intro n
      rw [List.getElem?_cons_succ, List.getElem?_replicate_of_lt (Nat.lt_succ_self n)]
    have hlast : (1500 :: List.replicate 256 700 : List Int)[256]? =
        some 700 := hreplicate 255
    have hfirst : (1500 :: List.replicate 256 700 : List Int)[256 % 256]? = some 1500 :=
      List.getElem?_cons_zero
    rw [completes_iff_toNat (configured_positioned _)
      (getElem_configured hlast) (getElem_configured hfirst)]
    decide

end Qperf.Client

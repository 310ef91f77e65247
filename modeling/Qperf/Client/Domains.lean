import Mathlib
import Qperf.Client.Blocks

/-!
# The servers of a page

Client and server build the same table from the configured entries: one server for each
domain, with ports in the order in which the domains occur, and with the number of requests
that the domain will get.
-/

namespace Qperf.Client

/-! ## The table -/

def minServerPort : Nat := 8080

def itoa (port : Nat) : String := port.repr

structure ServerControlBlock where
  domain : String
  port : String
  requestCount : Nat
  deriving DecidableEq, Repr

def newServerControlBlock (domain port : String) : ServerControlBlock :=
  ⟨domain, port, 0⟩

abbrev ServerControlBlockMap := AList fun _ : String => ServerControlBlock

structure DomainTable where
  blockMap : ServerControlBlockMap := ∅
  nextServerPort : Nat := minServerPort

def DomainTable.addEntry (t : DomainTable) (e : FilteredEntry) : DomainTable :=
  match t.blockMap.lookup e.domain with
  | none =>
    let newBlock := newServerControlBlock e.domain (itoa t.nextServerPort)
    { blockMap := t.blockMap.insert e.domain { newBlock with requestCount := 1 }
      nextServerPort := t.nextServerPort + 1 }
  | some block =>
    { t with
      blockMap := t.blockMap.insert e.domain
        { block with requestCount := block.requestCount + 1 } }

def buildServerControlBlockSlice (entries : List FilteredEntry) : ServerControlBlockMap :=
  (entries.foldl DomainTable.addEntry {}).blockMap

/-! ## Accepting streams -/

/--
The loop of `handleSession` when `remaining` streams are missing.  `acceptStream` gives the
result of each call, and the streams are those that `handleRequest` gets.
-/
def acceptStreams {ε σ : Type} (acceptStream : Nat → Except ε σ) : Nat → Nat → List σ
  | 0, _ => []
  | remaining + 1, call =>
    match acceptStream call with
    | .error _ => []
    | .ok stream => stream :: acceptStreams acceptStream remaining (call + 1)

def handleSession {ε σ : Type} (acceptStream : Nat → Except ε σ)
    (block : ServerControlBlock) : List σ :=
  acceptStreams acceptStream block.requestCount 0

private theorem length_acceptStreams_le {ε σ : Type} (acceptStream : Nat → Except ε σ)
    (remaining call : Nat) : (acceptStreams acceptStream remaining call).length ≤ remaining := by
  induction remaining generalizing call with
  | zero => exact le_rfl
  | succ remaining ih =>
    rw [acceptStreams]
    split
    · exact Nat.zero_le _
    · exact Nat.succ_le_succ (ih (call + 1))

theorem length_acceptStreams_iff {ε σ : Type} (acceptStream : Nat → Except ε σ)
    (remaining call : Nat) :
    (acceptStreams acceptStream remaining call).length = remaining ↔
      ∀ k < remaining, ∃ stream, acceptStream (call + k) = .ok stream := by
  induction remaining generalizing call with
  | zero => simp [acceptStreams]
  | succ remaining ih =>
    rw [acceptStreams]
    cases hfirst : acceptStream call with
    | error e =>
      refine iff_of_false (Nat.succ_ne_zero remaining).symm fun hall => ?_
      obtain ⟨stream, hstream⟩ := hall 0 (Nat.succ_pos remaining)
      rw [Nat.add_zero, hfirst] at hstream
      cases hstream
    | ok stream =>
      rw [List.length_cons, Nat.add_right_cancel_iff, ih, Nat.forall_lt_succ_left']
      simp [hfirst, Nat.add_assoc, Nat.add_comm 1]

/-! ## The loop -/

def domainsOf (entries : List FilteredEntry) : List String :=
  (entries.map FilteredEntry.domain).eraseDups

structure Tabulates (entries : List FilteredEntry) (t : DomainTable) : Prop where
  nextServerPort : t.nextServerPort = minServerPort + (domainsOf entries).length
  mem_iff : ∀ domain, domain ∈ t.blockMap ↔ domain ∈ entries.map FilteredEntry.domain
  ports : (domainsOf entries).map
      (fun domain => (t.blockMap.lookup domain).map ServerControlBlock.port) =
    (List.range (domainsOf entries).length).map fun k => some (itoa (minServerPort + k))
  counts : ∀ domain block, t.blockMap.lookup domain = some block →
    block.domain = domain ∧
      block.requestCount = (entries.map FilteredEntry.domain).count domain

theorem domainsOf_append (entries : List FilteredEntry) (e : FilteredEntry) :
    domainsOf (entries ++ [e]) =
      domainsOf entries ++
        if e.domain ∈ entries.map FilteredEntry.domain then [] else [e.domain] := by
  rw [domainsOf, List.map_append, List.eraseDups_append, domainsOf]
  congr 1
  by_cases hmem : e.domain ∈ entries.map FilteredEntry.domain <;>
    simp only [List.map_cons, List.map_nil, List.removeAll, List.filter_cons,
      List.filter_nil, List.elem_eq_mem, hmem, decide_true, decide_false, Bool.not_true,
      Bool.not_false, Bool.false_eq_true, if_true, if_false, List.eraseDups_cons,
      List.eraseDups_nil]

section AddEntry

variable {entries : List FilteredEntry} {t : DomainTable} {e : FilteredEntry}

theorem Tabulates.insert (h : Tabulates entries t) {block : ServerControlBlock}
    {nextServerPort : Nat} (hdomain : block.domain = e.domain)
    (hrequests : block.requestCount = (entries.map FilteredEntry.domain).count e.domain + 1)
    (hnext : nextServerPort = minServerPort + (domainsOf (entries ++ [e])).length)
    (hports : (domainsOf (entries ++ [e])).map (fun domain =>
        ((t.blockMap.insert e.domain block).lookup domain).map ServerControlBlock.port) =
      (List.range (domainsOf (entries ++ [e])).length).map
        fun k => some (itoa (minServerPort + k))) :
    Tabulates (entries ++ [e]) ⟨t.blockMap.insert e.domain block, nextServerPort⟩ := by
  refine ⟨hnext, fun domain => ?_, hports, fun domain other hother => ?_⟩
  · rw [AList.mem_insert, h.mem_iff, List.map_append, List.mem_append, Or.comm]
    simp
  · by_cases heq : e.domain = domain
    · subst heq
      rw [AList.lookup_insert] at hother
      cases hother
      exact ⟨hdomain, by simp [hrequests]⟩
    · rw [AList.lookup_insert_ne (Ne.symm heq)] at hother
      simpa [heq] using h.counts domain other hother

theorem Tabulates.addEntry (h : Tabulates entries t) (e : FilteredEntry) :
    Tabulates (entries ++ [e]) (t.addEntry e) := by
  have hdomains := domainsOf_append entries e
  unfold DomainTable.addEntry
  split
  · next hnone =>
    -- the first entry of its domain
    have hfresh : e.domain ∉ entries.map FilteredEntry.domain := by
      rw [← h.mem_iff, ← AList.lookup_eq_none, hnone]
    rw [if_neg hfresh] at hdomains
    refine h.insert rfl ?_ ?_ ?_
    · rw [List.count_eq_zero_of_not_mem hfresh]
    · rw [hdomains, List.length_append, h.nextServerPort]
      rfl
    · rw [hdomains, List.map_append, List.length_append, List.length_singleton,
        List.range_succ, List.map_append, ← h.ports]
      congr 1
      · refine List.map_congr_left fun domain hdomain => ?_
        have hne : domain ≠ e.domain := fun heq =>
          hfresh (heq ▸ List.mem_eraseDups.mp hdomain)
        rw [AList.lookup_insert_ne hne]
      · simp only [List.map_cons, List.map_nil, AList.lookup_insert, Option.map_some,
          h.nextServerPort]
        rfl
  · next block hsome =>
    have hknown : e.domain ∈ entries.map FilteredEntry.domain := by
      rw [← h.mem_iff, ← AList.lookup_isSome, hsome]
      rfl
    rw [if_pos hknown, List.append_nil] at hdomains
    obtain ⟨hdomain, hrequests⟩ := h.counts e.domain block hsome
    refine h.insert hdomain (by rw [hrequests]) (by rw [hdomains, h.nextServerPort]) ?_
    rw [hdomains, ← h.ports]
    refine List.map_congr_left fun domain _ => ?_
    by_cases heq : domain = e.domain
    · subst heq
      rw [AList.lookup_insert, hsome]
      rfl
    · rw [AList.lookup_insert_ne heq]

end AddEntry

private theorem tabulates_foldl (entries : List FilteredEntry) :
    Tabulates entries (entries.foldl DomainTable.addEntry {}) := by
  induction entries using List.reverseRecOn with
  | nil => exact ⟨rfl, by simp, rfl, by simp⟩
  | append_singleton entries e ih =>
    rw [List.foldl_append]
    exact ih.addEntry e

/-! ## The table as a whole -/

section Table

variable {entries : List FilteredEntry} {t : DomainTable} (h : Tabulates entries t)
include h

theorem Tabulates.port_eq {domain : String} {block : ServerControlBlock}
    (hblock : t.blockMap.lookup domain = some block) :
    ∃ k, (domainsOf entries)[k]? = some domain ∧ block.port = itoa (minServerPort + k) := by
  have hmem : domain ∈ domainsOf entries := by
    rw [domainsOf, List.mem_eraseDups, ← h.mem_iff, ← AList.lookup_isSome, hblock]
    rfl
  obtain ⟨k, hk⟩ := List.mem_iff_getElem?.mp hmem
  obtain ⟨hlt, -⟩ := List.getElem?_eq_some_iff.mp hk
  have hport := congrArg (·[k]?) h.ports
  simp only [List.getElem?_map, hk, List.getElem?_range hlt, Option.map_some, hblock,
    Option.some.injEq] at hport
  exact ⟨k, hk, hport⟩

theorem Tabulates.port_injective {domain domain' : String} {block block' : ServerControlBlock}
    (hblock : t.blockMap.lookup domain = some block)
    (hblock' : t.blockMap.lookup domain' = some block')
    (hport : block.port = block'.port) : domain = domain' := by
  obtain ⟨k, hk, hport₁⟩ := h.port_eq hblock
  obtain ⟨k', hk', hport₂⟩ := h.port_eq hblock'
  have hsame : minServerPort + k = minServerPort + k' :=
    Nat.repr_injective (hport₁.symm.trans (hport.trans hport₂))
  obtain rfl := Nat.add_left_cancel hsame
  exact Option.some.inj (hk.symm.trans hk')

theorem Tabulates.sum_requestCount :
    (t.blockMap.entries.map fun entry => entry.2.requestCount).sum = entries.length := by
  have hcounts : t.blockMap.entries.map (fun entry => entry.2.requestCount) =
      t.blockMap.keys.map fun domain => (entries.map FilteredEntry.domain).count domain := by
    rw [AList.keys, List.keys, List.map_map]
    refine List.map_congr_left fun entry hentry => ?_
    exact (h.counts entry.1 entry.2 (AList.mem_lookup_iff.mpr hentry)).2
  have hkeys : t.blockMap.keys.Perm (entries.map FilteredEntry.domain).dedup := by
    refine (List.perm_ext_iff_of_nodup t.blockMap.keys_nodup (List.nodup_dedup _)).mpr ?_
    intro domain
    rw [← AList.mem_keys, h.mem_iff, List.mem_dedup]
  rw [hcounts, (hkeys.map _).sum_eq, List.sum_map_count_dedup_eq_length, List.length_map]

end Table

/--
One server a domain, with consecutive ports in the order of the first occurrences, and with
the requests of its domain counted.  A session gets as many streams, unless accepting one
fails.
-/
theorem buildServerControlBlockSlice_correct (entries : List FilteredEntry) :
    (∀ domain, domain ∈ buildServerControlBlockSlice entries ↔
      ∃ e ∈ entries, e.domain = domain) ∧
    (domainsOf entries).map (fun domain =>
        ((buildServerControlBlockSlice entries).lookup domain).map ServerControlBlock.port) =
      (List.range (domainsOf entries).length).map (fun k => some (itoa (minServerPort + k))) ∧
    (∀ domain domain' block block',
      (buildServerControlBlockSlice entries).lookup domain = some block →
      (buildServerControlBlockSlice entries).lookup domain' = some block' →
      block.port = block'.port → domain = domain') ∧
    ((buildServerControlBlockSlice entries).entries.map
      fun entry => entry.2.requestCount).sum = entries.length ∧
    ∀ domain block, (buildServerControlBlockSlice entries).lookup domain = some block →
      block.domain = domain ∧ block.requestCount = entries.countP (·.domain = domain) ∧
      ∀ (ε σ : Type) (acceptStream : Nat → Except ε σ),
        (handleSession acceptStream block).length ≤ entries.countP (·.domain = domain) ∧
        ((handleSession acceptStream block).length = entries.countP (·.domain = domain) ↔
          ∀ k < entries.countP (·.domain = domain),
            ∃ stream, acceptStream k = .ok stream) := by
  have h := tabulates_foldl entries
  unfold buildServerControlBlockSlice
  refine ⟨fun domain => ?_, h.ports, fun _ _ _ _ => h.port_injective, h.sum_requestCount,
    fun domain block hblock => ?_⟩
  · rw [h.mem_iff, List.mem_map]
  · obtain ⟨hdomain, hrequests⟩ := h.counts domain block hblock
    rw [List.count_eq_countP, List.countP_map] at hrequests
    have hcount : block.requestCount = entries.countP (·.domain = domain) := hrequests
    refine ⟨hdomain, hcount, fun ε σ acceptStream => ?_⟩
    rw [← hcount]
    refine ⟨length_acceptStreams_le acceptStream block.requestCount 0, ?_⟩
    rw [handleSession, length_acceptStreams_iff]
    simp only [Nat.zero_add]

def sampleDomains : List FilteredEntry :=
  ["a", "b", "a"].map fun domain =>
    { resourceId := 0
      requestUrl := ""
      responseSize := 0
      remainingSize := 0
      resourceType := "document"
      dependencies := []
      domain := domain
      method := "GET"
      isStarted := false }

theorem buildServerControlBlockSlice_correct_sampleDomains :
    (buildServerControlBlockSlice sampleDomains).lookup "b" = some ⟨"b", "8081", 1⟩ ∧
      (handleSession (fun k => (.ok k : Except String Nat)) ⟨"b", "8081", 1⟩).length = 1 := by
  have hlookup : (buildServerControlBlockSlice sampleDomains).lookup "b" =
      some ⟨"b", "8081", 1⟩ := by decide +kernel
  obtain ⟨-, -, hsession⟩ :=
    (buildServerControlBlockSlice_correct sampleDomains).2.2.2.2 "b" _ hlookup
  exact ⟨hlookup, (hsession String Nat fun k => .ok k).2.mpr fun k _ => ⟨k, rfl⟩⟩

end Qperf.Client

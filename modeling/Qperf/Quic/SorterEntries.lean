import Qperf.Quic.Reassembly

/-!
# What the entries of a frame sorter have in common

A push only cuts the data that is handed in, so what holds of this data and of every
part of it holds of the entries.  This needs no condition on replaced entries.
-/

namespace Qperf.Quic

namespace FrameSorter

def Cuttable (P : Nat → List UInt8 → Prop) : Prop :=
  ∀ p bytes k m, P p bytes → k ≤ bytes.length → P (p + k) ((bytes.drop k).take m)

def EveryEntry (P : Nat → List UInt8 → Prop) (queue : SorterQueue) : Prop :=
  ∀ p entry, queue.lookup p = some entry → P p entry.data.bytes

variable {P : Nat → List UInt8 → Prop} {s : FrameSorter} {data : Slice} {offset : Nat}
variable {doneCb : Option Callback} {queue next : SorterQueue} {calls : List Callback}

theorem everyEntry_new (P : Nat → List UInt8 → Prop) :
    EveryEntry P FrameSorter.new.queue := by
  intro p entry hentry
  cases hentry

theorem EveryEntry.insert (h : EveryEntry P queue) {entry : FrameSorterEntry}
    (hentry : P offset entry.data.bytes) : EveryEntry P (queue.insert offset entry) := by
  intro p found hfound
  by_cases hp : p = offset
  · subst hp
    rw [AList.lookup_insert] at hfound
    cases hfound
    exact hentry
  · rw [AList.lookup_insert_ne hp] at hfound
    exact h p found hfound

theorem EveryEntry.erase (h : EveryEntry P queue) (p : Nat) :
    EveryEntry P (queue.erase p) := by
  intro q found hfound
  by_cases hq : q = p
  · subst hq
    rw [AList.lookup_erase] at hfound
    cases hfound
  · rw [AList.lookup_erase_ne hq] at hfound
    exact h q found hfound

theorem EveryEntry.deleteAll (h : EveryEntry P queue) (position : Nat)
    (skipped : List ByteInterval) (calls : List Callback) :
    EveryEntry P (deleteAll position skipped queue calls).1 := by
  intro p found hfound
  rw [lookup_deleteAll] at hfound
  split at hfound
  · cases hfound
  · exact h p found hfound

theorem EveryEntry.replaceShorter (h : EveryEntry P queue) (hdata : P offset data.bytes)
    (hreplace : replaceShorter queue data offset doneCb = some (next, calls)) :
    EveryEntry P next := by
  rcases replaceShorter_eq_some hreplace with ⟨-, rfl, -⟩ | ⟨old, -, -, rfl, -⟩
  · exact h
  · exact h.insert hdata

theorem Cuttable.cutData (hcut : Cuttable P) (hdata : P offset data.bytes)
    {before skipped gaps : List ByteInterval} {gap : ByteInterval} {e : EndGap}
    (haround : Around offset (offset + data.length) gaps before skipped gap e) :
    P (cutStart offset gap) (cutData data offset (cutStart offset gap)
      (cutStop (offset + data.length) e)).bytes := by
  have hreaches := haround.reaches
  have hle : offset ≤ cutStart offset gap := Nat.le_max_left ..
  have hin : cutStart offset gap - offset ≤ data.bytes.length := by
    simp only [cutStart, Slice.length] at *
    omega
  have hpart := hcut offset data.bytes (cutStart offset gap - offset)
    (cutStop (offset + data.length) e - cutStart offset gap) hdata hin
  rwa [Nat.add_sub_cancel' hle] at hpart

theorem push_entries (hsep : Separated s.gaps)
    (herror : (s.push data offset doneCb).error = none) :
    (s.push data offset doneCb).sorter = s ∨
      offset + data.length < maxByteCount ∧
      (s.push data offset doneCb).sorter.readPos = s.readPos ∧
      ∀ P, Cuttable P → EveryEntry P s.queue → P offset data.bytes →
        EveryEntry P (s.push data offset doneCb).sorter.queue := by
  have hcase := push_cases hsep data offset doneCb
  generalize s.push data offset doneCb = pushed at hcase herror ⊢
  cases hcase with
  | known => exact .inl rfl
  | duplicate _ hreplace _ hlast =>
    obtain ⟨g, hg, hle⟩ := hlast
    have hne := hsep.nonempty g hg
    have hbounded := hsep.bounded g hg
    refine .inr ⟨by omega, rfl, ?_⟩
    intro P _ hentries hdata
    exact hentries.replaceShorter hdata hreplace
  | noGap => cases herror
  | noEndGap => cases herror
  | @filled queue calls before skipped gap e hreplace haround heffects =>
    obtain ⟨entry, hbytes, hsorter⟩ := insertFrame_ok herror
    rw [hsorter]
    refine .inr ⟨haround.stop_lt_max hsep, rfl, ?_⟩
    intro P hcut hentries hdata
    have hdeleted := (hentries.replaceShorter hdata hreplace).deleteAll
      (cutStart offset gap) skipped calls
    rw [← heffects] at hdeleted
    refine hdeleted.insert ?_
    rw [hbytes]
    exact hcut.cutData hdata haround

/-! ## Bounds -/

structure EndsBy (n : Nat) (s : FrameSorter) : Prop where
  readPos : s.readPos ≤ n
  entries : EveryEntry (fun p bytes => p + bytes.length ≤ n) s.queue

theorem cuttable_endsBy (n : Nat) : Cuttable fun p bytes => p + bytes.length ≤ n := by
  intro p bytes k m hle hk
  simp only [List.length_take, List.length_drop]
  omega

theorem endsBy_new (n : Nat) : EndsBy n .new :=
  ⟨Nat.zero_le n, everyEntry_new _⟩

theorem EndsBy.mono {n m : Nat} (h : EndsBy n s) (hle : n ≤ m) : EndsBy m s :=
  ⟨Nat.le_trans h.readPos hle,
    fun p entry hentry => Nat.le_trans (h.entries p entry hentry) hle⟩

theorem EndsBy.push {n : Nat} (h : EndsBy n s) (hsep : Separated s.gaps)
    (hle : offset + data.length ≤ n) (herror : (s.push data offset doneCb).error = none) :
    EndsBy n (s.push data offset doneCb).sorter := by
  rcases push_entries hsep herror with hsame | ⟨-, hreadPos, hentries⟩
  · rw [hsame]
    exact h
  · exact ⟨hreadPos ▸ h.readPos, hentries _ (cuttable_endsBy n) h.entries hle⟩

theorem EndsBy.push_below (h : EndsBy (maxByteCount - 1) s) (hsep : Separated s.gaps)
    (herror : (s.push data offset doneCb).error = none) :
    EndsBy (maxByteCount - 1) (s.push data offset doneCb).sorter := by
  rcases push_entries hsep herror with hsame | ⟨hlt, hreadPos, hentries⟩
  · rw [hsame]
    exact h
  · exact ⟨hreadPos ▸ h.readPos,
      hentries _ (cuttable_endsBy _) h.entries (Nat.le_sub_one_of_lt hlt)⟩

end FrameSorter

end Qperf.Quic

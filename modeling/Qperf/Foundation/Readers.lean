import Qperf.Foundation.BigEndian
import Qperf.Foundation.Loops

/-!
# Readers of bytes

A reader takes bytes from the front of the bytes that are left.  `Reads r bytes a` says
that `r` takes exactly `bytes` and returns `a`, whatever comes behind them, so that the
readers of the fields of a message make up a reader of the message.
-/

namespace Qperf.Foundation

abbrev Reader (ε : Type) := StateT (List UInt8) (Except ε)

namespace Reader

variable {ε α : Type}

def readByte (eof : ε) : Reader ε UInt8 := fun bytes =>
  match bytes with
  | [] => .error eof
  | b :: rest => .ok (b, rest)

def remaining : Reader ε Nat := fun bytes => .ok (bytes.length, bytes)

/-- Reads `n` bytes; the end may come before the first of them or later. -/
def readFull (eof unexpected : ε) (n : Nat) : Reader ε (List UInt8) := fun bytes =>
  if n ≤ bytes.length then .ok (bytes.take n, bytes.drop n)
  else if bytes.isEmpty then .error eof
  else .error unexpected

def withError {ε' : Type} (f : ε → ε') (r : Reader ε α) : Reader ε' α := fun bytes =>
  match r bytes with
  | .error e => .error (f e)
  | .ok result => .ok result

theorem readByte_bind (eof : ε) (f : UInt8 → Reader ε α) (b : UInt8)
    (rest : List UInt8) : (readByte eof >>= f) (b :: rest) = f b rest := rfl

theorem remaining_bind (f : Nat → Reader ε α) (bytes : List UInt8) :
    (remaining >>= f) bytes = f bytes.length bytes := rfl

variable {bytes rest : List UInt8}

theorem bind_of_ok {β : Type} {r : Reader ε α} {a : α}
    (h : r bytes = .ok (a, rest)) (f : α → Reader ε β) : (r >>= f) bytes = f a rest := by
  change (r bytes >>= fun p => f p.1 p.2) = _
  rw [h, ok_bind]

/-! ## What was read -/

theorem bind_run_eq_ok {β : Type} {r : Reader ε α} {f : α → Reader ε β} {b : β} :
    (r >>= f) bytes = .ok (b, rest) ↔
      ∃ a mid, r bytes = .ok (a, mid) ∧ f a mid = .ok (b, rest) := by
  change (r bytes >>= fun p => f p.1 p.2) = _ ↔ _
  rw [bind_eq_ok, Prod.exists]

theorem bind_run_congr {β : Type} {r : Reader ε α} {f g : α → Reader ε β}
    (h : ∀ a mid, r bytes = .ok (a, mid) → f a mid = g a mid) :
    (r >>= f) bytes = (r >>= g) bytes := by
  change (r bytes >>= fun p => f p.1 p.2) = (r bytes >>= fun p => g p.1 p.2)
  cases hr : r bytes with
  | error => rfl
  | ok p => exact h p.1 p.2 hr

theorem pure_run_eq_ok {a b : α}
    (h : (pure a : Reader ε α) bytes = .ok (b, rest)) : a = b ∧ bytes = rest :=
  Prod.mk.inj (Except.ok.inj h)

theorem readByte_eq_ok {eof : ε} {b : UInt8}
    (h : readByte eof bytes = .ok (b, rest)) : bytes = b :: rest := by
  cases bytes with
  | nil => cases h
  | cons b bytes =>
    cases h
    rfl

theorem readFull_eq_ok {eof unexpected : ε} {n : Nat} {read : List UInt8}
    (h : readFull eof unexpected n bytes = .ok (read, rest)) :
    bytes = read ++ rest ∧ read.length = n := by
  unfold readFull at h
  split_ifs at h with hle
  cases h
  exact ⟨(List.take_append_drop n bytes).symm, List.length_take_of_le hle⟩

end Reader

open Reader

variable {ε α β : Type}

def Reads (r : Reader ε α) (bytes : List UInt8) (a : α) : Prop :=
  ∀ rest, r (bytes ++ rest) = .ok (a, rest)

theorem reads_pure (a : α) : Reads (pure a : Reader ε α) [] a :=
  fun _ => rfl

theorem reads_pure_of_eq {a b : α} (h : a = b) : Reads (pure a : Reader ε α) [] b :=
  h ▸ reads_pure a

variable {bytes : List UInt8} {r : Reader ε α}

theorem Reads.bind_eq {a : α} (h : Reads r bytes a)
    (f : α → Reader ε β) (rest : List UInt8) : (r >>= f) (bytes ++ rest) = f a rest :=
  bind_of_ok (h rest) f

theorem Reads.bind_at {f : α → Reader ε β}
    {bytes' rest : List UInt8} {a : α} {b : β} (h : Reads r bytes a)
    (h' : f a (bytes' ++ rest) = .ok (b, rest)) :
    (r >>= f) (bytes ++ bytes' ++ rest) = .ok (b, rest) := by
  rw [List.append_assoc, h.bind_eq, h']

theorem Reads.bind {f : α → Reader ε β} {bytes' : List UInt8}
    {a : α} {b : β} (h : Reads r bytes a) (h' : Reads (f a) bytes' b) :
    Reads (r >>= f) (bytes ++ bytes') b :=
  fun rest => h.bind_at (h' rest)

theorem Reads.bind_pure {f : α → Reader ε β}
    {a : α} {b : β} (h : Reads r bytes a) (hf : f a = pure b) :
    Reads (r >>= f) bytes b := by
  have hend : Reads (f a) [] b := hf ▸ reads_pure b
  simpa only [List.append_nil] using h.bind hend

theorem Reads.cons {eof : ε} {b : UInt8} {f : UInt8 → Reader ε α} {bytes : List UInt8}
    {a : α} (h : Reads (f b) bytes a) : Reads (readByte eof >>= f) (b :: bytes) a :=
  fun rest => h rest

theorem reads_readFull (eof unexpected : ε) (bytes : List UInt8) :
    Reads (readFull eof unexpected bytes.length) bytes bytes := by
  intro rest
  rw [readFull, if_pos (by rw [List.length_append]; exact Nat.le_add_right ..),
    List.take_left, List.drop_left]

theorem reads_remaining {f : Nat → Reader ε α} {a : α}
    (h : ∀ n, bytes.length ≤ n → Reads (f n) bytes a) :
    Reads (remaining >>= f) bytes a := by
  intro rest
  refine h (bytes ++ rest).length ?_ rest
  rw [List.length_append]
  exact Nat.le_add_right ..

end Qperf.Foundation

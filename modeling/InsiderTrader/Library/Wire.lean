import Mathlib.Data.List.Basic
import Mathlib.Data.Nat.Notation

/-!
# Readers of a wire format

A reader takes bytes from the front of its input and fails with an error, or
returns a value and the bytes it left. What a reader makes of the bytes that a
writer wrote does not depend on what follows them; from the outcomes of the
parts of a format follow those of the whole.

## Main definitions

- `Wire.Reader` — readers, a monad
- `Wire.Reads` — the outcome of a reader on some bytes, whatever follows them
- `Wire.Takes` — the bytes a reader takes are those of its value
- `Wire.times` — read a number of values
- `Wire.utf8`, `Wire.fromUtf8` — the bytes of a text

## Main results

- `Wire.Reads.bind` — reading one part after another
- `Wire.reads_times` — reading the parts of a list
- `Wire.fromUtf8_utf8` — a text is read back from its bytes
-/

namespace Wire

variable {ε α β γ : Type}

/-- Take bytes from the front of the input, or fail. -/
def Reader (ε α : Type) : Type := List UInt8 → Except ε (α × List UInt8)

namespace Reader

/-- Take nothing. -/
def ret (a : α) : Reader ε α := fun bytes => .ok (a, bytes)

/-- Read one part, then another. -/
def andThen (r : Reader ε α) (f : α → Reader ε β) : Reader ε β := fun bytes =>
  match r bytes with
  | .ok (a, rest) => f a rest
  | .error e => .error e

instance : Monad (Reader ε) where
  pure := ret
  bind := andThen

/-- Fail. -/
def fail (e : ε) : Reader ε α := fun _ => .error e

/-- Fail unless a condition holds. -/
def require (c : Prop) [Decidable c] (e : ε) : Reader ε Unit := if c then pure () else fail e

/-- Take nothing, with a given outcome. -/
def ofExcept (x : Except ε α) : Reader ε α := fun bytes => x.map (·, bytes)

/-- Take a number of bytes. -/
def take (short : ε) (n : ℕ) : Reader ε (List UInt8) := fun bytes =>
  if bytes.length < n then .error short else .ok (bytes.take n, bytes.drop n)

/-- Read all of some bytes, between a mark and the end. -/
def complete (magic : List UInt8) (unexpected trailing : ε) (r : Reader ε α)
    (bytes : List UInt8) : Except ε α :=
  if magic.isPrefixOf bytes then
    match r (bytes.drop magic.length) with
    | .ok (a, []) => .ok a
    | .ok (_, _ :: _) => .error trailing
    | .error e => .error e
  else .error unexpected

end Reader

open Reader

/-- Read a number of values. -/
def times (r : Reader ε α) : ℕ → Reader ε (List α)
  | 0 => pure []
  | n + 1 => do
    let a ← r
    let as ← times r n
    pure (a :: as)

/-- On the bytes, whatever follows them, the reader takes just them and has the outcome. -/
def Reads (r : Reader ε α) (bytes : List UInt8) (outcome : Except ε α) : Prop :=
  ∀ rest, r (bytes ++ rest) = outcome.map (·, rest)

section Rules

variable {r : Reader ε α} {f : α → Reader ε β} {bytes bytes' : List UInt8} {a : α} {e : ε}

theorem ok_bind (a : α) (f : α → Except ε β) : (Except.ok a >>= f) = f a := rfl

theorem bind_eq_ok {x : Except ε α} {f : α → Except ε β} {b : β} :
    (x >>= f) = .ok b ↔ ∃ a, x = .ok a ∧ f a = .ok b := by
  cases x with
  | error e => exact ⟨nofun, fun ⟨_, h, _⟩ => nomatch h⟩
  | ok a =>
    rw [ok_bind]
    constructor
    · intro h
      exact ⟨a, rfl, h⟩
    · rintro ⟨_, ⟨⟩, h⟩
      exact h

theorem reads_pure (a : α) : Reads (pure a : Reader ε α) [] (.ok a) := fun _ => rfl

theorem reads_fail (e : ε) : Reads (fail e : Reader ε α) [] (.error e) := fun _ => rfl

/-- What a part leaves to the rest, when its outcome is a value. -/
theorem Reads.run (hr : Reads r bytes (.ok a)) (rest : List UInt8) :
    (r >>= f) (bytes ++ rest) = f a rest := by
  show (match r (bytes ++ rest) with
    | .ok (a, rest) => f a rest
    | .error e => .error e) = _
  rw [hr]
  rfl

theorem Reads.run_next (hr : Reads r bytes (.ok a)) (pieces : List (List UInt8)) :
    (r >>= f) (bytes :: pieces).flatten = f a pieces.flatten :=
  hr.run pieces.flatten

/-- **One part after another.** -/
theorem Reads.bind {o : Except ε α} {p : α → Except ε β} (hr : Reads r bytes o)
    (hf : ∀ a, o = .ok a → Reads (f a) bytes' (p a)) :
    Reads (r >>= f) (bytes ++ bytes') (o >>= p) := by
  intro rest
  show (match r (bytes ++ bytes' ++ rest) with
    | .ok (a, rest) => f a rest
    | .error e => .error e) = _
  rw [List.append_assoc, hr]
  cases o with
  | error e => rfl
  | ok a => exact hf a rfl rest

/-- A part whose outcome is a value. -/
theorem Reads.ok_bind {o : Except ε β} (hr : Reads r bytes (.ok a)) (hf : Reads (f a) bytes' o) :
    Reads (r >>= f) (bytes ++ bytes') o :=
  hr.bind (p := fun _ => o) fun _ h => by
    cases h
    exact hf

/-- The last part. -/
theorem Reads.bind_pure {o : Except ε α} {g : α → β} (hr : Reads r bytes o) :
    Reads (do let a ← r; pure (g a)) bytes (do let a ← o; pure (g a)) := by
  have h := hr.bind (f := fun a => pure (g a)) (p := fun a => .ok (g a)) fun a _ => reads_pure (g a)
  rwa [List.append_nil] at h

/-- The next of some pieces. -/
theorem Reads.next {o : Except ε α} {p : α → Except ε β} {pieces : List (List UInt8)}
    (hr : Reads r bytes o) (hf : ∀ a, o = .ok a → Reads (f a) pieces.flatten (p a)) :
    Reads (r >>= f) (bytes :: pieces).flatten (o >>= p) :=
  hr.bind hf

/-- The next of some pieces, when its outcome is a value. -/
theorem Reads.value {o : Except ε β} {pieces : List (List UInt8)} (hr : Reads r bytes (.ok a))
    (hf : Reads (f a) pieces.flatten o) : Reads (r >>= f) (bytes :: pieces).flatten o :=
  hr.ok_bind hf

/-- A check takes nothing. -/
theorem Reads.require {c : Prop} [Decidable c] {k : Unit → Reader ε β} {o : Except ε β}
    (hk : c → Reads (k ()) bytes o) :
    Reads (Reader.require c e >>= k) bytes (if c then o else .error e) := by
  intro rest
  unfold Reader.require
  split
  · next hc => exact hk hc rest
  · rfl

/-- A check that holds. -/
theorem Reads.checked {c : Prop} [Decidable c] {k : Unit → Reader ε β} {o : Except ε β} (hc : c)
    (hk : Reads (k ()) bytes o) : Reads (Reader.require c e >>= k) bytes o := by
  have hread := Reads.require (e := e) fun _ : c => hk
  rwa [if_pos hc] at hread

/-- A given outcome takes nothing. -/
theorem Reads.ofExcept {x : Except ε α} {k : α → Reader ε β} {p : α → Except ε β}
    (hk : ∀ a, x = .ok a → Reads (k a) bytes (p a)) :
    Reads (Reader.ofExcept x >>= k) bytes (x >>= p) := by
  have hgiven : Reads (Reader.ofExcept x) [] x := fun _ => rfl
  exact hgiven.bind hk

theorem reads_take (short : ε) (bytes : List UInt8) :
    Reads (take short bytes.length) bytes (.ok bytes) := by
  intro rest
  unfold take
  rw [if_neg (by rw [List.length_append]; omega), List.take_left' rfl, List.drop_left' rfl]
  rfl

theorem reads_take_of_length (short : ε) {n : ℕ} (h : bytes.length = n) :
    Reads (take short n) bytes (.ok bytes) := by
  rw [← h]
  exact reads_take short bytes

/-- **The parts of a list**, one after another. -/
theorem reads_times {w : γ → List UInt8} {o : γ → Except ε α} {l : List γ}
    (h : ∀ x ∈ l, Reads r (w x) (o x)) : Reads (times r l.length) (l.flatMap w) (l.mapM o) := by
  induction l with
  | nil => exact reads_pure []
  | cons x l ih =>
    obtain ⟨hx, hl⟩ := List.forall_mem_cons.mp h
    rw [List.flatMap_cons, List.mapM_cons]
    apply hx.bind
    intro a _
    exact (ih hl).bind_pure

/-- **All of some bytes**, between a mark and the end. -/
theorem complete_eq {magic : List UInt8} {unexpected trailing : ε} {o : Except ε α}
    (h : Reads r bytes o) : complete magic unexpected trailing r (magic ++ bytes) = o := by
  have hread := h []
  rw [List.append_nil] at hread
  have hmark : magic.isPrefixOf (magic ++ bytes) = true := by simp
  rw [complete, if_pos hmark, List.drop_left' rfl, hread]
  cases o <;> rfl

end Rules

section Inversion

variable {r : Reader ε α} {f : α → Reader ε β} {bytes rest : List UInt8} {a : α} {b : β}

theorem Reader.bind_eq_ok : (r >>= f) bytes = .ok (b, rest) ↔
    ∃ a mid, r bytes = .ok (a, mid) ∧ f a mid = .ok (b, rest) := by
  show (match r bytes with
    | .ok (a, rest) => f a rest
    | .error e => .error e) = _ ↔ _
  cases hr : r bytes with
  | error e => exact iff_of_false nofun nofun
  | ok read =>
    constructor
    · intro h
      exact ⟨read.1, read.2, rfl, h⟩
    · rintro ⟨_, _, ⟨⟩, h⟩
      exact h

theorem Reader.bind_of_ok (h : r bytes = .ok (a, rest)) : (r >>= f) bytes = f a rest := by
  show (match r bytes with
    | .ok (a, rest) => f a rest
    | .error e => .error e) = _
  rw [h]

theorem Reader.bind_of_error {e : ε} (h : r bytes = .error e) : (r >>= f) bytes = .error e := by
  show (match r bytes with
    | .ok (a, rest) => f a rest
    | .error e => .error e) = _
  rw [h]

theorem Reader.take_eq_ok {short : ε} {n : ℕ} {taken : List UInt8}
    (h : take short n bytes = .ok (taken, rest)) :
    n ≤ bytes.length ∧ taken = bytes.take n ∧ rest = bytes.drop n := by
  unfold take at h
  split at h
  · cases h
  · cases h
    exact ⟨by omega, rfl, rfl⟩

/-- The bytes a reader takes are the bytes of the value it returns, which is one of `P`. -/
def Takes (r : Reader ε α) (w : α → List UInt8) (P : α → Prop) : Prop :=
  ∀ bytes a rest, r bytes = .ok (a, rest) → bytes = w a ++ rest ∧ P a

theorem takes_take (short : ε) (n : ℕ) :
    Takes (take short n) id fun bytes => bytes.length = n := by
  intro bytes taken rest h
  obtain ⟨hle, rfl, rfl⟩ := Reader.take_eq_ok h
  exact ⟨(List.take_append_drop n bytes).symm, List.length_take_of_le hle⟩

/-- **A value made of what was read**, when its bytes are those that were read. -/
theorem Takes.map {w : α → List UInt8} {P : α → Prop} {g : α → β} {w' : β → List UInt8}
    {Q : β → Prop} (hr : Takes r w P) (hw : ∀ a, P a → w' (g a) = w a) (hQ : ∀ a, P a → Q (g a)) :
    Takes (do let a ← r; pure (g a)) w' Q := by
  intro bytes b rest h
  obtain ⟨a, mid, ha, hb⟩ := Reader.bind_eq_ok.mp h
  obtain ⟨hbytes, hP⟩ := hr bytes a mid ha
  cases hb
  rw [hw a hP]
  exact ⟨hbytes, hQ a hP⟩

/-- A check takes nothing. -/
theorem Reader.require_eq_ok {c : Prop} [Decidable c] {e : ε} {u : Unit}
    (h : Reader.require c e bytes = .ok (u, rest)) : c ∧ rest = bytes := by
  unfold Reader.require at h
  split at h
  · next hc =>
    cases h
    exact ⟨hc, rfl⟩
  · cases h

/-- What is read of all of some bytes ends where they end. -/
theorem Reader.complete_eq_ok {magic : List UInt8} {unexpected trailing : ε}
    (h : complete magic unexpected trailing r (magic ++ bytes) = .ok a) :
    r bytes = .ok (a, []) := by
  have hmark : magic.isPrefixOf (magic ++ bytes) = true := by simp
  rw [complete, if_pos hmark, List.drop_left' rfl] at h
  split at h
  · next hread =>
    cases h
    exact hread
  · cases h
  · cases h

end Inversion

section Outcomes

variable {l : List γ} {o : γ → Except ε α} {v : γ → α}

/-- Every part of a list has the value. -/
theorem mapM_eq_ok_map_iff : l.mapM o = .ok (l.map v) ↔ ∀ x ∈ l, o x = .ok (v x) := by
  induction l with
  | nil => exact iff_of_true rfl (by simp)
  | cons x l ih =>
    rw [List.mapM_cons, bind_eq_ok, List.forall_mem_cons, ← ih, List.map_cons]
    constructor
    · rintro ⟨a, ha, h⟩
      obtain ⟨as, has, h⟩ := bind_eq_ok.mp h
      cases h
      exact ⟨ha, has⟩
    · rintro ⟨hx, hl⟩
      refine ⟨v x, hx, ?_⟩
      rw [hl]
      rfl

/-- Every part of a list has some value. -/
theorem exists_mapM_eq_ok_iff : (∃ as, l.mapM o = .ok as) ↔ ∀ x ∈ l, ∃ a, o x = .ok a := by
  induction l with
  | nil => exact iff_of_true ⟨[], rfl⟩ (by simp)
  | cons x l ih =>
    rw [List.mapM_cons, List.forall_mem_cons, ← ih]
    constructor
    · rintro ⟨as, h⟩
      obtain ⟨a, ha, h⟩ := bind_eq_ok.mp h
      obtain ⟨as, has, -⟩ := bind_eq_ok.mp h
      exact ⟨⟨a, ha⟩, as, has⟩
    · rintro ⟨⟨a, ha⟩, as, has⟩
      refine ⟨a :: as, ?_⟩
      rw [ha, has]
      rfl

end Outcomes

section Text

/-- The bytes of a text. -/
def utf8 (s : String) : List UInt8 := s.toByteArray.data.toList

/-- The text of some bytes, when they are valid. -/
def fromUtf8 (bytes : List UInt8) : Option String := String.fromUTF8? ⟨bytes.toArray⟩

/-- **A text** is read back from its bytes. -/
theorem fromUtf8_utf8 (s : String) : fromUtf8 (utf8 s) = some s := by
  have hvalid : ByteArray.IsValidUTF8 ⟨(utf8 s).toArray⟩ := s.isValidUTF8
  rw [fromUtf8, String.fromUTF8?, dif_pos hvalid]
  rfl

/-- Bytes that are a text are the bytes of that text. -/
theorem utf8_of_fromUtf8 {bytes : List UInt8} {s : String} (h : fromUtf8 bytes = some s) :
    utf8 s = bytes := by
  rw [fromUtf8, String.fromUTF8?] at h
  split at h
  · cases h
    rfl
  · cases h

theorem utf8_append (s t : String) : utf8 (s ++ t) = utf8 s ++ utf8 t := by
  rw [utf8, String.toByteArray_append, ByteArray.data_append, Array.toList_append]
  rfl

theorem length_utf8_append (s t : String) :
    (utf8 (s ++ t)).length = (utf8 s).length + (utf8 t).length := by
  rw [utf8_append, List.length_append]

end Text

end Wire

import Mathlib.Data.List.Basic

/-!
# Logs of frames

A log is the concatenation of the frames of its records. Cut at any length it is
the log of its first records, followed by a part of the next frame.

## Main definitions

- `FrameLog.log` — the frames of a list of records, one after the other
- `FrameLog.Torn` — nothing, or a part of a frame but not all of it

## Main results

- `FrameLog.take_log` — what is left of a log that is cut
-/

namespace FrameLog

variable {R β : Type} (frame : R → List β)

/-- The frames of the records, one after the other. -/
def log (records : List R) : List β := records.flatMap frame

/-- Nothing, or a part of the frame of a record in `A`, but not all of it. -/
def Torn (A : R → Prop) (tail : List β) : Prop :=
  tail = [] ∨ ∃ record n, A record ∧ 0 < n ∧ n < (frame record).length ∧
    tail = (frame record).take n

@[simp] theorem log_nil : log frame [] = [] := rfl

@[simp] theorem log_cons (record : R) (records : List R) :
    log frame (record :: records) = frame record ++ log frame records := rfl

theorem log_append (records records' : List R) :
    log frame (records ++ records') = log frame records ++ log frame records' :=
  List.flatMap_append

@[simp] theorem log_singleton (record : R) : log frame [record] = frame record := by
  rw [log_cons, log_nil, List.append_nil]

/-- **A log that is cut** keeps exactly the records whose frames lie inside the cut, and a part of
the next frame. -/
theorem take_log {A : R → Prop} {records : List R} (hA : ∀ record ∈ records, A record) (n : ℕ) :
    ∃ k ≤ records.length, ∃ tail, Torn frame A tail ∧
      (log frame records).take n = log frame (records.take k) ++ tail ∧
      ∀ m ≤ records.length, m ≤ k ↔ (log frame (records.take m)).length ≤ n := by
  induction records generalizing n with
  | nil =>
    refine ⟨0, Nat.le_refl 0, [], .inl rfl, by simp, fun m hm => ?_⟩
    obtain rfl : m = 0 := Nat.le_zero.mp hm
    simp
  | cons record records ih =>
    obtain ⟨hrecord, hrecords⟩ := List.forall_mem_cons.mp hA
    by_cases hwhole : (frame record).length ≤ n
    · obtain ⟨k, hk, tail, htorn, htake, hinside⟩ := ih hrecords (n - (frame record).length)
      refine ⟨k + 1, Nat.succ_le_succ hk, tail, htorn, ?_, fun m hm => ?_⟩
      · rw [log_cons, List.take_append, List.take_of_length_le hwhole, htake, List.take_succ_cons,
          log_cons, List.append_assoc]
      · cases m with
        | zero => simp
        | succ m =>
          rw [List.take_succ_cons, log_cons, List.length_append, Nat.succ_le_succ_iff,
            hinside m (Nat.le_of_succ_le_succ hm)]
          omega
    · have hcut : n < (frame record).length := Nat.lt_of_not_le hwhole
      refine ⟨0, Nat.zero_le _, (frame record).take n, ?_, ?_, fun m hm => ?_⟩
      · by_cases hzero : n = 0
        · exact .inl (by rw [hzero, List.take_zero])
        · exact .inr ⟨record, n, hrecord, Nat.pos_of_ne_zero hzero, hcut, rfl⟩
      · rw [log_cons, List.take_append_of_le_length (Nat.le_of_lt hcut)]
        rfl
      · cases m with
        | zero => simp
        | succ m =>
          rw [List.take_succ_cons, log_cons, List.length_append]
          omega

end FrameLog

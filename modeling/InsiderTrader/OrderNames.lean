import InsiderTrader.Runtime
import Mathlib.Tactic.Ring

/-!
# What the client order ids say

An order that is made from a proposal is named after it; a child is named after
its parent and its number. The engine reads the proposal back from the end of
the name. It finds the proposal of a whole order, and never one of a child.

## Main results

- `parseRadix_hexDigits` — an identity reads back from its digits
- `proposalIdFromClientOrderId_whole` — a whole order names its proposal
- `proposalIdFromClientOrderId_child` — a child names none
-/

namespace InsiderTrader

open Text

-- Identities

/-- The digits of a number are read after those before them. -/
theorem foldlM_hexDigits {bound : ℕ} (width n total : ℕ)
    (h : total * 16 ^ width + n % 16 ^ width < bound) :
    (hexDigits width n).foldlM (fun total c => do
      let v ← digitValue 16 c
      let next := total * 16 + v
      if next < bound then some next else none) total =
      some (total * 16 ^ width + n % 16 ^ width) := by
  induction width generalizing n with
  | zero => simp [hexDigits, Nat.mod_one]
  | succ width ih =>
    have hsplit : n % 16 ^ (width + 1) = (n / 16 % 16 ^ width) * 16 + n % 16 := by
      rw [pow_succ', Nat.mod_mul]
      omega
    have hnext : (total * 16 ^ width + n / 16 % 16 ^ width) * 16 + n % 16 =
        total * 16 ^ (width + 1) + n % 16 ^ (width + 1) := by
      rw [hsplit]
      ring
    have hle : total * 16 ^ width + n / 16 % 16 ^ width ≤
        (total * 16 ^ width + n / 16 % 16 ^ width) * 16 + n % 16 := by omega
    rw [hexDigits, List.foldlM_append, ih _ (by omega)]
    simp only [List.foldlM_cons, List.foldlM_nil, Option.bind_eq_bind, Option.bind_some,
      digitValue_digitChar (Nat.mod_lt n (by decide : 0 < 16)), hnext]
    rw [if_pos h]
    rfl

theorem length_hexDigits (width n : ℕ) : (hexDigits width n).length = width := by
  induction width generalizing n with
  | zero => rfl
  | succ width ih => rw [hexDigits, List.length_append, ih]; rfl

/-- The digits of an identity are those of its low 128 bits. -/
theorem hexDigits_mod (width n : ℕ) : hexDigits width (n % 16 ^ width) = hexDigits width n := by
  induction width generalizing n with
  | zero => rfl
  | succ width ih =>
    have hlow : n % 16 ^ (width + 1) % 16 = n % 16 :=
      Nat.mod_mod_of_dvd n (Dvd.intro_left (16 ^ width) rfl)
    have hhigh : n % 16 ^ (width + 1) / 16 = n / 16 % 16 ^ width := by
      rw [pow_succ, Nat.mod_mul_left_div_self]
    rw [hexDigits, hexDigits, hlow, hhigh, ih]

/-- A digit of an identity is no separator and no sign. -/
theorem ne_of_mem_hexDigits {width n : ℕ} {c : Char} (h : c ∈ hexDigits width n) :
    c ≠ '-' ∧ c ≠ '+' := by
  have hdigit : ∀ k < 16, Nat.digitChar k ≠ '-' ∧ Nat.digitChar k ≠ '+' := by decide
  induction width generalizing n with
  | zero => cases h
  | succ width ih =>
    rcases List.mem_append.mp h with h | h
    · exact ih h
    · rw [List.mem_singleton.mp h]
      exact hdigit _ (Nat.mod_lt n (by decide))

/-- **The digits of an identity** read back. -/
theorem parseRadix_hexDigits {n : ℕ} (h : n < 2 ^ 128) :
    parseRadix 16 (2 ^ 128) (hexDigits 32 n) = some n := by
  have hbound : 0 * 16 ^ 32 + n % 16 ^ 32 < 2 ^ 128 := by
    rw [Nat.mod_eq_of_lt (by omega)]
    omega
  have hread := foldlM_hexDigits 32 n 0 hbound
  rw [Nat.mod_eq_of_lt (by omega), Nat.zero_mul, Nat.zero_add] at hread
  have hne : hexDigits 32 n ≠ [] := by
    intro hnil
    have hlength := length_hexDigits 32 n
    rw [hnil] at hlength
    cases hlength
  rw [parseRadix_of_unsigned hne fun hplus => (ne_of_mem_hexDigits hplus).2 rfl]
  exact hread

-- Names

/-- What the name of an order gives back; zero is no proposal. -/
theorem proposalIdFromClientOrderId_name (r : Runtime) {proposalId : ProposalId}
    (hlt : proposalId < 2 ^ 128) :
    proposalIdFromClientOrderId (r.clientOrderIdForProposal proposalId) =
      if proposalId = 0 then none else some proposalId := by
  have htail : '-' ∉ "proposal_".toList ++ hexDigits 32 proposalId := by
    rw [List.mem_append, not_or]
    exact ⟨by decide, fun h => (ne_of_mem_hexDigits h).1 rfl⟩
  have hname : (r.clientOrderIdForProposal proposalId).toList =
      ("client-intent-" ++ displayIdentity "account" r.accountId).toList ++
        '-' :: ("proposal_".toList ++ hexDigits 32 proposalId) := by
    simp [Runtime.clientOrderIdForProposal, displayIdentity, String.toList_append]
  rw [proposalIdFromClientOrderId, hname, afterLast_append htail]
  simp only [Option.bind_eq_bind, Option.bind_some, stripPrefix_append,
    parseRadix_hexDigits hlt]

/-- **A whole order** names the proposal that it is made from. -/
theorem proposalIdFromClientOrderId_whole (r : Runtime) {proposalId : ProposalId}
    (hpos : 0 < proposalId) (hlt : proposalId < 2 ^ 128) :
    proposalIdFromClientOrderId (r.clientOrderIdForProposal proposalId) = some proposalId := by
  rw [proposalIdFromClientOrderId_name r hlt, if_neg (Nat.ne_of_gt hpos)]

/-- **A child** names no proposal. -/
theorem proposalIdFromClientOrderId_child (parent : String) (sequence : ℕ) :
    proposalIdFromClientOrderId (parent ++ "-child-" ++ toString sequence) = none := by
  have hdigits : ∀ c ∈ (toString sequence).toList, c.isDigit = true := by
    intro c hc
    rw [Nat.toString_eq_repr, Nat.toList_repr] at hc
    exact Nat.isDigit_of_mem_toDigits (by decide) (by decide) hc
  have htail : '-' ∉ (toString sequence).toList := fun h => absurd (hdigits _ h) (by decide)
  have hname : (parent ++ "-child-" ++ toString sequence).toList =
      (parent ++ "-child").toList ++ '-' :: (toString sequence).toList := by
    simp [String.toList_append]
  have hstrip : stripPrefix "proposal_".toList (toString sequence).toList = none := by
    rw [stripPrefix, if_neg]
    intro hlead
    have hp := (List.isPrefixOf_iff_prefix.mp hlead).subset (by decide : 'p' ∈ "proposal_".toList)
    exact absurd (hdigits _ hp) (by decide)
  rw [proposalIdFromClientOrderId, hname, afterLast_append htail]
  simp only [Option.bind_eq_bind, Option.bind_some, hstrip, Option.bind_none]

namespace Runtime

/-- An order that names a proposal has the name of an order of it. -/
def NamedAfter (r : Runtime) (clientOrderId : String) : Prop :=
  ∀ proposalId, proposalIdFromClientOrderId clientOrderId = some proposalId →
    clientOrderId = r.clientOrderIdForProposal proposalId

/-- Names only depend on the account. -/
theorem NamedAfter.congr {r r' : Runtime} (haccount : r'.accountId = r.accountId)
    {clientOrderId : String} (h : r.NamedAfter clientOrderId) : r'.NamedAfter clientOrderId := by
  unfold NamedAfter clientOrderIdForProposal at h ⊢
  rwa [haccount]

/-- The names of orders are told apart by the low 128 bits of the proposal. -/
theorem clientOrderIdForProposal_mod (r : Runtime) (proposalId : ProposalId) :
    r.clientOrderIdForProposal (proposalId % 2 ^ 128) = r.clientOrderIdForProposal proposalId := by
  have hdigits := hexDigits_mod 32 proposalId
  norm_num at hdigits
  simp only [clientOrderIdForProposal, displayIdentity]
  norm_num
  rw [hdigits]

theorem namedAfter_whole (r : Runtime) (proposalId : ProposalId) :
    r.NamedAfter (r.clientOrderIdForProposal proposalId) := by
  intro named hnamed
  rw [← clientOrderIdForProposal_mod r proposalId] at hnamed ⊢
  rw [proposalIdFromClientOrderId_name r (Nat.mod_lt _ (by decide))] at hnamed
  split at hnamed
  · cases hnamed
  · rw [Option.some.inj hnamed]

/-- An order that names no proposal, like a child. -/
theorem namedAfter_of_none {clientOrderId : String} (r : Runtime)
    (h : proposalIdFromClientOrderId clientOrderId = none) : r.NamedAfter clientOrderId := by
  intro proposalId hnamed
  rw [h] at hnamed
  cases hnamed

end Runtime

/-- A name that gives a proposal is not blank. -/
theorem isBlank_of_names {clientOrderId : String} {proposalId : ProposalId}
    (h : proposalIdFromClientOrderId clientOrderId = some proposalId) :
    Text.isBlank clientOrderId = false := by
  unfold proposalIdFromClientOrderId at h
  by_cases hmem : '-' ∈ clientOrderId.toList
  · refine Bool.eq_false_iff.mpr fun hblank => ?_
    exact absurd (List.all_eq_true.mp hblank _ hmem) (by decide)
  · rw [afterLast, if_neg hmem] at h
    cases h

end InsiderTrader

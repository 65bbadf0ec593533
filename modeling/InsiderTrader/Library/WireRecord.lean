import InsiderTrader.Library.WireList

/-!
# Records of a wire format

A format is exact when its reader returns what was written and takes no other
bytes. A record is told apart from every other one by its bytes, and a reader
that makes a value of a record fails on everything that is not one.

## Main definitions

- `Wire.Codes` — the values of a kind are read from their bytes, and from no others
- `Wire.Separates` — records are told apart by their bytes, whatever follows them
- `Wire.Views` — the values of the records of a kind, read from their bytes

## Main results

- `Wire.Codes.separates` — an exact format tells its values apart
- `Wire.Separates.flatMap`, `Wire.Views.times` — the records of a list
-/

namespace Wire

open Reader

variable {ε α ρ : Type} {r : Reader ε α} {w : α → List UInt8} {P : α → Prop}

/-- The values of `P` are read from their bytes, and no others from any bytes. -/
structure Codes (r : Reader ε α) (w : α → List UInt8) (P : α → Prop) : Prop where
  reads : ∀ {a}, P a → Reads r (w a) (.ok a)
  takes : Takes r w P

/-- Numbers of a width. -/
theorem codes_number (short : ε) (width : ℕ) :
    Codes (number short width) (LittleEndian.bytes width) (· < 256 ^ width) where
  reads := reads_number short width
  takes := (takes_take short width).map (fun _ h => LittleEndian.bytes_value_of_length h)
    fun _ h => LittleEndian.value_lt_of_length h

/-- **A machine number** of a width, given by its two conversions. -/
theorem codes_machine (short : ε) {width : ℕ} {ofNat : ℕ → α} {toNat : α → ℕ}
    (hlt : ∀ x, toNat x < 256 ^ width) (hof : ∀ x, ofNat (toNat x) = x)
    (hto : ∀ v < 256 ^ width, toNat (ofNat v) = v) :
    Codes (do let v ← number short width; pure (ofNat v))
      (fun x => LittleEndian.bytes width (toNat x)) fun _ => True where
  reads := by
    intro x _
    have hread := (reads_number short width (hlt x)).bind_pure (g := ofNat)
    rwa [ok_bind, hof] at hread
  takes := (codes_number short width).takes.map (fun v hv => by rw [hto v hv]) fun _ _ => trivial

/-- Records are told apart by their bytes, whatever follows them. -/
def Separates (w : ρ → List UInt8) (P : ρ → Prop) : Prop :=
  ∀ x y s t, P x → P y → w x ++ s = w y ++ t → x = y ∧ s = t

/-- **An exact format** tells its values apart. -/
theorem Codes.separates (h : Codes r w P) : Separates w P := by
  intro x y s t hx hy heq
  have hread := h.reads hx s
  rw [heq, h.reads hy t] at hread
  cases hread
  exact ⟨rfl, rfl⟩

/-- Lists of the same length are told apart as their records are. -/
theorem Separates.flatMap {w : ρ → List UInt8} {P : ρ → Prop} (h : Separates w P) {l m : List ρ}
    {s t : List UInt8} (hlength : l.length = m.length) (hl : ∀ x ∈ l, P x) (hm : ∀ x ∈ m, P x)
    (heq : l.flatMap w ++ s = m.flatMap w ++ t) : l = m ∧ s = t := by
  induction l generalizing m with
  | nil =>
    obtain rfl := List.length_eq_zero_iff.mp hlength.symm
    exact ⟨rfl, heq⟩
  | cons x l ih =>
    obtain ⟨y, m, rfl⟩ := List.exists_cons_of_length_eq_add_one hlength.symm
    obtain ⟨hx, hl'⟩ := List.forall_mem_cons.mp hl
    obtain ⟨hy, hm'⟩ := List.forall_mem_cons.mp hm
    rw [List.flatMap_cons, List.flatMap_cons, List.append_assoc, List.append_assoc] at heq
    obtain ⟨rfl, hrest⟩ := h x y _ _ hx hy heq
    obtain ⟨rfl, rfl⟩ := ih (Nat.succ.inj hlength) hl' hm' hrest
    exact ⟨rfl, rfl⟩

/-- A reader returns the values of the records of `P` from their bytes, and fails on all others. -/
structure Views (r : Reader ε α) (w : ρ → List UInt8) (g : ρ → α) (P : ρ → Prop) : Prop where
  reads : ∀ {x}, P x → Reads r (w x) (.ok (g x))
  stands : ∀ {bytes a rest}, r bytes = .ok (a, rest) → ∃ x, P x ∧ bytes = w x ++ rest ∧ a = g x

/-- **The records of a list**, one after another. -/
theorem Views.times {w : ρ → List UInt8} {g : ρ → α} {P : ρ → Prop} (h : Views r w g P) (n : ℕ) :
    Views (times r n) (fun l : List ρ => l.flatMap w) (List.map g)
      fun l => l.length = n ∧ ∀ x ∈ l, P x where
  reads := by
    rintro l ⟨rfl, hl⟩
    have hread := reads_times (o := fun x => .ok (g x)) fun x hx => h.reads (hl x hx)
    rwa [mapM_eq_ok_map_iff.mpr fun _ _ => rfl] at hread
  stands := by
    induction n with
    | zero =>
      intro bytes as rest hread
      cases hread
      exact ⟨[], ⟨rfl, by simp⟩, rfl, rfl⟩
    | succ n ih =>
      intro bytes as rest hread
      obtain ⟨a, mid, ha, hrest⟩ := Reader.bind_eq_ok.mp hread
      obtain ⟨as, mid, has, hpure⟩ := Reader.bind_eq_ok.mp hrest
      cases hpure
      obtain ⟨x, hx, rfl, rfl⟩ := h.stands ha
      obtain ⟨l, ⟨rfl, hl⟩, rfl, rfl⟩ := ih has
      refine ⟨x :: l, ⟨rfl, List.forall_mem_cons.mpr ⟨hx, hl⟩⟩, ?_, rfl⟩
      rw [List.flatMap_cons, List.append_assoc]

end Wire

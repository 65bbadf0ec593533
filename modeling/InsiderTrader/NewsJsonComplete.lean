import InsiderTrader.NewsJsonTexts

/-!
# What is spelled in the reader's dialect is read

By induction on the derivation: the reader takes each phrase of its dialect off the
front of the bytes, as long as no byte of a number and no cut character follows.

## Main results

- `NewsProviders.Parser.reads_of_spells` — a phrase of the dialect is read
-/

namespace InsiderTrader

open JsonText

namespace NewsProviders

namespace Parser

variable {float : FloatArith} {n : ℕ} {rest r a : List UInt8} {j : Json} {item : Parser Json}

/-- What may follow a value: no byte of a number, and no part of a character. -/
def Follow (r : List UInt8) : Prop := Stops NumberByte r ∧ boundary r = true

-- The parts

theorem ws_of_stops {blanks x : List UInt8} (hblanks : readerJson.Blanks blanks)
    (hstops : Stops White x) : ws (blanks ++ x) = .ok ((), x) := by
  rw [ws, (scan_append (p := White) hblanks hstops).2]

theorem bind_of_same {α β : Type} {p : Parser α} {f : α → Parser β} {x y : List UInt8}
    (h : p x = p y) : (p >>= f) x = (p >>= f) y := by
  change Wire.Reader.andThen p f x = Wire.Reader.andThen p f y
  unfold Wire.Reader.andThen
  rw [h]

/-- White space in front does not matter to a part that skips it. -/
theorem ws_bind_blanks {α : Type} {k : Unit → Parser α} {blanks : List UInt8}
    (hblanks : readerJson.Blanks blanks) (x : List UInt8) :
    (ws >>= k) (blanks ++ x) = (ws >>= k) x := by
  have hall : ∀ b ∈ blanks, decide (White b) = true := fun b hb => decide_eq_true (hblanks b hb)
  refine bind_of_same ?_
  rw [ws, ws, List.dropWhile_append_of_pos hall]

theorem value_blanks {blanks : List UInt8} (hblanks : readerJson.Blanks blanks)
    (x : List UInt8) : value float n (blanks ++ x) = value float n x := by
  cases n with
  | zero => exact ws_bind_blanks hblanks x
  | succ n => exact ws_bind_blanks hblanks x

/-- What is seen after white space. -/
theorem seen_of_stops {α : Type} {f : Option UInt8 → Parser α} {blanks x : List UInt8}
    (hblanks : readerJson.Blanks blanks) (hstops : Stops White x) :
    (ws >>= fun _ => peek >>= f) (blanks ++ x) = f x.head? x :=
  Wire.Reader.bind_of_ok (ws_of_stops hblanks hstops)

theorem seen_at {α : Type} {f : Option UInt8 → Parser α} {x : List UInt8} (hstops : Stops White x) :
    (ws >>= fun _ => peek >>= f) x = f x.head? x :=
  seen_of_stops readerJson.blanks_nil hstops

theorem skip_one {α : Type} (p : Parser α) (byte : UInt8) (x : List UInt8) :
    (skip 1 >>= fun _ => p) (byte :: x) = p x := rfl

theorem expect_append (text : String) (r : List UInt8) :
    expect text (ascii text ++ r) = .ok ((), r) := by
  rw [expect, List.take_left, if_pos rfl, skip, List.drop_left]

theorem literal_complete {text : String} {v : Json} (r : List UInt8) :
    (expect text >>= fun _ => (pure v : Parser Json)) (ascii text ++ r) = .ok (v, r) :=
  Wire.Reader.bind_of_ok (expect_append text r)

theorem boundary_of_ascii {b : UInt8} {x : List UInt8} (h : b.toNat < 0x80) :
    boundary (b :: x) = true := decide_eq_true (.inl h)

theorem number_complete {text : List UInt8} {v : F64} (htext : NumberText text)
    (hv : parseFloat float text = some v) (hr : Follow r) :
    number float (text ++ r) = .ok (.number v, r) := by
  obtain ⟨hscan, hafter⟩ := scan_append (p := NumberByte) htext.bytes hr.1
  have hstart : boundary (text ++ r) = true := by
    obtain ⟨b, tail, rfl, hb⟩ := htext.starts
    have hlt : b.toNat < 0x80 := by
      obtain rfl | hdigit := hb
      · decide
      · exact Nat.lt_of_le_of_lt hdigit.2 (by decide)
    exact boundary_of_ascii hlt
  simp only [number, hscan, hafter, hstart, hr.2, hv, and_self, if_true]

theorem white_ascii {b : UInt8} (h : White b) : b.toNat < 0x80 := by
  simp only [White, List.mem_cons, List.not_mem_nil, or_false] at h
  omega

/-- A value may be followed by white space up to a byte that ends it. -/
theorem follow_ends {blanks : List UInt8} (hblanks : readerJson.Blanks blanks) {c : UInt8}
    (hends : Ends c) (hc : c.toNat < 0x80) (x : List UInt8) : Follow (blanks ++ c :: x) := by
  refine ⟨hblanks.stops hends.2 x, ?_⟩
  cases blanks with
  | nil => exact boundary_of_ascii hc
  | cons b blanks => exact boundary_of_ascii (white_ascii (hblanks b List.mem_cons_self))

/-- White space may follow a value to the end. -/
theorem follow_blanks {blanks : List UInt8} (hblanks : readerJson.Blanks blanks) :
    Follow blanks := by
  refine ⟨hblanks.stops_end, ?_⟩
  cases blanks with
  | nil => rfl
  | cons b blanks => exact boundary_of_ascii (white_ascii (hblanks b List.mem_cons_self))

-- Phrases

/-- What the reader makes of a phrase of its dialect. -/
def Reads (float : FloatArith) (n : ℕ) : Phrase F64 → List UInt8 → Prop
  | .value t, a => ∀ r, Follow r → value float n (a ++ r) = .ok (Json.ofTree t, r)
  | .elements ts, a => ∀ room done r, ts.length ≤ room →
      elements (value float n) room done (a ++ r) = .ok (.array (done ++ Json.ofTrees ts), r)
  | .members _ ms, a => ∀ fuel done r, ms.length ≤ fuel →
      RoomFor (done.map (·.1)) (ms.map (·.1)) →
        members (value float n) fuel done (a ++ r) = .ok (.object (Json.ofMembers done ms), r)

/-- A value is read by its first byte. -/
theorem value_of_dispatch {byte : UInt8} {x : List UInt8}
    {o : Except ParseError (Json × List UInt8)} (hbyte : ¬White byte)
    (h : dispatch float (value float n) byte (byte :: x) = o) :
    value float (n + 1) (byte :: x) = o :=
  (seen_at (stops_cons hbyte)).trans h

theorem literal_reads {text : String} {byte : UInt8} {tail : List UInt8} {t : JsonText.Tree F64} {v : Json}
    (htext : ascii text = byte :: tail) (hbyte : ¬White byte) (hv : v = Json.ofTree t)
    (hdispatch : dispatch float (value float n) byte = (expect text >>= fun _ => pure v)) :
    Reads float (n + 1) (.value t) (ascii text) := by
  intro r _
  have hread : (expect text >>= fun _ => (pure v : Parser Json)) (ascii text ++ r) = .ok (v, r) :=
    literal_complete r
  rw [htext] at hread ⊢
  rw [← hv]
  exact value_of_dispatch hbyte (hdispatch ▸ hread)

theorem null_reads : Reads float (n + 1) (.value .null) (ascii "null") :=
  literal_reads ascii_null (by decide) (by rw [Json.ofTree]) rfl

theorem true_reads : Reads float (n + 1) (.value (.bool true)) (ascii "true") :=
  literal_reads ascii_true (by decide) (by rw [Json.ofTree]) rfl

theorem false_reads : Reads float (n + 1) (.value (.bool false)) (ascii "false") :=
  literal_reads ascii_false (by decide) (by rw [Json.ofTree]) rfl

theorem dispatch_number {b : UInt8} (hb : b = 0x2D ∨ Digit b) :
    dispatch float item b = number float := by
  obtain ⟨hkind, -⟩ := kindOf_digit hb
  have hne {c : UInt8} (hc : kindOf c ≠ some .number) : b ≠ c := by
    rintro rfl
    exact hc hkind
  rw [dispatch, if_neg (hne (by decide)), if_neg (hne (by decide)), if_neg (hne (by decide)),
    if_neg (hne (by decide)), if_neg (hne (by decide)), if_neg (hne (by decide)), if_pos hb]

theorem number_reads {text : List UInt8} {v : F64} (htext : NumberText text)
    (hv : parseFloat float text = some v) : Reads float (n + 1) (.value (.number v)) text := by
  intro r hr
  have hread := number_complete htext hv hr
  obtain ⟨b, tail, rfl, hb⟩ := htext.starts
  rw [Json.ofTree]
  refine value_of_dispatch (kindOf_digit hb).2 ?_
  rw [dispatch_number hb]
  exact hread

theorem string_reads {body : List UInt8} {units : List ℕ} (hbody : Chars ReaderItem body units) :
    Reads float (n + 1) (.value (.string units)) (0x22 :: (body ++ [0x22])) := by
  intro r _
  have hread := string_of_chars hbody 0x22 r
  rw [Json.ofTree, List.cons_append, List.append_assoc, List.singleton_append]
  refine value_of_dispatch (by decide) ?_
  exact Wire.Reader.bind_of_ok hread

-- Arrays

/-- The end of an element: white space, and the byte after it. -/
theorem element_end {room : ℕ} {done : List Json} {t : JsonText.Tree F64} {blanks blanks' x : List UInt8}
    {c : UInt8} (hblanks : readerJson.Blanks blanks) (hvalue : Reads float n (.value t) a)
    (hblanks' : readerJson.Blanks blanks') (hends : Ends c) (hc : c.toNat < 0x80) :
    elements (value float n) (room + 1) done (blanks ++ (a ++ (blanks' ++ c :: x))) =
      (if some c = some 0x2C then do
        skip 1
        elements (value float n) room (done ++ [Json.ofTree t])
      else if some c = some 0x5D then do
        skip 1
        pure (.array (done ++ [Json.ofTree t]))
      else fail "invalid JSON array") (c :: x) := by
  have hread := (value_blanks hblanks _).trans (hvalue _ (follow_ends hblanks' hends hc x))
  exact (Wire.Reader.bind_of_ok hread).trans (seen_of_stops hblanks' (stops_cons hends.1))

theorem lastElement_reads {t : JsonText.Tree F64} {blanks blanks' : List UInt8}
    (hblanks : readerJson.Blanks blanks) (hvalue : Reads float n (.value t) a)
    (hblanks' : readerJson.Blanks blanks') :
    Reads float n (.elements [t]) (blanks ++ (a ++ (blanks' ++ [0x5D]))) := by
  intro room done r hroom
  obtain ⟨room, rfl⟩ := Nat.exists_eq_succ_of_ne_zero (Nat.ne_of_gt hroom)
  simp only [List.append_assoc, List.cons_append, List.nil_append]
  rw [element_end hblanks hvalue hblanks' ends_bracket (by decide), if_neg (by decide),
    if_pos rfl, skip_one, Json.ofTrees, Json.ofTrees]
  rfl

theorem element_reads {t : JsonText.Tree F64} {ts : List (JsonText.Tree F64)} {blanks blanks' rest : List UInt8}
    (hblanks : readerJson.Blanks blanks) (hvalue : Reads float n (.value t) a)
    (hblanks' : readerJson.Blanks blanks') (hrest : Reads float n (.elements ts) rest) :
    Reads float n (.elements (t :: ts)) (blanks ++ (a ++ (blanks' ++ 0x2C :: rest))) := by
  intro room done r hroom
  obtain ⟨room, rfl⟩ := Nat.exists_eq_succ_of_ne_zero (Nat.ne_of_gt (Nat.zero_lt_of_lt hroom))
  simp only [List.append_assoc, List.cons_append]
  rw [element_end hblanks hvalue hblanks' ends_comma (by decide), if_pos rfl, skip_one,
    hrest room _ r (Nat.le_of_succ_le_succ hroom), Json.ofTrees, List.append_assoc,
    List.singleton_append]

theorem elements_blanks {room : ℕ} {done : List Json} {blanks : List UInt8}
    (hblanks : readerJson.Blanks blanks) (x : List UInt8) :
    elements (value float n) room done (blanks ++ x) = elements (value float n) room done x := by
  cases room with
  | zero => rfl
  | succ room =>
    exact bind_of_same (value_blanks hblanks x)

theorem dispatch_bracket (x : List UInt8) : dispatch float item 0x5B (0x5B :: x) =
    (ws >>= fun _ => peek >>= fun byte =>
      if byte = some 0x5D then do
        skip 1
        pure (.array [])
      else elements item 1000 []) x := rfl

theorem emptyArray_reads {blanks : List UInt8} (hblanks : readerJson.Blanks blanks) :
    Reads float (n + 1) (.value (.array [])) (0x5B :: (blanks ++ [0x5D])) := by
  intro r _
  simp only [List.append_assoc, List.cons_append, List.nil_append]
  rw [Json.ofTree, Json.ofTrees]
  refine value_of_dispatch (by decide) ?_
  rw [dispatch_bracket, seen_of_stops hblanks (stops_cons ends_bracket.1)]
  rfl

theorem array_reads {items : List (JsonText.Tree F64)} {body : List UInt8} (hcount : items.length ≤ 1000)
    (hbody : ReaderSpells float n (.elements items) body)
    (hreads : Reads float n (.elements items) body) :
    Reads float (n + 1) (.value (.array items)) (0x5B :: body) := by
  intro r _
  have hread := hreads 1000 [] r hcount
  obtain ⟨blanks, o, rest, rfl, hblanks, ho, hne⟩ := hbody.elements_head
  rw [List.append_assoc, elements_blanks hblanks] at hread
  rw [Json.ofTree, List.cons_append, List.append_assoc]
  refine value_of_dispatch (by decide) ?_
  rw [dispatch_bracket, List.cons_append, seen_of_stops hblanks (stops_cons ho), List.head?_cons,
    if_neg (by simpa using hne)]
  exact hread

-- Objects

theorem require_of {c : Prop} [Decidable c] {message : String} (hc : c) :
    require c message rest = .ok ((), rest) := by
  rw [require, Wire.Reader.require, if_pos hc]
  rfl

/-- The end of a member: its name, its value, white space and the byte after it. -/
theorem member_end {fuel : ℕ} {done : List (String × Json)} {t : JsonText.Tree F64} {o c : UInt8}
    {blanks key blanks₁ blanks₂ blanks₃ x : List UInt8} {units : List ℕ}
    (hroom : done.length < 256) (hblanks : readerJson.Blanks blanks) (ho : ¬White o)
    (hkey : Chars ReaderItem key units) (hblanks₁ : readerJson.Blanks blanks₁)
    (hblanks₂ : readerJson.Blanks blanks₂) (hvalue : Reads float n (.value t) a)
    (hblanks₃ : readerJson.Blanks blanks₃) (hends : Ends c) (hc : c.toNat < 0x80) :
    members (value float n) (fuel + 1) done (blanks ++ o :: (key ++ 0x22 :: (blanks₁ ++ 0x3A ::
      (blanks₂ ++ (a ++ (blanks₃ ++ c :: x)))))) =
      (if some c = some 0x2C then do
        skip 1
        members (value float n) fuel (insert done (nameText units) (Json.ofTree t))
      else if some c = some 0x7D then do
        skip 1
        pure (.object (insert done (nameText units) (Json.ofTree t)))
      else fail "invalid JSON object") (c :: x) := by
  have hcolon : ¬White 0x3A := by decide
  have hread := (value_blanks hblanks₂ _).trans (hvalue _ (follow_ends hblanks₃ hends hc x))
  refine (Wire.Reader.bind_of_ok (require_of hroom)).trans ?_
  refine (Wire.Reader.bind_of_ok (ws_of_stops hblanks (stops_cons ho))).trans ?_
  refine (Wire.Reader.bind_of_ok (string_of_chars hkey o _)).trans ?_
  refine (seen_of_stops hblanks₁ (stops_cons hcolon)).trans ?_
  refine (Wire.Reader.bind_of_ok (require_of rfl)).trans ?_
  refine (skip_one _ _ _).trans ?_
  refine (Wire.Reader.bind_of_ok hread).trans ?_
  exact seen_of_stops hblanks₃ (stops_cons hends.1)

theorem lastMember_reads {first : Bool} {t : JsonText.Tree F64} {o : UInt8}
    {blanks key blanks₁ blanks₂ blanks₃ : List UInt8} {units : List ℕ}
    (hblanks : readerJson.Blanks blanks) (ho : ¬White o) (hkey : Chars ReaderItem key units)
    (hblanks₁ : readerJson.Blanks blanks₁) (hblanks₂ : readerJson.Blanks blanks₂)
    (hvalue : Reads float n (.value t) a) (hblanks₃ : readerJson.Blanks blanks₃) :
    Reads float n (.members first [(units, t)]) (blanks ++ o :: (key ++ 0x22 ::
      (blanks₁ ++ 0x3A :: (blanks₂ ++ (a ++ (blanks₃ ++ [0x7D])))))) := by
  intro fuel done r hfuel hroom
  obtain ⟨fuel, rfl⟩ := Nat.exists_eq_succ_of_ne_zero (Nat.ne_of_gt hfuel)
  rw [List.map_cons, RoomFor, List.length_map] at hroom
  simp only [List.append_assoc, List.cons_append, List.nil_append]
  rw [member_end hroom.1 hblanks ho hkey hblanks₁ hblanks₂ hvalue hblanks₃ ends_brace (by decide),
    if_neg (by decide), if_pos rfl, skip_one, Json.ofMembers, Json.ofMembers]
  rfl

theorem member_reads {first : Bool} {t : JsonText.Tree F64} {ms : List (List ℕ × JsonText.Tree F64)} {o : UInt8}
    {blanks key blanks₁ blanks₂ blanks₃ rest : List UInt8} {units : List ℕ}
    (hblanks : readerJson.Blanks blanks) (ho : ¬White o) (hkey : Chars ReaderItem key units)
    (hblanks₁ : readerJson.Blanks blanks₁) (hblanks₂ : readerJson.Blanks blanks₂)
    (hvalue : Reads float n (.value t) a) (hblanks₃ : readerJson.Blanks blanks₃)
    (hrest : Reads float n (.members false ms) rest) :
    Reads float n (.members first ((units, t) :: ms)) (blanks ++ o :: (key ++ 0x22 ::
      (blanks₁ ++ 0x3A :: (blanks₂ ++ (a ++ (blanks₃ ++ 0x2C :: rest)))))) := by
  intro fuel done r hfuel hroom
  obtain ⟨fuel, rfl⟩ := Nat.exists_eq_succ_of_ne_zero (Nat.ne_of_gt (Nat.zero_lt_of_lt hfuel))
  rw [List.map_cons, RoomFor, List.length_map, ← insert_names done _ (Json.ofTree t)] at hroom
  simp only [List.append_assoc, List.cons_append]
  rw [member_end hroom.1 hblanks ho hkey hblanks₁ hblanks₂ hvalue hblanks₃ ends_comma (by decide),
    if_pos rfl, skip_one, hrest fuel _ r (Nat.le_of_succ_le_succ hfuel) hroom.2, Json.ofMembers]

theorem members_blanks {fuel : ℕ} {done : List (String × Json)} {blanks : List UInt8}
    (hblanks : readerJson.Blanks blanks) (x : List UInt8) :
    members item fuel done (blanks ++ x) = members item fuel done x := by
  by_cases hroom : done.length < 256
  · cases fuel with
    | zero =>
      have hend (y : List UInt8) :
          members item 0 done y = .error (.failed "unterminated JSON string") :=
        Wire.Reader.bind_of_ok (require_of hroom)
      rw [hend, hend]
    | succ fuel =>
      refine (Wire.Reader.bind_of_ok (require_of hroom)).trans ?_
      refine Eq.trans ?_ (Wire.Reader.bind_of_ok (require_of hroom)).symm
      exact ws_bind_blanks hblanks x
  · have hrequire (y : List UInt8) : require (done.length < 256) "JSON object exceeds bound" y =
        .error (.failed "JSON object exceeds bound") := by
      rw [require, Wire.Reader.require, if_neg hroom]
      rfl
    cases fuel with
    | zero =>
      exact (Wire.Reader.bind_of_error (hrequire _)).trans
        (Wire.Reader.bind_of_error (hrequire _)).symm
    | succ fuel =>
      exact (Wire.Reader.bind_of_error (hrequire _)).trans
        (Wire.Reader.bind_of_error (hrequire _)).symm

theorem dispatch_brace (x : List UInt8) : dispatch float item 0x7B (0x7B :: x) =
    (ws >>= fun _ => peek >>= fun byte =>
      if byte = some 0x7D then do
        skip 1
        pure (.object [])
      else allMembers item) x := rfl

theorem emptyObject_reads {blanks : List UInt8} (hblanks : readerJson.Blanks blanks) :
    Reads float (n + 1) (.value (.object [])) (0x7B :: (blanks ++ [0x7D])) := by
  intro r _
  simp only [List.append_assoc, List.cons_append, List.nil_append]
  rw [Json.ofTree, Json.ofMembers]
  refine value_of_dispatch (by decide) ?_
  rw [dispatch_brace, seen_of_stops hblanks (stops_cons ends_brace.1)]
  rfl

theorem object_reads {ms : List (List ℕ × JsonText.Tree F64)} {body : List UInt8}
    (hnames : RoomFor [] (ms.map (·.1))) (hbody : ReaderSpells float n (.members true ms) body)
    (hreads : Reads float n (.members true ms) body) :
    Reads float (n + 1) (.value (.object ms)) (0x7B :: body) := by
  intro r _
  obtain ⟨blanks, o, rest, rfl, hblanks, ho, hne, hlen⟩ := hbody.members_head
  have hfuel : ms.length ≤ (o :: (rest ++ r)).length := by
    rw [List.length_cons] at hlen
    rw [List.length_cons, List.length_append]
    omega
  have hread := hreads _ [] r hfuel hnames
  rw [List.append_assoc, members_blanks hblanks] at hread
  rw [Json.ofTree, List.cons_append, List.append_assoc]
  refine value_of_dispatch (by decide) ?_
  rw [dispatch_brace, List.cons_append, seen_of_stops hblanks (stops_cons ho), List.head?_cons,
    if_neg (by simpa using hne)]
  exact hread

-- Values

/-- **What is spelled** in the dialect of the reader is read, whatever may follow it. -/
theorem reads_of_spells {p : Phrase F64} (h : ReaderSpells float n p a) : Reads float n p a := by
  induction h with
  | null => exact null_reads
  | boolTrue => exact true_reads
  | boolFalse => exact false_reads
  | number hnumeral hvalue => exact number_reads hnumeral.1 hvalue
  | string hbody => exact string_reads hbody
  | emptyArray hws => exact emptyArray_reads hws
  | array hcount hbody ih => exact array_reads hcount hbody ih
  | emptyObject hws => exact emptyObject_reads hws
  | object hnames hbody ih => exact object_reads hnames hbody ih
  | lastElement hws _ hws' ih => exact lastElement_reads hws ih hws'
  | element hws _ hws' _ ih ihrest => exact element_reads hws ih hws' ihrest
  | lastMember hws ho _ hkey hws₁ hws₂ _ hws₃ ih =>
    exact lastMember_reads hws ho hkey hws₁ hws₂ ih hws₃
  | member hws ho _ hkey hws₁ hws₂ _ hws₃ _ ih ihrest =>
    exact member_reads hws ho hkey hws₁ hws₂ ih hws₃ ihrest

end Parser

end NewsProviders

end InsiderTrader

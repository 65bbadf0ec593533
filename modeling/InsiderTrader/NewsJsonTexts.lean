import InsiderTrader.Library.JsonUnique
import InsiderTrader.NewsJsonGrammar

/-!
# The texts that the JSON reader accepts

Each part of the reader takes from the front of its bytes just a phrase of the dialect
of the reader, and every such phrase is taken by it.

## Main definitions

- `NewsProviders.FloatArith.Decimal` — what the conversion to floating point accepts
- `NewsProviders.Parser.Sound`, `NewsProviders.Parser.Complete` — a part that reads values

## Main results

- `NewsProviders.Parser.value_sound`, `NewsProviders.Parser.value_complete` — the reader and its
  dialect
-/

namespace InsiderTrader

open JsonText

/-- The conversion to floating point accepts decimal numerals, of the texts made of their bytes. -/
def FloatArith.Decimal (float : FloatArith) : Prop :=
  ∀ text, (∀ b ∈ text, NumberByte b) →
    ((NewsProviders.Parser.parseFloat float text).isSome ↔ LooseNumeral text)

namespace NewsProviders

namespace Parser

variable {float : FloatArith} {n : ℕ} {rest r : List UInt8} {j : Json} {item : Parser Json}

/-- A value of the reader's dialect, in a number of levels. -/
abbrev ReaderSpells (float : FloatArith) (n : ℕ) : Phrase F64 → List UInt8 → Prop :=
  Spells (parseFloat float) readerJson n

/-- A part that takes no bytes but white space and a value. -/
def Sound (float : FloatArith) (n : ℕ) (item : Parser Json) : Prop :=
  ∀ {rest j r}, item rest = .ok (j, r) → ∃ blanks t a, rest = blanks ++ (a ++ r) ∧
    readerJson.Blanks blanks ∧ ReaderSpells float n (.value t) a ∧ j = Json.ofTree t

-- The parts

theorem ws_eq_ok {u : Unit} (h : ws rest = .ok (u, r)) :
    ∃ blanks, rest = blanks ++ r ∧ readerJson.Blanks blanks ∧ Stops White r := by
  cases h
  refine ⟨rest.takeWhile fun b => decide (White b), List.takeWhile_append_dropWhile.symm, ?_,
    stops_dropWhile rest⟩
  intro b hb
  exact of_mem_takeWhile (p := White) hb

/-- Skipped white space, and what is seen after it. -/
theorem exists_seen {α : Type} {f : Option UInt8 → Parser α} {a : α}
    (h : (ws >>= fun _ => peek >>= f) rest = .ok (a, r)) :
    ∃ blanks mid, rest = blanks ++ mid ∧ readerJson.Blanks blanks ∧ Stops White mid ∧
      f mid.head? mid = .ok (a, r) := by
  obtain ⟨u, mid, hws, hrest⟩ := Wire.Reader.bind_eq_ok.mp h
  obtain ⟨byte, mid', hpeek, hf⟩ := Wire.Reader.bind_eq_ok.mp hrest
  obtain ⟨blanks, hsplit, hblanks, hstops⟩ := ws_eq_ok hws
  cases hpeek
  exact ⟨blanks, mid, hsplit, hblanks, hstops, hf⟩

/-- The byte that was seen is skipped. -/
theorem exists_skipped {α : Type} {p : Parser α} {a : α} {byte : UInt8}
    (h : (skip 1 >>= fun _ => p) rest = .ok (a, r)) (hbyte : rest.head? = some byte) :
    ∃ tail, rest = byte :: tail ∧ p tail = .ok (a, r) := by
  obtain ⟨u, mid, hskip, hp⟩ := Wire.Reader.bind_eq_ok.mp h
  cases hskip
  cases rest with
  | nil => cases hbyte
  | cons b tail =>
    cases hbyte
    exact ⟨tail, rfl, hp⟩

theorem pure_eq_ok {α : Type} {a b : α} (h : (pure a : Parser α) rest = .ok (b, r)) :
    b = a ∧ r = rest := by
  cases h
  exact ⟨rfl, rfl⟩

theorem expect_eq_ok {text : String} {u : Unit} (h : expect text rest = .ok (u, r)) :
    rest = ascii text ++ r := by
  unfold expect at h
  split at h
  · next htake =>
    cases h
    conv_lhs => rw [← List.take_append_drop (ascii text).length rest]
    rw [htake]
  · exact absurd h fail_ne_ok

theorem number_eq_ok (h : number float rest = .ok (j, r)) :
    ∃ text v, rest = text ++ r ∧ (∀ b ∈ text, NumberByte b) ∧ Stops NumberByte r ∧
      parseFloat float text = some v ∧ j = .number v := by
  unfold number at h
  dsimp only at h
  split at h
  · split at h
    · next v hv =>
      cases h
      exact ⟨_, v, List.takeWhile_append_dropWhile.symm, fun _ => of_mem_takeWhile,
        stops_dropWhile rest, hv, rfl⟩
    · exact absurd h fail_ne_ok
  · cases h

-- Arrays

theorem elements_sound (hitem : Sound float n item) {room : ℕ} {values : List Json}
    (h : elements item room values rest = .ok (j, r)) :
    ∃ ts a, rest = a ++ r ∧ ReaderSpells float n (.elements ts) a ∧ ts.length ≤ room ∧
      j = .array (values ++ Json.ofTrees ts) := by
  induction room generalizing values rest with
  | zero => exact absurd h fail_ne_ok
  | succ room ih =>
    obtain ⟨v, after, hv, hafter⟩ := Wire.Reader.bind_eq_ok.mp h
    obtain ⟨blanks, t, a, rfl, hblanks, ht, rfl⟩ := hitem hv
    obtain ⟨blanks', mid, rfl, hblanks', -, hmid⟩ := exists_seen hafter
    split at hmid
    · next hcomma =>
      obtain ⟨tail, rfl, htail⟩ := exists_skipped hmid hcomma
      obtain ⟨ts, b, rfl, hts, hlen, rfl⟩ := ih htail
      refine ⟨t :: ts, _, ?_, .element hblanks ht hblanks' hts, Nat.succ_le_succ hlen, ?_⟩
      · simp only [List.append_assoc, List.cons_append]
      · rw [Json.ofTrees, List.append_assoc, List.singleton_append]
    · split at hmid
      · next hbracket =>
        obtain ⟨tail, rfl, htail⟩ := exists_skipped hmid hbracket
        obtain ⟨rfl, rfl⟩ := pure_eq_ok htail
        refine ⟨[t], _, ?_, .lastElement hblanks ht hblanks', Nat.succ_le_succ (Nat.zero_le _), ?_⟩
        · simp only [List.append_assoc, List.singleton_append]
        · rw [Json.ofTrees, Json.ofTrees]
      · exact absurd hmid fail_ne_ok

theorem array_sound (hitem : Sound float n item) (hopen : rest.head? = some 0x5B)
    (h : array item rest = .ok (j, r)) :
    ∃ t a, rest = a ++ r ∧ ReaderSpells float (n + 1) (.value t) a ∧ j = Json.ofTree t := by
  obtain ⟨tail, rfl, htail⟩ := exists_skipped h hopen
  obtain ⟨blanks, mid, rfl, hblanks, -, hmid⟩ := exists_seen htail
  split at hmid
  · next hbracket =>
    obtain ⟨after, rfl, hafter⟩ := exists_skipped hmid hbracket
    obtain ⟨rfl, rfl⟩ := pure_eq_ok hafter
    refine ⟨.array [], _, ?_, .emptyArray hblanks, ?_⟩
    · simp only [List.append_assoc, List.cons_append, List.nil_append]
    · rw [Json.ofTree, Json.ofTrees]
  · obtain ⟨ts, a, rfl, hts, hlen, rfl⟩ := elements_sound hitem hmid
    refine ⟨.array ts, 0x5B :: (blanks ++ a), ?_, .array hlen (hts.blanks_elements hblanks), ?_⟩
    · simp only [List.append_assoc, List.cons_append]
    · rw [Json.ofTree, List.nil_append]

-- Objects

/-- The names of the members that are kept. -/
theorem insert_names (done : List (String × Json)) (key : String) (v : Json) :
    (insert done key v).map (·.1) = (done.map (·.1)).filter (· ≠ key) ++ [key] := by
  rw [insert, List.map_append, List.filter_map]
  rfl

theorem require_bind_eq_ok {α : Type} {c : Prop} [Decidable c] {message : String}
    {p : Parser α} {a : α} (h : (require c message >>= fun _ => p) rest = .ok (a, r)) :
    c ∧ p rest = .ok (a, r) := by
  obtain ⟨_, mid, hrequire, hp⟩ := Wire.Reader.bind_eq_ok.mp h
  obtain ⟨hc, rfl⟩ := Wire.Reader.require_eq_ok hrequire
  exact ⟨hc, hp⟩

/-- A string opens with a byte of its own, in front of valid characters. -/
theorem string_sound {s : String} (h : string rest = .ok (s, r)) :
    ∃ o body units, rest = o :: (body ++ 0x22 :: r) ∧ Chars ReaderItem body units ∧
      s = nameText units := by
  obtain ⟨body, cs, hrest, hbody, rfl⟩ := exists_chars h
  cases rest with
  | nil => exact absurd hrest (by simp)
  | cons o rest =>
    refine ⟨o, body, _, congrArg (o :: ·) hrest, hbody, ?_⟩
    rw [nameText, Utf.decodeUnits_flatMap]

/-- Skipped white space, and a string after it. -/
theorem exists_named {α : Type} {f : String → Parser α} {a : α}
    (h : (ws >>= fun _ => string >>= f) rest = .ok (a, r)) :
    ∃ blanks o body units mid, rest = blanks ++ o :: (body ++ 0x22 :: mid) ∧
      readerJson.Blanks blanks ∧ ¬White o ∧ Chars ReaderItem body units ∧
      f (nameText units) mid = .ok (a, r) := by
  obtain ⟨u, start, hws, hrest⟩ := Wire.Reader.bind_eq_ok.mp h
  obtain ⟨s, mid, hstring, hf⟩ := Wire.Reader.bind_eq_ok.mp hrest
  obtain ⟨o, body, units, rfl, hbody, rfl⟩ := string_sound hstring
  obtain ⟨blanks, rfl, hblanks, hstops⟩ := ws_eq_ok hws
  exact ⟨blanks, o, body, units, mid, rfl, hblanks, hstops o _ rfl, hbody, hf⟩

/-- The colon of a member, and its value. -/
theorem exists_valued {α : Type} {f : Json → Parser α} {a : α} (hitem : Sound float n item)
    (h : (ws >>= fun _ => peek >>= fun colon =>
      require (colon = some 0x3A) "invalid JSON object" >>= fun _ => skip 1 >>= fun _ =>
        item >>= f) rest = .ok (a, r)) :
    ∃ blanks blanks' t v mid, rest = blanks ++ 0x3A :: (blanks' ++ (v ++ mid)) ∧
      readerJson.Blanks blanks ∧ readerJson.Blanks blanks' ∧
      ReaderSpells float n (.value t) v ∧ f (Json.ofTree t) mid = .ok (a, r) := by
  obtain ⟨blanks, start, rfl, hblanks, -, hstart⟩ := exists_seen h
  obtain ⟨hcolon, hafter⟩ := require_bind_eq_ok hstart
  obtain ⟨tail, rfl, htail⟩ := exists_skipped hafter hcolon
  obtain ⟨j, mid, hj, hf⟩ := Wire.Reader.bind_eq_ok.mp htail
  obtain ⟨blanks', t, v, rfl, hblanks', ht, rfl⟩ := hitem hj
  exact ⟨blanks, blanks', t, v, mid, rfl, hblanks, hblanks', ht, hf⟩

theorem members_sound (hitem : Sound float n item) {fuel : ℕ} {done : List (String × Json)}
    {first : Bool} (hfirst : first = true → Stops White rest ∧ ∀ tail, rest ≠ 0x7D :: tail)
    (h : members item fuel done rest = .ok (j, r)) :
    ∃ ms a, rest = a ++ r ∧ ReaderSpells float n (.members first ms) a ∧
      RoomFor (done.map (·.1)) (ms.map (·.1)) ∧ j = .object (Json.ofMembers done ms) := by
  induction fuel generalizing done rest first with
  | zero => exact absurd (require_bind_eq_ok h).2 fail_ne_ok
  | succ fuel ih =>
    obtain ⟨hroom, hbody⟩ := require_bind_eq_ok h
    obtain ⟨blanks, o, key, units, after, rfl, hblanks, ho, hkey, hafter⟩ := exists_named hbody
    obtain ⟨blanks₁, blanks₂, t, v, mid, rfl, hblanks₁, hblanks₂, ht, hmid⟩ :=
      exists_valued hitem hafter
    obtain ⟨blanks₃, close, rfl, hblanks₃, -, hclose⟩ := exists_seen hmid
    have hopen : first = true → o ≠ 0x7D := by
      rintro htrue rfl
      obtain ⟨hstops, hne⟩ := hfirst htrue
      cases blanks with
      | nil => exact hne _ rfl
      | cons b blanks => exact hstops b _ rfl (hblanks b List.mem_cons_self)
    split at hclose
    · next hcomma =>
      obtain ⟨tail, rfl, htail⟩ := exists_skipped hclose hcomma
      have hlater : false = true → Stops White tail ∧ ∀ more, tail ≠ 0x7D :: more := by
        intro hfalse
        cases hfalse
      obtain ⟨ms, b, rfl, hms, hnames, rfl⟩ := ih hlater htail
      refine ⟨(units, t) :: ms, _, ?_,
        .member hblanks ho hopen hkey hblanks₁ hblanks₂ ht hblanks₃ hms, ⟨?_, ?_⟩, ?_⟩
      · simp only [List.append_assoc, List.cons_append]
      · rwa [List.length_map]
      · rwa [← insert_names]
      · rw [Json.ofMembers]
    · split at hclose
      · next hbrace =>
        obtain ⟨tail, rfl, htail⟩ := exists_skipped hclose hbrace
        obtain ⟨rfl, rfl⟩ := pure_eq_ok htail
        refine ⟨[(units, t)], _, ?_,
          .lastMember hblanks ho hopen hkey hblanks₁ hblanks₂ ht hblanks₃, ⟨?_, trivial⟩, ?_⟩
        · simp only [List.append_assoc, List.cons_append, List.nil_append]
        · rwa [List.length_map]
        · rw [Json.ofMembers, Json.ofMembers]
      · exact absurd hclose fail_ne_ok

theorem object_sound (hitem : Sound float n item) (hopen : rest.head? = some 0x7B)
    (h : object item rest = .ok (j, r)) :
    ∃ t a, rest = a ++ r ∧ ReaderSpells float (n + 1) (.value t) a ∧ j = Json.ofTree t := by
  obtain ⟨tail, rfl, htail⟩ := exists_skipped h hopen
  obtain ⟨blanks, mid, rfl, hblanks, hstops, hmid⟩ := exists_seen htail
  by_cases hbrace : mid.head? = some 0x7D
  · rw [if_pos hbrace] at hmid
    obtain ⟨after, rfl, hafter⟩ := exists_skipped hmid hbrace
    obtain ⟨rfl, rfl⟩ := pure_eq_ok hafter
    refine ⟨.object [], _, ?_, .emptyObject hblanks, ?_⟩
    · simp only [List.append_assoc, List.cons_append, List.nil_append]
    · rw [Json.ofTree, Json.ofMembers]
  · rw [if_neg hbrace] at hmid
    have hfirst : true = true → Stops White mid ∧ ∀ tail, mid ≠ 0x7D :: tail := by
      refine fun _ => ⟨hstops, ?_⟩
      rintro tail rfl
      exact hbrace rfl
    obtain ⟨ms, a, rfl, hms, hnames, rfl⟩ := members_sound hitem hfirst hmid
    refine ⟨.object ms, 0x7B :: (blanks ++ a), ?_, .object hnames (hms.blanks_members hblanks), ?_⟩
    · simp only [List.append_assoc, List.cons_append]
    · rw [Json.ofTree]

-- Values

/-- What a part reads after a literal, which stands for one value. -/
theorem literal_sound {text : String} {v : Json} {t : JsonText.Tree F64}
    (ht : ReaderSpells float (n + 1) (.value t) (ascii text)) (hv : v = Json.ofTree t)
    (h : (expect text >>= fun _ => pure v) rest = .ok (j, r)) :
    ∃ t a, rest = a ++ r ∧ ReaderSpells float (n + 1) (.value t) a ∧ j = Json.ofTree t := by
  obtain ⟨_, mid, hexpect, hpure⟩ := Wire.Reader.bind_eq_ok.mp h
  obtain ⟨rfl, rfl⟩ := pure_eq_ok hpure
  exact ⟨t, ascii text, expect_eq_ok hexpect, ht, hv⟩

theorem number_sound (hfloat : float.Decimal) {byte : UInt8} {tail : List UInt8}
    (hrest : rest = byte :: tail) (hbyte : byte = 0x2D ∨ Digit byte)
    (h : number float rest = .ok (j, r)) :
    ∃ t a, rest = a ++ r ∧ ReaderSpells float (n + 1) (.value t) a ∧ j = Json.ofTree t := by
  obtain ⟨text, v, htext, hbytes, hstops, hv, rfl⟩ := number_eq_ok h
  have hloose : LooseNumeral text := (hfloat text hbytes).mp (Option.isSome_of_eq_some hv)
  refine ⟨.number v, text, htext, .number ⟨⟨?_, hbytes⟩, hloose⟩ hv, by rw [Json.ofTree]⟩
  cases text with
  | nil =>
    have hnumber : NumberByte byte := by
      obtain rfl | hdigit := hbyte
      · exact .inr (by decide)
      · exact .inl hdigit
    exact absurd hnumber (hstops byte tail (htext.symm.trans hrest))
  | cons b text =>
    cases htext.symm.trans hrest
    exact ⟨byte, text, rfl, hbyte⟩

theorem dispatch_sound (hfloat : float.Decimal) (hitem : Sound float n item) {byte : UInt8}
    {tail : List UInt8} (hrest : rest = byte :: tail)
    (h : dispatch float item byte rest = .ok (j, r)) :
    ∃ t a, rest = a ++ r ∧ ReaderSpells float (n + 1) (.value t) a ∧ j = Json.ofTree t := by
  have hhead {b : UInt8} (hb : byte = b) : rest.head? = some b := by rw [hrest, hb, List.head?_cons]
  unfold dispatch at h
  split_ifs at h with hnull htrue hfalse hquote hbracket hbrace hnumber
  · exact literal_sound .null (by rw [Json.ofTree]) h
  · exact literal_sound .boolTrue (by rw [Json.ofTree]) h
  · exact literal_sound .boolFalse (by rw [Json.ofTree]) h
  · obtain ⟨s, mid, hstring, hpure⟩ := Wire.Reader.bind_eq_ok.mp h
    obtain ⟨rfl, rfl⟩ := pure_eq_ok hpure
    obtain ⟨o, body, units, heq, hbody, rfl⟩ := string_sound hstring
    cases hrest.symm.trans heq
    refine ⟨.string units, 0x22 :: (body ++ [0x22]), ?_, .string hbody, by rw [Json.ofTree]⟩
    rw [hrest, hquote, List.cons_append, List.append_assoc, List.singleton_append]
  · exact array_sound hitem (hhead hbracket) h
  · exact object_sound hitem (hhead hbrace) h
  · exact number_sound hfloat hrest hnumber h
  · exact absurd h fail_ne_ok

/-- **What the reader takes** is a value of its dialect. -/
theorem value_sound (hfloat : float.Decimal) (n : ℕ) : Sound float n (value float n) := by
  induction n with
  | zero =>
    intro rest j r h
    obtain ⟨_, mid, _, hfail⟩ := Wire.Reader.bind_eq_ok.mp h
    exact absurd hfail fail_ne_ok
  | succ n ih =>
    intro rest j r h
    obtain ⟨blanks, mid, rfl, hblanks, -, hmid⟩ := exists_seen h
    cases mid with
    | nil => exact absurd hmid fail_ne_ok
    | cons byte tail =>
      obtain ⟨t, a, heq, ht, hj⟩ := dispatch_sound hfloat ih rfl hmid
      exact ⟨blanks, t, a, congrArg (blanks ++ ·) heq, hblanks, ht, hj⟩

end Parser

end NewsProviders

end InsiderTrader

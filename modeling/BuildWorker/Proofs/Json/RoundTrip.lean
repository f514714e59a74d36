import BuildWorker.Json.Reader
import BuildWorker.Json.Writer
import BuildWorker.Proofs.Text.Utf8

/-!
# Reading back what was written

The canonical text of a value names that value and no other. This holds of every value that a
message can have as its form: its numbers are integers, and its strings hold no bare control
character (`Json.IsPlain`).

A writer takes the bytes that follow, and so does each lemma: what is read is the value, and what
is left are the bytes that followed. Only a number needs to know something of them, that they do
not go on with it (`Json.endsNumber`).

The reader recurses on a bound. The length of the text written is large enough
(`Json.value_writeOnto`), since each level of nesting and each item costs at least a byte.
-/

namespace BuildWorker.Json

/-! ### Digits -/

theorem toNat_of_isDigit {c : Char} (h : c.isDigit = true) : 48 ≤ c.toNat ∧ c.toNat ≤ 57 := by
  simp only [Char.isDigit, Bool.and_eq_true, decide_eq_true_eq] at h
  exact ⟨UInt32.le_iff_toNat_le.1 h.1, UInt32.le_iff_toNat_le.1 h.2⟩

/-- The byte of a digit is read as a digit, with the value of its character. -/
theorem byte_of_isDigit {c : Char} (h : c.isDigit = true) :
    isDigit (UInt8.ofNat c.toNat) = true ∧ (UInt8.ofNat c.toNat).toNat = c.toNat := by
  obtain ⟨low, high⟩ := toNat_of_isDigit h
  have value : (UInt8.ofNat c.toNat).toNat = c.toNat := by
    rw [UInt8.toNat_ofNat']
    exact Nat.mod_eq_of_lt (by omega)
  refine ⟨?_, value⟩
  simp only [isDigit, Bool.and_eq_true, decide_eq_true_eq, UInt8.le_iff_toNat_le, value]
  exact ⟨low, high⟩

theorem isDigit_of_mem_ascii {cs : List Char} (h : ∀ c ∈ cs, c.isDigit = true) {b : UInt8}
    (hb : b ∈ ascii cs) : isDigit b = true := by
  simp only [ascii, List.mem_map] at hb
  obtain ⟨c, hc, rfl⟩ := hb
  exact (byte_of_isDigit (h c hc)).1

theorem digitsValue_ascii {cs : List Char} (h : ∀ c ∈ cs, c.isDigit = true) :
    digitsValue (ascii cs) = Nat.ofDigitChars 10 cs 0 := by
  have fold (n : Nat) : (ascii cs).foldl (fun n d => 10 * n + (d.toNat - 0x30)) n =
      Nat.ofDigitChars 10 cs n := by
    induction cs generalizing n with
    | nil => simp [ascii]
    | cons c cs ih =>
        have tail : ∀ c ∈ cs, c.isDigit = true := fun c hc => h c (List.mem_cons_of_mem _ hc)
        rw [Nat.ofDigitChars_cons, ← ih tail]
        simp [ascii, (byte_of_isDigit (h c List.mem_cons_self)).2]
  exact fold 0

/-- Only zero is written with a zero in front. -/
theorem head_toDigits (n : Nat) (h : (Nat.toDigits 10 n).head? = some '0') : n = 0 := by
  induction n using Nat.strongRecOn with
  | _ n ih =>
      rcases Nat.lt_or_ge n 10 with small | large
      · rw [Nat.toDigits_of_lt_base small] at h
        have all : ∀ m < 10, [Nat.digitChar m].head? = some '0' → m = 0 := by decide
        exact all n small h
      · rw [Nat.toDigits_of_base_le (by omega) large, List.head?_append] at h
        cases hd : Nat.toDigits 10 (n / 10) with
        | nil => exact absurd hd Nat.toDigits_ne_nil
        | cons c cs =>
            have := ih (n / 10) (by omega) (by simpa [hd] using h)
            omega

/-! ### Numbers -/

/-- Whether bytes do not go on with a number that ends before them. -/
def endsNumber (rest : List UInt8) : Bool :=
  rest.head?.all fun b => !isDigit b && b != 0x2E && b != 0x65 && b != 0x45

theorem digits?_append {ds rest : List UInt8} (hne : ds ≠ []) (hds : ∀ d ∈ ds, isDigit d = true)
    (hrest : endsNumber rest = true) : digits? (ds ++ rest) = some (ds, rest) := by
  have taken : (ds ++ rest).takeWhile isDigit = ds := by
    rw [List.takeWhile_append_of_pos hds]
    cases rest with
    | nil => simp
    | cons b rest =>
        simp only [endsNumber, List.head?_cons, Option.all_some, Bool.and_eq_true,
          Bool.not_eq_true'] at hrest
        simp [hrest.1.1.1]
  have dropped : (ds ++ rest).dropWhile isDigit = rest := by
    rw [List.dropWhile_append_of_pos hds]
    cases rest with
    | nil => simp
    | cons b rest =>
        simp only [endsNumber, List.head?_cons, Option.all_some, Bool.and_eq_true,
          Bool.not_eq_true'] at hrest
        simp [hrest.1.1.1]
  unfold digits?
  rw [taken, dropped]
  cases ds with
  | nil => exact absurd rfl hne
  | cons d ds => rfl

/-- The digits of a natural number are read back as one whole number. -/
theorem whole?_toDigits (n : Nat) {rest : List UInt8} (h : endsNumber rest = true) :
    whole? (ascii (Nat.toDigits 10 n) ++ rest) = some (ascii (Nat.toDigits 10 n), rest) := by
  have digit : ∀ c ∈ Nat.toDigits 10 n, c.isDigit = true := fun c hc =>
    Nat.isDigit_of_mem_toDigits (by omega) (by omega) hc
  have nonempty : ascii (Nat.toDigits 10 n) ≠ [] := by
    simp [ascii, Nat.toDigits_ne_nil]
  unfold whole?
  rw [digits?_append nonempty (fun _ hb => isDigit_of_mem_ascii digit hb) h]
  -- A leading zero is refused unless it stands alone, and only zero starts with one.
  have single : ¬ ((ascii (Nat.toDigits 10 n)).head? = some 0x30 ∧
      (ascii (Nat.toDigits 10 n)).length ≠ 1) := by
    rintro ⟨zero, long⟩
    cases hd : Nat.toDigits 10 n with
    | nil => exact Nat.toDigits_ne_nil hd
    | cons c cs =>
        simp only [hd, ascii, List.map_cons, List.head?_cons, Option.some.injEq] at zero
        have value := (byte_of_isDigit (digit c (by simp [hd]))).2
        rw [zero] at value
        have head : c = '0' := Char.toNat_inj.1 value.symm
        have := head_toDigits n (by simp [hd, head])
        subst this
        simp [ascii] at long
  simp [single]

theorem unsigned?_toDigits (negative : Bool) (n : Nat) {rest : List UInt8}
    (h : endsNumber rest = true) :
    unsigned? negative (ascii (Nat.toDigits 10 n) ++ rest) =
      some ({ negative, digits := n }, rest) := by
  have digit : ∀ c ∈ Nat.toDigits 10 n, c.isDigit = true := fun c hc =>
    Nat.isDigit_of_mem_toDigits (by omega) (by omega) hc
  have fraction : fraction? rest = some (none, rest) := by
    cases rest with
    | nil => rfl
    | cons b rest =>
        have : b ≠ 0x2E := by
          rintro rfl
          simp [endsNumber] at h
        unfold fraction?
        split
        · simp_all
        · rfl
  have exponent : exponent? rest = some (none, rest) := by
    cases rest with
    | nil => rfl
    | cons b rest =>
        have : ¬ (b = 0x65 ∨ b = 0x45) := by
          rintro (rfl | rfl) <;> simp [endsNumber] at h
        simp [exponent?, this]
  have value : digitsValue (ascii (Nat.toDigits 10 n)) = n := by
    rw [digitsValue_ascii digit, Nat.ofDigitChars_ten_toDigits]
  unfold unsigned?
  rw [whole?_toDigits n h]
  simp [fraction, exponent, value]

theorem numeral?_toDigits (negative : Bool) (n : Nat) {rest : List UInt8}
    (h : endsNumber rest = true) :
    numeral? (ascii ((if negative then ['-'] else []) ++ Nat.toDigits 10 n) ++ rest) =
      some ({ negative, digits := n }, rest) := by
  cases negative with
  | true => exact unsigned?_toDigits true n h
  | false =>
      -- A digit is no minus sign.
      have signed : ∀ bs, ascii (Nat.toDigits 10 n) ++ rest ≠ 0x2D :: bs := by
        intro bs heq
        have minus : (0x2D : UInt8) ∈ ascii (Nat.toDigits 10 n) := by
          cases hd : Nat.toDigits 10 n with
          | nil => exact absurd hd Nat.toDigits_ne_nil
          | cons c cs =>
              rw [hd] at heq
              have := (List.cons.inj heq).1
              simp [ascii, this]
        exact absurd (isDigit_of_mem_ascii (fun c hc =>
          Nat.isDigit_of_mem_toDigits (by omega) (by omega) hc) minus) (by decide)
      unfold numeral?
      split
      next bs eq => exact absurd eq (signed bs)
      next => exact unsigned?_toDigits false n h

theorem numeral?_writeNumeral {n : Numeral} (hp : n.places = none) (he : n.exponent = none)
    {rest : List UInt8} (h : endsNumber rest = true) :
    numeral? (writeNumeral n rest) = some (n, rest) := by
  obtain ⟨negative, digits, places, exponent⟩ := n
  subst hp he
  simpa [writeNumeral, numeralChars] using numeral?_toDigits negative digits h

/-! ### Strings -/

/-- The piece as which a written byte is read. -/
def pieceOf (b : UInt8) : Piece :=
  if escape b = [b] then .bare b
  else if (escape b).length = 2 then .escaped b
  else .unit b.toNat

/-- A control character without a short form is written by its code unit. -/
theorem unit?_control : ∀ n < 32,
    unit? 0x30 0x30 (UInt8.ofNat (Nat.digitChar (n / 16)).toNat)
      (UInt8.ofNat (Nat.digitChar (n % 16)).toNat) = some n := by decide

/-- How a byte is written: as itself, by a short form or by its code unit. -/
theorem escape_cases (b : UInt8) :
    (escape b = [b] ∧ b ≠ 0x22 ∧ b ≠ 0x5C ∧ 0x20 ≤ b) ∨
    (∃ e, escape b = [0x5C, e] ∧ e ≠ 0x75 ∧ shortEscape? e = some b) ∨
    (∃ c d, escape b = [0x5C, 0x75, 0x30, 0x30, c, d] ∧ unit? 0x30 0x30 c d = some b.toNat ∧
      b < 0x20) := by
  unfold escape
  split
  next h => exact .inr (.inl ⟨0x22, by decide, by decide, by rw [h]; decide⟩)
  split
  next h => exact .inr (.inl ⟨0x5C, by decide, by decide, by rw [h]; decide⟩)
  split
  next h => exact .inr (.inl ⟨0x62, by decide, by decide, by rw [h]; decide⟩)
  split
  next h => exact .inr (.inl ⟨0x74, by decide, by decide, by rw [h]; decide⟩)
  split
  next h => exact .inr (.inl ⟨0x6E, by decide, by decide, by rw [h]; decide⟩)
  split
  next h => exact .inr (.inl ⟨0x66, by decide, by decide, by rw [h]; decide⟩)
  split
  next h => exact .inr (.inl ⟨0x72, by decide, by decide, by rw [h]; decide⟩)
  split
  next quote backslash _ _ _ _ _ h =>
      have : b.toNat < 32 := UInt8.lt_iff_toNat_lt.1 h
      exact .inr (.inr ⟨_, _, rfl, unit?_control b.toNat this, h⟩)
  next quote backslash _ _ _ _ _ h =>
      exact .inl ⟨rfl, quote, backslash, UInt8.not_lt.1 h⟩

theorem pieces_bare {b : UInt8} (quote : b ≠ 0x22) (backslash : b ≠ 0x5C) (rest : List UInt8) :
    pieces (b :: rest) = (pieces rest).map fun p => (.bare b :: p.1, p.2) := by
  rw [pieces.eq_5 b rest quote (fun _ _ _ _ _ h _ => backslash h) (fun _ _ h _ => backslash h),
    if_neg backslash]
  cases pieces rest <;> rfl

theorem pieces_short {e b : UInt8} (hu : e ≠ 0x75) (hb : shortEscape? e = some b)
    (rest : List UInt8) :
    pieces (0x5C :: e :: rest) = (pieces rest).map fun p => (.escaped b :: p.1, p.2) := by
  rw [pieces.eq_4 e rest (fun _ _ _ _ _ h _ => hu h), hb]
  cases pieces rest <;> rfl

theorem pieces_unit {c d : UInt8} {u : Nat} (hu : unit? 0x30 0x30 c d = some u)
    (rest : List UInt8) :
    pieces (0x5C :: 0x75 :: 0x30 :: 0x30 :: c :: d :: rest) =
      (pieces rest).map fun p => (.unit u :: p.1, p.2) := by
  rw [pieces.eq_3, hu]
  cases pieces rest <;> rfl

/-- A written byte is read as one piece. -/
theorem pieces_escape (b : UInt8) (rest : List UInt8) :
    pieces (escape b ++ rest) = (pieces rest).map fun p => (pieceOf b :: p.1, p.2) := by
  rcases escape_cases b with ⟨h, quote, backslash, -⟩ | ⟨e, h, hu, hb⟩ | ⟨c, d, h, hu, -⟩
  · have : pieceOf b = .bare b := by simp [pieceOf, h]
    rw [this, h]
    exact pieces_bare quote backslash rest
  · have : pieceOf b = .escaped b := by simp [pieceOf, h]
    rw [this, h]
    exact pieces_short hu hb rest
  · have : pieceOf b = .unit b.toNat := by simp [pieceOf, h]
    rw [this, h]
    exact pieces_unit hu rest

theorem pieces_flatMap_escape (bs rest : List UInt8) :
    pieces (bs.flatMap escape ++ 0x22 :: rest) = some (bs.map pieceOf, rest) := by
  induction bs with
  | nil => simp [pieces]
  | cons b bs ih =>
      rw [List.flatMap_cons, List.append_assoc, pieces_escape, ih]
      rfl

theorem isControl_pieceOf (b : UInt8) : (pieceOf b).isControl = false := by
  rcases escape_cases b with ⟨h, -, -, high⟩ | ⟨e, h, -, -⟩ | ⟨c, d, h, -, -⟩
  · have : ¬ b < 0x20 := UInt8.not_lt.2 high
    simp [pieceOf, h, Piece.isControl, this]
  · simp [pieceOf, h, Piece.isControl]
  · simp [pieceOf, h, Piece.isControl]

/-- The piece of a byte names that byte, whatever follows: a code unit below 0x20 pairs up with
nothing. -/
theorem bytes_pieceOf (b : UInt8) (ps : List Piece) :
    Piece.bytes (pieceOf b :: ps) = b :: Piece.bytes ps := by
  rcases escape_cases b with ⟨h, -, -, -⟩ | ⟨e, h, -, -⟩ | ⟨c, d, h, -, low⟩
  · simp [pieceOf, h, Piece.bytes]
  · simp [pieceOf, h, Piece.bytes]
  · have small : b.toNat < 32 := UInt8.lt_iff_toNat_lt.1 low
    have own : Text.Utf8.codePoint b.toNat = [b] := by
      simp [Text.Utf8.codePoint, show b.toNat < 0x80 by omega]
    have : pieceOf b = .unit b.toNat := by simp [pieceOf, h]
    -- A high surrogate would join with what follows; `small` excludes it.
    rw [this, Piece.bytes.eq_def]
    split <;> simp_all
    omega

theorem bytes_map_pieceOf (bs : List UInt8) : Piece.bytes (bs.map pieceOf) = bs := by
  induction bs with
  | nil => rfl
  | cons b bs ih => rw [List.map_cons, bytes_pieceOf, ih]

theorem literal_flatMap_escape {l : Literal} (h : l.control = false) (rest : List UInt8) :
    literal (l.bytes.data.toList.flatMap escape ++ 0x22 :: rest) = some (l, rest) := by
  obtain ⟨bytes, control⟩ := l
  subst h
  have clean : (bytes.data.toList.map pieceOf).any Piece.isControl = false := by
    simp only [List.any_map, List.any_eq_false, Function.comp_apply]
    intro b _
    simp [isControl_pieceOf]
  unfold literal
  rw [pieces_flatMap_escape]
  simp [bytes_map_pieceOf, clean, Text.Utf8.toByteArray_toList]

/-! ### Values -/

mutual

/-- Whether a value is written in the one form that reads back: its numbers are integers, and its
strings hold no bare control character. -/
def IsPlain : Json → Prop
  | .number n => n.places = none ∧ n.exponent = none
  | .string l => l.control = false
  | .array items => ArePlain items
  | .object fields => ArePlainFields fields
  | _ => True

/-- Whether all values of a list are plain. -/
def ArePlain : List Json → Prop
  | [] => True
  | v :: vs => IsPlain v ∧ ArePlain vs

/-- Whether all keys and values of a list are plain. -/
def ArePlainFields : List (Literal × Json) → Prop
  | [] => True
  | (key, v) :: fs => key.control = false ∧ IsPlain v ∧ ArePlainFields fs

end

mutual

/-- What follows a value is appended to it. -/
theorem writeOnto_eq_append : (j : Json) → ∀ rest, j.writeOnto rest = j.writeOnto [] ++ rest
  | .null, _ => by simp [writeOnto]
  | .bool true, _ => by simp [writeOnto]
  | .bool false, _ => by simp [writeOnto]
  | .number _, _ => by simp [writeOnto, writeNumeral]
  | .string _, _ => by simp [writeOnto, writeLiteral]
  | .array [], _ => by simp [writeOnto]
  | .array (v :: vs), rest => by
      rw [writeOnto, writeOnto, writeOnto_eq_append v, writeOnto_eq_append v (writeItems vs [0x5D]),
        writeItems_eq_append vs, writeItems_eq_append vs [0x5D]]
      simp
  | .object [], _ => by simp [writeOnto]
  | .object ((key, v) :: fs), rest => by
      rw [writeOnto, writeOnto, writeField, writeField, writeOnto_eq_append v,
        writeOnto_eq_append v (writeFields fs [0x7D]), writeFields_eq_append fs,
        writeFields_eq_append fs [0x7D]]
      simp [writeLiteral]

theorem writeItems_eq_append : (vs : List Json) →
    ∀ rest, writeItems vs rest = writeItems vs [] ++ rest
  | [], _ => by simp [writeItems]
  | v :: vs, rest => by
      rw [writeItems, writeItems, writeOnto_eq_append v, writeOnto_eq_append v (writeItems vs []),
        writeItems_eq_append vs]
      simp

theorem writeFields_eq_append : (fs : List (Literal × Json)) →
    ∀ rest, writeFields fs rest = writeFields fs [] ++ rest
  | [], _ => by simp [writeFields]
  | (key, v) :: fs, rest => by
      rw [writeFields, writeFields, writeField, writeField, writeOnto_eq_append v,
        writeOnto_eq_append v (writeFields fs []), writeFields_eq_append fs]
      simp [writeLiteral]

end

theorem length_writeOnto (j : Json) (rest : List UInt8) :
    (j.writeOnto rest).length = (j.writeOnto []).length + rest.length := by
  rw [writeOnto_eq_append, List.length_append]

theorem length_writeItems (vs : List Json) (rest : List UInt8) :
    (writeItems vs rest).length = (writeItems vs []).length + rest.length := by
  rw [writeItems_eq_append, List.length_append]

theorem length_writeFields (fs : List (Literal × Json)) (rest : List UInt8) :
    (writeFields fs rest).length = (writeFields fs []).length + rest.length := by
  rw [writeFields_eq_append, List.length_append]

/-- The first byte of a number: a digit or a minus sign. -/
def startsNumber (b : UInt8) : Bool := isDigit b || b == 0x2D

theorem writeNumeral_eq_cons {n : Numeral} (hp : n.places = none) (he : n.exponent = none)
    (rest : List UInt8) : ∃ b bs, writeNumeral n rest = b :: bs ∧ startsNumber b = true := by
  obtain ⟨negative, digits, places, exponent⟩ := n
  subst hp he
  cases negative with
  | true => exact ⟨0x2D, _, rfl, rfl⟩
  | false =>
      cases hd : Nat.toDigits 10 digits with
      | nil => exact absurd hd Nat.toDigits_ne_nil
      | cons c cs =>
          have digit : c.isDigit = true :=
            Nat.isDigit_of_mem_toDigits (by omega) (by omega) (hd ▸ List.mem_cons_self)
          refine ⟨UInt8.ofNat c.toNat, _, by simp [writeNumeral, numeralChars, hd, ascii]; rfl, ?_⟩
          simp [startsNumber, (byte_of_isDigit digit).1]

theorem ne_of_startsNumber {b c : UInt8} (hb : startsNumber b = true)
    (hc : startsNumber c = false) : b ≠ c := by
  rintro rfl
  rw [hb] at hc
  exact absurd hc (by decide)

theorem isBlank_of_startsNumber {b : UInt8} (h : startsNumber b = true) : isBlank b = false := by
  have space := ne_of_startsNumber h (c := 0x20) rfl
  have line := ne_of_startsNumber h (c := 0x0A) rfl
  have back := ne_of_startsNumber h (c := 0x0D) rfl
  have tab := ne_of_startsNumber h (c := 0x09) rfl
  simp [isBlank, space, line, back, tab]

/-- No value starts with a blank or a closing bracket. -/
theorem writeOnto_eq_cons (j : Json) (h : j.IsPlain) (rest : List UInt8) :
    ∃ b bs, j.writeOnto rest = b :: bs ∧ isBlank b = false ∧ b ≠ 0x5D := by
  match j with
  | .null => simp [writeOnto, ascii, isBlank]
  | .bool true => simp [writeOnto, ascii, isBlank]
  | .bool false => simp [writeOnto, ascii, isBlank]
  | .string _ => simp [writeOnto, writeLiteral, isBlank]
  | .array [] => simp [writeOnto, ascii, isBlank]
  | .array (_ :: _) => simp [writeOnto, isBlank]
  | .object [] => simp [writeOnto, ascii, isBlank]
  | .object (_ :: _) => simp [writeOnto, isBlank]
  | .number n =>
      obtain ⟨b, bs, heq, hb⟩ := writeNumeral_eq_cons h.1 h.2 rest
      exact ⟨b, bs, heq, isBlank_of_startsNumber hb, ne_of_startsNumber hb rfl⟩

theorem skipBlanks_cons {b : UInt8} (h : isBlank b = false) (bs : List UInt8) :
    skipBlanks (b :: bs) = b :: bs := by
  simp [skipBlanks, h]

theorem value_writeNumeral {n : Numeral} (h : (number n).IsPlain) (m : Nat) {rest : List UInt8}
    (hrest : endsNumber rest = true) :
    value (m + 1) (writeNumeral n rest) = some (.number n, rest) := by
  have read := numeral?_writeNumeral h.1 h.2 hrest
  obtain ⟨b, bs, heq, hb⟩ := writeNumeral_eq_cons h.1 h.2 rest
  rw [heq] at read ⊢
  rw [value, skipBlanks_cons (isBlank_of_startsNumber hb)]
  split
  case h_7 => simp [read]
  all_goals
    rename_i start
    exact absurd (List.cons.inj start).1 (ne_of_startsNumber hb rfl)

theorem value_writeLiteral {l : Literal} (h : l.control = false) (m : Nat) (rest : List UInt8) :
    value (m + 1) (writeLiteral l rest) = some (.string l, rest) := by
  rw [value, writeLiteral, skipBlanks_cons rfl]
  simp [literal_flatMap_escape h]

theorem value_array {n : Nat} {b : UInt8} {bs rest rest' : List UInt8} {v : Json} {vs : List Json}
    (blank : isBlank b = false) (bracket : b ≠ 0x5D) (first : value n (b :: bs) = some (v, rest))
    (others : items n rest = some (vs, rest')) :
    value (n + 1) (0x5B :: b :: bs) = some (.array (v :: vs), rest') := by
  rw [value, skipBlanks_cons rfl]
  simp [skipBlanks_cons blank, bracket, first, others]

theorem value_object {n : Nat} {bs rest rest' : List UInt8} {f : Literal × Json}
    {fs : List (Literal × Json)} (first : field n (0x22 :: bs) = some (f, rest))
    (others : fields n rest = some (fs, rest')) :
    value (n + 1) (0x7B :: 0x22 :: bs) = some (.object (f :: fs), rest') := by
  rw [value, skipBlanks_cons rfl]
  simp [skipBlanks_cons (show isBlank 0x22 = false from rfl), first, others]

theorem field_writeField {n : Nat} {key : Literal} {v : Json} {bs rest : List UInt8}
    (h : key.control = false) (hv : value n bs = some (v, rest)) :
    field (n + 1) (writeLiteral key (0x3A :: bs)) = some ((key, v), rest) := by
  rw [field, writeLiteral, skipBlanks_cons rfl]
  simp [literal_flatMap_escape h, skipBlanks_cons (show isBlank 0x3A = false from rfl), hv]

mutual

/-- A plain value that was written is read back, and what followed it is left. -/
theorem value_writeOnto : (j : Json) → j.IsPlain → ∀ (n : Nat) (rest : List UInt8),
    (j.writeOnto []).length < n → endsNumber rest = true →
    value n (j.writeOnto rest) = some (j, rest)
  | .null, _, n + 1, rest, _, _ => by simp [writeOnto, value, ascii, skipBlanks, isBlank]
  | .bool true, _, n + 1, rest, _, _ => by simp [writeOnto, value, ascii, skipBlanks, isBlank]
  | .bool false, _, n + 1, rest, _, _ => by simp [writeOnto, value, ascii, skipBlanks, isBlank]
  | .number m, h, n + 1, rest, _, hrest => by rw [writeOnto, value_writeNumeral h n hrest]
  | .string l, h, n + 1, rest, _, _ => by rw [writeOnto, value_writeLiteral h]
  | .array [], _, n + 1, rest, _, _ => by simp [writeOnto, value, ascii, skipBlanks, isBlank]
  | .array (v :: vs), ⟨hv, hvs⟩, n + 1, rest, hn, _ => by
      -- The fuel is more than what is written, so it is enough for each part.
      rw [writeOnto, List.length_cons, length_writeOnto, length_writeItems] at hn
      obtain ⟨b, bs, heq, blank, bracket⟩ :=
        writeOnto_eq_cons v hv (writeItems vs (0x5D :: rest))
      have first := value_writeOnto v hv n (writeItems vs (0x5D :: rest)) (by omega)
        (by cases vs <;> rfl)
      have others := items_writeItems vs hvs n rest (by omega)
      rw [writeOnto, heq]
      exact value_array blank bracket (heq ▸ first) others
  | .object [], _, n + 1, rest, _, _ => by simp [writeOnto, value, ascii, skipBlanks, isBlank]
  | .object ((key, v) :: fs), ⟨hkey, hv, hfs⟩, n + 1, rest, hn, _ => by
      rw [writeOnto, List.length_cons, writeField, writeLiteral, List.length_cons,
        List.length_append, List.length_cons, List.length_cons, length_writeOnto,
        length_writeFields] at hn
      obtain ⟨m, rfl⟩ : ∃ m, n = m + 1 := ⟨n - 1, by omega⟩
      have first := field_writeField hkey (value_writeOnto v hv m
        (writeFields fs (0x7D :: rest)) (by omega) (by cases fs <;> rfl))
      have others := fields_writeFields fs hfs (m + 1) rest (by omega)
      rw [writeOnto, writeField]
      exact value_object first others

theorem items_writeItems : (vs : List Json) → ArePlain vs → ∀ (n : Nat) (rest : List UInt8),
    (writeItems vs []).length < n →
    items n (writeItems vs (0x5D :: rest)) = some (vs, rest)
  | [], _, n + 1, rest, _ => by simp [writeItems, items, skipBlanks, isBlank]
  | v :: vs, ⟨hv, hvs⟩, n + 1, rest, hn => by
      rw [writeItems, List.length_cons, length_writeOnto] at hn
      have first := value_writeOnto v hv n (writeItems vs (0x5D :: rest)) (by omega)
        (by cases vs <;> rfl)
      have others := items_writeItems vs hvs n rest (by omega)
      rw [writeItems, items, skipBlanks_cons rfl]
      simp [first, others]

theorem fields_writeFields : (fs : List (Literal × Json)) → ArePlainFields fs →
    ∀ (n : Nat) (rest : List UInt8), (writeFields fs []).length < n →
    fields n (writeFields fs (0x7D :: rest)) = some (fs, rest)
  | [], _, n + 1, rest, _ => by simp [writeFields, fields, skipBlanks, isBlank]
  | (key, v) :: fs, ⟨hkey, hv, hfs⟩, n + 1, rest, hn => by
      rw [writeFields, List.length_cons, writeField, writeLiteral, List.length_cons,
        List.length_append, List.length_cons, List.length_cons, length_writeOnto] at hn
      obtain ⟨m, rfl⟩ : ∃ m, n = m + 1 := ⟨n - 1, by omega⟩
      have first := field_writeField hkey (value_writeOnto v hv m
        (writeFields fs (0x7D :: rest)) (by omega) (by cases fs <;> rfl))
      have others := fields_writeFields fs hfs (m + 1) rest (by omega)
      rw [writeFields, fields, skipBlanks_cons rfl, writeField]
      simp [first, others]

end

/-- Reading undoes writing. -/
theorem read?_write {j : Json} (h : j.IsPlain) : read? j.write = some j := by
  have read := value_writeOnto j h (2 * (j.writeOnto []).length + 2) [] (by omega) rfl
  simp [read?, write, read, skipBlanks]

end BuildWorker.Json

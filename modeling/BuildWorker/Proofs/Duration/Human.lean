import BuildWorker.Duration.Human
import BuildWorker.Proofs.Json.Lawful

/-!
# Durations are read back

The text of a duration names that duration (`Duration.readHuman?_human`).

A text of several parts is read part by part (`readSpans?_join`), and a part adds to the total what
its unit counts for (`read_part`). A part that is left out is zero and would have added nothing, so
the totals after the nine parts are those of the duration: dividing by the units in turn and
multiplying again loses nothing.
-/

namespace BuildWorker.Duration

/-! ### A span -/

/-- What a unit counts for, in seconds and nanoseconds. -/
def Scale.parts : Scale → Nat × Nat
  | .fine nanos _ => if 1000000000 ≤ nanos then (nanos / 1000000000, 0) else (0, nanos)
  | .coarse seconds => (seconds, 0)

/-- A letter of a word for a unit, which is neither a digit nor blank. -/
def isLetter (c : Char) : Bool :=
  isUnitChar c && (Text.digitValue? c).isNone && !Text.isBlank c

theorem isLetter_iff {c : Char} : isLetter c = true ↔
    isUnitChar c = true ∧ Text.digitValue? c = none ∧ Text.isBlank c = false := by
  simp [isLetter, and_assoc]

/-- A word for a unit that counts for some seconds and nanoseconds. -/
structure Names (unit : String) (seconds nanos : Nat) : Prop where
  scale : (scale? unit).map Scale.parts = some (seconds, nanos)
  letters : unit.toList.all isLetter = true
  ne_nil : unit.toList ≠ []
  pos : 0 < seconds ∨ 0 < nanos

theorem isBlank_of_isDigit {c : Char} (h : c.isDigit = true) : Text.isBlank c = false := by
  obtain ⟨low, high⟩ := Json.toNat_of_isDigit h
  simp [Text.isBlank, Text.blankRanges]
  omega

theorem digitValue?_of_isDigit {c : Char} (h : c.isDigit = true) :
    Text.digitValue? c = some (c.toNat - '0'.toNat) := if_pos h

theorem isDigit_of_mem {n : Nat} {c : Char} (h : c ∈ Nat.toDigits 10 n) : c.isDigit = true :=
  Nat.isDigit_of_mem_toDigits (by omega) (by omega) h

theorem readSpans?_digits (total : Nat × Nat) (m : Nat) {ds : List Char}
    (digits : ∀ c ∈ ds, c.isDigit = true) (rest : List Char) :
    readSpans? total (.whole m) (ds ++ rest) =
      readSpans? total (.whole (Nat.ofDigitChars 10 ds m)) rest := by
  induction ds generalizing m with
  | nil => simp
  | cons d ds ih =>
      rw [List.cons_append, readSpans?, digitValue?_of_isDigit (digits d List.mem_cons_self)]
      dsimp only
      rw [ih _ fun c mem => digits c (List.mem_cons_of_mem _ mem), Nat.ofDigitChars_cons]

theorem readSpans?_letters (total : Nat × Nat) (a : Amount) (name : List Char) {cs : List Char}
    (letters : ∀ c ∈ cs, isLetter c = true) (rest : List Char) :
    readSpans? total (.unit a name) (cs ++ rest) =
      readSpans? total (.unit a (cs.reverse ++ name)) rest := by
  induction cs generalizing name with
  | nil => rfl
  | cons c cs ih =>
      obtain ⟨letter, digit, blank⟩ := isLetter_iff.1 (letters c List.mem_cons_self)
      rw [List.cons_append, readSpans?, digit]
      simp only [blank, letter, if_true, Bool.false_eq_true, if_false]
      rw [ih _ fun c mem => letters c (List.mem_cons_of_mem _ mem)]
      simp

theorem readSpans?_number (total : Nat × Nat) (n : Nat) (rest : List Char) :
    readSpans? total .gap (Nat.toDigits 10 n ++ rest) = readSpans? total (.whole n) rest := by
  have value : Nat.ofDigitChars 10 (Nat.toDigits 10 n) 0 = n := Nat.ofDigitChars_ten_toDigits
  have digit := @isDigit_of_mem n
  cases digits : Nat.toDigits 10 n with
  | nil => exact absurd digits Nat.toDigits_ne_nil
  | cons d ds =>
      rw [digits] at value digit
      rw [Nat.ofDigitChars_cons, Nat.mul_zero, Nat.zero_add] at value
      have others := readSpans?_digits total (d.toNat - '0'.toNat)
        (fun c mem => digit (List.mem_cons_of_mem _ mem)) rest
      rw [List.cons_append, readSpans?, digitValue?_of_isDigit (digit List.mem_cons_self)]
      dsimp only
      rw [others, value]

variable {unit : String} {seconds nanos : Nat}

theorem readSpans?_unit (total : Nat × Nat) (n : Nat) (h : Names unit seconds nanos)
    (rest : List Char) :
    readSpans? total (.whole n) (unit.toList ++ rest) =
      readSpans? total (.unit { whole := n } unit.toList.reverse) rest := by
  have letters := List.all_eq_true.1 h.letters
  cases name : unit.toList with
  | nil => exact absurd name h.ne_nil
  | cons c cs =>
      rw [name] at letters
      obtain ⟨letter, digit, blank⟩ := isLetter_iff.1 (letters c List.mem_cons_self)
      rw [List.cons_append, readSpans?, digit]
      simp only [blank, letter, if_true, Bool.false_eq_true, if_false]
      rw [readSpans?_letters _ _ _ fun c mem => letters c (List.mem_cons_of_mem _ mem),
        List.reverse_cons]

/-- Up to the end of its unit, a span is read as a number and a name. -/
theorem readSpans?_span (total : Nat × Nat) (n : Nat) (h : Names unit seconds nanos)
    (rest : List Char) :
    readSpans? total .gap ((toString n ++ unit).toList ++ rest) =
      readSpans? total (.unit { whole := n } unit.toList.reverse) rest := by
  have text : (toString n ++ unit).toList = Nat.toDigits 10 n ++ unit.toList := by simp
  rw [text, List.append_assoc, readSpans?_number, readSpans?_unit _ _ h]

/-- A blank ends a span as the end of the text does. -/
theorem readSpans?_blank (total : Nat × Nat) (a : Amount) (name rest : List Char) :
    readSpans? total (.unit a name) (' ' :: rest) =
      (readSpans? total (.unit a name) []).bind fun total => readSpans? total .gap rest := by
  have blank : Text.digitValue? ' ' = none ∧ Text.isBlank ' ' = true := by decide
  conv => lhs; rw [readSpans?, blank.1]
  simp only [blank.2, if_true]
  rfl

/-! ### What a span adds -/

theorem fit?_of_lt {n : Nat} (h : n < UInt64.size) : fit? n = some n := if_pos h

theorem addTo?_of_lt {s k s' k' : Nat} (hs : s + s' < UInt64.size) (hk : k + k' < 1000000000) :
    addTo? (s, k) (s', k') = some (s + s', k + k') := by
  have size : UInt64.size = 18446744073709551616 := rfl
  have carry : (k + k') / 1000000000 = 0 := Nat.div_eq_of_lt hk
  have rest : (k + k') % 1000000000 = k + k' := Nat.mod_eq_of_lt hk
  simp only [addTo?, carry, rest, Nat.add_zero, fit?_of_lt hs,
    fit?_of_lt (show k + k' < UInt64.size by omega), fit?_of_lt (show s' < UInt64.size by omega),
    Option.bind_eq_bind, Option.bind_some, Option.pure_def]

theorem wholeIn?_eq {n : Nat} {scale : Scale} (seconds : n * scale.parts.1 < UInt64.size)
    (nanos : n * scale.parts.2 < UInt64.size) :
    ({ whole := n } : Amount).wholeIn? scale = some (n * scale.parts.1, n * scale.parts.2) := by
  cases scale with
  | coarse k =>
      simp only [Scale.parts] at seconds
      simp [Amount.wholeIn?, Scale.parts, fit?_of_lt seconds]
  | fine k divisible =>
      by_cases large : 1000000000 ≤ k
      · simp only [Scale.parts, if_pos large] at seconds
        simp [Amount.wholeIn?, Scale.parts, large, fit?_of_lt seconds]
      · simp only [Scale.parts, if_neg large] at nanos
        simp [Amount.wholeIn?, Scale.parts, large, fit?_of_lt nanos]

/-- Without a point there is no fraction. -/
theorem fractionIn?_whole (n : Nat) (scale : Scale) :
    ({ whole := n } : Amount).fractionIn? scale = some (0, 0) := by
  have none_ (k : Nat) : ({ whole := n } : Amount).fraction? k = some 0 := by
    simp [Amount.fraction?, fit?]
  cases scale with
  | coarse k => simp [Amount.fractionIn?, none_]
  | fine k divisible => simp [Amount.fractionIn?, none_]

theorem close?_whole (h : Names unit seconds nanos) {s k n : Nat}
    (hs : s + n * seconds < UInt64.size) (hk : k + n * nanos < 1000000000) :
    close? (s, k) { whole := n } unit.toList.reverse =
      some (s + n * seconds, k + n * nanos) := by
  have size : UInt64.size = 18446744073709551616 := rfl
  obtain ⟨scale, named, parts⟩ := Option.map_eq_some_iff.1 h.scale
  have whole : ({ whole := n } : Amount).wholeIn? scale = some (n * seconds, n * nanos) := by
    rw [wholeIn?_eq, parts]
    · rw [parts]
      exact Nat.lt_of_le_of_lt (Nat.le_add_left _ _) hs
    · rw [parts]
      show n * nanos < UInt64.size
      omega
  -- The count itself fits, since its unit counts for something.
  have fits : n < UInt64.size := by
    rcases h.pos with pos | pos
    · have bound : n ≤ n * seconds := Nat.le_mul_of_pos_right n pos
      omega
    · have bound : n ≤ n * nanos := Nat.le_mul_of_pos_right n pos
      omega
  have unchanged : addTo? (s + n * seconds, k + n * nanos) (0, 0) =
      some (s + n * seconds, k + n * nanos) := addTo?_of_lt hs hk
  simp [close?, fit?_of_lt fits, named, whole, fractionIn?_whole, addTo?_of_lt hs hk, unchanged]

/-! ### Several spans -/

/-- A number with a unit. -/
def IsSpan (text : String) : Prop :=
  ∃ (n : Nat) (unit : String) (seconds nanos : Nat),
    Names unit seconds nanos ∧ text = toString n ++ unit

/-- Read a text that starts with a span. -/
def readOn? (total : Nat × Nat) (text : String) : Option (Nat × Nat) :=
  readSpans? total .gap text.toList

/-- Texts of a span each are read one after the other. -/
theorem readSpans?_join (total : Nat × Nat) {texts : List String}
    (spans : ∀ text ∈ texts, IsSpan text) :
    readOn? total (" ".intercalate texts) = texts.foldlM readOn? total := by
  induction texts generalizing total with
  | nil => rfl
  | cons text texts ih =>
      obtain ⟨n, unit, seconds, nanos, h, rfl⟩ := spans text List.mem_cons_self
      have ih := fun total => ih total fun text mem => spans text (List.mem_cons_of_mem _ mem)
      -- What ends a span is either the end of the text or the blank before the next one.
      have ends := readSpans?_span total n h []
      rw [List.append_nil] at ends
      cases texts with
      | nil => simp
      | cons next texts =>
          have joined : (" ".intercalate ((toString n ++ unit) :: next :: texts)).toList =
              (toString n ++ unit).toList ++ ' ' :: (" ".intercalate (next :: texts)).toList := by
            rw [String.intercalate_cons_cons, String.toList_append, String.toList_append,
              List.append_assoc]
            rfl
          rw [List.foldlM_cons, readOn?, joined, readSpans?_span total n h, readSpans?_blank,
            readOn?, ends]
          exact congrArg _ (funext ih)

theorem isSpan_part (h : Names unit seconds nanos) (n : Nat) :
    ∀ text ∈ part n unit, IsSpan text := by
  intro text mem
  unfold part at mem
  split at mem
  · cases mem
  · exact ⟨n, unit, seconds, nanos, h, List.mem_singleton.1 mem⟩

/-- A part adds what its unit counts for, also when it is left out. -/
theorem read_part (h : Names unit seconds nanos) {s k n : Nat}
    (hs : s + n * seconds < UInt64.size) (hk : k + n * nanos < 1000000000) :
    (part n unit).foldlM readOn? (s, k) = some (s + n * seconds, k + n * nanos) := by
  unfold part
  split
  next zero => simp [zero]
  next =>
    have ends := readSpans?_span (s, k) n h []
    rw [List.append_nil, readSpans?, close?_whole h hs hk] at ends
    rw [List.foldlM_cons, readOn?, ends]
    rfl

/-! ### The parts of a duration -/

theorem names_year : Names "year" 31557600 0 ∧ Names "years" 31557600 0 := by
  constructor <;> constructor <;> decide

theorem names_month : Names "month" 2630016 0 ∧ Names "months" 2630016 0 := by
  constructor <;> constructor <;> decide

theorem names_day : Names "day" 86400 0 ∧ Names "days" 86400 0 := by
  constructor <;> constructor <;> decide

theorem names_hour : Names "h" 3600 0 := by constructor <;> decide

theorem names_minute : Names "m" 60 0 := by constructor <;> decide

theorem names_second : Names "s" 1 0 := by constructor <;> decide

theorem names_milli : Names "ms" 0 1000000 := by constructor <;> decide

theorem names_micro : Names "us" 0 1000 := by constructor <;> decide

theorem names_nano : Names "ns" 0 1 := by constructor <;> decide

theorem names_plural (h : Names unit seconds nanos ∧ Names (unit ++ "s") seconds nanos) (n : Nat) :
    Names (if n = 1 then unit else unit ++ "s") seconds nanos := by
  split
  · exact h.1
  · exact h.2

theorem isSpan_pluralPart
    (h : Names unit seconds nanos ∧ Names (unit ++ "s") seconds nanos) (n : Nat) :
    ∀ text ∈ pluralPart n unit, IsSpan text :=
  isSpan_part (names_plural h n) n

theorem read_pluralPart
    (h : Names unit seconds nanos ∧ Names (unit ++ "s") seconds nanos) {s k n : Nat}
    (hs : s + n * seconds < UInt64.size) (hk : k + n * nanos < 1000000000) :
    (pluralPart n unit).foldlM readOn? (s, k) = some (s + n * seconds, k + n * nanos) :=
  read_part (names_plural h n) hs hk

theorem isSpan_parts (d : Duration) : ∀ text ∈ d.parts, IsSpan text := by
  intro text mem
  simp only [parts, List.mem_append, or_assoc] at mem
  rcases mem with h | h | h | h | h | h | h | h | h
  · exact isSpan_pluralPart names_year _ text h
  · exact isSpan_pluralPart names_month _ text h
  · exact isSpan_pluralPart names_day _ text h
  · exact isSpan_part names_hour _ text h
  · exact isSpan_part names_minute _ text h
  · exact isSpan_part names_second _ text h
  · exact isSpan_part names_milli _ text h
  · exact isSpan_part names_micro _ text h
  · exact isSpan_part names_nano _ text h

/-- The parts of a duration add up to it. -/
theorem read_parts (d : Duration) :
    d.parts.foldlM readOn? (0, 0) = some (d.seconds.toNat, d.nanos.val) := by
  have size : UInt64.size = 18446744073709551616 := rfl
  have bound := d.seconds.toNat_lt_size
  have below := d.nanos.isLt
  unfold parts
  dsimp only
  generalize d.seconds.toNat = s at bound
  generalize d.nanos.val = n at below
  simp (disch := omega) only [List.foldlM_append, Option.bind_eq_bind, Option.bind_some,
    read_pluralPart names_year, read_pluralPart names_month, read_pluralPart names_day,
    read_part names_hour, read_part names_minute, read_part names_second, read_part names_milli,
    read_part names_micro, read_part names_nano]
  congr 2
  · omega
  · omega

theorem startsWithDigit_join {text : String} (h : IsSpan text) (texts : List String) :
    startsWithDigit (" ".intercalate (text :: texts)).toList = true := by
  obtain ⟨n, unit, _, _, -, rfl⟩ := h
  cases digits : Nat.toDigits 10 n with
  | nil => exact absurd digits Nat.toDigits_ne_nil
  | cons d ds =>
      have digit : d.isDigit = true := isDigit_of_mem (digits ▸ List.mem_cons_self)
      cases texts with
      | nil => simp [startsWithDigit, digits, isBlank_of_isDigit digit, digit]
      | cons => simp [startsWithDigit, digits, isBlank_of_isDigit digit, digit]

/-- The text of a duration is read back. -/
theorem readHuman?_human (d : Duration) : readHuman? d.human = some d := by
  have spans := isSpan_parts d
  have read := (readSpans?_join (0, 0) spans).trans (read_parts d)
  unfold human
  split
  next zero =>
    have eq : d = Duration.zero := by
      simp only [isZero, Bool.and_eq_true, beq_iff_eq] at zero
      cases d
      simp_all [Duration.zero]
    rw [eq]
    decide +kernel
  next nonzero =>
    cases texts : d.parts with
    | nil =>
        -- Without parts there would be nothing to add up.
        rw [texts] at read
        have zero := Prod.mk.inj (Option.some.inj read)
        refine absurd ?_ nonzero
        simp [isZero, ← UInt64.toNat_inj, ← zero.1, Fin.ext_iff, ← zero.2]
    | cons text texts' =>
        rw [texts] at read spans
        have bare : " ".intercalate (text :: texts') ≠ "0" := by
          intro same
          have unread : readOn? (0, 0) "0" = none := by decide +kernel
          rw [same, unread] at read
          cases read
        rw [readHuman?, if_neg bare, if_pos (startsWithDigit_join (spans _ List.mem_cons_self) _)]
        rw [readOn?] at read
        rw [read]
        simp [ofParts]

instance : LawfulMessage Duration where
  isPlain_toJson _ := rfl
  ofJson?_toJson d := by
    show (ofJson? (toJson d.human)).bind readHuman? = some d
    rw [ofJson?_toJson, Option.bind_some, readHuman?_human]

end BuildWorker.Duration

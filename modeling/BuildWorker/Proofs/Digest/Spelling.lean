import BuildWorker.Digest
import BuildWorker.Proofs.Text.Number
import Mathlib

/-!
# How digests are spelled

A digest is spelled as its hash, in hexadecimal digits of either case, then a slash, then a numeral
of its size (`Digest.Spelled`). Reading accepts exactly these spellings and gives the hash in
lowercase, and the displayed form is one of them (`Digest.parse?_spelled`).

The hash ends at the first slash. No slash is a hexadecimal digit, so a text is cut into a hash and
a numeral in one way only.
-/

namespace BuildWorker.Digest

/-- A text spells a hash, as it was written, and a size. -/
structure Spelled (s hash : String) (size : Nat) : Prop where
  text : ∃ numeral, s = hash ++ "/" ++ numeral ∧ Text.Numeral numeral.toList size
  nonempty : hash ≠ ""
  hexadecimal : ∀ c ∈ hash.toList, c.isHexDigit = true

/-- The hash of a digest is in lowercase hexadecimal digits. -/
structure IsLowercase (d : Digest) : Prop where
  nonempty : d.hash ≠ ""
  hexadecimal : ∀ c ∈ d.hash.toList, c.isHexDigit = true
  lowercase : ∀ c ∈ d.hash.toList, c.isUpper = false

/-! ### Hexadecimal digits -/

theorem isHexDigit_eq (c : Char) : isHexDigit c = c.isHexDigit := by
  unfold isHexDigit Text.hexValue? Char.isHexDigit
  simp only [Char.le_def]
  split
  · simp_all
  split
  · simp_all
  split
  · simp_all
  · simp_all

theorem toNat_of_isHexDigit {c : Char} (h : c.isHexDigit = true) : c.toNat < 128 := by
  simp only [Char.isHexDigit, Char.isDigit, Bool.or_eq_true, Bool.and_eq_true, decide_eq_true_eq,
    UInt32.le_iff_toNat_le, ge_iff_le] at h
  simp at h
  omega

/-- The lowercase form of a hexadecimal digit is one too. -/
theorem isHexDigit_toLower {c : Char} (h : c.isHexDigit = true) : c.toLower.isHexDigit = true := by
  have all : ∀ n < 128, (Char.ofNat n).isHexDigit = true →
      (Char.ofNat n).toLower.isHexDigit = true := by
    decide
  have one := all c.toNat (toNat_of_isHexDigit h)
  rw [Char.ofNat_toNat] at one
  exact one h

theorem toLower_eq_map (s : String) : s.toLower = s.map Char.toLower := rfl

theorem toLower_hash {d : Digest} (h : d.IsLowercase) : d.hash.toLower = d.hash := by
  apply String.toList_inj.1
  rw [toLower_eq_map, String.toList_map]
  have same (c : Char) (mem : c ∈ d.hash.toList) : c.toLower = c :=
    Char.toLower_eq_of_not_isUpper (Bool.eq_false_iff.1 (h.lowercase c mem))
  rw [List.map_congr_left same, List.map_id']

/-! ### Spellings -/

variable {s hash : String} {size : Nat} {d : Digest}

/-- What is read from a spelling is in lowercase. -/
theorem Spelled.isLowercase (h : Spelled s hash size) :
    IsLowercase ⟨hash.toLower, UInt64.ofNat size⟩ := by
  have lower : ∀ c ∈ hash.toLower.toList, c.isHexDigit = true ∧ c.isUpper = false := by
    intro c mem
    rw [toLower_eq_map, String.toList_map] at mem
    obtain ⟨written, there, rfl⟩ := List.mem_map.1 mem
    exact ⟨isHexDigit_toLower (h.hexadecimal written there), written.isUpper_toLower_eq_false⟩
  exact ⟨fun empty => h.nonempty (String.map_eq_empty.1 empty), fun c mem => (lower c mem).1,
    fun c mem => (lower c mem).2⟩

/-- The displayed form is a spelling. -/
theorem IsLowercase.spelled (h : d.IsLowercase) : Spelled d.display d.hash d.size.toNat := by
  refine ⟨⟨toString d.size.toNat, rfl, ?_⟩, h.nonempty, h.hexadecimal⟩
  simpa using Text.numeral_toDigits d.size.toNat

/-- A hash holds no slash. -/
theorem ne_slash_of_hexadecimal (h : ∀ c ∈ hash.toList, c.isHexDigit = true) :
    ∀ c ∈ hash.toList, (c != '/') = true := by
  intro c mem
  refine bne_iff_ne.2 fun slash => ?_
  have digit := h c mem
  rw [slash] at digit
  exact absurd digit (by decide)

/-- The reader's test of a hash. -/
theorem accepts_hash_iff (hash : List Char) : (hash.isEmpty || !hash.all isHexDigit) = false ↔
    hash ≠ [] ∧ ∀ c ∈ hash, c.isHexDigit = true := by
  simp only [Bool.or_eq_false_iff, List.isEmpty_eq_false_iff, Bool.not_eq_false', List.all_eq_true,
    isHexDigit_eq]

/-- What is spelled is read. -/
theorem parse?_of_spelled (h : Spelled s hash size) (small : size < UInt64.size) :
    parse? s = some ⟨hash.toLower, UInt64.ofNat size⟩ := by
  obtain ⟨⟨numeral, rfl, spells⟩, nonempty, hexadecimal⟩ := h
  have cut : (hash ++ "/" ++ numeral).toList = hash.toList ++ '/' :: numeral.toList := by
    simp
  have slashless := ne_slash_of_hexadecimal hexadecimal
  have taken : (hash.toList ++ '/' :: numeral.toList).takeWhile (· != '/') = hash.toList := by
    rw [List.takeWhile_append_of_pos slashless]
    simp
  have dropped : (hash.toList ++ '/' :: numeral.toList).dropWhile (· != '/') =
      '/' :: numeral.toList := by
    rw [List.dropWhile_append_of_pos slashless]
    simp
  have accepted : (hash.toList.isEmpty || !hash.toList.all isHexDigit) = false :=
    (accepts_hash_iff _).2 ⟨fun empty => nonempty (String.toList_eq_nil_iff.1 empty), hexadecimal⟩
  have read : Text.readBounded UInt64.size numeral.toList = .ok size :=
    (Text.readBounded_eq_ok_iff (by decide)).2 ⟨spells, small⟩
  simp only [parse?, cut, taken, dropped, accepted, Bool.false_eq_true, if_false, read]
  rw [toLower_eq_map, String.map_eq_internal]

/-- A text with a slash is what stands before the first one, the slash, and the rest. -/
theorem eq_of_dropWhile {slash : Char} {rest : List Char}
    (dropped : s.toList.dropWhile (· != '/') = slash :: rest) :
    s = String.ofList (s.toList.takeWhile (· != '/')) ++ "/" ++ String.ofList rest := by
  have ends := List.head?_dropWhile_not (· != '/') s.toList
  rw [dropped, List.head?_cons] at ends
  have same : slash = '/' := by simpa using ends
  have parts := List.takeWhile_append_dropWhile (p := (· != '/')) (l := s.toList)
  rw [dropped, same] at parts
  apply String.toList_inj.1
  simp [parts]

/-- What is read is spelled. -/
theorem spelled_of_parse? (h : parse? s = some d) :
    ∃ hash size, Spelled s hash size ∧ size < UInt64.size ∧
      d = ⟨hash.toLower, UInt64.ofNat size⟩ := by
  unfold parse? at h
  dsimp only at h
  split at h
  · cases h
  next slash numeral dropped =>
    split at h
    · cases h
    next accepted =>
      split at h
      next size read =>
        obtain ⟨nonempty, hexadecimal⟩ := (accepts_hash_iff _).1 (Bool.not_eq_true _ ▸ accepted)
        obtain ⟨spells, small⟩ := (Text.readBounded_eq_ok_iff (by decide)).1 read
        refine ⟨_, size, ⟨⟨_, eq_of_dropWhile dropped, by simpa using spells⟩,
          by simpa using nonempty, by simpa using hexadecimal⟩, small, ?_⟩
        rw [← Option.some.inj h]
        simp [toLower_eq_map, String.map_eq_internal]
      · cases h

/-- What is displayed of a lowercase digest is read as that digest. -/
theorem parse?_display_of_isLowercase (h : d.IsLowercase) : parse? d.display = some d := by
  have read := parse?_of_spelled h.spelled (UInt64.toNat_lt_size d.size)
  rwa [toLower_hash h, UInt64.ofNat_toNat] at read

/-- **Reading accepts exactly the spellings of digests, and undoes the display.** A text is read if
and only if it spells a hash and a size below the bound of 64 bits, and then the hash is read in
lowercase. A digest whose hash is in lowercase is read back from its displayed form; and so is
whatever was read from any spelling. -/
theorem parse?_spelled :
    (∀ s, (parse? s).isSome ↔ ∃ hash size, Spelled s hash size ∧ size < UInt64.size) ∧
    (∀ s hash size, Spelled s hash size → size < UInt64.size →
      parse? s = some ⟨hash.toLower, UInt64.ofNat size⟩) ∧
    (∀ d, IsLowercase d → parse? d.display = some d) ∧
    ∀ s d, parse? s = some d → parse? d.display = some d := by
  refine ⟨fun s => ?_, fun _ _ _ => parse?_of_spelled, fun _ => parse?_display_of_isLowercase,
    fun s d read => ?_⟩
  · rw [Option.isSome_iff_exists]
    constructor
    · rintro ⟨d, read⟩
      obtain ⟨hash, size, spelled, small, -⟩ := spelled_of_parse? read
      exact ⟨hash, size, spelled, small⟩
    · rintro ⟨hash, size, spelled, small⟩
      exact ⟨_, parse?_of_spelled spelled small⟩
  · obtain ⟨hash, size, spelled, -, rfl⟩ := spelled_of_parse? read
    exact parse?_display_of_isLowercase spelled.isLowercase

/-- A hash with an uppercase digit, and a size with a sign and leading zeros. -/
def sampleSpelling : String := "0aF/+007"

theorem sampleSpelling_read :
    parse? sampleSpelling = some ⟨"0af", 7⟩ ∧
    parse? (display ⟨"0af", 7⟩) = some ⟨"0af", 7⟩ := by
  have spelled : Spelled sampleSpelling "0aF" 7 :=
    ⟨⟨"+007", rfl, ['0', '0', '7'], .inr rfl, nofun, List.all_eq_true.1 (by decide), rfl⟩,
      by decide, List.all_eq_true.1 (by decide)⟩
  obtain ⟨-, reads, -, displays⟩ := parse?_spelled
  have lower : "0aF".toLower = "0af" := by decide +kernel
  have read := reads _ _ _ spelled (by decide)
  rw [lower] at read
  exact ⟨read, displays _ _ read⟩

end BuildWorker.Digest

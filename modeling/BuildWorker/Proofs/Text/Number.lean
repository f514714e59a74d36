import BuildWorker.Text.Number

/-!
# What numerals say

A numeral is one or more decimal digits, and a plus sign may stand before them (`Text.Numeral`).
Reading accepts exactly the numerals of numbers below the bound, and gives the number
(`Text.readBounded_eq_ok_iff`).

Digits that are read only add to those before them. So once the bound is reached, it stays reached,
and it makes no difference that reading stops there.
-/

namespace BuildWorker.Text

/-- A text is a numeral of a number: decimal digits, with or without a plus sign. -/
def Numeral (cs : List Char) (n : Nat) : Prop :=
  ∃ digits, (cs = digits ∨ cs = '+' :: digits) ∧ digits ≠ [] ∧
    (∀ c ∈ digits, c.isDigit = true) ∧ Nat.ofDigitChars 10 digits 0 = n

theorem digitValue?_eq_some_iff {c : Char} {d : Nat} :
    digitValue? c = some d ↔ c.isDigit = true ∧ c.toNat - '0'.toNat = d := by
  unfold digitValue?
  split
  next digit => exact ⟨fun h => ⟨digit, Option.some.inj h⟩, fun h => congrArg some h.2⟩
  next other => exact ⟨nofun, fun h => absurd h.1 other⟩

theorem le_ofDigitChars (digits : List Char) (init : Nat) :
    init ≤ Nat.ofDigitChars 10 digits init := by
  induction digits generalizing init with
  | nil => exact Nat.le_of_eq Nat.ofDigitChars_nil.symm
  | cons c cs ih =>
      rw [Nat.ofDigitChars_cons]
      have more := ih (10 * init + (c.toNat - '0'.toNat))
      omega

/-- Digits are read as the number that they make with what was read before them. -/
theorem readDigits_eq_ok_iff {bound acc n : Nat} {cs : List Char} (small : acc < bound) :
    readDigits bound acc cs = .ok n ↔
      (∀ c ∈ cs, c.isDigit = true) ∧ Nat.ofDigitChars 10 cs acc = n ∧ n < bound := by
  induction cs generalizing acc with
  | nil =>
      rw [readDigits, Nat.ofDigitChars_nil, Except.ok.injEq]
      constructor
      · rintro rfl
        exact ⟨nofun, rfl, small⟩
      · exact fun h => h.2.1
  | cons c cs ih =>
      rw [readDigits, Nat.ofDigitChars_cons, List.forall_mem_cons]
      cases value : digitValue? c with
      | none =>
          refine ⟨nofun, fun h => ?_⟩
          have some := digitValue?_eq_some_iff.2 ⟨h.1.1, rfl⟩
          rw [value] at some
          cases some
      | some d =>
          obtain ⟨digit, rfl⟩ := digitValue?_eq_some_iff.1 value
          dsimp only
          split
          next within =>
            rw [ih within]
            exact ⟨fun h => ⟨⟨digit, h.1⟩, h.2⟩, fun h => ⟨h.1.2, h.2⟩⟩
          next beyond =>
            refine ⟨nofun, fun ⟨_, same, below⟩ => ?_⟩
            have more := le_ofDigitChars cs (10 * acc + (c.toNat - '0'.toNat))
            omega

/-- A sign is followed by digits. -/
theorem numeral_plus {cs : List Char} {n : Nat} :
    Numeral ('+' :: cs) n ↔
      cs ≠ [] ∧ (∀ c ∈ cs, c.isDigit = true) ∧ Nat.ofDigitChars 10 cs 0 = n := by
  constructor
  · rintro ⟨digits, rfl | same, nonempty, digit, value⟩
    · -- The sign would have to be a digit itself.
      exact absurd (digit '+' List.mem_cons_self) (by decide)
    · cases same
      exact ⟨nonempty, digit, value⟩
  · exact fun h => ⟨cs, .inr rfl, h⟩

/-- What does not begin with a sign is all digits. -/
theorem numeral_unsigned {cs : List Char} {n : Nat} (unsigned : ∀ rest, cs ≠ '+' :: rest) :
    Numeral cs n ↔
      cs ≠ [] ∧ (∀ c ∈ cs, c.isDigit = true) ∧ Nat.ofDigitChars 10 cs 0 = n := by
  constructor
  · rintro ⟨digits, rfl | same, h⟩
    · exact h
    · exact absurd same (unsigned digits)
  · exact fun h => ⟨cs, .inl rfl, h⟩

/-- **Reading accepts exactly the numerals of numbers below the bound.** -/
theorem readBounded_eq_ok_iff {bound n : Nat} {cs : List Char} (positive : 0 < bound) :
    readBounded bound cs = .ok n ↔ Numeral cs n ∧ n < bound := by
  unfold readBounded
  split
  · rw [numeral_unsigned fun rest => (List.cons_ne_nil '+' rest).symm]
    exact ⟨nofun, fun h => absurd rfl h.1.1⟩
  · rw [numeral_plus]
    exact ⟨nofun, fun h => absurd rfl h.1.1⟩
  next cs nonempty =>
    rw [numeral_plus, readDigits_eq_ok_iff positive, and_assoc, and_assoc]
    exact (and_iff_right nonempty).symm
  next cs nonempty _ unsigned =>
    rw [numeral_unsigned unsigned, readDigits_eq_ok_iff positive, and_assoc, and_assoc]
    exact (and_iff_right nonempty).symm

/-- The digits of a number are a numeral of it. -/
theorem numeral_toDigits (n : Nat) : Numeral (Nat.toDigits 10 n) n :=
  ⟨_, .inl rfl, Nat.toDigits_ne_nil,
    fun _ mem => Nat.isDigit_of_mem_toDigits (by decide) (by decide) mem,
    Nat.ofDigitChars_ten_toDigits⟩

end BuildWorker.Text

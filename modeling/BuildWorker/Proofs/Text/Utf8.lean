import BuildWorker.Text.Utf8

/-!
# Reading well-formed UTF-8

`Text.Utf8.lossy` replaces what is no text. Of the bytes of a text it replaces nothing: they are
read as that text (`lossy_toByteArray`). So a name that is the UTF-8 of a text is that text again,
and two such names with the same text are the same.

A character is read in one go, from its first byte to its last (`lossyFrom_encode`). The ranges
that a first byte sets for the next one leave out exactly the surrogates and what could have been
written shorter, and no character is either.

The order of texts is the order of their bytes (`toUTF8_lt`): of two characters, the smaller one has
the smaller byte where their sequences first differ.
-/

namespace BuildWorker.Text.Utf8

theorem toByteArray_toList (bytes : ByteArray) : bytes.data.toList.toByteArray = bytes := by
  apply ByteArray.ext
  rw [List.data_toByteArray, Array.toArray_toList]

/-! ### Bytes of a sequence -/

/-- The range of the byte after a first byte of three, by the first byte's payload. -/
theorem lead?_three : ∀ n < 16, lead? (UInt8.ofNat (n + 0xE0)) =
    some ⟨2, if n = 0 then 0xA0 else 0x80, if n = 0xD then 0x9F else 0xBF, n⟩ := by decide

/-- The range of the byte after a first byte of four, by the first byte's payload. -/
theorem lead?_four : ∀ n < 5, lead? (UInt8.ofNat (n + 0xF0)) =
    some ⟨3, if n = 0 then 0x90 else 0x80, if n = 4 then 0x8F else 0xBF, n⟩ := by decide

theorem lead?_two : ∀ n < 32, 2 ≤ n → lead? (UInt8.ofNat (n + 0xC0)) = some ⟨1, 0x80, 0xBF, n⟩ := by
  decide

theorem toNat_continuation {m : Nat} (h : m < 64) : (UInt8.ofNat (m + 0x80)).toNat = m + 0x80 := by
  rw [UInt8.toNat_ofNat']
  exact Nat.mod_eq_of_lt (by omega)

/-- A continuation byte in range adds six bits to the payload. -/
theorem lossyFrom_continuation (p : Partial) {m : Nat} (h : m < 64)
    (low : p.low.toNat ≤ m + 0x80) (high : m + 0x80 ≤ p.high.toNat) (rest : List UInt8) :
    lossyFrom (some p) (UInt8.ofNat (m + 0x80) :: rest) =
      if p.owed ≤ 1 then Char.ofNat (p.bits * 64 + m) :: lossyFrom none rest
      else lossyFrom (some ⟨p.owed - 1, 0x80, 0xBF, p.bits * 64 + m⟩) rest := by
  have inRange : p.low ≤ UInt8.ofNat (m + 0x80) ∧ UInt8.ofNat (m + 0x80) ≤ p.high := by
    simp only [UInt8.le_iff_toNat_le, toNat_continuation h]
    exact ⟨low, high⟩
  rw [lossyFrom, advance, if_pos inRange, toNat_continuation h, Nat.add_sub_cancel]
  by_cases last : p.owed ≤ 1
  · simp [last]
  · simp [last]

theorem lossyFrom_lead {b : UInt8} {l : Lead} (ascii : ¬ b < 0x80) (h : lead? b = some l)
    (rest : List UInt8) :
    lossyFrom none (b :: rest) = lossyFrom (some ⟨l.follow, l.low, l.high, l.bits⟩) rest := by
  rw [lossyFrom, advance, start, if_neg ascii, h]
  rfl

/-! ### Characters -/

theorem toNat_lead {m : Nat} (low : 0x80 ≤ m) (high : m < 256) :
    ¬ UInt8.ofNat m < 0x80 := by
  rw [UInt8.lt_iff_toNat_lt, UInt8.toNat_ofNat', Nat.mod_eq_of_lt high]
  exact Nat.not_lt.2 low

/-- The bytes of a character are read as that character. -/
theorem lossyFrom_encode (c : Char) (rest : List UInt8) :
    lossyFrom none (String.utf8EncodeChar c ++ rest) = c :: lossyFrom none rest := by
  have valid : c.val.toNat < 0xD800 ∨ 0xDFFF < c.val.toNat ∧ c.val.toNat < 0x110000 := c.valid
  have back (m : Nat) (h : m = c.val.toNat) : Char.ofNat m = c := by
    rw [h]
    exact Char.ofNat_toNat c
  unfold String.utf8EncodeChar
  -- From here it is arithmetic: one case for each length of the sequence.
  generalize c.val.toNat = v at *
  dsimp only
  split
  · have ascii : UInt8.ofNat v < 0x80 := by
      rw [UInt8.lt_iff_toNat_lt, UInt8.toNat_ofNat', Nat.mod_eq_of_lt (by omega)]
      exact Nat.lt_of_le_of_lt ‹_› (by decide)
    rw [List.singleton_append, lossyFrom, advance, start, if_pos ascii]
    simp [back v rfl, Nat.mod_eq_of_lt (show v < 256 by omega)]
  split
  · simp only [List.cons_append, List.nil_append]
    rw [lossyFrom_lead (toNat_lead (by omega) (by omega))
        (lead?_two (v / 64 % 32) (by omega) (by omega)),
      lossyFrom_continuation _ (by omega) (by simp) (by simp; omega), if_pos (by simp),
      back _ (by dsimp only; omega)]
  split
  · have low : (if v / 4096 % 16 = 0 then 0xA0 else (0x80 : UInt8)).toNat ≤ v / 64 % 64 + 0x80 := by
      split
      · simp; omega
      · simp
    have high :
        v / 64 % 64 + 0x80 ≤ (if v / 4096 % 16 = 0xD then 0x9F else (0xBF : UInt8)).toNat := by
      split
      · simp; omega
      · simp; omega
    simp only [List.cons_append, List.nil_append]
    rw [lossyFrom_lead (toNat_lead (by omega) (by omega)) (lead?_three (v / 4096 % 16) (by omega)),
      lossyFrom_continuation _ (by omega) low high, if_neg (by simp),
      lossyFrom_continuation _ (by omega) (by simp) (by simp; omega), if_pos (by simp),
      back _ (by dsimp only; omega)]
  · have low :
        (if v / 262144 % 8 = 0 then 0x90 else (0x80 : UInt8)).toNat ≤ v / 4096 % 64 + 0x80 := by
      split
      · simp; omega
      · simp
    have high :
        v / 4096 % 64 + 0x80 ≤ (if v / 262144 % 8 = 4 then 0x8F else (0xBF : UInt8)).toNat := by
      split
      · simp; omega
      · simp; omega
    simp only [List.cons_append, List.nil_append]
    rw [lossyFrom_lead (toNat_lead (by omega) (by omega)) (lead?_four (v / 262144 % 8) (by omega)),
      lossyFrom_continuation _ (by omega) low high, if_neg (by simp),
      lossyFrom_continuation _ (by omega) (by simp) (by simp; omega), if_neg (by simp),
      lossyFrom_continuation _ (by omega) (by simp) (by simp; omega), if_pos (by simp),
      back _ (by dsimp only; omega)]

theorem lossyFrom_flatMap_encode (cs : List Char) :
    lossyFrom none (cs.flatMap String.utf8EncodeChar) = cs := by
  induction cs with
  | nil => rfl
  | cons c cs ih => rw [List.flatMap_cons, lossyFrom_encode, ih]

/-- The bytes of a text are read as that text. -/
theorem lossy_toByteArray (s : String) : lossy s.toByteArray = s := by
  rw [lossy, ← String.utf8Encode_toList, List.utf8Encode, List.toList_data_toByteArray,
    lossyFrom_flatMap_encode, String.ofList_toList]

/-! ### Order -/

theorem cons_lt_cons_byte {m n : Nat} (hm : m < 256) (hn : n < 256) {l l' : List UInt8} :
    UInt8.ofNat m :: l < UInt8.ofNat n :: l' ↔ m < n ∨ m = n ∧ l < l' := by
  rw [List.cons_lt_cons_iff, UInt8.lt_iff_toNat_lt, ← UInt8.toNat_inj, UInt8.toNat_ofNat',
    UInt8.toNat_ofNat', Nat.mod_eq_of_lt hm, Nat.mod_eq_of_lt hn]

/-- The bytes of a smaller character are smaller, whatever follows them. -/
theorem encode_lt {c d : Char} (h : c < d) (rest rest' : List UInt8) :
    String.utf8EncodeChar c ++ rest < String.utf8EncodeChar d ++ rest' := by
  have h : c.val.toNat < d.val.toNat := h
  have within : d.val.toNat < 0x110000 := by
    rcases d.valid with low | ⟨-, high⟩
    · exact Nat.lt_trans low (by decide)
    · exact high
  unfold String.utf8EncodeChar
  generalize c.val.toNat = v at *
  generalize d.val.toNat = w at *
  -- A character is too small for its highest digit to be cut.
  have highest : v / 262144 % 8 = v / 262144 ∧ w / 262144 % 8 = w / 262144 := by omega
  dsimp only
  -- One case for each two lengths; a smaller character has no longer sequence.
  repeat' split
  all_goals
    simp (disch := omega) only [List.cons_append, List.nil_append, cons_lt_cons_byte]
    omega

/-- The bytes of a smaller text are smaller. -/
theorem toUTF8_lt {s t : String} (h : s < t) : s.toUTF8.data.toList < t.toUTF8.data.toList := by
  have bytes (s : String) : s.toUTF8.data.toList = s.toList.flatMap String.utf8EncodeChar := by
    show s.toByteArray.data.toList = _
    rw [← String.utf8Encode_toList, List.utf8Encode, List.toList_data_toByteArray]
  rw [bytes, bytes]
  have h := String.lt_iff.1 h
  generalize s.toList = cs at h
  generalize t.toList = ds at h
  induction h with
  | @nil d ds =>
      rw [List.flatMap_nil, List.flatMap_cons]
      cases encoded : String.utf8EncodeChar d with
      | nil => simp at encoded
      | cons => exact .nil
  | cons _ ih =>
      rw [List.flatMap_cons, List.flatMap_cons]
      exact List.append_left_lt ih
  | rel less => exact encode_lt less _ _

end BuildWorker.Text.Utf8

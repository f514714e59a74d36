import BuildWorker.Json.Message
import BuildWorker.Proofs.Json.RoundTrip

/-!
# Lawful messages

A type of messages is *lawful* when its form is plain and reading the form gives the message
back. Then the canonical text of a message names that message (`Message.decode?_encode`), and two
messages of one type have the same text only if they are the same.

Records are read by the names of their fields. `Message.fields?_record` says what a reader finds
in a record that a writer made; what is left of a record's law are the laws of its fields.
-/

namespace BuildWorker

/-- A type whose messages are read back from their canonical form. -/
class LawfulMessage (α : Type) [Message α] : Prop where
  /-- The form is one that reads back. -/
  isPlain_toJson : ∀ a : α, (toJson a).IsPlain
  /-- The form names the message. -/
  ofJson?_toJson : ∀ a : α, ofJson? (toJson a) = some a

export LawfulMessage (isPlain_toJson ofJson?_toJson)

attribute [simp] isPlain_toJson ofJson?_toJson

namespace Message

variable {α β : Type}

/-- Decoding undoes encoding. -/
theorem decode?_encode [Message α] [LawfulMessage α] (a : α) : decode? (encode a) = some a := by
  simp [decode?, encode, Json.read?_write]

theorem encode_injective [Message α] [LawfulMessage α] : Function.Injective (encode (α := α)) := by
  intro a b h
  have := decode?_encode a
  rw [h, decode?_encode] at this
  exact (Option.some.inj this).symm

/-! ### Simple values -/

instance : LawfulMessage String where
  isPlain_toJson _ := rfl
  ofJson?_toJson s := by simp [toJson, ofJson?, Json.text, Json.text?]

instance : LawfulMessage Bool where
  isPlain_toJson _ := trivial
  ofJson?_toJson _ := rfl

/-- A natural number below a bound is read back. The bound is a variable here: the proof must not
compute with the sizes of machine words. -/
theorem integer?_nat {n bound : Nat} (h : n < bound) :
    integer? 0 bound (.nat n) = some (n : Int) := by
  show (do
    let i ← (Numeral.ofNat n).toInt?
    if 0 ≤ i ∧ i < (bound : Int) then some i else none) = _
  rw [Numeral.toInt?_ofNat]
  exact if_pos ⟨Int.natCast_nonneg n, Int.ofNat_lt.2 h⟩

instance : LawfulMessage UInt64 where
  isPlain_toJson _ := ⟨rfl, rfl⟩
  ofJson?_toJson n := by
    simp only [ofJson?, toJson]
    rw [integer?_nat n.toNat_lt_size]
    simp

instance : LawfulMessage UInt32 where
  isPlain_toJson _ := ⟨rfl, rfl⟩
  ofJson?_toJson n := by
    simp only [ofJson?, toJson]
    rw [integer?_nat n.toNat_lt_size]
    simp

/-- An integer within bounds is read back. -/
theorem integer?_int {i low high : Int} (h : low ≤ i ∧ i < high) :
    integer? low high (.int i) = some i := by
  show (do
    let j ← (Numeral.ofInt i).toInt?
    if low ≤ j ∧ j < high then some j else none) = _
  rw [Numeral.toInt?_ofInt]
  exact if_pos h

instance : LawfulMessage Int32 where
  isPlain_toJson _ := ⟨rfl, rfl⟩
  ofJson?_toJson n := by
    have bounds : -2147483648 ≤ n.toInt ∧ n.toInt < 2147483648 := ⟨n.le_toInt, n.toInt_lt⟩
    simp only [ofJson?, toJson]
    rw [integer?_int bounds]
    simp

/-- Undoing a function item by item. -/
theorem mapM_map_eq_some {f : α → β} {g : β → Option α} (h : ∀ a, g (f a) = some a)
    (xs : List α) : (xs.map f).mapM g = some xs := by
  induction xs with
  | nil => rfl
  | cons x xs ih => simp [h, -List.mapM_map, ih]

theorem arePlain_map_toJson [Message α] [LawfulMessage α] (xs : List α) :
    Json.ArePlain (xs.map toJson) := by
  induction xs with
  | nil => exact trivial
  | cons x xs ih => exact ⟨isPlain_toJson x, ih⟩

instance [Message α] [LawfulMessage α] : LawfulMessage (List α) where
  isPlain_toJson xs := arePlain_map_toJson xs
  ofJson?_toJson xs := mapM_map_eq_some ofJson?_toJson xs

instance [Message α] [LawfulMessage α] [Message β] [LawfulMessage β] : LawfulMessage (α × β) where
  isPlain_toJson p := ⟨isPlain_toJson p.1, isPlain_toJson p.2, trivial⟩
  ofJson?_toJson p := by simp [ofJson?, toJson]

theorem arePlain_bytes (bs : List UInt8) : Json.ArePlain (bs.map fun b => .nat b.toNat) := by
  induction bs with
  | nil => exact trivial
  | cons b bs ih => exact ⟨⟨rfl, rfl⟩, ih⟩

instance : LawfulMessage ByteArray where
  isPlain_toJson bytes := arePlain_bytes bytes.data.toList
  ofJson?_toJson bytes := by
    have all : (bytes.data.toList.map fun b => Json.nat b.toNat).mapM
        (fun j => (integer? 0 256 j).map fun i => UInt8.ofNat i.toNat) =
          some bytes.data.toList := by
      apply mapM_map_eq_some
      intro b
      have bound : b.toNat < 256 := b.toNat_lt
      rw [show (256 : Int) = ((256 : Nat) : Int) from rfl, integer?_nat bound]
      simp
    simp only [ofJson?, toJson]
    rw [all]
    simp [Text.Utf8.toByteArray_toList]

/-! ### Records -/

theorem isPlain_record {kvs : List (String × Json)} (h : ∀ kv ∈ kvs, kv.2.IsPlain) :
    (Json.record kvs).IsPlain := by
  show Json.ArePlainFields _
  induction kvs with
  | nil => exact trivial
  | cons kv kvs ih =>
      exact ⟨rfl, h kv List.mem_cons_self, ih fun kv hkv => h kv (List.mem_cons_of_mem _ hkv)⟩

/-- A key that occurs once is found once. -/
theorem length_filter_key_le {kvs : List (String × Json)} (nodup : (kvs.map (·.1)).Nodup)
    (name : String) : (kvs.filter (·.1 == name)).length ≤ 1 := by
  induction kvs with
  | nil => simp
  | cons kv kvs ih =>
      rw [List.map_cons, List.nodup_cons] at nodup
      by_cases h : kv.1 = name
      · have none_left : kvs.filter (·.1 == name) = [] := by
          rw [List.filter_eq_nil_iff]
          intro other hother heq
          exact nodup.1 (List.mem_map.2 ⟨other, hother, by simp_all⟩)
        simp [h, none_left]
      · simpa [h] using ih nodup.2

/-- What a reader finds in a record whose keys differ and are all among those it asks for. -/
theorem fields?_record {names : List String} {kvs : List (String × Json)}
    (nodup : (kvs.map (·.1)).Nodup) (known : ∀ kv ∈ kvs, kv.1 ∈ names) :
    fields? names (.record kvs) = some (names.map (kvs.lookup ·)) := by
  have keyed : (kvs.map fun kv => (Literal.ofText kv.1, kv.2)).mapM
      (fun kv => kv.1.text?.bind fun key => some (key, kv.2)) = some kvs :=
    mapM_map_eq_some (fun _ => by simp) kvs
  have once : names.all (fun name => (kvs.filter (·.1 == name)).length ≤ 1) = true := by
    simp [length_filter_key_le nodup]
  have others : kvs.all (fun kv => names.contains kv.1 || isClean kv.2) = true := by
    rw [List.all_eq_true]
    intro kv hkv
    simp [known kv hkv]
  simp only [fields?, Json.record, Option.bind_eq_bind, Option.pure_def]
  rw [keyed]
  simp only [Option.bind_some, once, others, Bool.and_self, if_true]

/-- Reading a record that a writer made, in the shape in which readers of records are written. -/
theorem bind_fields?_record {names : List String} {kvs : List (String × Json)}
    (nodup : (kvs.map (·.1)).Nodup) (known : ∀ kv ∈ kvs, kv.1 ∈ names)
    (read : List (Option Json) → Option α) :
    (fields? names (.record kvs)).bind read = read (names.map (kvs.lookup ·)) := by
  rw [fields?_record nodup known, Option.bind_some]

/-- Reading a record some of whose fields may be left out. -/
theorem bind_fields?_sublist {names : List String} {kvs : List (String × Json)}
    (sub : (kvs.map (·.1)).Sublist names) (nodup : names.Nodup)
    (read : List (Option Json) → Option α) :
    (fields? names (.record kvs)).bind read = read (names.map (kvs.lookup ·)) :=
  bind_fields?_record (sub.nodup nodup) (fun _ mem => sub.subset (List.mem_map_of_mem mem)) read

@[simp] theorem required?_toJson [Message α] [LawfulMessage α] (a : α) :
    required? (some (toJson a)) = some a :=
  ofJson?_toJson a

@[simp] theorem withDefault?_toJson [Message α] [LawfulMessage α] (default a : α) :
    withDefault? default (some (toJson a)) = some a :=
  ofJson?_toJson a

/-! ### Fields that may be left out -/

theorem keys_whenSome [Message α] (name : String) (a : Option α) :
    ((whenSome name a).map (·.1)).Sublist [name] := by
  cases a <;> simp [whenSome]

theorem keys_whenBytes (name : String) (bytes : ByteArray) :
    ((whenBytes name bytes).map (·.1)).Sublist [name] := by
  unfold whenBytes
  split <;> simp

@[simp] theorem lookup_whenSome [Message α] (name key : String) (a : Option α) :
    (whenSome name a).lookup key = if key = name then a.map toJson else none := by
  cases a with
  | none => simp [whenSome]
  | some a =>
      by_cases same : key = name
      · simp [whenSome, same]
      · simp [whenSome, List.lookup_cons, same, beq_eq_false_iff_ne.2 same]

@[simp] theorem lookup_whenBytes (name key : String) (bytes : ByteArray) :
    (whenBytes name bytes).lookup key =
      if key = name ∧ bytes.isEmpty = false then some (toJson bytes) else none := by
  by_cases empty : bytes.isEmpty
  · simp [whenBytes, empty]
  · by_cases same : key = name
    · simp [whenBytes, empty, same]
    · simp [whenBytes, empty, List.lookup_cons, same, beq_eq_false_iff_ne.2 same]

theorem isPlain_whenSome [Message α] [LawfulMessage α] {name : String} {a : Option α} :
    ∀ kv ∈ whenSome name a, kv.2.IsPlain := by
  cases a <;> simp [whenSome]

theorem isPlain_whenBytes {name : String} {bytes : ByteArray} :
    ∀ kv ∈ whenBytes name bytes, kv.2.IsPlain := by
  unfold whenBytes
  split <;> simp

theorem record_ne_null (kvs : List (String × Json)) : Json.record kvs ≠ .null := by
  intro h
  cases h

theorem text_ne_null (s : String) : Json.text s ≠ .null := by
  intro h
  cases h

/-- A value that may be absent is read back, if no value looks like an absent one. -/
theorem optional?_toJson [Message α] [LawfulMessage α] (present : ∀ a : α, toJson a ≠ .null)
    (a : Option α) : optional? (a.map toJson) = some a := by
  cases a with
  | none => rfl
  | some a =>
      have read := ofJson?_toJson a
      rw [Option.map_some, optional?]
      · rw [read]
        rfl
      · exact present a

/-- Bytes that are left out when there are none are read back. -/
theorem withDefault?_bytes (bytes : ByteArray) :
    withDefault? .empty (if bytes.isEmpty = false then some (toJson bytes) else none) =
      some bytes := by
  split
  · exact withDefault?_toJson _ _
  next empty =>
    have none_ : bytes = .empty := by
      simpa [ByteArray.isEmpty, ByteArray.size_eq_zero_iff] using empty
    rw [none_]
    rfl

end Message

end BuildWorker

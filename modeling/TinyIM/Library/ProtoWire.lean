import TinyIM.Library.ByteOrder

namespace TinyIM.Library.ProtoWire

open ByteOrder

/-- The base-128 encoding of a number, least significant group first. -/
def varint (n : ℕ) : Bytes :=
  if n < 128 then [UInt8.ofNat n] else UInt8.ofNat (n % 128 + 128) :: varint (n / 128)
termination_by n
decreasing_by omega

/-- Reads a varint of at most `k` bytes. -/
def readGroups : ℕ → Bytes → Option (ℕ × Bytes)
  | 0, _ => none
  | _ + 1, [] => none
  | k + 1, b :: bs =>
    if b.toNat < 128 then some (b.toNat, bs)
    else (readGroups k bs).map fun r ↦ (b.toNat - 128 + 128 * r.1, r.2)

/-- A varint has at most ten bytes, of which 64 bits count. -/
def readVarint (bs : Bytes) : Option (ℕ × Bytes) :=
  (readGroups 10 bs).map fun r ↦ (r.1 % 2 ^ 64, r.2)

def readBytes (k : ℕ) (bs : Bytes) : Option (Bytes × Bytes) :=
  if k ≤ bs.length then some (bs.take k, bs.drop k) else none

inductive Value
  | varint (n : ℕ)
  | fixed64 (bs : Bytes)
  | len (bs : Bytes)
  | fixed32 (bs : Bytes)
  deriving DecidableEq, Repr

structure WireField where
  num : ℕ
  value : Value
  deriving DecidableEq, Repr

def Value.wireType : Value → ℕ
  | varint _ => 0
  | fixed64 _ => 1
  | len _ => 2
  | fixed32 _ => 5

def Value.payload : Value → Bytes
  | varint n => ProtoWire.varint n
  | fixed64 bs => bs
  | len bs => ProtoWire.varint bs.length ++ bs
  | fixed32 bs => bs

def WireField.encode (f : WireField) : Bytes := varint (f.num * 8 + f.value.wireType) ++ f.value.payload

/-- The payload of a wire type. Groups are not part of proto3. -/
def readValue (wireType : ℕ) (bs : Bytes) : Option (Value × Bytes) :=
  match wireType with
  | 0 => (readVarint bs).map fun r ↦ (.varint r.1, r.2)
  | 1 => (readBytes 8 bs).map fun r ↦ (.fixed64 r.1, r.2)
  | 2 => (readVarint bs).bind fun r ↦ (readBytes r.1 r.2).map fun r ↦ (.len r.1, r.2)
  | 5 => (readBytes 4 bs).map fun r ↦ (.fixed32 r.1, r.2)
  | _ => none

def readField (bs : Bytes) : Option (WireField × Bytes) :=
  (readVarint bs).bind fun tag ↦
    if 8 ≤ tag.1 ∧ tag.1 < 2 ^ 32 then
      (readValue (tag.1 % 8) tag.2).map fun r ↦ (⟨tag.1 / 8, r.1⟩, r.2)
    else none

def readFieldsOf : ℕ → Bytes → Option (List WireField)
  | _, [] => some []
  | 0, _ :: _ => none
  | k + 1, b :: bs => (readField (b :: bs)).bind fun r ↦ (readFieldsOf k r.2).map (r.1 :: ·)

/-- The fields of a message. Each takes at least one byte. -/
def readFields (bs : Bytes) : Option (List WireField) := readFieldsOf bs.length bs

def readPackedOf : ℕ → Bytes → Option (List ℕ)
  | _, [] => some []
  | 0, _ :: _ => none
  | k + 1, b :: bs => (readVarint (b :: bs)).bind fun r ↦ (readPackedOf k r.2).map (r.1 :: ·)

def readPacked (bs : Bytes) : Option (List ℕ) := readPackedOf bs.length bs

/-- Merges the fields of a message into its default, in order. -/
def parse {M : Type} (merge : M → WireField → Option M) (fresh : M) (bs : Bytes) : Option M :=
  (readFields bs).bind fun fs ↦ fs.foldlM merge fresh

/-- The two's complement reading of 64 bits. -/
def toInt64 (n : ℕ) : ℤ := (BitVec.ofNat 64 n).toInt

/-- The two's complement reading of the low 32 bits. -/
def toInt32 (n : ℕ) : ℤ := (BitVec.ofNat 32 n).toInt

def ofInt (z : ℤ) : ℕ := (BitVec.ofInt 64 z).toNat

structure Value.WellFormed (v : Value) : Prop where
  varint : ∀ n, v = .varint n → n < 2 ^ 64
  fixed64 : ∀ bs, v = .fixed64 bs → bs.length = 8
  len : ∀ bs, v = .len bs → bs.length < 2 ^ 64
  fixed32 : ∀ bs, v = .fixed32 bs → bs.length = 4

/-- What a field of a message may be. -/
structure WireField.WellFormed (f : WireField) : Prop where
  num : 1 ≤ f.num ∧ f.num < 2 ^ 29
  value : f.value.WellFormed

theorem varint_ne_nil (n : ℕ) : varint n ≠ [] := by
  rw [varint]
  split_ifs <;> exact List.cons_ne_nil _ _

theorem varint_length_le {k n : ℕ} (h : n < 128 ^ (k + 1)) : (varint n).length ≤ k + 1 := by
  induction k generalizing n with
  | zero =>
    rw [varint, if_pos (by omega)]
    exact le_rfl
  | succ k ih =>
    rw [varint]
    split_ifs with hsmall
    · exact Nat.succ_le_succ (Nat.zero_le _)
    · have hdiv : n / 128 < 128 ^ (k + 1) := by
        rw [pow_succ] at h
        exact Nat.div_lt_of_lt_mul (by rwa [Nat.mul_comm])
      exact Nat.succ_le_succ (ih hdiv)

theorem readGroups_varint {k n : ℕ} (h : n < 128 ^ (k + 1)) (rest : Bytes) :
    readGroups (k + 1) (varint n ++ rest) = some (n, rest) := by
  induction k generalizing n with
  | zero =>
    rw [varint, if_pos (by omega), List.singleton_append, readGroups]
    have hn : (UInt8.ofNat n).toNat = n := by
      rw [UInt8.toNat_ofNat']
      omega
    rw [hn, if_pos (by omega)]
  | succ k ih =>
    rw [varint]
    split_ifs with hsmall
    · have hn : (UInt8.ofNat n).toNat = n := by
        rw [UInt8.toNat_ofNat']
        omega
      rw [List.singleton_append, readGroups, hn, if_pos hsmall]
    · have hb : (UInt8.ofNat (n % 128 + 128)).toNat = n % 128 + 128 := by
        rw [UInt8.toNat_ofNat']
        omega
      have hdiv : n / 128 < 128 ^ (k + 1) := by
        rw [pow_succ] at h
        exact Nat.div_lt_of_lt_mul (by rwa [Nat.mul_comm])
      rw [List.cons_append, readGroups, hb, if_neg (by omega), ih hdiv]
      simp only [Option.map_some, Nat.add_sub_cancel]
      rw [Nat.mod_add_div]

theorem readVarint_varint {n : ℕ} (h : n < 2 ^ 64) (rest : Bytes) :
    readVarint (varint n ++ rest) = some (n, rest) := by
  have hlt : n < 128 ^ (9 + 1) := h.trans (by decide)
  rw [readVarint, readGroups_varint hlt, Option.map_some, Nat.mod_eq_of_lt h]

theorem readBytes_append (bs rest : Bytes) : readBytes bs.length (bs ++ rest) = some (bs, rest) := by
  simp [readBytes]

theorem readValue_payload {v : Value} (h : v.WellFormed) (rest : Bytes) :
    readValue v.wireType (v.payload ++ rest) = some (v, rest) := by
  cases v with
  | varint n => simp [readValue, Value.wireType, Value.payload, readVarint_varint (h.varint n rfl)]
  | fixed64 bs =>
    have hread := readBytes_append bs rest
    rw [h.fixed64 bs rfl] at hread
    simp [readValue, Value.wireType, Value.payload, hread]
  | len bs =>
    simp [readValue, Value.wireType, Value.payload, readVarint_varint (h.len bs rfl),
      readBytes_append]
  | fixed32 bs =>
    have hread := readBytes_append bs rest
    rw [h.fixed32 bs rfl] at hread
    simp [readValue, Value.wireType, Value.payload, hread]

theorem wireType_lt (v : Value) : v.wireType < 8 := by
  cases v <;> simp [Value.wireType]

theorem readField_encode {f : WireField} (h : f.WellFormed) (rest : Bytes) :
    readField (f.encode ++ rest) = some (f, rest) := by
  obtain ⟨hlow, hhigh⟩ := h.num
  have hwire := wireType_lt f.value
  have htag : f.num * 8 + f.value.wireType < 2 ^ 64 := by omega
  have hmod : (f.num * 8 + f.value.wireType) % 8 = f.value.wireType := by omega
  have hdiv : (f.num * 8 + f.value.wireType) / 8 = f.num := by omega
  rw [readField, WireField.encode, List.append_assoc, readVarint_varint htag, Option.bind_some,
    if_pos (by omega)]
  simp only [hmod, hdiv, readValue_payload h.value, Option.map_some]

theorem encode_ne_nil (f : WireField) : f.encode ≠ [] := by
  rw [WireField.encode]
  exact List.append_ne_nil_of_left_ne_nil (varint_ne_nil _) _

theorem readFieldsOf_encode {fs : List WireField} (h : ∀ f ∈ fs, f.WellFormed) {k : ℕ}
    (hk : fs.length ≤ k) : readFieldsOf k (fs.flatMap WireField.encode) = some fs := by
  induction fs generalizing k with
  | nil =>
    cases k <;> rfl
  | cons f fs ih =>
    obtain ⟨hf, hfs⟩ := List.forall_mem_cons.mp h
    cases k with
    | zero => cases hk
    | succ k =>
      rw [List.flatMap_cons]
      obtain ⟨b, bs, hcons⟩ := List.exists_cons_of_ne_nil
        (List.append_ne_nil_of_left_ne_nil (encode_ne_nil f) (fs.flatMap WireField.encode))
      have hread := readField_encode hf (fs.flatMap WireField.encode)
      rw [hcons] at hread ⊢
      rw [readFieldsOf, hread, Option.bind_some, ih hfs (Nat.le_of_succ_le_succ hk), Option.map_some]

theorem length_le_encode (fs : List WireField) : fs.length ≤ (fs.flatMap WireField.encode).length := by
  induction fs with
  | nil => exact Nat.zero_le _
  | cons f fs ih =>
    have hf := List.length_pos_of_ne_nil (encode_ne_nil f)
    rw [List.flatMap_cons, List.length_append, List.length_cons]
    omega

theorem readFields_encode {fs : List WireField} (h : ∀ f ∈ fs, f.WellFormed) :
    readFields (fs.flatMap WireField.encode) = some fs :=
  readFieldsOf_encode h (length_le_encode fs)

theorem parse_encode {M : Type} {merge : M → WireField → Option M} {fresh : M} {fs : List WireField}
    (h : ∀ f ∈ fs, f.WellFormed) :
    parse merge fresh (fs.flatMap WireField.encode) = fs.foldlM merge fresh := by
  rw [parse, readFields_encode h, Option.bind_some]

theorem ofInt_natCast {n : ℕ} (h : n < 2 ^ 64) : ofInt n = n := by
  rw [ofInt, BitVec.ofInt_natCast, BitVec.toNat_ofNat, Nat.mod_eq_of_lt h]

theorem toInt64_natCast {n : ℕ} (h : n < 2 ^ 63) : toInt64 n = n := by
  rw [toInt64, BitVec.toInt_ofNat']
  exact Int.bmod_eq_of_le (by simp only [Nat.cast_pow, Nat.cast_ofNat]; omega)
    (by simp only [Nat.cast_pow, Nat.cast_ofNat]; omega)

theorem toInt32_natCast {n : ℕ} (h : n < 2 ^ 31) : toInt32 n = n := by
  rw [toInt32, BitVec.toInt_ofNat']
  exact Int.bmod_eq_of_le (by simp only [Nat.cast_pow, Nat.cast_ofNat]; omega)
    (by simp only [Nat.cast_pow, Nat.cast_ofNat]; omega)

theorem toInt64_zero : toInt64 0 = 0 := toInt64_natCast (by decide)

theorem toInt32_one : toInt32 1 = 1 := toInt32_natCast (by decide)

end TinyIM.Library.ProtoWire

import TinyIM.Library.ByteOrder

namespace TinyIM.Library.Utf16

open ByteOrder

/-- A string of UTF-16 code units, of which surrogates may be unpaired. -/
abbrev CodeUnits := List UInt16

def IsHigh (u : UInt16) : Prop := 0xD800 ≤ u.toNat ∧ u.toNat < 0xDC00

def IsLow (u : UInt16) : Prop := 0xDC00 ≤ u.toNat ∧ u.toNat < 0xE000

instance (u : UInt16) : Decidable (IsHigh u) := inferInstanceAs (Decidable (_ ∧ _))

instance (u : UInt16) : Decidable (IsLow u) := inferInstanceAs (Decidable (_ ∧ _))

/-- A code unit on its own. A surrogate gives the replacement character. -/
def single (u : UInt16) : Char :=
  if IsHigh u ∨ IsLow u then Char.ofNat 0xFFFD else Char.ofNat u.toNat

def pair (u v : UInt16) : Char :=
  Char.ofNat (0x10000 + (u.toNat - 0xD800) * 0x400 + (v.toNat - 0xDC00))

def scalars : CodeUnits → List Char
  | [] => []
  | [u] => [single u]
  | u :: v :: rest =>
    if IsHigh u ∧ IsLow v then pair u v :: scalars rest else single u :: scalars (v :: rest)

def encodeUtf8 (s : CodeUnits) : Bytes := (scalars s).flatMap String.utf8EncodeChar

def IsUtf8 (bs : Bytes) : Prop := bs.toByteArray.validateUTF8 = true

instance (bs : Bytes) : Decidable (IsUtf8 bs) := inferInstanceAs (Decidable (_ = _))

theorem isUtf8_encodeUtf8 (s : CodeUnits) : IsUtf8 (encodeUtf8 s) :=
  ByteArray.validateUTF8_eq_true_iff.mpr (.intro (scalars s) rfl)

theorem scalars_eq_nil_iff {s : CodeUnits} : scalars s = [] ↔ s = [] := by
  match s with
  | [] => simp [scalars]
  | [u] => simp [scalars]
  | u :: v :: rest =>
    rw [scalars]
    split_ifs <;> simp

theorem encodeUtf8_eq_nil_iff {s : CodeUnits} : encodeUtf8 s = [] ↔ s = [] := by
  rw [encodeUtf8, List.flatMap_eq_nil_iff, ← scalars_eq_nil_iff, List.eq_nil_iff_forall_not_mem]
  exact forall₂_congr fun c _ ↦ iff_false_intro String.utf8EncodeChar_ne_nil

def ofAscii (bs : Bytes) : CodeUnits := bs.map UInt8.toUInt16

theorem single_ascii {b : UInt8} (h : b.toNat < 128) :
    String.utf8EncodeChar (single b.toUInt16) = [b] := by
  have hunit : b.toUInt16.toNat = b.toNat := UInt8.toNat_toUInt16 b
  have hchar : single b.toUInt16 = Char.ofNat b.toNat := by
    rw [single, if_neg (by simp only [IsHigh, IsLow, hunit]; omega), hunit]
  have hvalid : b.toNat.isValidChar := .inl (by omega)
  have hval : (Char.ofNat b.toNat).val.toNat = b.toNat := by
    rw [Char.ofNat, dif_pos hvalid]
    rfl
  rw [hchar, String.utf8EncodeChar, hval]
  simp only [show b.toNat ≤ 127 by omega, if_true, UInt8.ofNat_toNat]

theorem scalars_ascii {bs : Bytes} (h : ∀ b ∈ bs, b.toNat < 128) :
    scalars (ofAscii bs) = bs.map fun b ↦ single b.toUInt16 := by
  induction bs with
  | nil => rfl
  | cons b bs ih =>
    obtain ⟨hb, hbs⟩ := List.forall_mem_cons.mp h
    cases bs with
    | nil => rfl
    | cons c bs =>
      have hnot : ¬ (IsHigh b.toUInt16 ∧ IsLow c.toUInt16) := by
        rw [IsHigh, UInt8.toNat_toUInt16]
        omega
      have hrest := ih hbs
      rw [ofAscii, List.map_cons, List.map_cons] at *
      rw [scalars, if_neg hnot, hrest]
      rfl

theorem encodeUtf8_ascii {bs : Bytes} (h : ∀ b ∈ bs, b.toNat < 128) :
    encodeUtf8 (ofAscii bs) = bs := by
  rw [encodeUtf8, scalars_ascii h]
  induction bs with
  | nil => rfl
  | cons b bs ih =>
    obtain ⟨hb, hbs⟩ := List.forall_mem_cons.mp h
    rw [List.map_cons, List.flatMap_cons, single_ascii hb, ih hbs]
    rfl

end TinyIM.Library.Utf16

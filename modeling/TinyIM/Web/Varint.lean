import TinyIM.Web.Decoders
import TinyIM.Web.Encoders

namespace TinyIM.Web

open Library.ByteOrder Library.ProtoWire

/-- The number is written in base 128, and read back wherever it stands. -/
def RoundTrips (v : ℤ) : Prop :=
  encodeVarint v = varint v.toNat ∧
    ∀ (view : View) (offset : ℕ) (rest : Bytes), view.bytes.drop offset = encodeVarint v ++ rest →
      decodeVarint view offset = some (v, (encodeVarint v).length)

theorem varint_injective : Function.Injective varint := by
  intro m n h
  induction m using Nat.strong_induction_on generalizing n with
  | _ m ih =>
    rw [varint.eq_def m, varint.eq_def n] at h
    split_ifs at h with hm hn hn
    · have hbyte := congrArg UInt8.toNat (List.cons.inj h).1
      simp only [UInt8.toNat_ofNat'] at hbyte
      omega
    · exact absurd (List.cons.inj h).2.symm (varint_ne_nil _)
    · exact absurd (List.cons.inj h).2 (varint_ne_nil _)
    · obtain ⟨hbyte, htail⟩ := List.cons.inj h
      have hbyte := congrArg UInt8.toNat hbyte
      have hdiv := ih (m / 128) (by omega) htail
      simp only [UInt8.toNat_ofNat'] at hbyte
      omega

/-- Only the numbers of 32 bits are written in base 128: the first shift cuts
the others. -/
theorem encodeVarint_eq_varint_iff {n : ℕ} : encodeVarint n = varint n ↔ n < 2 ^ 32 := by
  refine ⟨?_, encodeVarint_natCast⟩
  intro h
  by_contra hlarge
  have hrest : ((n : ℤ) % 2 ^ 32 / 128) = (n % 2 ^ 32 / 128 : ℕ) := by omega
  rw [encodeVarint, varint, if_pos (by omega), if_neg (by omega), hrest,
    encodeVarint_natCast (show n % 2 ^ 32 / 128 < 2 ^ 32 by omega)] at h
  have hdiv := varint_injective (List.cons.inj h).2
  omega

theorem jsInt_eq_natCast_iff {n : ℕ} (h : n < 2 ^ 32) : jsInt n = n ↔ n < 2 ^ 31 := by
  refine ⟨?_, jsInt_natCast⟩
  intro heq
  have hint := (BitVec.ofNat 32 n).toInt_lt
  rw [jsInt_eq (h.trans (by decide)), toInt32] at heq
  omega

theorem roundTrips_iff (v : ℤ) (hv : 0 ≤ v ∧ v ≤ 2 ^ 53 - 1) : RoundTrips v ↔ v < 2 ^ 31 := by
  obtain ⟨n, rfl⟩ := Int.eq_ofNat_of_zero_le hv.1
  constructor
  · intro h
    obtain ⟨hencode, hdecode⟩ := h
    have hn := encodeVarint_eq_varint_iff.mp hencode
    have hbytes : (View.ofBytes (encodeVarint n)).bytes.drop 0 = encodeVarint n ++ [] := by
      rw [View.bytes_ofBytes, List.drop_zero, List.append_nil]
    have hread := hdecode _ 0 [] hbytes
    rw [hencode] at hbytes hread
    have hjs := (decodeVarint_eq hbytes).symm.trans hread
    have hjs := (jsInt_eq_natCast_iff hn).mp (Prod.mk.inj (Option.some.inj hjs)).1
    omega
  · intro h
    have hn : n < 2 ^ 31 := by omega
    have hencode := encodeVarint_natCast (hn.trans (by decide))
    refine ⟨hencode, ?_⟩
    intro view offset rest hbytes
    rw [hencode] at hbytes ⊢
    rw [decodeVarint_eq hbytes, jsInt_natCast hn]

theorem roundTrips_large : RoundTrips (2 ^ 31 - 1) :=
  (roundTrips_iff (2 ^ 31 - 1) (by decide)).mpr (by decide)

theorem not_roundTrips : ¬ ∀ v : ℤ, 0 ≤ v ∧ v ≤ 2 ^ 53 - 1 → RoundTrips v := by
  intro h
  obtain ⟨hencode, -⟩ := h (2 ^ 32) (by decide)
  exact absurd (encodeVarint_eq_varint_iff (n := 2 ^ 32).mp hencode) (by decide)

end TinyIM.Web

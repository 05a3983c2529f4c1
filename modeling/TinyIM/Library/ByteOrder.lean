import Mathlib.Data.List.Basic
import Mathlib.Data.List.Induction
import Mathlib.Tactic.Ring

namespace TinyIM.Library.ByteOrder

abbrev Bytes := List UInt8

/-- The `k` low bytes of a number, most significant first. -/
def bigEndian : ℕ → ℕ → Bytes
  | 0, _ => []
  | k + 1, v => bigEndian k (v / 256) ++ [UInt8.ofNat v]

def fromBigEndian (bs : Bytes) : ℕ := bs.foldl (fun v b ↦ v * 256 + b.toNat) 0

@[simp] theorem bigEndian_length (k v : ℕ) : (bigEndian k v).length = k := by
  induction k generalizing v with
  | zero => rfl
  | succ k ih => simp [bigEndian, ih]

@[simp] theorem fromBigEndian_append_singleton (bs : Bytes) (b : UInt8) :
    fromBigEndian (bs ++ [b]) = fromBigEndian bs * 256 + b.toNat := by
  simp [fromBigEndian]

theorem fromBigEndian_bigEndian (k v : ℕ) : fromBigEndian (bigEndian k v) = v % 256 ^ k := by
  induction k generalizing v with
  | zero => simp [bigEndian, fromBigEndian, Nat.mod_one]
  | succ k ih =>
    have hb : (UInt8.ofNat v).toNat = v % 256 := by simp
    rw [bigEndian, fromBigEndian_append_singleton, ih, hb, pow_succ', Nat.mod_mul]
    ring

theorem bigEndian_fromBigEndian (bs : Bytes) : bigEndian bs.length (fromBigEndian bs) = bs := by
  induction bs using List.reverseRecOn with
  | nil => rfl
  | append_singleton bs b ih =>
    have hb := b.toNat_lt
    have hdiv : (fromBigEndian bs * 256 + b.toNat) / 256 = fromBigEndian bs := by omega
    have hmod : UInt8.ofNat (fromBigEndian bs * 256 + b.toNat) = b := by
      apply UInt8.toNat_inj.mp
      simp only [UInt8.toNat_ofNat']
      omega
    rw [fromBigEndian_append_singleton, List.length_append, List.length_singleton, bigEndian, hdiv,
      hmod, ih]

theorem fromBigEndian_lt (bs : Bytes) : fromBigEndian bs < 256 ^ bs.length := by
  have h := fromBigEndian_bigEndian bs.length (fromBigEndian bs)
  rw [bigEndian_fromBigEndian] at h
  rw [h]
  exact Nat.mod_lt _ (Nat.pow_pos (by decide))

/-- The order in which a host keeps the bytes of a number in memory. -/
inductive Endian
  | little
  | big
  deriving DecidableEq, Repr

namespace Endian

/-- The memory of a `k`-byte number. -/
def store (e : Endian) (k v : ℕ) : Bytes :=
  match e with
  | little => (bigEndian k v).reverse
  | big => bigEndian k v

def load (e : Endian) (bs : Bytes) : ℕ :=
  match e with
  | little => fromBigEndian bs.reverse
  | big => fromBigEndian bs

/-- `htons` for two bytes and `htonl` for four: the number whose memory on
this host is the big-endian form of `v`. The same function converts back. -/
def hton (e : Endian) (k v : ℕ) : ℕ :=
  match e with
  | little => fromBigEndian (bigEndian k v).reverse
  | big => v

@[simp] theorem store_length (e : Endian) (k v : ℕ) : (e.store k v).length = k := by
  cases e <;> simp [store]

theorem store_hton (e : Endian) (k v : ℕ) : e.store k (e.hton k v) = bigEndian k v := by
  cases e with
  | big => rfl
  | little =>
    have h := bigEndian_fromBigEndian (bigEndian k v).reverse
    rw [List.length_reverse, bigEndian_length] at h
    simp only [store, hton, h, List.reverse_reverse]

theorem hton_load (e : Endian) (bs : Bytes) : e.hton bs.length (e.load bs) = fromBigEndian bs := by
  cases e with
  | big => rfl
  | little =>
    have h := bigEndian_fromBigEndian bs.reverse
    rw [List.length_reverse] at h
    simp only [load, hton, h, List.reverse_reverse]

theorem hton_lt (e : Endian) {k v : ℕ} (hv : v < 256 ^ k) : e.hton k v < 256 ^ k := by
  cases e with
  | big => exact hv
  | little => simpa [hton] using fromBigEndian_lt (bigEndian k v).reverse

theorem load_lt (e : Endian) (bs : Bytes) : e.load bs < 256 ^ bs.length := by
  cases e with
  | big => exact fromBigEndian_lt bs
  | little => simpa [load] using fromBigEndian_lt bs.reverse

end Endian

def write (buf : Bytes) (off : ℕ) (src : Bytes) : Bytes :=
  buf.take off ++ src ++ buf.drop (off + src.length)

/-- The `len` bytes at offset `off`, when all of them lie in the buffer. -/
def read? (buf : Bytes) (off len : ℕ) : Option Bytes :=
  if off + len ≤ buf.length then some ((buf.drop off).take len) else none

theorem write_middle (pre old src post : Bytes) (h : old.length = src.length) :
    write (pre ++ old ++ post) pre.length src = pre ++ src ++ post := by
  rw [write, List.append_assoc pre old post, List.take_left, List.drop_append, ← h]
  simp

theorem read?_eq_some {buf : Bytes} {off len : ℕ} (h : off + len ≤ buf.length) :
    read? buf off len = some ((buf.drop off).take len) := if_pos h

end TinyIM.Library.ByteOrder

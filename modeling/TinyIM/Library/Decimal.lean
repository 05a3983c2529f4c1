import Mathlib.Data.List.TakeWhile
import Mathlib.Data.Nat.Digits.Lemmas
import TinyIM.Library.ByteOrder

namespace TinyIM.Library.Decimal

open ByteOrder

/-- `std::to_string` of a natural number. -/
def natToString (n : ℕ) : Bytes :=
  if n = 0 then [48] else (Nat.digits 10 n).reverse.map fun d ↦ UInt8.ofNat (48 + d)

def stdToString (z : ℤ) : Bytes :=
  if z < 0 then 45 :: natToString z.natAbs else natToString z.natAbs

def isSpace (b : UInt8) : Bool := b == 32 || (9 ≤ b && b ≤ 13)

def isDigit (b : UInt8) : Bool := 48 ≤ b && b ≤ 57

def digitsValue (ds : Bytes) : ℕ := ds.foldl (fun v d ↦ v * 10 + (d.toNat - 48)) 0

/-- `std::stoll` in base ten: leading white space, an optional sign and the
digits that follow. It throws when there is no digit or the number does not fit
64 bits. -/
def stoll (s : Bytes) : Option ℤ :=
  let signed : Bool × Bytes :=
    match s.dropWhile isSpace with
    | 45 :: t => (true, t)
    | 43 :: t => (false, t)
    | t => (false, t)
  let ds := signed.2.takeWhile isDigit
  let v : ℤ := if signed.1 then -digitsValue ds else digitsValue ds
  if ds.isEmpty then none
  else if -2 ^ 63 ≤ v ∧ v < 2 ^ 63 then some v else none

theorem digit_toNat {d : ℕ} (h : d < 10) : (UInt8.ofNat (48 + d)).toNat = 48 + d := by
  rw [UInt8.toNat_ofNat']
  omega

theorem isDigit_of_mem_natToString {n : ℕ} {b : UInt8} (h : b ∈ natToString n) : isDigit b := by
  rw [natToString] at h
  split_ifs at h with hn
  · obtain rfl := List.mem_singleton.mp h
    decide
  · obtain ⟨d, hd, rfl⟩ := List.mem_map.mp h
    have hlt : d < 10 := Nat.digits_lt_base (by decide) (List.mem_reverse.mp hd)
    simp only [isDigit, Bool.and_eq_true, decide_eq_true_eq, UInt8.le_iff_toNat_le,
      digit_toNat hlt]
    change 48 ≤ 48 + d ∧ 48 + d ≤ 57
    omega

theorem digitsValue_reverse {ds : List ℕ} (h : ∀ d ∈ ds, d < 10) :
    digitsValue (ds.reverse.map fun d ↦ UInt8.ofNat (48 + d)) = Nat.ofDigits 10 ds := by
  induction ds with
  | nil => rfl
  | cons d ds ih =>
    rw [List.forall_mem_cons] at h
    have hd := digit_toNat h.1
    have hds := ih h.2
    rw [digitsValue] at hds
    rw [List.reverse_cons, List.map_append, List.map_singleton, digitsValue, List.foldl_append, hds,
      Nat.ofDigits_cons]
    simp only [List.foldl_cons, List.foldl_nil, hd]
    omega

theorem digitsValue_natToString (n : ℕ) : digitsValue (natToString n) = n := by
  rw [natToString]
  split_ifs with hn
  · rw [hn]
    rfl
  · rw [digitsValue_reverse fun d ↦ Nat.digits_lt_base (by decide), Nat.ofDigits_digits]

theorem natToString_injective : Function.Injective natToString :=
  Function.LeftInverse.injective digitsValue_natToString

theorem stdToString_injective : Function.Injective stdToString := by
  have hsign : ∀ m n : ℕ, 45 :: natToString m ≠ natToString n := by
    intro m n h
    have hdigit : isDigit 45 := isDigit_of_mem_natToString (h ▸ List.mem_cons_self)
    exact absurd hdigit (by decide)
  intro z w h
  simp only [stdToString] at h
  split_ifs at h with hz hw hw
  · have habs := natToString_injective (List.cons.inj h).2
    omega
  · exact absurd h (hsign _ _)
  · exact absurd h.symm (hsign _ _)
  · have habs := natToString_injective h
    omega

def FitsInt64 (z : ℤ) : Prop := -2 ^ 63 ≤ z ∧ z < 2 ^ 63

instance (z : ℤ) : Decidable (FitsInt64 z) := inferInstanceAs (Decidable (_ ∧ _))

theorem ascii_of_isDigit {b : UInt8} (h : isDigit b) : b.toNat < 128 := by
  simp only [isDigit, Bool.and_eq_true, decide_eq_true_eq, UInt8.le_iff_toNat_le] at h
  exact h.2.trans_lt (by decide)

theorem natToString_length {n k : ℕ} (h : n < 10 ^ (k + 1)) : (natToString n).length ≤ k + 1 := by
  rw [natToString]
  split_ifs
  · exact Nat.succ_le_succ (Nat.zero_le k)
  · rw [List.length_map, List.length_reverse]
    exact (Nat.digits_length_le_iff (by decide) n).mpr h

theorem natToString_ne_nil (n : ℕ) : natToString n ≠ [] := by
  rw [natToString]
  split_ifs with hn
  · exact List.cons_ne_nil _ _
  · simpa [Nat.digits_eq_nil_iff_eq_zero] using hn

theorem isDigit_of_mem_stdToString {z : ℤ} {b : UInt8} (h : b ∈ stdToString z) :
    b = 45 ∨ isDigit b := by
  rw [stdToString] at h
  split_ifs at h
  · rcases List.mem_cons.mp h with rfl | h
    · exact .inl rfl
    · exact .inr (isDigit_of_mem_natToString h)
  · exact .inr (isDigit_of_mem_natToString h)

theorem not_mem_stdToString {b : UInt8} (hminus : b ≠ 45) (hdigit : isDigit b = false) (z : ℤ) :
    b ∉ stdToString z := by
  intro h
  rcases isDigit_of_mem_stdToString h with h | h
  · exact hminus h
  · exact absurd h (by rw [hdigit]; decide)

theorem unsigned_of_isDigit {b : UInt8} (h : isDigit b) : isSpace b = false ∧ b ≠ 45 ∧ b ≠ 43 := by
  simp only [isDigit, Bool.and_eq_true, decide_eq_true_eq, UInt8.le_iff_toNat_le] at h
  have hlow : 48 ≤ b.toNat := h.1
  refine ⟨?_, ?_, ?_⟩
  · simp only [isSpace, Bool.or_eq_false_iff, Bool.and_eq_false_iff, beq_eq_false_iff_ne,
      decide_eq_false_iff_not, UInt8.le_iff_toNat_le, ne_eq]
    refine ⟨?_, .inr ?_⟩
    · intro h
      subst h
      exact absurd hlow (by decide)
    · change ¬ b.toNat ≤ 13
      omega
  · intro h
    subst h
    exact absurd hlow (by decide)
  · intro h
    subst h
    exact absurd hlow (by decide)

theorem takeWhile_digits {digits rest : Bytes} (hdigits : ∀ b ∈ digits, isDigit b)
    (hrest : ∀ b ∈ rest.head?, isDigit b = false) :
    (digits ++ rest).takeWhile isDigit = digits := by
  rw [List.takeWhile_append_of_pos hdigits]
  cases rest with
  | nil => exact List.append_nil digits
  | cons b rest =>
    have hb : isDigit b = false := hrest b rfl
    rw [List.takeWhile_cons, hb]
    exact List.append_nil digits

/-- How `std::stoll` takes a text apart. -/
structure Numeral (spaces sign digits rest : Bytes) : Prop where
  white : ∀ b ∈ spaces, isSpace b
  signed : sign = [] ∨ sign = [45] ∨ sign = [43]
  nonempty : digits ≠ []
  decimal : ∀ b ∈ digits, isDigit b
  ends : ∀ b ∈ rest.head?, isDigit b = false

def signedValue (sign digits : Bytes) : ℤ :=
  if sign = [45] then -digitsValue digits else digitsValue digits

theorem stoll_numeral {spaces sign digits rest : Bytes} (h : Numeral spaces sign digits rest) :
    stoll (spaces ++ (sign ++ (digits ++ rest))) =
      if FitsInt64 (signedValue sign digits) then some (signedValue sign digits) else none := by
  have htake := takeWhile_digits h.decimal h.ends
  have hdrop : (spaces ++ (sign ++ (digits ++ rest))).dropWhile isSpace = sign ++ (digits ++ rest) := by
    rw [List.dropWhile_append_of_pos h.white]
    rcases h.signed with rfl | rfl | rfl
    · obtain ⟨b, ds, rfl⟩ := List.exists_cons_of_ne_nil h.nonempty
      have hb := unsigned_of_isDigit (h.decimal b List.mem_cons_self)
      rw [List.nil_append, List.cons_append, List.dropWhile_cons, hb.1]
      rfl
    · rfl
    · rfl
  have hempty : digits.isEmpty = false := by
    rw [← Bool.not_eq_true, List.isEmpty_iff]
    exact h.nonempty
  rw [stoll, hdrop]
  rcases h.signed with rfl | rfl | rfl
  · have hsign : (match [] ++ (digits ++ rest) with
        | 45 :: t => (true, t)
        | 43 :: t => (false, t)
        | t => (false, t)) = (false, digits ++ rest) := by
      obtain ⟨b, ds, rfl⟩ := List.exists_cons_of_ne_nil h.nonempty
      obtain ⟨-, hminus, hplus⟩ := unsigned_of_isDigit (h.decimal b List.mem_cons_self)
      rw [List.nil_append, List.cons_append]
      split
      · next heq => exact absurd (List.cons.inj heq).1 hminus
      · next heq => exact absurd (List.cons.inj heq).1 hplus
      · rfl
    have hvalue : signedValue [] digits = digitsValue digits := if_neg (by decide)
    simp only [hsign, htake, hempty, hvalue, FitsInt64, Bool.false_eq_true, if_false]
  · have hvalue : signedValue [45] digits = -digitsValue digits := if_pos rfl
    simp only [List.singleton_append, htake, hempty, hvalue, FitsInt64, Bool.false_eq_true, if_false,
      if_true]
  · have hvalue : signedValue [43] digits = digitsValue digits := if_neg (by decide)
    simp only [List.singleton_append, htake, hempty, hvalue, FitsInt64, Bool.false_eq_true, if_false]

/-- `std::stoll` reads back what `std::to_string` has printed. -/
theorem stoll_stdToString {z : ℤ} (h : FitsInt64 z) : stoll (stdToString z) = some z := by
  have hnumeral : ∀ sign : Bytes, sign = [] ∨ sign = [45] → Numeral [] sign (natToString z.natAbs) [] := by
    intro sign hsign
    refine ⟨?_, ?_, natToString_ne_nil _, fun _ ↦ isDigit_of_mem_natToString, ?_⟩
    · exact fun b hb ↦ absurd hb List.not_mem_nil
    · exact hsign.imp_right Or.inl
    · exact fun b hb ↦ nomatch hb
  rw [stdToString]
  split_ifs with hz
  · have hvalue : signedValue [45] (natToString z.natAbs) = z := by
      rw [signedValue, if_pos rfl, digitsValue_natToString]
      omega
    have hread := stoll_numeral (hnumeral [45] (.inr rfl))
    rw [hvalue, if_pos h, List.append_nil] at hread
    exact hread
  · have hvalue : signedValue [] (natToString z.natAbs) = z := by
      rw [signedValue, if_neg (by decide), digitsValue_natToString]
      omega
    have hread := stoll_numeral (hnumeral [] (.inl rfl))
    rw [hvalue, if_pos h, List.append_nil] at hread
    exact hread

/-- A text that starts with a number of 64 bits. -/
def StartsWithInt64 (s : Bytes) : Prop :=
  ∃ spaces sign digits rest, s = spaces ++ (sign ++ (digits ++ rest)) ∧
    Numeral spaces sign digits rest ∧ FitsInt64 (signedValue sign digits)

theorem head_dropWhile_isDigit (s : Bytes) : ∀ b ∈ (s.dropWhile isDigit).head?, isDigit b = false := by
  intro b hb
  have h := List.head?_dropWhile_not isDigit s
  rw [hb] at h
  simpa using h

/-- `std::stoll` throws on all other texts. -/
theorem stoll_isSome_iff {s : Bytes} : (stoll s).isSome ↔ StartsWithInt64 s := by
  constructor
  · intro h
    have hsign : ∃ sign t, s.dropWhile isSpace = sign ++ t ∧ (sign = [] ∨ sign = [45] ∨ sign = [43]) ∧
        (match s.dropWhile isSpace with
        | 45 :: t => (true, t)
        | 43 :: t => (false, t)
        | t => (false, t)) = (decide (sign = [45]), t) := by
      split
      · exact ⟨[45], _, ‹_›, .inr (.inl rfl), rfl⟩
      · exact ⟨[43], _, ‹_›, .inr (.inr rfl), rfl⟩
      · exact ⟨[], _, rfl, .inl rfl, rfl⟩
    obtain ⟨sign, t, heq, hsign, hmatch⟩ := hsign
    by_cases hempty : t.takeWhile isDigit = []
    · simp [stoll, hmatch, hempty] at h
    · have hnumeral : Numeral (s.takeWhile isSpace) sign (t.takeWhile isDigit) (t.dropWhile isDigit) :=
        ⟨fun _ ↦ List.mem_takeWhile_imp, hsign, hempty, fun _ ↦ List.mem_takeWhile_imp,
          head_dropWhile_isDigit t⟩
      have hparts : s = s.takeWhile isSpace ++ (sign ++ (t.takeWhile isDigit ++ t.dropWhile isDigit)) := by
        rw [List.takeWhile_append_dropWhile, ← heq, List.takeWhile_append_dropWhile]
      refine ⟨_, _, _, _, hparts, hnumeral, ?_⟩
      rw [hparts, stoll_numeral hnumeral] at h
      by_contra hnot
      rw [if_neg hnot] at h
      cases h
  · intro h
    obtain ⟨spaces, sign, digits, rest, rfl, hnumeral, hfits⟩ := h
    rw [stoll_numeral hnumeral, if_pos hfits]
    rfl

end TinyIM.Library.Decimal

import TinyIM.Library.Decimal

namespace TinyIM.Library.ValueList

open ByteOrder Decimal

/-- An integer literal behind white space. -/
def integer (s : Bytes) : Option ℤ :=
  match s.dropWhile isSpace with
  | 45 :: digits => if digits ≠ [] ∧ digits.all isDigit then some (-digitsValue digits) else none
  | digits => if digits ≠ [] ∧ digits.all isDigit then some (digitsValue digits) else none

def values (s : Bytes) : Option (List ℤ) := (s.splitOn 44).mapM integer

/-- What follows the word `VALUES`: rows in parentheses with commas between
them. With a comma before the first row, each row starts with one. -/
def rows (s : Bytes) : Option (List (List ℤ)) :=
  let parts := (44 :: s).splitOn 41
  if parts.getLast? = some [] then
    parts.dropLast.mapM fun
      | 44 :: 40 :: row => values row
      | _ => none
  else none

theorem integer_stdToString (z : ℤ) : integer (stdToString z) = some z := by
  have hdigits : (natToString z.natAbs).all isDigit :=
    List.all_eq_true.mpr fun _ ↦ isDigit_of_mem_natToString
  have hne : natToString z.natAbs ≠ [] := natToString_ne_nil _
  rw [integer, stdToString]
  split_ifs with hz
  · have hdrop : (45 :: natToString z.natAbs).dropWhile isSpace = 45 :: natToString z.natAbs := rfl
    rw [hdrop]
    simp only [hne, hdigits, ne_eq, not_false_eq_true, and_self, if_true, digitsValue_natToString]
    congr 1
    omega
  · obtain ⟨b, ds, hbs⟩ := List.exists_cons_of_ne_nil hne
    obtain ⟨hspace, hminus, -⟩ :=
      unsigned_of_isDigit (isDigit_of_mem_natToString (hbs ▸ List.mem_cons_self : b ∈ natToString z.natAbs))
    have hdrop : (natToString z.natAbs).dropWhile isSpace = natToString z.natAbs := by
      rw [hbs, List.dropWhile_cons, hspace]
      rfl
    rw [hdrop]
    split
    · next heq => exact absurd (List.cons.inj (hbs.symm.trans heq)).1 hminus
    · simp only [hne, hdigits, ne_eq, not_false_eq_true, and_self, if_true, digitsValue_natToString]
      congr 1
      omega

/-- Values with commas and blanks between them. -/
def printed (zs : List ℤ) : Bytes := [44, 32].intercalate (zs.map stdToString)

theorem splitOn_printed (z : ℤ) (zs : List ℤ) :
    (printed (z :: zs)).splitOn 44 = stdToString z :: zs.map fun z ↦ 32 :: stdToString z := by
  have hcomma : ∀ z, 44 ∉ stdToString z := not_mem_stdToString (by decide) (by decide)
  induction zs generalizing z with
  | nil =>
    rw [printed, List.map_singleton, List.intercalate_singleton]
    exact List.splitOn_eq_singleton (hcomma z)
  | cons z' zs ih =>
    have hprinted : printed (z :: z' :: zs) = stdToString z ++ 44 :: 32 :: printed (z' :: zs) := by
      rw [printed, List.map_cons, List.map_cons, List.intercalate_cons_cons]
      simp [printed]
    rw [hprinted, List.splitOn_append_cons_self_of_not_mem (hcomma z), List.map_cons,
      List.splitOn_cons_eq_if_modifyHead, ih]
    rfl

theorem values_printed {zs : List ℤ} (h : zs ≠ []) : values (printed zs) = some zs := by
  obtain ⟨z, zs, rfl⟩ := List.exists_cons_of_ne_nil h
  have hread : (integer ∘ fun z ↦ 32 :: stdToString z) = fun z ↦ pure (id z) := funext integer_stdToString
  have hrest : (zs.map fun z ↦ 32 :: stdToString z).mapM integer = some zs := by
    rw [List.mapM_map, hread, List.mapM_pure, List.map_id]
    rfl
  rw [values, splitOn_printed, List.mapM_cons, integer_stdToString, hrest]
  rfl

theorem not_mem_printed {b : UInt8} (hcomma : b ≠ 44) (hspace : b ≠ 32) (hminus : b ≠ 45)
    (hdigit : isDigit b = false) (zs : List ℤ) : b ∉ printed zs := by
  induction zs with
  | nil => exact List.not_mem_nil
  | cons z zs ih =>
    have hz := not_mem_stdToString hminus hdigit z
    cases zs with
    | nil => simpa [printed] using hz
    | cons z' zs => simpa [printed, List.intercalate_cons_cons, hcomma, hspace, hz] using ih

/-- Rows as they stand behind `VALUES`. -/
def printedRows (rows : List (List ℤ)) : Bytes :=
  [44].intercalate (rows.map fun zs ↦ 40 :: printed zs ++ [41])

theorem comma_printedRows {rs : List (List ℤ)} (h : rs ≠ []) :
    44 :: printedRows rs = rs.flatMap fun zs ↦ 44 :: 40 :: printed zs ++ [41] := by
  induction rs with
  | nil => exact absurd rfl h
  | cons zs rs ih =>
    cases rs with
    | nil => simp [printedRows]
    | cons zs' rs =>
      rw [List.flatMap_cons, ← ih (List.cons_ne_nil _ _), printedRows, List.map_cons, List.map_cons,
        List.intercalate_cons_cons]
      simp [printedRows]

theorem splitOn_printedRows (rs : List (List ℤ)) :
    (rs.flatMap fun zs ↦ 44 :: 40 :: printed zs ++ [41]).splitOn 41 =
      (rs.map fun zs ↦ 44 :: 40 :: printed zs) ++ [[]] := by
  induction rs with
  | nil => rfl
  | cons zs rs ih =>
    have hclosed : 41 ∉ 44 :: 40 :: printed zs := by
      have hprinted := not_mem_printed (b := 41) (by decide) (by decide) (by decide) (by decide) zs
      simpa using hprinted
    rw [List.flatMap_cons, List.append_assoc, List.singleton_append,
      List.splitOn_append_cons_self_of_not_mem hclosed, ih, List.map_cons, List.cons_append]

/-- The rows are read back as they were printed. -/
theorem rows_printedRows {rs : List (List ℤ)} (hne : rs ≠ []) (h : ∀ zs ∈ rs, zs ≠ []) :
    rows (printedRows rs) = some rs := by
  rw [rows, comma_printedRows hne, splitOn_printedRows]
  simp only [List.getLast?_concat, List.dropLast_concat, if_true, List.mapM_map]
  clear hne
  induction rs with
  | nil => rfl
  | cons zs rs ih =>
    rw [List.forall_mem_cons] at h
    rw [List.mapM_cons, ih h.2]
    simp only [Function.comp_apply, values_printed h.1]
    rfl

end TinyIM.Library.ValueList

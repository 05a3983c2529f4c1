import Mathlib.Data.List.TakeWhile
import TinyIM.Library.ByteOrder

namespace TinyIM.Library.Delimited

open ByteOrder

/-- What stands before the first `d` and behind it. -/
def cut (d : UInt8) : Bytes → Option (Bytes × Bytes)
  | [] => none
  | b :: s => if b = d then some ([], s) else (cut d s).map fun r ↦ (b :: r.1, r.2)

/-- What a loop over `std::getline` reads: a text that ends with the delimiter
has no empty line behind it. -/
def getlines (d : UInt8) : Bytes → List Bytes
  | [] => []
  | b :: s =>
    if b = d then [] :: getlines d s
    else
      match getlines d s with
      | [] => [[b]]
      | line :: rest => (b :: line) :: rest

/-- The last value that was given for a key. -/
def last (key : Bytes) (fields : List (Bytes × Bytes)) : Option Bytes := fields.reverse.lookup key

/-- What a C string keeps of a text. -/
def cString (s : Bytes) : Bytes := s.takeWhile (· ≠ 0)

variable {d : UInt8} {s t : Bytes}

theorem cut_append (h : d ∉ s) : cut d (s ++ d :: t) = some (s, t) := by
  induction s with
  | nil => exact if_pos rfl
  | cons b s ih =>
    rw [List.mem_cons, not_or] at h
    obtain ⟨hb, hs⟩ := h
    rw [List.cons_append, cut, if_neg (Ne.symm hb), ih hs]
    rfl

/-- Apart from an empty text at the end, the lines are the text split at each
delimiter. -/
theorem splitOn_eq_getlines :
    s.splitOn d = getlines d s ∨ s.splitOn d = getlines d s ++ [[]] := by
  induction s with
  | nil => exact .inr rfl
  | cons b s ih =>
    rw [List.splitOn_cons_eq_if_modifyHead, getlines]
    by_cases hb : b = d
    · rw [if_pos (beq_iff_eq.mpr hb), if_pos hb]
      exact ih.imp (congrArg _) (congrArg _)
    · rw [if_neg (beq_iff_eq.not.mpr hb), if_neg hb]
      cases hlines : getlines d s with
      | nil =>
        rw [hlines] at ih
        rcases ih with h | h
        · exact absurd h (List.splitOn_ne_nil _ _)
        · rw [h]
          exact .inl rfl
      | cons line rest =>
        rw [hlines] at ih
        rcases ih with h | h
        · rw [h]
          exact .inl rfl
        · rw [h]
          exact .inr rfl

theorem last_concat {key : Bytes} {fields : List (Bytes × Bytes)} {f : Bytes × Bytes} :
    last key (fields ++ [f]) = if f.1 = key then some f.2 else last key fields := by
  rw [last, List.reverse_append, List.reverse_singleton, List.singleton_append, List.lookup_cons]
  by_cases h : f.1 = key
  · rw [if_pos h, h, beq_self_eq_true]
  · rw [if_neg h, beq_false_of_ne (Ne.symm h)]
    rfl

theorem mem_of_last {key value : Bytes} {fields : List (Bytes × Bytes)} (h : last key fields = some value) :
    (key, value) ∈ fields := by
  obtain ⟨before, after, heq, -⟩ := List.lookup_eq_some_iff.mp h
  exact List.mem_reverse.mp (heq ▸ List.mem_append_right _ List.mem_cons_self)

theorem cString_append (h : 0 ∉ s) (t : Bytes) : cString (s ++ t) = s ++ cString t := by
  refine List.takeWhile_append_of_pos ?_
  intro b hb
  exact decide_eq_true fun heq ↦ h (heq ▸ hb)

theorem cString_eq_self (h : 0 ∉ s) : cString s = s := by
  simpa [cString] using cString_append h []

theorem cString_terminated (h : 0 ∉ s) (t : Bytes) : cString (s ++ 0 :: t) = s := by
  rw [cString_append h]
  exact List.append_nil s

theorem zero_not_mem_cString : 0 ∉ cString s := by
  intro h
  simpa using List.mem_takeWhile_imp h

theorem mem_of_mem_cut {r : Bytes × Bytes} (h : cut d s = some r) {b : UInt8} (hb : b ∈ r.1 ∨ b ∈ r.2) :
    b ∈ s := by
  induction s generalizing r with
  | nil => cases h
  | cons a s ih =>
    rw [cut] at h
    split_ifs at h with had
    · obtain rfl := Option.some.inj h
      exact List.mem_cons_of_mem _ (hb.resolve_left List.not_mem_nil)
    · obtain ⟨r', hr', rfl⟩ := Option.map_eq_some_iff.mp h
      rcases hb with hb | hb
      · rcases List.mem_cons.mp hb with rfl | hb
        · exact List.mem_cons_self
        · exact List.mem_cons_of_mem _ (ih hr' (.inl hb))
      · exact List.mem_cons_of_mem _ (ih hr' (.inr hb))

theorem mem_of_mem_splitOn {l : Bytes} (h : l ∈ s.splitOn d) {b : UInt8} (hb : b ∈ l) : b ∈ s := by
  induction s generalizing l with
  | nil =>
    rw [List.splitOn_nil, List.mem_singleton] at h
    exact h ▸ hb
  | cons a s ih =>
    rw [List.splitOn_cons_eq_if_modifyHead] at h
    split_ifs at h
    · rcases List.mem_cons.mp h with rfl | h
      · cases hb
      · exact List.mem_cons_of_mem _ (ih h hb)
    · obtain ⟨l', rest, heq⟩ := List.exists_cons_of_ne_nil (List.splitOn_ne_nil d s)
      rw [heq, List.modifyHead_cons] at h
      rcases List.mem_cons.mp h with rfl | h
      · rcases List.mem_cons.mp hb with rfl | hb
        · exact List.mem_cons_self
        · exact List.mem_cons_of_mem _ (ih (heq ▸ List.mem_cons_self) hb)
      · exact List.mem_cons_of_mem _ (ih (heq ▸ List.mem_cons_of_mem _ h) hb)

end TinyIM.Library.Delimited

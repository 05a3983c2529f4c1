import Mathlib.Data.List.Rotate

namespace TinyIM.Library.RoundRobin

/-- Where a list of `size` places is read when the index stands at `idx`. -/
def position (idx size : ℕ) : ℕ := if size ≤ idx then 0 else idx

def advance (idx size : ℕ) : ℕ := (position idx size + 1) % size

/-- The positions of several picks from lists of these sizes. -/
def draw : ℕ → List ℕ → List ℕ
  | _, [] => []
  | idx, size :: sizes => position idx size :: draw (advance idx size) sizes

variable {idx size n : ℕ}

theorem position_lt (h : 0 < size) : position idx size < size := by
  rw [position]
  split_ifs with hidx
  · exact h
  · exact Nat.lt_of_not_le hidx

theorem position_of_lt (h : idx < size) : position idx size = idx := if_neg (Nat.not_le_of_lt h)

theorem advance_lt (h : 0 < size) : advance idx size < size := Nat.mod_lt _ h

theorem draw_append (idx : ℕ) (sizes sizes' : List ℕ) :
    draw idx (sizes ++ sizes') = draw idx sizes ++ draw (sizes.foldl advance idx) sizes' := by
  induction sizes generalizing idx with
  | nil => rfl
  | cons size sizes ih => exact congrArg _ (ih _)

theorem length_draw (idx : ℕ) (sizes : List ℕ) : (draw idx sizes).length = sizes.length := by
  induction sizes generalizing idx with
  | nil => rfl
  | cons size sizes ih => exact congrArg Nat.succ (ih _)

theorem draw_replicate (h : 0 < n) (k : ℕ) :
    draw idx (List.replicate k n) = (List.range k).map fun j ↦ (position idx n + j) % n := by
  induction k generalizing idx with
  | zero => rfl
  | succ k ih =>
    rw [List.replicate_succ, draw, ih, position_of_lt (advance_lt h), List.range_succ_eq_map,
      List.map_cons, List.map_map, Nat.add_zero, Nat.mod_eq_of_lt (position_lt h)]
    refine congrArg _ (List.map_congr_left fun j _ ↦ ?_)
    rw [Function.comp_apply, advance, Nat.mod_add_mod, Nat.succ_eq_one_add, Nat.add_assoc]

/-- As many picks as there are places, all from lists of that size, read each
place once, wherever the index stood. -/
theorem draw_replicate_perm (n idx : ℕ) : (draw idx (List.replicate n n)).Perm (List.range n) := by
  rcases Nat.eq_zero_or_pos n with rfl | hn
  · exact .refl _
  · have hrotate : draw idx (List.replicate n n) = (List.range n).rotate (position idx n) := by
      rw [draw_replicate hn]
      refine List.ext_getElem (by simp) fun k hk _ ↦ ?_
      simp [List.getElem_rotate, Nat.add_comm]
    rw [hrotate]
    exact List.rotate_perm _ _

end TinyIM.Library.RoundRobin

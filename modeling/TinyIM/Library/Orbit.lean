import Mathlib.Data.Finset.Card
import Mathlib.Tactic.Common

namespace TinyIM.Library.Orbit

variable {α : Type} {step : α → Option α} {a b : α} {m n : ℕ}

/-- Where `n` steps from `a` lead, unless one of them is impossible. -/
def orbit (step : α → Option α) (a : α) : ℕ → Option α
  | 0 => some a
  | n + 1 => (orbit step a n).bind step

/-- The steps from `a` come back to an earlier place. -/
def Recurs (step : α → Option α) (a : α) : Prop :=
  ∃ i j b, i < j ∧ orbit step a i = some b ∧ orbit step a j = some b

theorem orbit_add (m n : ℕ) :
    orbit step a (m + n) = (orbit step a m).bind fun b ↦ orbit step b n := by
  induction n with
  | zero => exact (Option.bind_fun_some _).symm
  | succ n ih =>
    rw [← Nat.add_assoc, orbit, ih, Option.bind_assoc]
    rfl

theorem orbit_succ' (n : ℕ) : orbit step a (n + 1) = (step a).bind fun b ↦ orbit step b n := by
  rw [Nat.add_comm, orbit_add]
  rfl

theorem orbit_isSome_of_le (hmn : m ≤ n) (h : (orbit step a n).isSome) : (orbit step a m).isSome := by
  obtain ⟨k, rfl⟩ := Nat.exists_eq_add_of_le hmn
  rw [orbit_add] at h
  exact Option.isSome_of_isSome_bind h

theorem step_isSome (h : (orbit step a (n + 1)).isSome) :
    ∃ b, orbit step a n = some b ∧ (step b).isSome := by
  rw [orbit] at h
  obtain ⟨b, hb⟩ := Option.isSome_iff_exists.mp (Option.isSome_of_isSome_bind h)
  refine ⟨b, hb, ?_⟩
  rw [hb] at h
  exact h

/-- A way that comes back never ends. -/
theorem Recurs.isSome (h : Recurs step a) (n : ℕ) : (orbit step a n).isSome := by
  obtain ⟨i, j, b, hij, hi, hj⟩ := h
  obtain ⟨d, rfl⟩ := Nat.exists_eq_add_of_lt hij
  have hloop : orbit step b (d + 1) = some b := by
    rw [Nat.add_assoc, orbit_add, hi] at hj
    exact hj
  have hround : ∀ k, orbit step b (k * (d + 1)) = some b := by
    intro k
    induction k with
    | zero => rw [Nat.zero_mul]; rfl
    | succ k ih => rw [Nat.succ_mul, orbit_add, ih, Option.bind_some, hloop]
  have hlong : (orbit step a (i + n * (d + 1))).isSome := by
    rw [orbit_add, hi, Option.bind_some, hround]
    rfl
  have hn : n ≤ n * (d + 1) := Nat.le_mul_of_pos_right n d.succ_pos
  exact orbit_isSome_of_le (hn.trans (Nat.le_add_left _ _)) hlong

variable {S : Finset α}

/-- A way through finitely many places that takes more steps than there are
places comes back. -/
theorem recurs_of_isSome (hS : ∀ b, (step b).isSome → b ∈ S)
    (h : (orbit step a (S.card + 1)).isSome) : Recurs step a := by
  have hplace : ∀ n ∈ Finset.range (S.card + 1), ∃ b ∈ S, orbit step a n = some b := by
    intro n hn
    have hle : n + 1 ≤ S.card + 1 := Finset.mem_range.mp hn
    obtain ⟨b, hb, hstep⟩ := step_isSome (orbit_isSome_of_le hle h)
    exact ⟨b, hS b hstep, hb⟩
  have hmaps : Set.MapsTo (orbit step a) (Finset.range (S.card + 1)) (S.map .some) := by
    intro n hn
    obtain ⟨b, hb, heq⟩ := hplace n hn
    exact Finset.mem_map.mpr ⟨b, hb, heq.symm⟩
  obtain ⟨i, hi, j, -, hne, heq⟩ := Finset.exists_ne_map_eq_of_card_lt_of_maps_to
    (by rw [Finset.card_map, Finset.card_range]; exact Nat.lt_succ_self _) hmaps
  obtain ⟨b, -, hb⟩ := hplace i hi
  rcases Nat.lt_or_gt_of_ne hne with hij | hji
  · exact ⟨i, j, b, hij, hb, heq ▸ hb⟩
  · exact ⟨j, i, b, hji, heq ▸ hb, hb⟩

/-- Two ways that agree as long as the first goes on. -/
theorem orbit_congr {step' : α → Option α} (h : ∀ k < n, ∀ b, orbit step a k = some b → step' b = step b) :
    orbit step' a n = orbit step a n := by
  induction n with
  | zero => rfl
  | succ n ih =>
    rw [orbit, orbit, ih fun k hk ↦ h k (Nat.lt_succ_of_lt hk)]
    cases hb : orbit step a n with
    | none => rfl
    | some b => exact h n (Nat.lt_succ_self n) b hb

end TinyIM.Library.Orbit

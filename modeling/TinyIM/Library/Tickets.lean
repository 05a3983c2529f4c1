import Mathlib.Data.List.Nodup
import Mathlib.Logic.Function.Basic

namespace TinyIM.Library.Tickets

variable {κ : Type}

/-- Numbers are drawn from one counter for each key. Every holder keeps what it
has drawn until it uses it, all at once. -/
structure Sound (counter : κ → ℕ) (used : List (κ × ℕ)) (held : List (List (κ × ℕ))) : Prop where
  nodup : (used ++ held.flatten).Nodup
  bound : ∀ t ∈ used ++ held.flatten, 1 ≤ t.2 ∧ t.2 ≤ counter t.1

variable {counter : κ → ℕ} {used h : List (κ × ℕ)} {held : List (List (κ × ℕ))} {i : ℕ}

theorem split_at {α : Type} {l : List α} {i : ℕ} {a : α} (h : l[i]? = some a) :
    ∃ l₁ l₂, l = l₁ ++ a :: l₂ ∧ ∀ b, l.set i b = l₁ ++ b :: l₂ := by
  obtain ⟨hi, rfl⟩ := List.getElem?_eq_some_iff.mp h
  refine ⟨l.take i, l.drop (i + 1), ?_, ?_⟩
  · rw [← List.drop_eq_getElem_cons hi, List.take_append_drop]
  · intro b
    rw [List.set_eq_take_append_cons_drop, if_pos hi]

theorem le_update_succ [DecidableEq κ] (counter : κ → ℕ) (k j : κ) :
    counter j ≤ Function.update counter k (counter k + 1) j := by
  by_cases hk : j = k
  · rw [hk, Function.update_self]
    exact Nat.le_succ _
  · exact Nat.le_of_eq (Function.update_of_ne hk _ counter).symm

theorem Sound.start : Sound counter [] [] := ⟨by simp, by simp⟩

theorem Sound.spawn (hs : Sound counter used held) : Sound counter used (held ++ [[]]) := by
  have hflat : (held ++ [[]]).flatten = held.flatten := by simp
  exact ⟨by rw [hflat]; exact hs.nodup, by rw [hflat]; exact hs.bound⟩

/-- The number that is drawn is new: all others are at most the counter. -/
theorem Sound.draw [DecidableEq κ] (hs : Sound counter used held) (hi : held[i]? = some h) (k : κ) :
    Sound (Function.update counter k (counter k + 1)) used
      (held.set i (h ++ [(k, counter k + 1)])) := by
  obtain ⟨l₁, l₂, rfl, hset⟩ := split_at hi
  have hperm : (used ++ (l₁ ++ (h ++ [(k, counter k + 1)]) :: l₂).flatten).Perm
      ((k, counter k + 1) :: (used ++ (l₁ ++ h :: l₂).flatten)) := by
    simp only [List.flatten_append, List.flatten_cons, List.append_assoc]
    have hmid : ((used ++ (l₁.flatten ++ h)) ++ (k, counter k + 1) :: l₂.flatten).Perm
        ((k, counter k + 1) :: ((used ++ (l₁.flatten ++ h)) ++ l₂.flatten)) := List.perm_middle
    simpa only [List.append_assoc, List.singleton_append] using hmid
  have hfresh : (k, counter k + 1) ∉ used ++ (l₁ ++ h :: l₂).flatten := by
    intro hmem
    have hle := (hs.bound _ hmem).2
    simp only at hle
    omega
  rw [hset]
  refine ⟨hperm.nodup_iff.mpr (List.nodup_cons.mpr ⟨hfresh, hs.nodup⟩), ?_⟩
  intro t ht
  rcases List.mem_cons.mp (hperm.mem_iff.mp ht) with rfl | ht
  · simp
  · obtain ⟨hpos, hle⟩ := hs.bound t ht
    exact ⟨hpos, Nat.le_trans hle (le_update_succ counter k t.1)⟩

theorem Sound.use (hs : Sound counter used held) (hi : held[i]? = some h) :
    Sound counter (used ++ h) (held.set i []) := by
  obtain ⟨l₁, l₂, rfl, hset⟩ := split_at hi
  have hperm : (used ++ h ++ (l₁ ++ [] :: l₂).flatten).Perm
      (used ++ (l₁ ++ h :: l₂).flatten) := by
    simp only [List.flatten_append, List.flatten_cons, List.nil_append, List.append_assoc]
    apply List.Perm.append_left used
    rw [← List.append_assoc, ← List.append_assoc]
    exact List.perm_append_comm.append_right _
  rw [hset]
  exact ⟨hperm.nodup_iff.mpr hs.nodup, fun t ht ↦ hs.bound t (hperm.mem_iff.mp ht)⟩

theorem Sound.drop (hs : Sound counter used held) (hi : held[i]? = some h) :
    Sound counter used (held.set i []) := by
  obtain ⟨l₁, l₂, rfl, hset⟩ := split_at hi
  have hsub : (used ++ (l₁ ++ [] :: l₂).flatten).Sublist (used ++ (l₁ ++ h :: l₂).flatten) := by
    refine List.Sublist.append_left ?_ used
    simp only [List.flatten_append, List.flatten_cons, List.nil_append]
    exact List.Sublist.append_left (List.sublist_append_right _ _) _
  rw [hset]
  exact ⟨hs.nodup.sublist hsub, fun t ht ↦ hs.bound t (hsub.subset ht)⟩

theorem mem_flatten_set {α : Type} {l : List (List α)} {i : ℕ} {h : List α} {t : α}
    (ht : t ∈ (l.set i h).flatten) : t ∈ l.flatten ∨ t ∈ h := by
  obtain ⟨held, hheld, hmem⟩ := List.mem_flatten.mp ht
  rcases List.mem_or_eq_of_mem_set hheld with hheld | rfl
  · exact .inl (List.mem_flatten.mpr ⟨held, hheld, hmem⟩)
  · exact .inr hmem

theorem Sound.fresh (hs : Sound counter used held) (hi : held[i]? = some h) :
    h.Nodup ∧ ∀ t ∈ h, t ∉ used := by
  obtain ⟨l₁, l₂, rfl, -⟩ := split_at hi
  have hmem : ∀ t ∈ h, t ∈ (l₁ ++ h :: l₂).flatten := by
    intro t ht
    simp [ht]
  have hnodup := hs.nodup
  rw [List.nodup_append] at hnodup
  refine ⟨hnodup.2.1.sublist ?_, ?_⟩
  · simp only [List.flatten_append, List.flatten_cons]
    exact (List.sublist_append_left h _).trans (List.sublist_append_right _ _)
  · intro t ht hused
    exact hnodup.2.2 t hused t (hmem t ht) rfl

end TinyIM.Library.Tickets

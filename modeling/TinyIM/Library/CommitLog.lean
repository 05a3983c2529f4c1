import Mathlib.Data.List.Basic

namespace TinyIM.Library.CommitLog

variable {σ κ : Type}

/-- The state of a replica that has carried out these commits in order. -/
def replay (apply : σ → κ → σ) (s : σ) (log : List κ) : σ := log.foldl apply s

/-- `P` holds on every replica, however much of the log it has seen. -/
def EveryReplica (apply : σ → κ → σ) (s : σ) (P : σ → Prop) (log : List κ) : Prop :=
  ∀ seen, P (replay apply s (log.take seen))

variable {apply : σ → κ → σ} {s : σ} {P : σ → Prop} {log log' : List κ}

theorem replay_append (log log' : List κ) :
    replay apply s (log ++ log') = replay apply (replay apply s log) log' := List.foldl_append

theorem replay_concat (log : List κ) (c : κ) :
    replay apply s (log ++ [c]) = apply (replay apply s log) c := replay_append log [c]

theorem EveryReplica.nil (h : P s) : EveryReplica apply s P [] := by
  intro seen
  rw [List.take_nil]
  exact h

theorem EveryReplica.concat (h : EveryReplica apply s P log) {c : κ}
    (hP : P (apply (replay apply s log) c)) : EveryReplica apply s P (log ++ [c]) := by
  intro seen
  rw [List.take_append]
  rcases Nat.lt_or_ge log.length seen with hlt | hle
  · rw [List.take_of_length_le (Nat.le_of_lt hlt), List.take_of_length_le (by simp; omega),
      replay_concat]
    exact hP
  · rw [Nat.sub_eq_zero_of_le hle, List.take_zero, List.append_nil]
    exact h seen

theorem EveryReplica.step (h : EveryReplica apply s P log)
    (hstep : log' = log ∨ ∃ c, log' = log ++ [c]) (hP : P (replay apply s log')) :
    EveryReplica apply s P log' := by
  obtain rfl | ⟨c, rfl⟩ := hstep
  · exact h
  · rw [replay_concat] at hP
    exact h.concat hP

end TinyIM.Library.CommitLog

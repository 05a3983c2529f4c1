import Mathlib.Logic.Relation
import Mathlib.Tactic.Common

namespace TinyIM.Library.Transition

variable {σ α : Type}

/-- The states a transition function reaches from `s` by steps that all
satisfy `ok` in the state in which they are taken. -/
def Reach (step : σ → α → Option σ) (ok : σ → α → Prop) (s : σ) : σ → Prop :=
  Relation.ReflTransGen (fun t u ↦ ∃ a, ok t a ∧ step t a = some u) s

def anyStep : σ → α → Prop := fun _ _ ↦ True

instance (s : σ) (a : α) : Decidable (anyStep s a) := inferInstanceAs (Decidable True)

variable {step : σ → α → Option σ} {ok ok' : σ → α → Prop} {s t u : σ}

theorem Reach.refl (s : σ) : Reach step ok s s := Relation.ReflTransGen.refl

theorem Reach.tail (h : Reach step ok s t) {a : α} (ha : ok t a) (hs : step t a = some u) :
    Reach step ok s u :=
  Relation.ReflTransGen.tail h ⟨a, ha, hs⟩

theorem Reach.trans (h : Reach step ok s t) (h' : Reach step ok t u) : Reach step ok s u :=
  Relation.ReflTransGen.trans h h'

theorem Reach.mono (h : Reach step ok s t) (hok : ∀ v a, ok v a → ok' v a) :
    Reach step ok' s t :=
  Relation.ReflTransGen.mono (fun v _ ⟨a, ha, hs⟩ ↦ ⟨a, hok v a ha, hs⟩) s t h

theorem Reach.invariant {I : σ → Prop}
    (hstep : ∀ v a w, ok v a → step v a = some w → I v → I w)
    (h : Reach step ok s t) (hs : I s) : I t := by
  induction h with
  | refl => exact hs
  | tail _ hlast ih =>
    obtain ⟨a, ha, hstep'⟩ := hlast
    exact hstep _ a _ ha hstep' ih

/-- The actions `as`, taken one after the other, lead from `s` to a state. -/
inductive Run (step : σ → α → Option σ) (ok : σ → α → Prop) (s : σ) : List α → σ → Prop
  | nil : Run step ok s [] s
  | concat {as : List α} {t u : σ} {a : α} (h : Run step ok s as t) (ha : ok t a)
      (hs : step t a = some u) : Run step ok s (as ++ [a]) u

/-- What holds of no action at all, and stays true from one action to the next,
holds of every run and its actions. -/
theorem Run.invariant {I : List α → σ → Prop}
    (hstep : ∀ as v a w, ok v a → step v a = some w → I as v → I (as ++ [a]) w)
    {as : List α} (h : Run step ok s as t) (hs : I [] s) : I as t := by
  induction h with
  | nil => exact hs
  | concat _ ha hlast ih => exact hstep _ _ _ _ ha hlast ih

theorem Run.append {as bs : List α} (h : Run step ok s as t) (h' : Run step ok t bs u) :
    Run step ok s (as ++ bs) u := by
  induction h' with
  | nil => rwa [List.append_nil]
  | concat _ ha hlast ih =>
    rw [← List.append_assoc]
    exact ih.concat ha hlast

theorem Run.reach {as : List α} (h : Run step ok s as t) : Reach step ok s t := by
  induction h with
  | nil => exact .refl s
  | concat _ ha hlast ih => exact ih.tail ha hlast

/-- Runs a list of actions, stopping at the first that is not enabled or not
permitted. -/
def exec (step : σ → α → Option σ) (ok : σ → α → Prop) [∀ s a, Decidable (ok s a)] :
    σ → List α → Option σ
  | s, [] => some s
  | s, a :: as => if ok s a then (step s a).bind fun t ↦ exec step ok t as else none

theorem run_of_exec [∀ s a, Decidable (ok s a)] (as : List α)
    (h : exec step ok s as = some t) : Run step ok s as t := by
  induction as generalizing s with
  | nil =>
    obtain rfl := Option.some.inj h
    exact .nil
  | cons a as ih =>
    simp only [exec] at h
    split_ifs at h with ha
    obtain ⟨v, hv, hrest⟩ := Option.bind_eq_some_iff.mp h
    exact (Run.nil.concat ha hv).append (ih hrest)

theorem reach_of_exec [∀ s a, Decidable (ok s a)] (as : List α)
    (h : exec step ok s as = some t) : Reach step ok s t :=
  (run_of_exec as h).reach

theorem exists_reach_of_exec [∀ s a, Decidable (ok s a)] {P : σ → Prop} (as : List α)
    (h : ∃ t, exec step ok s as = some t ∧ P t) : ∃ t, Reach step ok s t ∧ P t := by
  obtain ⟨t, ht, hP⟩ := h
  exact ⟨t, reach_of_exec as ht, hP⟩

end TinyIM.Library.Transition

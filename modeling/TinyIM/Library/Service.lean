import Mathlib.Tactic.Common

namespace TinyIM.Library.Service

variable {σ τ υ ρ α : Type}

/-- What a service leaves and replies when it serves a request. -/
abbrev Server (σ ρ α : Type) := σ → ρ → σ × α

def final (S : Server σ ρ α) : σ → List ρ → σ
  | s, [] => s
  | s, q :: qs => final S (S s q).1 qs

def replies (S : Server σ ρ α) : σ → List ρ → List α
  | _, [] => []
  | s, q :: qs => (S s q).2 :: replies S (S s q).1 qs

/-- Each request is permitted in the state that finds it. -/
def Permits (S : Server σ ρ α) (may : σ → ρ → Prop) : σ → List ρ → Prop
  | _, [] => True
  | s, q :: qs => may s q ∧ Permits S may (S s q).1 qs

/-- One permitted request takes related states to related states and gets the
same reply from both services. -/
def Simulates (S : Server σ ρ α) (may : σ → ρ → Prop) (T : Server τ ρ α) (R : σ → τ → Prop) : Prop :=
  ∀ s t q, may s q → R s t → R (S s q).1 (T t q).1 ∧ (S s q).2 = (T t q).2

variable {S : Server σ ρ α} {may : σ → ρ → Prop} {T : Server τ ρ α} {R : σ → τ → Prop} {s : σ} {t : τ}
  {qs qs' : List ρ}

@[simp] theorem length_replies : (replies S s qs).length = qs.length := by
  induction qs generalizing s with
  | nil => rfl
  | cons q qs ih => rw [replies, List.length_cons, ih, List.length_cons]

theorem replies_append : replies S s (qs ++ qs') = replies S s qs ++ replies S (final S s qs) qs' := by
  induction qs generalizing s with
  | nil => rfl
  | cons q qs ih =>
    rw [List.cons_append, replies, ih]
    rfl

theorem final_append : final S s (qs ++ qs') = final S (final S s qs) qs' := by
  induction qs generalizing s with
  | nil => rfl
  | cons q qs ih => exact ih

/-- What every request preserves holds after any number of them. -/
theorem final_invariant {I : σ → Prop} (h : ∀ s q, I s → I (S s q).1) (hI : I s) : I (final S s qs) := by
  induction qs generalizing s with
  | nil => exact hI
  | cons q qs ih => exact ih (h s q hI)

/-- A request and its reply come from the state that the earlier ones left. -/
theorem exists_of_mem_zip {q : ρ} {a : α} (h : (q, a) ∈ qs.zip (replies S s qs)) :
    ∃ before after, qs = before ++ q :: after ∧ a = (S (final S s before) q).2 := by
  induction qs generalizing s with
  | nil => cases h
  | cons q' qs ih =>
    rcases List.mem_cons.mp h with heq | htail
    · obtain ⟨rfl, rfl⟩ := Prod.mk.inj heq
      exact ⟨[], qs, rfl, rfl⟩
    · obtain ⟨before, after, rfl, rfl⟩ := ih htail
      exact ⟨q' :: before, after, rfl, rfl⟩

theorem Permits.of_forall (h : ∀ s, ∀ q ∈ qs, may s q) : Permits S may s qs := by
  induction qs generalizing s with
  | nil => exact trivial
  | cons q qs ih => exact ⟨h s q List.mem_cons_self, ih fun s q' hq' ↦ h s q' (List.mem_cons_of_mem q hq')⟩

/-- What every permitted request preserves, told with the requests before it. -/
theorem Permits.history {I : List ρ → σ → Prop} (h : Permits S may s qs)
    (hstep : ∀ before s q, may s q → I before s → I (before ++ [q]) (S s q).1) (hI : I [] s) :
    I qs (final S s qs) := by
  suffices ∀ before, I before s → I (before ++ qs) (final S s qs) from this [] hI
  clear hI
  induction qs generalizing s with
  | nil =>
    intro before hI
    rwa [List.append_nil]
  | cons q qs ih =>
    intro before hI
    have hrest := ih h.2 (before ++ [q]) (hstep before s q h.1 hI)
    rwa [List.append_assoc, List.singleton_append] at hrest

theorem permits_append : Permits S may s (qs ++ qs') ↔ Permits S may s qs ∧ Permits S may (final S s qs) qs' := by
  induction qs generalizing s with
  | nil => exact (iff_of_eq (true_and _)).symm
  | cons q qs ih => exact (and_congr_right fun _ ↦ ih).trans and_assoc.symm

/-- Related services cannot be told apart by any permitted requests. -/
theorem Simulates.replies_eq (h : Simulates S may T R) (hmay : Permits S may s qs) (hR : R s t) :
    replies S s qs = replies T t qs ∧ R (final S s qs) (final T t qs) := by
  induction qs generalizing s t with
  | nil => exact ⟨rfl, hR⟩
  | cons q qs ih =>
    obtain ⟨hnext, hreply⟩ := h s t q hmay.1 hR
    obtain ⟨hreplies, hfinal⟩ := ih hmay.2 hnext
    rw [replies, replies, hreply, hreplies]
    exact ⟨rfl, hfinal⟩

section Inner

variable {κ β : Type} {inner : Server τ κ β} {may' : τ → κ → Prop} {calls : σ → ρ → List κ}

/-- The calls of an inner service that the requests come to. -/
def passed (S : Server σ ρ α) (calls : σ → ρ → List κ) : σ → List ρ → List κ
  | _, [] => []
  | s, q :: qs => calls s q ++ passed S calls (S s q).1 qs

theorem final_passed (state : σ → τ) (h : ∀ s q, state (S s q).1 = final inner (state s) (calls s q)) :
    state (final S s qs) = final inner (state s) (passed S calls s qs) := by
  induction qs generalizing s with
  | nil => rfl
  | cons q qs ih => rw [final, passed, final_append, ih, h]

theorem Permits.passed (h : Permits S may s qs) (state : σ → τ)
    (hstate : ∀ s q, state (S s q).1 = final inner (state s) (calls s q))
    (hcalls : ∀ s q, may s q → Permits inner may' (state s) (calls s q)) :
    Permits inner may' (state s) (passed S calls s qs) := by
  induction qs generalizing s with
  | nil => exact trivial
  | cons q qs ih =>
    refine permits_append.mpr ⟨hcalls s q h.1, ?_⟩
    rw [← hstate]
    exact ih h.2

end Inner

end TinyIM.Library.Service

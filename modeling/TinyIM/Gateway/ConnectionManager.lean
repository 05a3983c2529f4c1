import Mathlib.Data.Finset.Basic
import TinyIM.Library.ByteOrder

namespace TinyIM.Gateway

open Library.ByteOrder

/-- The map `users_` of one gateway, from users to sets of sessions. -/
structure ConnectionManager where
  users : ℤ → Option (Finset ℕ)
  nonempty : ∀ {u S}, users u = some S → S.Nonempty

namespace ConnectionManager

def empty : ConnectionManager where
  users _ := none
  nonempty h := by cases h

variable (m : ConnectionManager)

def join (userId : ℤ) (session : ℕ) : ConnectionManager where
  users := Function.update m.users userId (some (insert session ((m.users userId).getD ∅)))
  nonempty {u S} h := by
    by_cases hu : u = userId
    · subst hu
      rw [Function.update_self] at h
      exact Option.some.inj h ▸ Finset.insert_nonempty _ _
    · rw [Function.update_of_ne hu] at h
      exact m.nonempty h

/-- The map after a session of a user has been erased, and with it an entry
that has become empty. -/
def erase (users : ℤ → Option (Finset ℕ)) (userId : ℤ) (session : ℕ) : ℤ → Option (Finset ℕ) :=
  match users userId with
  | some S =>
    let S := S.erase session
    if S = ∅ then Function.update users userId none else Function.update users userId (some S)
  | none => users

theorem erase_eq (users : ℤ → Option (Finset ℕ)) (userId : ℤ) (session : ℕ) (u : ℤ) :
    erase users userId session u =
      if u = userId then ((users u).map fun S ↦ S.erase session).filter (· ≠ ∅) else users u := by
  cases hu : users userId with
  | none =>
    simp only [erase, hu]
    split_ifs with h
    · simp [h, hu]
    · rfl
  | some S =>
    simp only [erase, hu]
    by_cases h : u = userId <;> by_cases hempty : S.erase session = ∅ <;>
      simp [h, hu, hempty, Option.filter]

def leave (userId : ℤ) (session : ℕ) : ConnectionManager where
  users := erase m.users userId session
  nonempty {u S} h := by
    rw [erase_eq] at h
    split_ifs at h
    · exact Finset.nonempty_iff_ne_empty.mpr (by simpa using (Option.filter_eq_some_iff.mp h).2)
    · exact m.nonempty h

def sessions (userId : ℤ) : Finset ℕ := (m.users userId).getD ∅

/-- The sessions that `KickUser` calls `Kick` on. -/
def kickUser (getDevice : ℕ → Bytes) (userId : ℤ) (device : Bytes) : Finset ℕ :=
  (m.sessions userId).filter fun session ↦ device = [] ∨ getDevice session = device

/-- The sessions that `SendToUser` calls `Send` on. -/
def sendToUser (userId : ℤ) : Finset ℕ := m.sessions userId

@[simp] theorem sessions_empty (u : ℤ) : empty.sessions u = ∅ := rfl

theorem mem_sessions_join {u v : ℤ} {s t : ℕ} :
    t ∈ (m.join u s).sessions v ↔ (v = u ∧ t = s) ∨ t ∈ m.sessions v := by
  by_cases hv : v = u
  · subst hv
    simp [sessions, join]
  · simp [sessions, join, hv]

theorem mem_sessions_leave {u v : ℤ} {s t : ℕ} :
    t ∈ (m.leave u s).sessions v ↔ t ∈ m.sessions v ∧ ¬ (v = u ∧ t = s) := by
  simp only [sessions, leave, erase_eq]
  by_cases hv : v = u
  · subst hv
    cases hS : m.users v with
    | none => simp
    | some S =>
      by_cases hempty : S.erase s = ∅
      · have hmem : t ∈ S → t = s := by
          intro ht
          by_contra hne
          exact Finset.notMem_empty t (hempty ▸ Finset.mem_erase.mpr ⟨hne, ht⟩)
        simpa [hempty, Option.filter] using hmem
      · simp [hempty, Option.filter, and_comm]
  · simp [hv]

end ConnectionManager

end TinyIM.Gateway

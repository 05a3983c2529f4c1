import Mathlib.Data.List.Basic
import Mathlib.Tactic.Common

namespace TinyIM.Library.Leases

variable {κ ν : Type}

/-- A value that stays under its key until a point of time. -/
structure Lease (κ ν : Type) where
  key : κ
  value : ν
  expires : ℕ
  deriving DecidableEq, Repr

/-- The keys that have not run out. -/
def held (now : ℕ) (l : List (Lease κ ν)) : List κ := (l.filter fun x ↦ now < x.expires).map Lease.key

variable [DecidableEq κ]

def drop (key : κ) (l : List (Lease κ ν)) : List (Lease κ ν) := l.filter fun x ↦ x.key ≠ key

def grant (now ttl : ℕ) (key : κ) (value : ν) (l : List (Lease κ ν)) : List (Lease κ ν) :=
  ⟨key, value, now + ttl⟩ :: drop key l

def read (now : ℕ) (key : κ) (l : List (Lease κ ν)) : Option ν :=
  (l.find? fun x ↦ x.key = key ∧ now < x.expires).map Lease.value

variable {now ttl : ℕ} {key key' : κ} {value : ν} {l : List (Lease κ ν)}

theorem mem_drop {x : Lease κ ν} : x ∈ drop key l ↔ x ∈ l ∧ x.key ≠ key := by
  rw [drop, List.mem_filter, decide_eq_true_eq]

theorem mem_of_read (h : read now key l = some value) :
    ∃ x ∈ l, x.key = key ∧ x.value = value ∧ now < x.expires := by
  obtain ⟨x, hx, rfl⟩ := Option.map_eq_some_iff.mp h
  have hlive : x.key = key ∧ now < x.expires := by simpa using List.find?_some hx
  exact ⟨x, List.mem_of_find?_eq_some hx, hlive.1, rfl, hlive.2⟩

theorem mem_held_of_read (h : read now key l = some value) : key ∈ held now l := by
  obtain ⟨x, hx, rfl, -, hlive⟩ := mem_of_read h
  exact List.mem_map_of_mem (List.mem_filter.mpr ⟨hx, decide_eq_true hlive⟩)

/-- Every lease of the key has the value and lasts beyond `now`, and there is one. -/
structure Standing (now : ℕ) (key : κ) (value : ν) (l : List (Lease κ ν)) : Prop where
  there : ∃ x ∈ l, x.key = key
  value : ∀ x ∈ l, x.key = key → x.value = value
  lasts : ∀ x ∈ l, x.key = key → now < x.expires

theorem Standing.read_eq (h : Standing now key value l) : read now key l = some value := by
  obtain ⟨x, hx, hkey⟩ := h.there
  have hfound : (l.find? fun x ↦ x.key = key ∧ now < x.expires).isSome :=
    List.find?_isSome.mpr ⟨x, hx, decide_eq_true ⟨hkey, h.lasts x hx hkey⟩⟩
  obtain ⟨y, hy⟩ := Option.isSome_iff_exists.mp hfound
  have hy' : y.key = key ∧ now < y.expires := by simpa using List.find?_some hy
  rw [read, hy, Option.map_some, h.value y (List.mem_of_find?_eq_some hy) hy'.1]

theorem standing_grant (hpos : 0 < ttl) : Standing now key value (grant now ttl key value l) := by
  have honly : ∀ x ∈ grant now ttl key value l, x.key = key → x = ⟨key, value, now + ttl⟩ := by
    intro x hx hkey
    rcases List.mem_cons.mp hx with rfl | hx
    · rfl
    · exact absurd hkey (mem_drop.mp hx).2
  refine ⟨⟨_, List.mem_cons_self, rfl⟩, ?_, ?_⟩
  · intro x hx hkey
    rw [honly x hx hkey]
  · intro x hx hkey
    rw [honly x hx hkey]
    exact Nat.lt_add_of_pos_right hpos

theorem Standing.drop_of_ne (h : Standing now key value l) (hne : key' ≠ key) :
    Standing now key value (drop key' l) := by
  obtain ⟨x, hx, hkey⟩ := h.there
  refine ⟨⟨x, mem_drop.mpr ⟨hx, hkey ▸ hne.symm⟩, hkey⟩, ?_, ?_⟩
  · exact fun y hy ↦ h.value y (mem_drop.mp hy).1
  · exact fun y hy ↦ h.lasts y (mem_drop.mp hy).1

theorem Standing.grant_of_ne (h : Standing now key value l) (hne : key' ≠ key) (value' : ν) :
    Standing now key value (grant now ttl key' value' l) := by
  have hold := h.drop_of_ne hne
  obtain ⟨x, hx, hkey⟩ := hold.there
  refine ⟨⟨x, List.mem_cons_of_mem _ hx, hkey⟩, ?_, ?_⟩
  · intro y hy hkey
    rcases List.mem_cons.mp hy with rfl | hy
    · exact absurd hkey hne
    · exact hold.value y hy hkey
  · intro y hy hkey
    rcases List.mem_cons.mp hy with rfl | hy
    · exact absurd hkey hne
    · exact hold.lasts y hy hkey

end TinyIM.Library.Leases

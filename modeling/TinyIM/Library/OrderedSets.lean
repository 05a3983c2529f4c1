import Mathlib.Data.List.Sort
import Mathlib.Data.Set.Insert
import Mathlib.Logic.Function.Basic

namespace TinyIM.Library.OrderedSets

variable {κ α : Type}

/-- A set as the list of its elements in increasing order. -/
structure OrderedSet (α : Type) [LinearOrder α] where
  toList : List α
  increasing : toList.SortedLT

namespace OrderedSet

variable [LinearOrder α]

instance : Membership α (OrderedSet α) := ⟨fun S a ↦ a ∈ S.toList⟩

instance (a : α) (S : OrderedSet α) : Decidable (a ∈ S) := inferInstanceAs (Decidable (a ∈ S.toList))

def empty : OrderedSet α := ⟨[], List.Pairwise.nil.sortedLT⟩

def isEmpty (S : OrderedSet α) : Bool := S.toList.isEmpty

theorem sortedLT_orderedInsert {l : List α} (hl : l.SortedLT) {a : α} (ha : a ∉ l) :
    (l.orderedInsert (· ≤ ·) a).SortedLT := by
  refine List.SortedLE.sortedLT_of_nodup ?_ ?_
  · exact (hl.sortedLE.pairwise.orderedInsert a l).sortedLE
  · exact (List.perm_orderedInsert _ a l).nodup_iff.mpr (List.nodup_cons.mpr ⟨ha, hl.nodup⟩)

def insert (S : OrderedSet α) (a : α) : OrderedSet α :=
  if ha : a ∈ S.toList then S
  else ⟨S.toList.orderedInsert (· ≤ ·) a, sortedLT_orderedInsert S.increasing ha⟩

def erase (S : OrderedSet α) (a : α) : OrderedSet α :=
  ⟨S.toList.erase a, (S.increasing.pairwise.sublist List.erase_sublist).sortedLT⟩

variable {S : OrderedSet α} {a b : α}

theorem nodup (S : OrderedSet α) : S.toList.Nodup := S.increasing.nodup

@[simp] theorem mem_toList : a ∈ S.toList ↔ a ∈ S := Iff.rfl

@[simp] theorem not_mem_empty : a ∉ (empty : OrderedSet α) := List.not_mem_nil

theorem isEmpty_iff : S.isEmpty = true ↔ ∀ a, a ∉ S := by
  rw [isEmpty, List.isEmpty_iff, List.eq_nil_iff_forall_not_mem]
  rfl

@[simp] theorem mem_insert : b ∈ S.insert a ↔ b = a ∨ b ∈ S := by
  rw [insert]
  split_ifs with ha
  · refine ⟨.inr, ?_⟩
    rintro (rfl | hb)
    · exact ha
    · exact hb
  · exact List.mem_orderedInsert _

@[simp] theorem mem_erase : b ∈ S.erase a ↔ b ≠ a ∧ b ∈ S := S.nodup.mem_erase_iff

end OrderedSet

/-- A map from keys to sets. -/
abbrev SetMap (κ α : Type) [LinearOrder α] := κ → Option (OrderedSet α)

namespace SetMap

variable [LinearOrder α]

def empty : SetMap κ α := fun _ ↦ none

/-- The set of a key, empty for a key without an entry. -/
def lookup (m : SetMap κ α) (k : κ) : OrderedSet α := (m k).getD .empty

/-- The map has the pairs of a relation, and no entry for a key without any. -/
structure Represents (m : SetMap κ α) (R : Set (κ × α)) : Prop where
  mem_iff : ∀ k a, a ∈ m.lookup k ↔ (k, a) ∈ R
  inhabited : ∀ k S, m k = some S → ∃ a, a ∈ S

theorem represents_empty : Represents (empty : SetMap κ α) ∅ :=
  ⟨fun _ _ ↦ iff_of_false OrderedSet.not_mem_empty (Set.notMem_empty _), nofun⟩

variable {m : SetMap κ α} {k k' : κ} {f : OrderedSet α → OrderedSet α} {a : α} {S : OrderedSet α}
  {R : Set (κ × α)}

/-- A key without an entry is in no pair. -/
theorem Represents.not_mem_of_none (h : Represents m R) (hk : m k = none) : (k, a) ∉ R := by
  rw [← h.mem_iff, lookup, hk]
  exact OrderedSet.not_mem_empty

variable [DecidableEq κ]

/-- Changes the set of a key, for which it first creates an entry if there is
none. -/
def modify (m : SetMap κ α) (k : κ) (f : OrderedSet α → OrderedSet α) : SetMap κ α :=
  Function.update m k (some (f (m.lookup k)))

/-- Removes the entry of a key whose set is empty. -/
def prune (m : SetMap κ α) (k : κ) : SetMap κ α :=
  if (m.lookup k).isEmpty then Function.update m k none else m

theorem modify_self : m.modify k f k = some (f (m.lookup k)) := Function.update_self ..

theorem modify_of_ne (h : k' ≠ k) : m.modify k f k' = m k' := Function.update_of_ne h ..

@[simp] theorem lookup_modify :
    lookup (m.modify k f) k' = if k' = k then f (m.lookup k) else m.lookup k' := by
  split_ifs with h
  · subst h
    rw [lookup, modify_self, Option.getD_some]
  · rw [lookup, modify_of_ne h, lookup]

/-- A look at the set of a key that has an entry changes nothing. -/
theorem modify_id (h : (m k).isSome) : m.modify k id = m := by
  obtain ⟨S, hS⟩ := Option.isSome_iff_exists.mp h
  refine Function.update_eq_self_iff.mpr ?_
  rw [lookup, hS, Option.getD_some, id]

@[simp] theorem mem_lookup_prune : a ∈ lookup (m.prune k) k' ↔ a ∈ m.lookup k' := by
  rw [prune]
  split_ifs with hempty
  · by_cases h : k' = k
    · subst h
      rw [lookup, Function.update_self]
      exact iff_of_false OrderedSet.not_mem_empty (OrderedSet.isEmpty_iff.mp hempty a)
    · rw [lookup, Function.update_of_ne h, lookup]
  · exact Iff.rfl

/-- If only the entry of one key may be empty, then none is when that is pruned. -/
theorem inhabited_prune (h : ∀ k' S, k' ≠ k → m k' = some S → ∃ a, a ∈ S) (hS : m.prune k k' = some S) :
    ∃ a, a ∈ S := by
  rw [prune] at hS
  by_cases hk : k' = k
  · subst hk
    split_ifs at hS with hempty
    · rw [Function.update_self] at hS
      cases hS
    · rw [lookup, hS, Option.getD_some, OrderedSet.isEmpty_iff] at hempty
      exact not_forall_not.mp hempty
  · split_ifs at hS
    · exact h k' S hk ((Function.update_of_ne hk ..).symm.trans hS)
    · exact h k' S hk hS

theorem Represents.insert (h : Represents m R) (k : κ) (a : α) :
    Represents (m.modify k fun S ↦ S.insert a) (Insert.insert (k, a) R) := by
  refine ⟨fun k' b ↦ ?_, fun k' S hS ↦ ?_⟩
  · rw [lookup_modify, Set.mem_insert_iff, Prod.mk.injEq, ← h.mem_iff]
    split_ifs with hk
    · subst hk
      simp
    · simp [hk]
  · by_cases hk : k' = k
    · subst hk
      rw [modify_self] at hS
      exact ⟨a, Option.some.inj hS ▸ OrderedSet.mem_insert.mpr (.inl rfl)⟩
    · exact h.inhabited k' S ((modify_of_ne hk).symm.trans hS)

theorem Represents.erase (h : Represents m R) (k : κ) (a : α) :
    Represents ((m.modify k fun S ↦ S.erase a).prune k) (R \ {(k, a)}) := by
  refine ⟨fun k' b ↦ ?_, fun k' S hS ↦ inhabited_prune (fun k' S hk hS ↦ ?_) hS⟩
  · rw [mem_lookup_prune, lookup_modify, Set.mem_sdiff, Set.mem_singleton_iff, Prod.mk.injEq, ← h.mem_iff]
    split_ifs with hk
    · subst hk
      simp [and_comm]
    · simp [hk]
  · exact h.inhabited k' S ((modify_of_ne hk).symm.trans hS)

end SetMap

end TinyIM.Library.OrderedSets

import Mathlib.Data.List.Nodup

namespace TinyIM.Library.Table

variable {ρ κ : Type}

/-- A table with a unique key. -/
structure Keyed (key : ρ → κ) where
  rows : List ρ
  nodup : (rows.map key).Nodup

namespace Keyed

variable {key : ρ → κ}

def empty : Keyed key := ⟨[], List.nodup_nil⟩

variable (t : Keyed key)

/-- The keys of the new rows are all different and none is taken. -/
def Free (new : List ρ) : Prop := ((t.rows ++ new).map key).Nodup

instance [DecidableEq κ] (new : List ρ) : Decidable (t.Free new) :=
  inferInstanceAs (Decidable (List.Nodup _))

/-- An `INSERT` of several rows, which inserts all of them or none. -/
def insert [DecidableEq κ] (new : List ρ) : Option (Keyed key) :=
  if h : t.Free new then some ⟨t.rows ++ new, h⟩ else none

/-- An `INSERT IGNORE`: row by row, without those whose key is taken. -/
def insertIgnore [DecidableEq κ] (t : Keyed key) : List ρ → Keyed key
  | [] => t
  | r :: new => ((t.insert [r]).getD t).insertIgnore new

variable {t}

theorem free_iff {new : List ρ} :
    t.Free new ↔ (new.map key).Nodup ∧ ∀ r ∈ new, key r ∉ t.rows.map key := by
  rw [Free, List.map_append, List.nodup_append]
  constructor
  · intro hcase
    obtain ⟨-, hnew, hne⟩ := hcase
    refine ⟨hnew, ?_⟩
    intro r hr hmem
    exact hne _ hmem _ (List.mem_map_of_mem hr) rfl
  · intro hcase
    obtain ⟨hnew, hfree⟩ := hcase
    refine ⟨t.nodup, hnew, ?_⟩
    intro k hk k' hk' heq
    obtain ⟨r, hr, rfl⟩ := List.mem_map.mp hk'
    exact hfree r hr (heq ▸ hk)

theorem insert_of_free [DecidableEq κ] {new : List ρ} (h : t.Free new) :
    ∃ t', t.insert new = some t' ∧ t'.rows = t.rows ++ new :=
  ⟨⟨t.rows ++ new, h⟩, dif_pos h, rfl⟩

theorem rows_of_insert [DecidableEq κ] {new : List ρ} {t' : Keyed key} (h : t.insert new = some t') :
    t.Free new ∧ t'.rows = t.rows ++ new := by
  rw [insert] at h
  split_ifs at h with hfree
  obtain rfl := Option.some.inj h
  exact ⟨hfree, rfl⟩

theorem eq_of_key_eq {r r' : ρ} (hr : r ∈ t.rows) (hr' : r' ∈ t.rows) (h : key r = key r') :
    r = r' :=
  List.inj_on_of_nodup_map t.nodup hr hr' h

section InsertIgnore

variable [DecidableEq κ]

theorem insert_singleton_cases (r : ρ) :
    (key r ∈ t.rows.map key ∧ t.insert [r] = none) ∨
      (key r ∉ t.rows.map key ∧ ∃ t', t.insert [r] = some t' ∧ t'.rows = t.rows ++ [r]) := by
  by_cases htaken : key r ∈ t.rows.map key
  · refine .inl ⟨htaken, dif_neg fun hfree ↦ ?_⟩
    exact (free_iff.mp hfree).2 r (List.mem_singleton_self r) htaken
  · refine .inr ⟨htaken, insert_of_free (free_iff.mpr ⟨List.nodup_singleton _, ?_⟩)⟩
    exact fun r' hr' ↦ List.mem_singleton.mp hr' ▸ htaken

theorem getD_insert_singleton (r : ρ) :
    (key r ∈ t.rows.map key ∧ (t.insert [r]).getD t = t) ∨
      ((t.insert [r]).getD t).rows = t.rows ++ [r] := by
  obtain ⟨htaken, hnone⟩ | ⟨-, t', hsome, hrows⟩ := insert_singleton_cases (t := t) r
  · exact .inl ⟨htaken, by rw [hnone]; rfl⟩
  · exact .inr (by rw [hsome]; exact hrows)

/-- An `INSERT IGNORE` leaves a row for every key it was given. -/
theorem mem_keys_insertIgnore {new : List ρ} {k : κ} :
    k ∈ (t.insertIgnore new).rows.map key ↔ k ∈ t.rows.map key ∨ k ∈ new.map key := by
  induction new generalizing t with
  | nil => simp [insertIgnore]
  | cons r new ih =>
    rw [insertIgnore, ih, List.map_cons, List.mem_cons]
    obtain ⟨htaken, hsame⟩ | hrows := getD_insert_singleton (t := t) r
    · rw [hsame]
      constructor
      · exact fun h ↦ h.imp_right Or.inr
      · rintro (h | rfl | h)
        · exact .inl h
        · exact .inl htaken
        · exact .inr h
    · rw [hrows, List.map_append, List.mem_append, List.map_singleton, List.mem_singleton, or_assoc]

theorem mem_of_mem_insertIgnore {new : List ρ} {r : ρ} (h : r ∈ (t.insertIgnore new).rows) :
    r ∈ t.rows ∨ r ∈ new := by
  induction new generalizing t with
  | nil => exact .inl h
  | cons r' new ih =>
    rcases ih h with hold | hnew
    · obtain ⟨-, hsame⟩ | hrows := getD_insert_singleton (t := t) r'
      · rw [hsame] at hold
        exact .inl hold
      · rw [hrows, List.mem_append, List.mem_singleton] at hold
        rcases hold with hold | rfl
        · exact .inl hold
        · exact .inr List.mem_cons_self
    · exact .inr (List.mem_cons_of_mem _ hnew)

theorem mem_insertIgnore_of_mem {new : List ρ} {r : ρ} (h : r ∈ t.rows) : r ∈ (t.insertIgnore new).rows := by
  induction new generalizing t with
  | nil => exact h
  | cons r' new ih =>
    refine ih ?_
    obtain ⟨-, hsame⟩ | hrows := getD_insert_singleton (t := t) r'
    · rw [hsame]
      exact h
    · rw [hrows]
      exact List.mem_append_left _ h

theorem rows_insertIgnore (new : List ρ) :
    ∃ added, (t.insertIgnore new).rows = t.rows ++ added ∧ ∀ r ∈ added, r ∈ new := by
  induction new generalizing t with
  | nil => exact ⟨[], (List.append_nil _).symm, fun _ hr ↦ absurd hr List.not_mem_nil⟩
  | cons r new ih =>
    obtain ⟨added, hadded, hmem⟩ := ih (t := (t.insert [r]).getD t)
    rw [insertIgnore, hadded]
    obtain ⟨-, hsame⟩ | hrows := getD_insert_singleton (t := t) r
    · exact ⟨added, by rw [hsame], fun r' hr' ↦ List.mem_cons_of_mem r (hmem r' hr')⟩
    · refine ⟨r :: added, by rw [hrows, List.append_assoc]; rfl, ?_⟩
      exact List.forall_mem_cons.mpr ⟨List.mem_cons_self, fun r' hr' ↦ List.mem_cons_of_mem r (hmem r' hr')⟩

/-- An `INSERT IGNORE` of rows whose keys are all taken. -/
theorem insertIgnore_eq_self {new : List ρ} (h : ∀ r ∈ new, key r ∈ t.rows.map key) : t.insertIgnore new = t := by
  induction new with
  | nil => rfl
  | cons r new ih =>
    rw [List.forall_mem_cons] at h
    obtain ⟨-, hnone⟩ | ⟨hfree, -⟩ := insert_singleton_cases (t := t) r
    · rw [insertIgnore, hnone]
      exact ih h.2
    · exact absurd h.1 hfree

/-- The rows that an `INSERT IGNORE` adds are those whose key was not taken,
where no two rows claim one key. -/
theorem mem_insertIgnore_iff {new : List ρ} (hnew : ∀ r ∈ new, ∀ r' ∈ new, key r = key r' → r = r') {r : ρ} :
    r ∈ (t.insertIgnore new).rows ↔ r ∈ t.rows ∨ (r ∈ new ∧ key r ∉ t.rows.map key) := by
  constructor
  · intro hr
    by_cases hold : r ∈ t.rows
    · exact .inl hold
    · refine .inr ⟨(mem_of_mem_insertIgnore hr).resolve_left hold, ?_⟩
      intro htaken
      obtain ⟨r', hr', hkey⟩ := List.mem_map.mp htaken
      exact hold (eq_of_key_eq hr (mem_insertIgnore_of_mem hr') hkey.symm ▸ hr')
  · rintro (hold | ⟨hr, hfree⟩)
    · exact mem_insertIgnore_of_mem hold
    · have hclaimed : key r ∈ (t.insertIgnore new).rows.map key :=
        mem_keys_insertIgnore.mpr (.inr (List.mem_map_of_mem hr))
      obtain ⟨r', hr', hkey⟩ := List.mem_map.mp hclaimed
      rcases mem_of_mem_insertIgnore hr' with hold | hmem
      · exact absurd (hkey ▸ List.mem_map_of_mem hold) hfree
      · exact hnew r' hmem r hr hkey ▸ hr'

end InsertIgnore

end Keyed

/-- A table whose rows are numbered by `AUTO_INCREMENT`. -/
structure Numbered (ρ : Type) where
  rows : List (ℕ × ρ)
  next : ℕ
  distinct : (rows.map Prod.fst).Nodup
  below : ∀ r ∈ rows, r.1 < next

namespace Numbered

variable {ρ : Type}

def empty : Numbered ρ := ⟨[], 1, List.nodup_nil, fun _ hr ↦ absurd hr List.not_mem_nil⟩

theorem insert_distinct (t : Numbered ρ) (r : ρ) : ((t.rows ++ [(t.next, r)]).map Prod.fst).Nodup := by
  rw [List.map_append, List.map_singleton, List.nodup_append]
  refine ⟨t.distinct, List.nodup_singleton _, ?_⟩
  intro n hn n' hn'
  obtain ⟨row, hrow, rfl⟩ := List.mem_map.mp hn
  obtain rfl := List.mem_singleton.mp hn'
  exact Nat.ne_of_lt (t.below row hrow)

theorem insert_below (t : Numbered ρ) (r : ρ) : ∀ row ∈ t.rows ++ [(t.next, r)], row.1 < t.next + 1 := by
  intro row hrow
  rcases List.mem_append.mp hrow with hrow | hrow
  · exact Nat.lt_succ_of_lt (t.below row hrow)
  · obtain rfl := List.mem_singleton.mp hrow
    exact Nat.lt_succ_self _

/-- The new row gets the number `t.next`. -/
def insert (t : Numbered ρ) (r : ρ) : Numbered ρ :=
  ⟨t.rows ++ [(t.next, r)], t.next + 1, t.insert_distinct r, t.insert_below r⟩

end Numbered

end TinyIM.Library.Table

import Mathlib.Data.List.Count
import Mathlib.Data.List.Sort

namespace TinyIM.Library.Page

variable {ρ : Type}

/-- `ORDER BY ... LIMIT limit`: the first rows in the order `le`. -/
def page (le : ρ → ρ → Prop) [DecidableRel le] (rows : List ρ) (limit : ℕ) : List ρ :=
  (rows.insertionSort le).take limit

variable {le : ρ → ρ → Prop} [DecidableRel le] {rows : List ρ} {limit : ℕ} {a b : ρ}

theorem mem_of_mem_page (h : a ∈ page le rows limit) : a ∈ rows :=
  (List.mem_insertionSort le).mp (List.mem_of_mem_take h)

theorem mem_page_of_length_le (h : rows.length ≤ limit) (ha : a ∈ rows) : a ∈ page le rows limit := by
  rw [page, List.take_of_length_le (by rwa [List.length_insertionSort])]
  exact (List.mem_insertionSort le).mpr ha

/-- Rows that already stand in the order. -/
theorem page_of_pairwise (h : rows.Pairwise le) : page le rows limit = rows.take limit := by
  rw [page, h.insertionSort_eq]

theorem exists_mem_page_of_countP_lt {P : ρ → Bool} (hfew : rows.countP P < limit)
    (hb : b ∈ rows) (hP : P b = false) : ∃ a ∈ page le rows limit, P a = false := by
  by_contra hall
  push Not at hall
  have hpage : (page le rows limit).countP P = (page le rows limit).length := by
    apply List.countP_eq_length.mpr
    intro a ha
    exact Bool.of_not_eq_false (hall a ha)
  have hlength : (page le rows limit).length = min limit rows.length := by
    rw [page, List.length_take, List.length_insertionSort]
  have hcount : (page le rows limit).countP P ≤ rows.countP P := by
    rw [← (List.perm_insertionSort le rows).countP_eq P]
    exact (List.take_sublist limit _).countP_le
  have hlt : rows.countP P < rows.length := List.countP_lt_length_iff.mpr ⟨b, hb, hP⟩
  omega

variable [Std.Total le] [IsTrans ρ le]

/-- Rows in the order that are all told apart by it, in the opposite order. -/
theorem page_flip_of_pairwise (h : rows.Pairwise le)
    (hanti : ∀ a ∈ rows, ∀ b ∈ rows, le a b → le b a → a = b) :
    page (fun a b ↦ le b a) rows limit = rows.reverse.take limit := by
  have hsorted : rows.reverse.Pairwise fun a b ↦ le b a := List.pairwise_reverse.mpr h
  have hperm := (List.perm_insertionSort (fun a b ↦ le b a) rows).trans rows.reverse_perm.symm
  have : Std.Total fun a b : ρ ↦ le b a := ⟨fun a b ↦ Std.Total.total (r := le) b a⟩
  have : IsTrans ρ fun a b ↦ le b a := ⟨fun _ _ _ hab hbc ↦ IsTrans.trans _ _ _ hbc hab⟩
  rw [page, hperm.eq_of_pairwise ?_ (List.pairwise_insertionSort _ rows) hsorted]
  intro a b ha hb hab hba
  exact hanti a ((List.mem_insertionSort _).mp ha) b (List.mem_reverse.mp hb) hba hab

theorem le_of_mem_drop (hb : b ∈ page le rows limit) (ha : a ∈ (rows.insertionSort le).drop limit) :
    le b a := by
  have hsorted := List.pairwise_insertionSort le rows
  rw [← List.take_append_drop limit (rows.insertionSort le), List.pairwise_append] at hsorted
  exact hsorted.2.2 b hb a ha

theorem mem_page_of_not_le (hb : b ∈ page le rows limit) (ha : a ∈ rows) (h : ¬ le b a) :
    a ∈ page le rows limit := by
  have hmem := (List.mem_insertionSort le).mpr ha
  rw [← List.take_append_drop limit (rows.insertionSort le), List.mem_append] at hmem
  exact hmem.resolve_right fun hdrop ↦ h (le_of_mem_drop hb hdrop)

theorem countP_lt_of_mem_page (hb : b ∈ page le rows limit) :
    rows.countP (fun a ↦ ¬ le b a) < limit := by
  have hsplit := (List.perm_insertionSort le rows).countP_eq fun a ↦ decide ¬ le b a
  rw [← List.take_append_drop limit (rows.insertionSort le), List.countP_append] at hsplit
  have hdrop : ((rows.insertionSort le).drop limit).countP (fun a ↦ decide ¬ le b a) = 0 := by
    apply List.countP_eq_zero.mpr
    intro a ha
    simp [le_of_mem_drop hb ha]
  have hrefl : le b b := (Std.Total.total (r := le) b b).elim id id
  have htake : (page le rows limit).countP (fun a ↦ decide ¬ le b a) < (page le rows limit).length :=
    List.countP_lt_length_iff.mpr ⟨b, hb, by simp [hrefl]⟩
  have hlength : (page le rows limit).length ≤ limit := List.length_take_le _ _
  rw [page] at htake hlength
  omega

/-- Of a list without repetitions, a window shows an entry once or not at all. -/
theorem filter_window {κ : Type} [DecidableEq κ] {f : ρ → κ} {l l' : List ρ} {x : ρ}
    (h : ((l ++ x :: l').map f).Nodup) (start size : ℕ) :
    ((((l ++ x :: l').drop start).take size).filter fun y ↦ f y = f x) =
      if start ≤ l.length ∧ l.length < start + size then [x] else [] := by
  rw [List.map_append, List.map_cons, List.nodup_append] at h
  obtain ⟨-, htail, hdisjoint⟩ := h
  have hbefore : ∀ y ∈ l, ¬ f y = f x := fun y hy heq ↦
    hdisjoint (f y) (List.mem_map_of_mem hy) (f x) List.mem_cons_self heq
  have hafter : ∀ y ∈ l', ¬ f y = f x := fun y hy heq ↦
    (List.nodup_cons.mp htail).1 (heq ▸ List.mem_map_of_mem hy)
  by_cases hstart : start ≤ l.length
  · rw [List.drop_append_of_le_length hstart, List.take_append, List.filter_append]
    have hnone : ((l.drop start).take size).filter (fun y ↦ f y = f x) = [] := by
      refine List.filter_eq_nil_iff.mpr ?_
      intro y hy
      simpa using hbefore y (List.mem_of_mem_drop (List.mem_of_mem_take hy))
    rw [hnone, List.nil_append, List.length_drop]
    by_cases hsize : l.length < start + size
    · obtain ⟨n, hn⟩ : ∃ n, size - (l.length - start) = n + 1 := ⟨size - (l.length - start) - 1, by omega⟩
      have hrest : (l'.take n).filter (fun y ↦ f y = f x) = [] := by
        refine List.filter_eq_nil_iff.mpr ?_
        intro y hy
        simpa using hafter y (List.mem_of_mem_take hy)
      rw [if_pos ⟨hstart, hsize⟩, hn, List.take_succ_cons, List.filter_cons, if_pos (decide_eq_true rfl), hrest]
    · have hzero : size - (l.length - start) = 0 := by omega
      rw [if_neg fun hboth ↦ hsize hboth.2, hzero]
      rfl
  · rw [if_neg fun hboth ↦ hstart hboth.1, List.filter_eq_nil_iff]
    intro y hy
    rw [List.drop_append, List.drop_eq_nil_of_le (by omega), List.nil_append] at hy
    have hpos : start - l.length = start - l.length - 1 + 1 := by omega
    rw [hpos, List.drop_succ_cons] at hy
    simpa using hafter y (List.mem_of_mem_drop (List.mem_of_mem_take hy))

end TinyIM.Library.Page

import TinyIM.Library.SqlLiteral
import Mathlib.Data.List.Chain

namespace TinyIM.Library.SqlStatement

open ByteOrder SqlLiteral

/-- A comment begins here, or a quote of another kind. -/
def mark : Bytes → Bool
  | 34 :: _ => true
  | 35 :: _ => true
  | 96 :: _ => true
  | 45 :: 45 :: _ => true
  | 47 :: 42 :: _ => true
  | _ => false

def extend (bs : Bytes) : List Bytes → List Bytes
  | [] => [bs]
  | p :: ps => (bs ++ p) :: ps

/-- Splits a statement at its literals: the text before the first, its value,
the text behind it, and so on. Comments and other quotes are not followed. -/
def pieces : Bool → Bytes → Option (List Bytes)
  | false, [] => some [[]]
  | false, b :: s =>
    if mark (b :: s) then none
    else if b = 39 then (pieces true s).map (List.cons [])
    else (pieces false s).map (extend [b])
  | true, [] => none
  | true, [92] => none
  | true, 92 :: b :: s => (pieces true s).map (extend (unescape b))
  | true, 39 :: 39 :: s => (pieces true s).map (extend [39])
  | true, 39 :: s => (pieces false s).map (List.cons [])
  | true, b :: s => (pieces true s).map (extend [b])

/-- The literal of this text, unescaped, is the text: it has no quote, and the
only backslashes stand before wildcards. -/
def Verbatim : Bytes → Prop
  | [] => True
  | [92] => False
  | 92 :: b :: s => (b = 37 ∨ b = 95) ∧ Verbatim s
  | 39 :: _ => False
  | _ :: s => Verbatim s

/-- A text that stands in a statement as it is. -/
def Plain (t : Bytes) : Prop := 0 ∉ t ∧ Verbatim t

/-- Text outside literals. -/
structure Outside (o : Bytes) : Prop where
  bytes : ∀ b ∈ o, b ≠ 34 ∧ b ≠ 35 ∧ b ≠ 39 ∧ b ≠ 47 ∧ b ≠ 96
  dashes : o.IsChain fun a b ↦ ¬ (a = 45 ∧ b = 45)

/-- A statement from its first text and the values and texts that follow. -/
def text : Bytes → List (Bytes × Bytes) → Bytes
  | o, [] => o
  | o, f :: fields => o ++ 39 :: (f.1 ++ 39 :: text f.2 fields)

def meant (o : Bytes) (fields : List (Bytes × Bytes)) : List Bytes := o :: fields.flatMap fun f ↦ [f.1, f.2]

section Pieces

variable {o s : Bytes}

theorem map_extend (bs : Bytes) (r : Option (Bytes × Bytes)) :
    (r.bind fun r ↦ (pieces false r.2).map (List.cons r.1)).map (extend bs) =
      (r.map fun r ↦ (bs ++ r.1, r.2)).bind fun r ↦ (pieces false r.2).map (List.cons r.1) := by
  cases r with
  | none => rfl
  | some r => exact Option.map_map ..

theorem pieces_true (s : Bytes) :
    pieces true s = (literal s).bind fun r ↦ (pieces false r.2).map (List.cons r.1) := by
  fun_induction literal s with
  | case1 => rfl
  | case2 => rfl
  | case3 b s ih => rw [pieces, ih, map_extend]
  | case4 s ih =>
    rw [pieces, ih, map_extend]
    rfl
  | case5 s h =>
    rw [pieces]
    · rfl
    · exact h
  | case6 b s hlast hbackslash hdoubled hquote ih =>
    rw [pieces, ih, map_extend]
    · rfl
    · exact hlast
    · exact hbackslash
    · exact hdoubled
    · exact hquote

theorem mark_eq_false {b : UInt8} (hb : b ≠ 34 ∧ b ≠ 35 ∧ b ≠ 47 ∧ b ≠ 96)
    (hdash : b = 45 → s.head? ≠ some 45) : mark (b :: s) = false := by
  unfold mark
  split
  · next heq => exact absurd (List.cons.inj heq).1 hb.1
  · next heq => exact absurd (List.cons.inj heq).1 hb.2.1
  · next heq => exact absurd (List.cons.inj heq).1 hb.2.2.2
  · next heq =>
    obtain ⟨rfl, rfl⟩ := List.cons.inj heq
    exact absurd rfl (hdash rfl)
  · next heq => exact absurd (List.cons.inj heq).1 hb.2.2.1
  · rfl

theorem Outside.of_cons {b : UInt8} (h : Outside (b :: o)) : Outside o :=
  ⟨(List.forall_mem_cons.mp h.bytes).2, h.dashes.tail⟩

theorem Outside.append {o' : Bytes} (h : Outside o) (h' : Outside o')
    (hjoin : o.getLast? ≠ some 45 ∨ o'.head? ≠ some 45) : Outside (o ++ o') := by
  refine ⟨?_, List.isChain_append.mpr ⟨h.dashes, h'.dashes, ?_⟩⟩
  · intro b hb
    rcases List.mem_append.mp hb with hb | hb
    · exact h.bytes b hb
    · exact h'.bytes b hb
  · rintro a ha b hb ⟨rfl, rfl⟩
    rcases hjoin with hjoin | hjoin
    · exact hjoin ha
    · exact hjoin hb

/-- A byte outside literals, before what is no dash. -/
theorem pieces_false_cons {b : UInt8} (h : Outside (b :: o)) (hs : s.head? ≠ some 45) :
    pieces false (b :: (o ++ s)) = (pieces false (o ++ s)).map (extend [b]) := by
  obtain ⟨h34, h35, h39, h47, h96⟩ := h.bytes b List.mem_cons_self
  have hmark : mark (b :: (o ++ s)) = false := by
    refine mark_eq_false ⟨h34, h35, h47, h96⟩ ?_
    rintro rfl
    cases o with
    | nil => exact hs
    | cons c o =>
      intro hc
      exact (List.isChain_cons_cons.mp h.dashes).1 ⟨rfl, Option.some.inj hc⟩
  rw [pieces, hmark, if_neg Bool.false_ne_true, if_neg h39]

theorem pieces_outside (ho : Outside o) : pieces false (o ++ 39 :: s) = (pieces true s).map (List.cons o) := by
  induction o with
  | nil => rfl
  | cons b o ih =>
    have hs : (39 :: s : Bytes).head? ≠ some 45 := by simp
    rw [List.cons_append, pieces_false_cons ho hs, ih ho.of_cons, Option.map_map]
    rfl

theorem pieces_end (ho : Outside o) : pieces false o = some [o] := by
  induction o with
  | nil => rfl
  | cons b o ih =>
    have hcons := pieces_false_cons (s := []) ho (by simp)
    rw [List.append_nil] at hcons
    rw [hcons, ih ho.of_cons]
    rfl

end Pieces

section Verbatim

variable {s t r z : Bytes} {c : UInt8}

/-- A literal that goes on after a part of its value. -/
theorem literal_rest {o : Option (Bytes × Bytes)} {g : Bytes → Bytes}
    (h : (o.map fun r ↦ (g r.1, r.2)) = some (t, r)) : ∃ v, o = some (v, r) ∧ g v = t := by
  obtain ⟨v, hv, heq⟩ := Option.map_eq_some_iff.mp h
  obtain ⟨hvalue, rfl⟩ := Prod.mk.inj heq
  exact ⟨v.1, hv, hvalue⟩

theorem ne_backslash {b : UInt8} (hlast : b = 92 → t = [] → False)
    (hnext : ∀ c s, b = 92 → t = c :: s → False) : b ≠ 92 := by
  rintro rfl
  cases t with
  | nil => exact hlast rfl rfl
  | cons c s => exact hnext c s rfl rfl

theorem head_ne_quote {b : UInt8} (h : b ≠ 39) : ∀ b' ∈ (b :: s).head?, b' ≠ 39 := by
  rintro b' hb rfl
  exact h (Option.some.inj hb)

theorem verbatim_cons {b : UInt8} (hquote : b ≠ 39) (hbackslash : b ≠ 92) : Verbatim (b :: t) ↔ Verbatim t := by
  rw [Verbatim]
  · exact fun h ↦ absurd h hbackslash
  · exact fun _ _ h ↦ absurd h hbackslash
  · exact hquote

theorem literal_of_verbatim (h : Verbatim t) (hs : ∀ b ∈ s.head?, b ≠ 39) :
    literal (t ++ 39 :: s) = some (t, s) := by
  fun_induction Verbatim t with
  | case1 => exact literal_quote hs
  | case2 => exact absurd h id
  | case3 b t ih =>
    obtain ⟨hb, ht⟩ := h
    have hunescape : unescape b = [92, b] := by rcases hb with rfl | rfl <;> rfl
    rw [List.cons_append, List.cons_append, literal, ih ht, hunescape]
    rfl
  | case4 => exact absurd h id
  | case5 b t hlast hbackslash hquote ih =>
    rw [List.cons_append, literal_cons hquote (ne_backslash hlast hbackslash), ih h]
    rfl

theorem strings_of_verbatim (h : Verbatim t) : strings (.inside 39) (t ++ [39]) = some (t, []) := by
  fun_induction Verbatim t with
  | case1 => rfl
  | case2 => exact absurd h id
  | case3 b t ih =>
    obtain ⟨hb, ht⟩ := h
    have hunescape : unescape b = [92, b] := by rcases hb with rfl | rfl <;> rfl
    rw [List.cons_append, List.cons_append, strings, if_pos rfl, ih ht, hunescape]
    rfl
  | case4 => exact absurd h id
  | case5 b t hlast hbackslash hquote ih =>
    have hb := ne_backslash hlast hbackslash
    obtain ⟨c, s, hcons⟩ := List.exists_cons_of_ne_nil (List.append_ne_nil_of_right_ne_nil t (List.cons_ne_nil 39 []))
    have hrest := ih h
    rw [hcons] at hrest
    rw [List.cons_append, hcons, strings, if_neg hb, if_neg fun hboth ↦ hquote hboth.1, if_neg hquote, hrest]
    rfl

theorem read_of_verbatim (h : Verbatim t) : read (t ++ [39]) = .exactly t := by
  rw [SqlLiteral.read, strings_of_verbatim h]

theorem unescape_cases (b : UInt8) :
    (b = 37 ∨ b = 95) ∧ unescape b = [92, b] ∨
      ∃ c, unescape b = [c] ∧ (c = b ∨ c ≠ 39 ∧ c ≠ 92) := by
  unfold unescape
  split_ifs with h0 h98 h110 h114 h116 h90 hwild
  · exact .inr ⟨0, rfl, .inr (by decide)⟩
  · exact .inr ⟨8, rfl, .inr (by decide)⟩
  · exact .inr ⟨10, rfl, .inr (by decide)⟩
  · exact .inr ⟨13, rfl, .inr (by decide)⟩
  · exact .inr ⟨9, rfl, .inr (by decide)⟩
  · exact .inr ⟨26, rfl, .inr (by decide)⟩
  · exact .inl ⟨hwild, rfl⟩
  · exact .inr ⟨b, rfl, .inl rfl⟩

def Quoting (b : UInt8) : Prop := b = 39 ∨ b = 92

theorem literal_late {b : UInt8} (hb : Quoting b) {z₀ : UInt8} (hz : ∀ b ∈ z, Quoting b) (hc : ¬ Quoting c) :
    ((literal (c :: s)).map fun r ↦ (39 :: r.1, r.2)) ≠ some (z₀ :: z ++ [b], r) := by
  rw [Quoting, not_or] at hc
  rw [literal_cons hc.1 hc.2]
  intro h
  obtain ⟨v, hv, heq⟩ := literal_rest h
  obtain ⟨v, -, rfl⟩ := literal_rest hv
  have hvalue : c :: v = z ++ [b] := (List.cons.inj heq).2
  have hmem : c ∈ z ++ [b] := hvalue ▸ List.mem_cons_self
  rcases List.mem_append.mp hmem with hmem | hmem
  · exact (hz c hmem).elim hc.1 hc.2
  · exact (List.mem_singleton.mp hmem ▸ hb).elim hc.1 hc.2

theorem quoting_append (hz : ∀ b ∈ z, Quoting b) {x y : UInt8} (hx : Quoting x) (hy : Quoting y) :
    ∀ b ∈ z ++ [x, y], Quoting b :=
  List.forall_mem_append.mpr ⟨hz, List.forall_mem_cons.mpr ⟨hx, List.forall_mem_singleton.mpr hy⟩⟩

theorem quoting_head {b : UInt8} {v : Bytes} (hz : ∀ b ∈ z, Quoting b) (h : b :: v = z ++ 92 :: t) :
    Quoting b := by
  cases z with
  | nil => exact .inr (List.cons.inj h).1
  | cons z₁ z => exact (List.cons.inj h).1 ▸ hz z₁ List.mem_cons_self

/-- A literal that has lost a byte never catches up: its value is not the text
behind some quotes and backslashes. -/
theorem literal_ne_shifted (hne : z ≠ []) (hz : ∀ b ∈ z, Quoting b) (hc : ¬ Quoting c) :
    literal (t ++ 39 :: c :: s) ≠ some (z ++ t, r) := by
  induction t using literal.induct generalizing z with
  | case1 =>
    rw [List.nil_append, literal_quote (head_ne_quote (not_or.mp hc).1), List.append_nil]
    intro h
    exact hne (Prod.mk.inj (Option.some.inj h)).1.symm
  | case2 =>
    obtain ⟨z₀, z, rfl⟩ := List.exists_cons_of_ne_nil hne
    exact literal_late (.inr rfl) (List.forall_mem_cons.mp hz).2 hc
  | case3 b t ih =>
    obtain ⟨z₀, z, rfl⟩ := List.exists_cons_of_ne_nil hne
    obtain ⟨hz₀, hrest⟩ := List.forall_mem_cons.mp hz
    rw [List.cons_append, List.cons_append, literal]
    intro h
    obtain ⟨v, hv, hvalue⟩ := literal_rest h
    obtain ⟨hwild, hunescape⟩ | ⟨b', hunescape, hb⟩ := unescape_cases b
    · -- the value goes on with the wildcard, and the text with a quote or a backslash
      rw [hunescape] at hvalue
      have hquoting : Quoting b := quoting_head (v := v) hrest (List.cons.inj hvalue).2
      rcases hwild with rfl | rfl <;> exact absurd hquoting (by unfold Quoting; decide)
    · rw [hunescape] at hvalue
      obtain ⟨rfl, hlater⟩ := List.cons.inj hvalue
      rcases hb with rfl | hb
      · obtain rfl : v = z ++ 92 :: b' :: t := hlater
        refine ih (by simp) (quoting_append hrest (.inr rfl) hz₀) ?_
        rw [hv, List.append_assoc]
        rfl
      · exact absurd hz₀ (not_or.mpr hb)
  | case4 t ih =>
    obtain ⟨z₀, z, rfl⟩ := List.exists_cons_of_ne_nil hne
    obtain ⟨hz₀, hz⟩ := List.forall_mem_cons.mp hz
    rw [List.cons_append, List.cons_append, literal]
    intro h
    obtain ⟨v, hv, hvalue⟩ := literal_rest h
    refine ih (by simp) (quoting_append hz (.inl rfl) (.inl rfl)) ?_
    rw [hv, List.append_assoc, (List.cons.inj hvalue).2]
    rfl
  | case5 t hdoubled =>
    cases t with
    | nil =>
      obtain ⟨z₀, z, rfl⟩ := List.exists_cons_of_ne_nil hne
      exact literal_late (.inl rfl) (List.forall_mem_cons.mp hz).2 hc
    | cons b t =>
      have hb : b ≠ 39 := fun hb ↦ hdoubled t (congrArg (· :: t) hb)
      rw [List.cons_append, List.cons_append, literal_quote (head_ne_quote hb)]
      intro h
      have hnil := (Prod.mk.inj (Option.some.inj h)).1
      exact hne (List.append_eq_nil_iff.mp hnil.symm).1
  | case6 b t hlast hbackslash hdoubled hquote ih =>
    obtain ⟨z₀, z, rfl⟩ := List.exists_cons_of_ne_nil hne
    have hplain := ne_backslash hlast hbackslash
    rw [List.cons_append, literal_cons hquote hplain]
    intro h
    obtain ⟨v, -, hvalue⟩ := literal_rest h
    have hb : b = z₀ := (List.cons.inj hvalue).1
    exact (hz z₀ List.mem_cons_self).elim (fun h ↦ hquote (hb.trans h)) fun h ↦ hplain (hb.trans h)

/-- Where a literal has the text as its value, it ends behind the text. -/
theorem verbatim_of_literal (hc : ¬ Quoting c) (h : literal (t ++ 39 :: c :: s) = some (t, r)) :
    Verbatim t ∧ r = c :: s := by
  have hshifted : ∀ {b t r}, Quoting b → literal (t ++ 39 :: c :: s) ≠ some (b :: t, r) :=
    fun hb ↦ literal_ne_shifted (z := [_]) (List.cons_ne_nil _ _) (List.forall_mem_singleton.mpr hb) hc
  obtain ⟨hquote, hbackslash⟩ := not_or.mp hc
  induction t using literal.induct generalizing r with
  | case1 =>
    rw [List.nil_append, literal_quote (head_ne_quote hquote)] at h
    exact ⟨trivial, (Prod.mk.inj (Option.some.inj h)).2.symm⟩
  | case2 =>
    obtain ⟨v, -, hvalue⟩ := literal_rest h
    exact absurd (List.cons.inj hvalue).1 (by decide)
  | case3 b t ih =>
    obtain ⟨v, hv, hvalue⟩ := literal_rest h
    obtain ⟨hwild, hunescape⟩ | ⟨b', hunescape, hb⟩ := unescape_cases b
    · rw [hunescape] at hvalue
      obtain rfl : v = t := (List.cons.inj (List.cons.inj hvalue).2).2
      obtain ⟨ht, hr⟩ := ih hv
      exact ⟨⟨hwild, ht⟩, hr⟩
    · rw [hunescape] at hvalue
      obtain ⟨rfl, hlater⟩ := List.cons.inj hvalue
      obtain rfl := hb.resolve_right fun h ↦ h.2 rfl
      obtain rfl : v = 92 :: t := hlater
      exact absurd hv (hshifted (.inr rfl))
  | case4 t ih =>
    obtain ⟨v, hv, hvalue⟩ := literal_rest h
    obtain rfl : v = 39 :: t := (List.cons.inj hvalue).2
    exact absurd hv (hshifted (.inl rfl))
  | case5 t hdoubled =>
    cases t with
    | nil =>
      obtain ⟨v, hv, hvalue⟩ := literal_rest h
      rw [literal_cons hquote hbackslash] at hv
      obtain ⟨_, -, rfl⟩ := literal_rest hv
      cases (List.cons.inj hvalue).2
    | cons b t =>
      have hb : b ≠ 39 := fun hb ↦ hdoubled t (congrArg (· :: t) hb)
      rw [List.cons_append, List.cons_append, literal_quote (head_ne_quote hb)] at h
      cases (Prod.mk.inj (Option.some.inj h)).1
  | case6 b t hlast hnext hdoubled hplain ih =>
    have hne := ne_backslash hlast hnext
    rw [List.cons_append, literal_cons hplain hne] at h
    obtain ⟨v, hv, hvalue⟩ := literal_rest h
    obtain rfl : v = t := (List.cons.inj hvalue).2
    obtain ⟨ht, hr⟩ := ih hv
    exact ⟨(verbatim_cons hplain hne).mpr ht, hr⟩

end Verbatim

section Statements

theorem text_cons (b : UInt8) (o : Bytes) (fields : List (Bytes × Bytes)) :
    text (b :: o) fields = b :: text o fields := by
  cases fields <;> rfl

theorem not_mem_text {b : UInt8} {o : Bytes} {fields : List (Bytes × Bytes)} (hb : b ≠ 39) (ho : b ∉ o)
    (hfields : ∀ f ∈ fields, b ∉ f.1 ∧ b ∉ f.2) : b ∉ text o fields := by
  induction fields generalizing o with
  | nil => exact ho
  | cons f fields ih =>
    obtain ⟨⟨hvalue, hbehind⟩, hfields⟩ := List.forall_mem_cons.mp hfields
    simp only [text, List.mem_append, List.mem_cons, not_or]
    exact ⟨ho, hb, hvalue, hb, ih hbehind hfields⟩

/-- A statement is read as it was meant exactly if all its values are verbatim. -/
theorem pieces_text_iff {o : Bytes} {fields : List (Bytes × Bytes)} (ho : Outside o)
    (hfields : ∀ f ∈ fields, Outside f.2 ∧ ∃ b ∈ f.2.head?, b ≠ 92) :
    pieces false (text o fields) = some (meant o fields) ↔ ∀ f ∈ fields, Verbatim f.1 := by
  induction fields generalizing o with
  | nil => exact iff_of_true (pieces_end ho) fun _ hf ↦ absurd hf List.not_mem_nil
  | cons f fields ih =>
    obtain ⟨⟨hbehind, b, hb, hbackslash⟩, hfields⟩ := List.forall_mem_cons.mp hfields
    have ih := ih hbehind hfields
    obtain ⟨o', ho'⟩ : ∃ o', f.2 = b :: o' := ⟨_, List.eq_cons_of_mem_head? hb⟩
    have hquote : b ≠ 39 := (hbehind.bytes b (ho' ▸ List.mem_cons_self)).2.2.1
    have htext : text f.2 fields = b :: text o' fields := by rw [ho', text_cons]
    rw [text, pieces_outside ho, pieces_true, List.forall_mem_cons, ← ih]
    constructor
    · intro h
      obtain ⟨_, hread, heq⟩ := Option.map_eq_some_iff.mp h
      obtain ⟨r, hliteral, hrest⟩ := Option.bind_eq_some_iff.mp hread
      obtain ⟨_, hpieces, rfl⟩ := Option.map_eq_some_iff.mp hrest
      obtain ⟨hvalue, hmeant⟩ := List.cons.inj (List.cons.inj heq).2
      have hliteral : literal (f.1 ++ 39 :: b :: text o' fields) = some (f.1, r.2) := by
        rw [← htext, hliteral, ← hvalue]
      obtain ⟨hverbatim, hr⟩ := verbatim_of_literal (not_or.mpr ⟨hquote, hbackslash⟩) hliteral
      refine ⟨hverbatim, ?_⟩
      rw [htext, ← hr, hpieces, hmeant]
      rfl
    · rintro ⟨hverbatim, hpieces⟩
      have hhead : ∀ c ∈ (text f.2 fields).head?, c ≠ 39 := by
        rw [htext]
        rintro c hc rfl
        exact hquote (Option.some.inj hc)
      rw [literal_of_verbatim hverbatim hhead, Option.bind_some, hpieces]
      rfl

end Statements

end TinyIM.Library.SqlStatement

import TinyIM.Library.ByteOrder

namespace TinyIM.Library.SqlLiteral

open ByteOrder

/-- What a backslash and the byte behind it stand for in a quoted literal. The
wildcards keep the backslash. -/
def unescape (b : UInt8) : Bytes :=
  if b = 48 then [0]
  else if b = 98 then [8]
  else if b = 110 then [10]
  else if b = 114 then [13]
  else if b = 116 then [9]
  else if b = 90 then [26]
  else if b = 37 ∨ b = 95 then [92, b]
  else [b]

/-- Reads a literal from behind its opening quote: its value, and the text
behind the closing quote. A doubled quote is a quote. -/
def literal : Bytes → Option (Bytes × Bytes)
  | [] => none
  | [92] => none
  | 92 :: b :: s => (literal s).map fun r ↦ (unescape b ++ r.1, r.2)
  | 39 :: 39 :: s => (literal s).map fun r ↦ (39 :: r.1, r.2)
  | 39 :: s => some ([], s)
  | b :: s => (literal s).map fun r ↦ (b :: r.1, r.2)

/-- Where the lexer stands in a statement: in a quoted text, behind it, or in a
comment that ends with its line. -/
inductive Place
  | inside (quote : UInt8)
  | between
  | comment

def isBlank (b : UInt8) : Bool := b = 32 || (9 ≤ b && b ≤ 13)

/-- A comment to the end of the line begins here. Two hyphens need a blank or a
control character behind them. -/
def beginsComment : Bytes → Bool
  | 35 :: _ => true
  | 45 :: 45 :: b :: _ => b ≤ 32 || b = 127
  | _ => false

/-- The value of the literals from here on that nothing but blanks and comments
separates, and the text behind them. -/
def strings : Place → Bytes → Option (Bytes × Bytes)
  | .inside _, [] => none
  | .inside q, [b] => if b = q then some ([], []) else none
  | .inside q, b :: c :: s =>
    if b = 92 then (strings (.inside q) s).map fun r ↦ (unescape c ++ r.1, r.2)
    else if b = q ∧ c = q then (strings (.inside q) s).map fun r ↦ (q :: r.1, r.2)
    else if b = q then strings .between (c :: s)
    else (strings (.inside q) (c :: s)).map fun r ↦ (b :: r.1, r.2)
  | .between, [] => some ([], [])
  | .between, b :: s =>
    if isBlank b then strings .between s
    else if beginsComment (b :: s) then strings .comment s
    else if b = 34 ∨ b = 39 then strings (.inside b) s
    else some ([], b :: s)
  | .comment, [] => some ([], [])
  | .comment, b :: s => if b = 10 then strings .between s else strings .comment s

/-- The text ends inside quotes, of literals or of a name. Comments between `/*`
and `*/` are not followed. -/
def endsOpen : Place → Bytes → Bool
  | .inside _, [] => true
  | .inside q, [b] => b ≠ q
  | .inside q, b :: c :: s =>
    if b = 92 ∧ q ≠ 96 ∨ b = q ∧ c = q then endsOpen (.inside q) s
    else if b = q then endsOpen .between (c :: s)
    else endsOpen (.inside q) (c :: s)
  | .between, [] => false
  | .between, b :: s =>
    if beginsComment (b :: s) then endsOpen .comment s
    else if b = 47 ∧ s.head? = some 42 then false
    else if b = 34 ∨ b = 39 ∨ b = 96 then endsOpen (.inside b) s
    else endsOpen .between s
  | .comment, [] => false
  | .comment, b :: s => if b = 10 then endsOpen .between s else endsOpen .comment s

/-- How a text is read behind the opening quote of a literal. -/
inductive Reading
  | unterminated
  | exactly (value : Bytes)
  | followed (rest : Bytes)
  deriving DecidableEq, Repr

def read (s : Bytes) : Reading :=
  match strings (.inside 39) s with
  | none => .unterminated
  | some (value, []) => .exactly value
  | some (_, rest) => if endsOpen .between rest then .unterminated else .followed rest

def isWordByte (b : UInt8) : Bool :=
  (48 ≤ b && b ≤ 57) || (65 ≤ b && b ≤ 90) || (97 ≤ b && b ≤ 122) || b = 95 || b = 36 || 128 ≤ b

/-- The word at the start of a text. -/
def word (s : Bytes) : Bytes := s.takeWhile isWordByte

/-- The lexer where the bytes of multi-byte characters are not looked at. `mb`
gives the length of such a character at the start of a text, and the number is
that of its bytes still to come. -/
def literalIn (mb : Bytes → ℕ) : ℕ → Bytes → Option (Bytes × Bytes)
  | _, [] => none
  | n + 1, b :: s => (literalIn mb n s).map fun r ↦ (b :: r.1, r.2)
  | 0, b :: s =>
    if 1 < mb (b :: s) then (literalIn mb (mb (b :: s) - 1) s).map fun r ↦ (b :: r.1, r.2)
    else if b = 92 then
      match s with
      | [] => none
      | c :: s => (literalIn mb 0 s).map fun r ↦ (unescape c ++ r.1, r.2)
    else if b = 39 then
      match s with
      | 39 :: s => (literalIn mb 0 s).map fun r ↦ (39 :: r.1, r.2)
      | s => some ([], s)
    else (literalIn mb 0 s).map fun r ↦ (b :: r.1, r.2)

/-- The letter that stands behind a backslash for a byte that is escaped. -/
def escapeLetter (b : UInt8) : Option UInt8 :=
  if b = 0 then some 48
  else if b = 10 then some 110
  else if b = 13 then some 114
  else if b = 26 then some 90
  else if b = 34 ∨ b = 39 ∨ b = 92 then some b
  else none

/-- `t` is `s` escaped as documented for `mysql_real_escape_string`. A byte from
128 on may get a backslash too, where it only looks like the first of a
multi-byte character. -/
inductive Escaped : Bytes → Bytes → Prop
  | nil : Escaped [] []
  | letter {b c : UInt8} {s t : Bytes} : escapeLetter b = some c → Escaped s t →
      Escaped (b :: s) (92 :: c :: t)
  | plain {b : UInt8} {s t : Bytes} : escapeLetter b = none → Escaped s t → Escaped (b :: s) (b :: t)
  | head {b : UInt8} {s t : Bytes} : 128 ≤ b.toNat → Escaped s t → Escaped (b :: s) (92 :: b :: t)

theorem literal_cons {b : UInt8} (hquote : b ≠ 39) (hbackslash : b ≠ 92) (s : Bytes) :
    literal (b :: s) = (literal s).map fun r ↦ (b :: r.1, r.2) := by
  rw [literal]
  · exact fun h ↦ absurd h hbackslash
  · exact fun _ _ h ↦ absurd h hbackslash
  · exact fun _ h ↦ absurd h hquote
  · exact hquote

section MultiByte

variable {mb : Bytes → ℕ}

theorem ne_of_high {b c : UInt8} (hb : 128 ≤ b.toNat) (hc : c.toNat < 128) : b ≠ c := by
  intro h
  subst h
  omega

theorem literal_quote {s : Bytes} (h : ∀ b ∈ s.head?, b ≠ 39) : literal (39 :: s) = some ([], s) := by
  cases s with
  | nil => rfl
  | cons b s =>
    rw [literal]
    intro s' heq
    exact h b rfl (List.cons.inj heq).1

/-- Where multi-byte characters have no byte below 128, as in UTF-8, the lexer
need not know them. -/
theorem literalIn_eq (hmb : ∀ s : Bytes, ∀ b ∈ s.take (mb s), 128 ≤ b.toNat) {n : ℕ} {s : Bytes}
    (hs : ∀ b ∈ s.take n, 128 ≤ b.toNat) : literalIn mb n s = literal s := by
  induction hlength : s.length using Nat.strong_induction_on generalizing n s with
  | _ k ih =>
    subst hlength
    have hend : ∀ s' : Bytes, ∀ b ∈ s'.take 0, 128 ≤ b.toNat := fun _ b hb ↦ absurd hb List.not_mem_nil
    cases s with
    | nil => cases n <;> rfl
    | cons b s =>
      have hshort : s.length < (b :: s).length := Nat.lt_succ_self _
      cases n with
      | succ n =>
        obtain ⟨hb, hs⟩ := List.forall_mem_cons.mp hs
        rw [literalIn, ih _ hshort hs rfl,
          literal_cons (ne_of_high hb (by decide)) (ne_of_high hb (by decide))]
      | zero =>
        rw [literalIn.eq_def]
        dsimp only
        split_ifs with hmulti hbackslash hquote
        · have htake := hmb (b :: s)
          rw [show mb (b :: s) = mb (b :: s) - 1 + 1 by omega, List.take_succ_cons] at htake
          obtain ⟨hb, htail⟩ := List.forall_mem_cons.mp htake
          rw [ih _ hshort htail rfl,
            literal_cons (ne_of_high hb (by decide)) (ne_of_high hb (by decide))]
        · subst hbackslash
          cases s with
          | nil => rfl
          | cons c s => simp only [ih s.length (Nat.lt_succ_of_lt (Nat.lt_succ_self _)) (hend s) rfl, literal]
        · subst hquote
          cases s with
          | nil => rfl
          | cons c s =>
            by_cases hc : c = 39
            · subst hc
              simp only [ih s.length (Nat.lt_succ_of_lt (Nat.lt_succ_self _)) (hend s) rfl, literal]
            · rw [literal_quote (by simpa using hc)]
              split
              · next heq => exact absurd (List.cons.inj heq).1 hc
              · rfl
        · rw [ih _ hshort (hend s) rfl, literal_cons hquote hbackslash]

end MultiByte

section Escape

variable {s t : Bytes}

theorem Escaped.length_le (h : Escaped s t) : t.length ≤ 2 * s.length := by
  induction h with
  | nil => exact Nat.le_refl 0
  | letter _ _ ih => simp only [List.length_cons]; omega
  | plain _ _ ih => simp only [List.length_cons]; omega
  | head _ _ ih => simp only [List.length_cons]; omega

theorem escapeLetter_cases {b c : UInt8} (h : escapeLetter b = some c) : unescape c = [b] ∧ c ≠ 0 := by
  unfold escapeLetter at h
  split_ifs at h with h0 h10 h13 h26 hself
  · obtain rfl := Option.some.inj h
    exact ⟨by rw [h0]; rfl, by decide⟩
  · obtain rfl := Option.some.inj h
    exact ⟨by rw [h10]; rfl, by decide⟩
  · obtain rfl := Option.some.inj h
    exact ⟨by rw [h13]; rfl, by decide⟩
  · obtain rfl := Option.some.inj h
    exact ⟨by rw [h26]; rfl, by decide⟩
  · obtain rfl := Option.some.inj h
    refine ⟨?_, h0⟩
    rcases hself with rfl | rfl | rfl <;> rfl

theorem unescape_high {b : UInt8} (h : 128 ≤ b.toNat) : unescape b = [b] := by
  have hne : ∀ c : UInt8, c.toNat < 128 → b ≠ c := fun _ ↦ ne_of_high h
  simp only [unescape, hne 48 (by decide), hne 98 (by decide), hne 110 (by decide), hne 114 (by decide),
    hne 116 (by decide), hne 90 (by decide), hne 37 (by decide), hne 95 (by decide), if_false, or_self]

theorem Escaped.zero_not_mem (h : Escaped s t) : 0 ∉ t := by
  induction h with
  | nil => exact List.not_mem_nil
  | letter hb _ ih => simp [ih, (escapeLetter_cases hb).2.symm]
  | plain hb _ ih =>
    rw [List.mem_cons, not_or]
    refine ⟨?_, ih⟩
    intro h
    subst h
    exact absurd hb (by decide)
  | head hb _ ih => simp [ih, (ne_of_high hb (show (0 : UInt8).toNat < 128 by decide)).symm]

/-- The lexer reads back what was escaped, up to the quote behind it. -/
theorem literal_escaped (h : Escaped s t) {rest : Bytes} (hrest : ∀ b ∈ rest.head?, b ≠ 39) :
    literal (t ++ 39 :: rest) = some (s, rest) := by
  induction h with
  | nil => exact literal_quote hrest
  | letter hb _ ih =>
    rw [List.cons_append, List.cons_append, literal, ih, Option.map_some, (escapeLetter_cases hb).1]
    rfl
  | @plain b _ _ hb _ ih =>
    have hquote : b ≠ 39 := by
      intro h
      subst h
      exact absurd hb (by decide)
    have hbackslash : b ≠ 92 := by
      intro h
      subst h
      exact absurd hb (by decide)
    rw [List.cons_append, literal_cons hquote hbackslash, ih]
    rfl
  | head hb _ ih =>
    rw [List.cons_append, List.cons_append, literal, ih, Option.map_some, unescape_high hb]
    rfl

end Escape

end TinyIM.Library.SqlLiteral

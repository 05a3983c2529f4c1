import TinyIM.Chat.ChatService
import TinyIM.Library.Delimited
import TinyIM.Library.SqlLiteral

namespace TinyIM.Chat.MessageSql

open Library.ByteOrder Library.Decimal Library.Delimited Library.SqlLiteral Protocol

section

-- what `mysql_real_escape_string` writes before its terminating NUL
variable (escape : Bytes → Bytes)

/-- `escaped_buffer` behind the call. `none` is a write beyond its end. -/
def escapedBuffer (content : Bytes) : Option Bytes :=
  let written := escape content ++ [0]
  if written.length ≤ content.length * 2 + 1 then
    some (written ++ List.replicate (content.length * 2 + 1 - written.length) 0)
  else none

def safeContent (content : Bytes) : Option Bytes := (escapedBuffer escape content).map cString

end

/-- The text of `sql_body` before the content. -/
def sqlHead (senderId groupId type : ℤ) : Bytes :=
  ascii "INSERT INTO im_message_body (sender_id, group_id, msg_type, msg_content) VALUES (" ++
    stdToString senderId ++ ascii ", " ++ stdToString groupId ++ ascii ", " ++ stdToString type ++ ascii ", "

def sqlBody (senderId groupId type : ℤ) (safe : Bytes) : Bytes :=
  sqlHead senderId groupId type ++ ascii "'" ++ safe ++ ascii "')"

theorem not_mem_sqlHead {b : UInt8} (htext : b ∉ sqlHead 0 0 0) (hminus : b ≠ 45) (hdigit : isDigit b = false)
    (senderId groupId type : ℤ) : b ∉ sqlHead senderId groupId type := by
  simp only [sqlHead, List.mem_append, not_or] at htext ⊢
  have hnumber := not_mem_stdToString hminus hdigit
  exact ⟨⟨⟨⟨⟨⟨htext.1.1.1.1.1.1, hnumber senderId⟩, htext.1.1.1.1.2⟩, hnumber groupId⟩, htext.1.1.2⟩,
    hnumber type⟩, htext.2⟩

theorem safeContent_eq {escape : Bytes → Bytes} (hescape : ∀ s, Escaped s (escape s)) (content : Bytes) :
    safeContent escape content = some (escape content) := by
  have hlength := (hescape content).length_le
  have hfits : (escape content ++ [0]).length ≤ content.length * 2 + 1 := by
    rw [List.length_append, List.length_singleton]
    omega
  rw [safeContent, escapedBuffer]
  simp only [if_pos hfits, Option.map_some, List.append_assoc, List.singleton_append,
    cString_terminated (hescape content).zero_not_mem]

/-- The content reaches the table as it is: nothing of the escaped text is lost,
and the lexer reads it back in one literal, with only the closing parenthesis
behind it. -/
theorem content_survives (escape : Bytes → Bytes) (hescape : ∀ s, Escaped s (escape s))
    (mb : Bytes → ℕ) (hmb : ∀ s : Bytes, ∀ b ∈ s.take (mb s), 128 ≤ b.toNat)
    (senderId groupId type : ℤ) (content : Bytes) :
    (escape content).length + 1 ≤ 2 * content.length + 1 ∧ 0 ∉ escape content ∧
      ∃ safe, safeContent escape content = some safe ∧ safe = escape content ∧
        cString (sqlBody senderId groupId type safe) = sqlBody senderId groupId type safe ∧
        ∃ behind, cut 39 (sqlBody senderId groupId type safe) = some (sqlHead senderId groupId type, behind) ∧
          literalIn mb 0 behind = some (content, ascii ")") := by
  have hescaped := hescape content
  refine ⟨Nat.succ_le_succ hescaped.length_le, hescaped.zero_not_mem, escape content,
    safeContent_eq hescape content, rfl, ?_, escape content ++ ascii "')", ?_, ?_⟩
  · refine cString_eq_self ?_
    simp only [sqlBody, List.mem_append, not_or]
    exact ⟨⟨⟨not_mem_sqlHead (by decide) (by decide) (by decide) _ _ _, by decide⟩, hescaped.zero_not_mem⟩,
      by decide⟩
  · have hquote : 39 ∉ sqlHead senderId groupId type :=
      not_mem_sqlHead (by decide) (by decide) (by decide) _ _ _
    rw [sqlBody, List.append_assoc, List.append_assoc]
    exact cut_append hquote
  · rw [literalIn_eq hmb fun b hb ↦ absurd hb List.not_mem_nil]
    have hquoted : ascii "')" = 39 :: ascii ")" := rfl
    have hclosed : ∀ b ∈ (ascii ")").head?, b ≠ 39 := by
      have hhead : (ascii ")").head? = some 41 := rfl
      rw [hhead]
      rintro b hb
      rw [← Option.mem_some_iff.mp hb]
      decide
    rw [hquoted]
    exact literal_escaped hescaped hclosed

/-- The escaping of a single-byte character set. -/
def escapeBytes : Bytes → Bytes
  | [] => []
  | b :: s =>
    match escapeLetter b with
    | some c => 92 :: c :: escapeBytes s
    | none => b :: escapeBytes s

theorem escaped_escapeBytes (s : Bytes) : Escaped s (escapeBytes s) := by
  induction s with
  | nil => exact .nil
  | cons b s ih =>
    rw [escapeBytes]
    split
    · exact .letter ‹_› ih
    · exact .plain ‹_› ih

theorem content_survives_quote :
    ∃ safe, safeContent escapeBytes [39, 92, 0] = some safe ∧ safe = [92, 39, 92, 92, 92, 48] ∧
      literalIn (fun _ ↦ 0) 0 (safe ++ ascii "')") = some ([39, 92, 0], ascii ")") := by
  obtain ⟨-, -, safe, hsafe, rfl, -, behind, hcut, hread⟩ := content_survives escapeBytes escaped_escapeBytes
    (fun _ ↦ 0) (fun _ _ hb ↦ absurd hb List.not_mem_nil) 1 0 1 [39, 92, 0]
  have hbehind : behind = escapeBytes [39, 92, 0] ++ ascii "')" := by
    rw [sqlBody, List.append_assoc, List.append_assoc] at hcut
    have hquote : 39 ∉ sqlHead 1 0 1 := not_mem_sqlHead (by decide) (by decide) (by decide) _ _ _
    exact (Prod.mk.inj (Option.some.inj (hcut.symm.trans (cut_append hquote)))).2
  exact ⟨_, hsafe, rfl, hbehind ▸ hread⟩

end TinyIM.Chat.MessageSql

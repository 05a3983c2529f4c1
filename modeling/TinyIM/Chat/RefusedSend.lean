import TinyIM.Chat.Acknowledgement
import TinyIM.Chat.SendStages

namespace TinyIM.Chat.RefusedSend

open Library.Program Library.Table Protocol Acknowledgement
open SendStages (Stage stages sendSingle_stages)

def Refused (reply : Reply) : Prop := reply.1 ≠ none ∨ reply.2.success = false

/-- A message that was refused is in neither table. -/
def NoTrace (w : World) (d : Finished World Command Reply) : Prop :=
  Refused d.value → d.state.bodies = w.bodies ∧ d.state.index.rows = w.index.rows

/-- Either no body is stored, or what comes behind it refuses nothing. -/
def RefusedEarly (fails : ℕ → Bool) (w : World) (req : SendMessageReq) : Prop :=
  fails 0 ∨ fails 1 ∨ fails 2 ∨ 0 < req.groupId ∨
    maySend (isFriend (if fails 3 then none else some (w.statusOf req.senderId req.receiverId)))
        req.type ∧
      fails 5 = false ∧
      (req.receiverId, number fails w 4 req.receiverId) ∉ w.index.rows.map IndexRow.key

instance (fails : ℕ → Bool) (w : World) (req : SendMessageReq) : Decidable (RefusedEarly fails w req) :=
  inferInstanceAs (Decidable (_ ∨ _))

section Send

variable {fails : ℕ → Bool} {w : World} {req : SendMessageReq}

/-- The call has stored its body. -/
def Past : Stage → Prop
  | .opening => False
  | .connected => False
  | _ => True

theorem exec_keeps_bodies (fails : ℕ → Bool) (n : ℕ) (s : World) (t : Stage) (c : Command)
    (hmay : (stages req).may t c) (ht : Past t) :
    (exec fails n s c).1.bodies = s.bodies ∧ Past ((stages req).after t c (exec fails n s c).2) := by
  refine ⟨?_, ?_⟩
  · have hinsert : ∀ senderId groupId msgType content, c ≠ .insertBody senderId groupId msgType content := by
      intro senderId groupId msgType content hc
      subst hc
      cases t <;> first | exact ht | exact hmay
    cases hn : fails n with
    | true => rw [exec_of_fails fails s n hn]
    | false =>
      rw [exec_of_not_fails fails s n hn]
      cases c with
      | insertBody => exact absurd rfl (hinsert _ _ _ _)
      | insertIndex rows => rw [World.succeed]; split <;> rfl
      | _ => rfl
  · cases t <;> first | exact ht.elim | (cases c <;> trivial)

/-- Nothing behind the body's insert takes it back. -/
theorem send_single_bodies (hsingle : ¬ 0 < req.groupId) (h0 : fails 0 = false) (h1 : fails 1 = false)
    (h2 : fails 2 = false) : (send fails w req).state.bodies = (bodyStored w req).bodies := by
  have hmeets : Meets (stages req) (SendStages.Ended req) (.stored w.nextMsgId)
      (sendSingle req w.nextMsgId) :=
    sendSingle_stages hsingle
  obtain ⟨⟨-, ⟨-, hbodies⟩, -⟩, -⟩ := hmeets.run (n := 3)
    (I := fun (s : World) (t : Stage) ↦ Past t ∧ s.bodies = (bodyStored w req).bodies) (by
      intro n s t c hmay hI
      obtain ⟨hbodies, hpast⟩ := exec_keeps_bodies fails n s t c hmay hI.1
      exact ⟨trivial, hpast, hbodies.trans hI.2⟩) ⟨trivial, rfl⟩
  rw [send_of_stored h0 h1 h2, if_neg hsingle]
  exact hbodies

theorem not_refused_group (hgroup : 0 < req.groupId) (h0 : fails 0 = false) (h1 : fails 1 = false)
    (h2 : fails 2 = false) : ¬ Refused (send fails w req).value := by
  have hvalue : (send fails w req).value = (none, { msgId := w.nextMsgId, success := true }) := by
    by_cases hread : fails 3 = true ∨ w.membersOf req.groupId = []
    · exact (send_group_unread hgroup h0 h1 h2 hread).1
    · obtain ⟨h3, hsome⟩ := not_or.mp hread
      exact (send_group hgroup h0 h1 h2 (Bool.eq_false_of_not_eq_true h3) hsome (membersOf_nodup _ _)).1
  rw [hvalue, Refused]
  simp

theorem insertedOk_iff {n : ℕ} {row : IndexRow} :
    insertedOk fails w n [row] = true ↔ fails n = false ∧ row.key ∉ w.index.rows.map IndexRow.key := by
  rw [insertedOk, Bool.and_eq_true, Bool.not_eq_true']
  refine and_congr_right fun _ ↦ ?_
  obtain ⟨htaken, hnone⟩ | ⟨hfree, _, hsome, -⟩ := Keyed.insert_singleton_cases (t := w.index) row
  · rw [hnone]
    exact iff_of_false Bool.false_ne_true fun hfree ↦ hfree htaken
  · rw [hsome]
    exact iff_of_true rfl hfree

end Send

/-- A refused message leaves no trace exactly if it is refused before its body
is stored. -/
theorem noTrace_iff (fails : ℕ → Bool) (w : World) (req : SendMessageReq) :
    NoTrace w (send fails w req) ↔ RefusedEarly fails w req := by
  by_cases hfails : fails 0 = true ∨ fails 1 = true ∨ fails 2 = true
  · have hstate : (send fails w req).state = w := (send_of_fails hfails).1
    refine iff_of_true ?_ (hfails.imp id fun h ↦ h.imp id .inl)
    intro _
    rw [hstate]
    exact ⟨rfl, rfl⟩
  obtain ⟨h0, h1, h2⟩ : fails 0 = false ∧ fails 1 = false ∧ fails 2 = false := by
    simpa using hfails
  by_cases hgroup : 0 < req.groupId
  · refine iff_of_true ?_ (.inr (.inr (.inr (.inl hgroup))))
    exact fun h ↦ absurd h (not_refused_group hgroup h0 h1 h2)
  have hbodies : (send fails w req).state.bodies ≠ w.bodies := by
    rw [send_single_bodies hgroup h0 h1 h2]
    simp [bodyStored, World.succeed]
  have htrace : NoTrace w (send fails w req) ↔ ¬ Refused (send fails w req).value :=
    ⟨fun h hrefused ↦ hbodies (h hrefused).1, fun h hrefused ↦ absurd hrefused h⟩
  rw [htrace]
  simp only [RefusedEarly, h0, h1, h2, Bool.false_eq_true, false_or, hgroup]
  cases hmay : maySend (isFriend (if fails 3 then none
      else some (w.statusOf req.senderId req.receiverId))) req.type with
  | false =>
    obtain ⟨hfailed, -⟩ := send_single_refused hgroup h0 h1 h2 hmay
    simp [Refused, hfailed]
  | true =>
    obtain ⟨hvalue, -, -⟩ := send_single hgroup h0 h1 h2 hmay
    have hok : insertedOk fails w 5 [singleRow req w.nextMsgId (number fails w 4 req.receiverId)] = true ↔
        fails 5 = false ∧
          (req.receiverId, number fails w 4 req.receiverId) ∉ w.index.rows.map IndexRow.key :=
      insertedOk_iff
    rw [hvalue, eq_self_iff_true, true_and]
    refine Iff.trans ?_ hok
    cases insertedOk fails w 5 [singleRow req w.nextMsgId (number fails w 4 req.receiverId)] <;>
      simp [Refused]

def strangers : World := ⟨[], 1, .empty, .empty, .empty, .empty, []⟩

/-- A stranger's message is refused and its body stays. -/
theorem trace_of_stranger : ¬ ∀ (fails : ℕ → Bool) (w : World) (req : SendMessageReq),
    NoTrace w (send fails w req) := by
  intro h
  exact absurd (h (fun _ ↦ false) strangers { senderId := 1, receiverId := 2, type := 1 } (.inr rfl)).1
    (by decide)

end TinyIM.Chat.RefusedSend

import TinyIM.Chat.ChatService

namespace TinyIM.Chat.SendStages

open Library.ByteOrder Library.Program Protocol

/-- How far a call of `SendMessage` has come, with what it has been answered. -/
inductive Stage
  | opening
  | connected
  | stored (msgId : ℕ)
  | drawing (msgId : ℕ) (members : List ℤ) (targets : List (ℤ × ℕ))
  | checked (msgId : ℕ) (friend : Bool)
  | numbered (msgId seq : ℕ)
  | inserted (msgId : ℕ) (rows : List IndexRow) (ok : Bool)

def Stage.after : Stage → (c : Command) → Answer c → Stage
  | .opening, .connectWrite, _ => .connected
  | .connected, .insertBody _ _ _ _, some msgId => .stored msgId
  | .stored msgId, .selectMembers _, found => .drawing msgId (found.getD []) []
  | .stored msgId, .selectRelation _ _, status => .checked msgId (isFriend status)
  | .drawing msgId members targets, .incr _, n =>
    .drawing msgId members (targets ++ [(members.getD targets.length 0, n.getD 0)])
  | .checked msgId _, .incr _, n => .numbered msgId (n.getD 0)
  | .drawing msgId _ _, .insertIndex rows, ok => .inserted msgId rows ok
  | .numbered msgId _, .insertIndex rows, ok => .inserted msgId rows ok
  | t, _, _ => t

/-- What a call does at each stage. The pushes change nothing. -/
def stages (req : SendMessageReq) : Contract Command Answer Stage where
  may
    | .opening, .connectWrite => True
    | .connected, .connectRead => True
    | .connected, .insertBody senderId groupId msgType content =>
      senderId = req.senderId ∧ groupId = req.groupId ∧ msgType = req.type ∧ content = req.content
    | .stored _, .selectMembers groupId => 0 < req.groupId ∧ groupId = req.groupId
    | .stored _, .selectRelation userId friendId =>
      ¬ 0 < req.groupId ∧ userId = req.senderId ∧ friendId = req.receiverId
    | .drawing _ members targets, .incr key =>
      0 < req.groupId ∧ ∃ m, members[targets.length]? = some m ∧ key = seqKey m
    | .drawing msgId members targets, .insertIndex rows =>
      0 < req.groupId ∧ targets.map Prod.fst = members ∧ rows = indexRows req.groupId msgId targets
    | .checked _ friend, .incr key =>
      ¬ 0 < req.groupId ∧ maySend friend req.type ∧ key = seqKey req.receiverId
    | .numbered msgId seq, .insertIndex rows =>
      ¬ 0 < req.groupId ∧ rows = [singleRow req msgId seq]
    | _, .exists? _ => True
    | _, .hgetall _ => True
    | _, .pushNotify _ _ _ _ => True
    | _, _ => False
  answers _ _ _ := True
  after := Stage.after

/-- Where a call ends, and whether it replies with success. -/
def Ended (req : SendMessageReq) : Stage → Reply → Prop
  | .connected, reply => reply.2.success = false
  | .drawing msgId members _, reply =>
    members = [] ∧ reply = (none, { msgId := msgId, success := true })
  | .checked _ friend, reply => maySend friend req.type = false ∧ reply.2.success = false
  | .inserted msgId _ ok, reply =>
    reply.2.success = (decide (0 < req.groupId) || ok) ∧ (reply.2.success → reply.2.msgId = msgId)
  | _, _ => False

variable {req : SendMessageReq} {msgId : ℕ}

theorem allowsPush (targets : List (ℤ × ℕ)) : AllowsPush (stages req) targets where
  may t := ⟨fun key ↦ by cases t <;> exact ⟨trivial, trivial⟩, fun addr msgType x _ ↦ by
    cases t <;> exact trivial⟩
  after t := ⟨fun key a ↦ by cases t <;> rfl, fun key a ↦ by cases t <;> rfl,
    fun addr userId maxSeq msgType a ↦ by cases t <;> rfl⟩

theorem getD_length_append (done : List (ℤ × ℕ)) (m : ℤ) (rest : List ℤ) :
    (done.map Prod.fst ++ m :: rest)[done.length]? = some m := by
  rw [List.getElem?_append_right (by simp)]
  simp

theorem drawSeqs_stages (hgroup : 0 < req.groupId) {members rest : List ℤ}
    {done : List (ℤ × ℕ)} (h : members = done.map Prod.fst ++ rest) :
    Meets (stages req)
      (fun t targets ↦ t = .drawing msgId members (done ++ targets) ∧ targets.map Prod.fst = rest)
      (.drawing msgId members done) (drawSeqs rest) := by
  induction rest generalizing done with
  | nil => exact ⟨by rw [List.append_nil], rfl⟩
  | cons m rest ih =>
    have hm : members[done.length]? = some m := h ▸ getD_length_append done m rest
    refine meets_bind.mpr (meets_perform_bind.mpr ⟨⟨hgroup, m, hm, rfl⟩, ?_⟩)
    intro reply _
    have hget : members.getD done.length 0 = m := by simp [List.getD, hm]
    have hafter : (stages req).after (.drawing msgId members done) (.incr (seqKey m)) reply =
        .drawing msgId members (done ++ [(m, reply.getD 0)]) := by
      rw [← hget]
      rfl
    rw [hafter]
    refine meets_bind.mpr ((ih (by simp [h])).mono ?_)
    intro t targets heq
    obtain ⟨rfl, htargets⟩ := heq
    exact ⟨by simp, by simp [htargets]⟩

theorem fanOut_stages (hgroup : 0 < req.groupId) (members : List ℤ) :
    Meets (stages req) (Ended req) (.drawing msgId members []) (fanOut req msgId members) := by
  unfold fanOut
  split_ifs with hmembers
  · exact ⟨hmembers, rfl⟩
  · have hall : members = ([] : List (ℤ × ℕ)).map Prod.fst ++ members := rfl
    refine meets_bind.mpr ((drawSeqs_stages hgroup hall).mono ?_)
    intro _ targets heq
    obtain ⟨rfl, htargets⟩ := heq
    refine meets_perform_bind.mpr ⟨⟨hgroup, htargets, rfl⟩, ?_⟩
    intro inserted _
    refine meets_bind.mpr ((pushTargets_meets _ (allowsPush targets) fun _ h ↦ h).mono ?_)
    intro _ _ heq
    subst heq
    exact ⟨by simp [hgroup], fun _ ↦ rfl⟩

theorem finishSingle_stages (hsingle : ¬ 0 < req.groupId) (seq : ℕ) (rows : List IndexRow)
    (inserted : Bool) :
    Meets (stages req) (Ended req) (.inserted msgId rows inserted)
      (finishSingle req msgId seq inserted) := by
  unfold finishSingle
  split_ifs with hinserted
  · refine meets_bind.mpr ((push_meets (allowsPush [(req.receiverId, seq)]) ?_ _ _).mono ?_)
    · exact List.mem_singleton_self _
    · intro _ _ heq
      subst heq
      exact ⟨by simp [hinserted], fun _ ↦ rfl⟩
  · exact ⟨by simp [hsingle, hinserted], fun h ↦ absurd h (by simp)⟩

theorem sendSingle_stages (hsingle : ¬ 0 < req.groupId) :
    Meets (stages req) (Ended req) (.stored msgId) (sendSingle req msgId) := by
  refine meets_perform_bind.mpr ⟨⟨hsingle, rfl, rfl⟩, ?_⟩
  intro status _
  split_ifs with hmay
  · refine meets_bind.mpr (meets_perform_bind.mpr ⟨⟨hsingle, hmay, rfl⟩, ?_⟩)
    intro reply _
    refine meets_perform_bind.mpr ⟨⟨hsingle, rfl⟩, ?_⟩
    intro inserted _
    exact finishSingle_stages hsingle _ _ inserted
  · exact ⟨Bool.eq_false_of_not_eq_true hmay, rfl⟩

theorem sendMessage_stages (req : SendMessageReq) :
    Meets (stages req) (Ended req) .opening (sendMessage req) := by
  refine meets_perform_bind.mpr ⟨trivial, ?_⟩
  intro valid _
  refine meets_perform_bind.mpr ⟨trivial, ?_⟩
  intro readValid _
  split
  · exact rfl
  · refine meets_perform_bind.mpr ⟨⟨rfl, rfl, rfl, rfl⟩, ?_⟩
    intro body _
    match body with
    | none => exact rfl
    | some msgId =>
      by_cases hgroup : 0 < req.groupId
      · simp only [if_pos hgroup]
        refine meets_perform_bind.mpr ⟨⟨hgroup, rfl⟩, ?_⟩
        intro found _
        exact fanOut_stages hgroup _
      · simp only [if_neg hgroup]
        exact sendSingle_stages hgroup

end TinyIM.Chat.SendStages

import TinyIM.Chat.ChatService

namespace TinyIM.Relation.FriendService

open Library.ByteOrder Library.Program Protocol

/-- What the friend handlers of `RelationServiceImpl` ask of MySQL, always on
the master, and of the chat service. -/
inductive Command
  | connect
  | selectPending (userId friendId : ℤ)
  | insertRequest (userId friendId : ℤ) (remark : Bytes)
  | insertRelations (userId requesterId : ℤ)
  | sendMessage (req : SendMessageReq)
  deriving DecidableEq, Repr

/-- `none` and `false` are failures. `selectPending` answers whether there is a
row, and `insertRequest` the id of the new one. No handler looks at the reply of
the chat service. -/
abbrev Answer : Command → Type
  | .connect => Bool
  | .selectPending _ _ => Option Bool
  | .insertRequest _ _ _ => Option ℕ
  | .insertRelations _ _ => Bool
  | .sendMessage _ => Unit

abbrev Handler := Prog Command Answer

abbrev ask (c : Command) : Handler (Answer c) := Prog.perform c

/-- Type 4 is FRIEND_REQ. -/
def requestMsg (userId friendId : ℤ) : SendMessageReq where
  senderId := userId
  receiverId := friendId
  type := 4
  content := ascii "Friend Request"

def finishApply (req : ApplyFriendReq) : Option ℕ → Handler (Status × ApplyFriendResp)
  | none => return (none, { success := false, errorMessage := ascii "Apply failed" })
  | some applyId => do
    ask (.sendMessage (requestMsg req.userId req.friendId))
    return (none, { success := true, applyId := applyId })

def applyFriend (req : ApplyFriendReq) : Handler (Status × ApplyFriendResp) :=
  if req.userId = req.friendId then
    return (none, { success := false, errorMessage := ascii "Cannot add self" })
  else do
    let valid ← ask .connect
    if !valid then return (some (ascii "DB Error"), {})
    else
      let pending ← ask (.selectPending req.userId req.friendId)
      if pending = some true then
        return (none, { success := false, errorMessage := ascii "Request already pending" })
      else
        let applyId ← ask (.insertRequest req.userId req.friendId req.remark)
        finishApply req applyId

/-- Type 3 is SYSTEM. -/
def acceptedMsg (requesterId : ℤ) : SendMessageReq where
  receiverId := requesterId
  type := 3
  content := ascii "Friend Request Accepted"

def acceptFriend (req : AcceptFriendReq) : Handler AcceptFriendResp := do
  -- the source does not look at whether the connection is valid
  let _valid ← ask .connect
  if req.accept then
    -- and it only logs that the statement has failed
    let _inserted ← ask (.insertRelations req.userId req.requesterId)
    ask (.sendMessage (acceptedMsg req.requesterId))
    return { success := true }
  else return { success := true }

theorem applyFriend_commands (req : ApplyFriendReq) :
    Meets (permits fun c ↦ c = .connect ∨ c = .selectPending req.userId req.friendId ∨
      c = .insertRequest req.userId req.friendId req.remark ∨
      c = .sendMessage (requestMsg req.userId req.friendId)) (fun _ _ ↦ True) () (applyFriend req) := by
  unfold applyFriend
  split_ifs with hself
  · exact trivial
  · refine meets_perform_bind.mpr ⟨.inl rfl, ?_⟩
    intro valid _
    split
    · exact trivial
    · refine meets_perform_bind.mpr ⟨.inr (.inl rfl), ?_⟩
      intro pending _
      split
      · exact trivial
      · refine meets_perform_bind.mpr ⟨.inr (.inr (.inl rfl)), ?_⟩
        intro applyId _
        cases applyId with
        | none => exact trivial
        | some applyId => exact meets_perform_bind.mpr ⟨.inr (.inr (.inr rfl)), fun _ _ ↦ trivial⟩

theorem acceptFriend_commands (req : AcceptFriendReq) :
    Meets (permits fun c ↦ c = .connect ∨
      (req.accept = true ∧ c = .insertRelations req.userId req.requesterId) ∨
      c = .sendMessage (acceptedMsg req.requesterId)) (fun _ _ ↦ True) () (acceptFriend req) := by
  refine meets_perform_bind.mpr ⟨.inl rfl, ?_⟩
  intro valid _
  split_ifs with haccept
  · refine meets_perform_bind.mpr ⟨.inr (.inl ⟨haccept, rfl⟩), ?_⟩
    intro inserted _
    exact meets_perform_bind.mpr ⟨.inr (.inr rfl), fun _ _ ↦ trivial⟩
  · exact trivial

end TinyIM.Relation.FriendService

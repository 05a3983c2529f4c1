import TinyIM.Chat.Acknowledgement
import TinyIM.Library.Delimited
import TinyIM.Library.Service

namespace TinyIM.Chat.Mailbox

open Library.ByteOrder Library.Delimited Library.Page Library.Service Library.Table Protocol Store

/-- A message as its recipient sees it. -/
structure Mail where
  msgId : ℕ
  senderId : ℤ
  groupId : ℤ
  type : ℤ
  content : Bytes
  createdAt : Bytes
  deriving DecidableEq, Repr

/-- What the chat service is for: every user has a box, to which mail is only
ever appended. -/
structure Mailboxes where
  box : ℤ → List Mail
  nextMsgId : ℕ
  members : ℤ → List ℤ
  friend : ℤ → ℤ → Bool
  clock : Bytes

/-- A call of the chat service, with the commands of `SendMessage` that fail and with
the rows that a slave shows to `SyncMessages`, or a change that others make: to the
tables of groups and relations as slaves show them, to the sessions in Redis and to
the clock. -/
inductive Call
  | send (fails : ℕ → Bool) (req : SendMessageReq)
  | sync (index : Keyed IndexRow.key) (bodies : List BodyRow) (req : SyncMessagesReq)
  | change (members : Keyed MemberRow.key) (relations : Keyed RelationRow.key)
      (hashes : Bytes → AList fun _ : Bytes ↦ Bytes) (clock : Bytes)

inductive Outcome
  | sent (reply : Reply)
  | synced (resp : Option SyncMessagesResp)
  | changed
  deriving DecidableEq, Repr

def membersIn (members : Keyed MemberRow.key) (groupId : ℤ) : List ℤ :=
  (members.rows.filter fun r ↦ r.groupId = groupId).map MemberRow.userId

def friendIn (relations : Keyed RelationRow.key) (userId friendId : ℤ) : Bool :=
  isFriend (some ((relations.rows.find? fun r ↦ r.key = (userId, friendId)).map RelationRow.status))

/-- The service as it is. -/
def serve : Server World Call Outcome
  | w, .send fails req =>
    let d := Acknowledgement.send fails w req
    (d.state, .sent d.value)
  | w, .sync index bodies req => (w, .synced (syncMessages { w with index := index, bodies := bodies } req))
  | w, .change members relations hashes clock =>
    ({ w with members := members, relations := relations, redis := { w.redis with hashes := hashes },
              clock := clock }, .changed)

namespace Mailboxes

variable (m : Mailboxes)

def deliver (users : List ℤ) (mail : Mail) : Mailboxes :=
  { m with box := fun u ↦ if u ∈ users then m.box u ++ [mail] else m.box u }

@[simp] theorem box_deliver (users : List ℤ) (mail : Mail) (u : ℤ) :
    (m.deliver users mail).box u = if u ∈ users then m.box u ++ [mail] else m.box u := rfl

def send (fails : ℕ → Bool) (req : SendMessageReq) : Mailboxes × Reply :=
  if fails 0 || fails 1 then (m, some (ascii "Database Error"), {})
  else if fails 2 then (m, none, { success := false, errorMessage := ascii "Save Body Failed" })
  else
    let mail : Mail := ⟨m.nextMsgId, req.senderId, req.groupId, req.type, cString req.content, cString m.clock⟩
    let m' := { m with nextMsgId := m.nextMsgId + 1 }
    if 0 < req.groupId then
      (m'.deliver (m.members req.groupId) mail, none, { msgId := m.nextMsgId, success := true })
    else if maySend (m.friend req.senderId req.receiverId) req.type then
      (m'.deliver [req.receiverId] mail, none,
        { msgId := m.nextMsgId, seqId := (m.box req.receiverId).length + 1, success := true })
    else (m', none, { success := false, errorMessage := ascii "Not friends" })

/-- The mail of a box, numbered by its place. -/
def items (box : List Mail) : List MessageItem :=
  box.mapIdx fun i mail ↦
    { msgId := mail.msgId, seqId := i + 1, senderId := mail.senderId, groupId := mail.groupId,
      type := mail.type, content := mail.content, createdAt := mail.createdAt }

/-- What lies behind the cursor, or the newest mail first. -/
def sync (req : SyncMessagesReq) : SyncMessagesResp :=
  let all := items (m.box req.userId)
  let msgs :=
    if req.reverse then all.reverse.take (pageLimit req.limit)
    else (all.drop req.localSeq.toNat).take (pageLimit req.limit)
  { maxSeq := (msgs.map MessageItem.seqId).foldl max req.localSeq, msgs := msgs, success := true }

def serve : Server Mailboxes Call Outcome
  | m, .send fails req => ((m.send fails req).1, .sent (m.send fails req).2)
  | m, .sync _ _ req => (m, .synced (some (m.sync req)))
  | m, .change members relations _ clock =>
    ({ m with members := membersIn members, friend := friendIn relations, clock := clock }, .changed)

def empty (members : Keyed MemberRow.key) (relations : Keyed RelationRow.key) (clock : Bytes) : Mailboxes :=
  ⟨fun _ ↦ [], 1, membersIn members, friendIn relations, clock⟩

end Mailboxes

/-- A `SendMessage` that fails does so before it stores a body, or when it notifies, and
the slave that `SyncMessages` asks is up to date. -/
def Sound (w : World) : Call → Prop
  | .send fails req =>
    fails 0 = true ∨ fails 1 = true ∨ fails 2 = true ∨
      ∀ n, 3 ≤ n → n ≤ (if 0 < req.groupId then 4 + (w.membersOf req.groupId).length else 5) →
        fails n = false
  | .sync index bodies _ => index = w.index ∧ bodies = w.bodies
  | .change _ _ _ _ => True

/-- The world whose tables hold just what the boxes say. -/
structure Holds (w : World) (m : Mailboxes) : Prop where
  boxes : ∀ u, (w.inbox u).map (fun r ↦ (w.timeline r).item?) = (Mailboxes.items (m.box u)).map some
  counters : ∀ u, w.redis.counters (seqKey u) = (m.box u).length
  stored : ∀ b ∈ w.bodies, b.msgId < w.nextMsgId
  nextMsgId : w.nextMsgId = m.nextMsgId
  members : w.membersOf = m.members
  friend : ∀ u v, isFriend (some (w.statusOf u v)) = m.friend u v
  clock : w.clock = m.clock

end TinyIM.Chat.Mailbox

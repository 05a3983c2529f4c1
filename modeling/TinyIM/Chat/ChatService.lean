import TinyIM.Gateway.Session
import TinyIM.Library.Delimited
import TinyIM.Library.Page
import TinyIM.Library.Program
import TinyIM.Library.Table
import TinyIM.Store.Redis

namespace TinyIM.Chat

open Library.ByteOrder Library.Decimal Library.Delimited Library.Page Library.Program Library.Table
  Protocol Store Gateway

structure BodyRow where
  msgId : ℕ
  senderId : ℤ
  groupId : ℤ
  msgType : ℤ
  msgContent : Bytes
  createdAt : Bytes
  deriving DecidableEq, Repr

structure IndexRow where
  ownerId : ℤ
  otherId : ℤ
  msgId : ℕ
  seqId : ℕ
  isSender : ℕ
  deriving DecidableEq, Repr

structure MemberRow where
  groupId : ℤ
  userId : ℤ
  deriving DecidableEq, Repr

structure RelationRow where
  userId : ℤ
  friendId : ℤ
  status : ℤ
  deriving DecidableEq, Repr

/-- `uk_owner_seq`. -/
def IndexRow.key (r : IndexRow) : ℤ × ℕ := (r.ownerId, r.seqId)

/-- `uk_group_user`. -/
def MemberRow.key (r : MemberRow) : ℤ × ℤ := (r.groupId, r.userId)

/-- `uk_user_friend`. -/
def RelationRow.key (r : RelationRow) : ℤ × ℤ := (r.userId, r.friendId)

/-- Redis and the tables `im_message_body`, with its `AUTO_INCREMENT`,
`im_message_index`, `im_group_member` and `im_relation`. -/
structure World where
  bodies : List BodyRow
  nextMsgId : ℕ
  index : Keyed IndexRow.key
  members : Keyed MemberRow.key
  relations : Keyed RelationRow.key
  redis : Redis
  clock : Bytes

/-- What `SendMessage` asks of MySQL, of Redis and of the gateways. -/
inductive Command
  | connectWrite
  | connectRead
  | insertBody (senderId groupId msgType : ℤ) (content : Bytes)
  | selectMembers (groupId : ℤ)
  | selectRelation (userId friendId : ℤ)
  | incr (key : Bytes)
  | insertIndex (rows : List IndexRow)
  | exists? (key : Bytes)
  | hgetall (key : Bytes)
  | pushNotify (addr : Bytes) (userId : ℤ) (maxSeq : ℕ) (msgType : ℤ)
  deriving DecidableEq, Repr

/-- `none` and `false` are failures; `insertBody` answers the id of the body
and `selectRelation` the status, when there is a row. -/
abbrev Answer : Command → Type
  | .connectWrite => Bool
  | .connectRead => Bool
  | .insertBody _ _ _ _ => Option ℕ
  | .selectMembers _ => Option (List ℤ)
  | .selectRelation _ _ => Option (Option ℤ)
  | .incr _ => Option ℕ
  | .insertIndex _ => Bool
  | .exists? _ => Bool
  | .hgetall _ => List (Bytes × Bytes)
  | .pushNotify _ _ _ _ => Unit

abbrev Handler := Prog Command Answer

abbrev ask (c : Command) : Handler (Answer c) := Prog.perform c

def seqKey (userId : ℤ) : Bytes := ascii "im:seq:" ++ stdToString userId

theorem seqKey_injective : Function.Injective seqKey := by
  intro u v h
  exact stdToString_injective (List.append_cancel_left h)

/-- An `INCR` that fails leaves the sequence number at 0. -/
def nextSeq (userId : ℤ) : Handler ℕ := do
  let reply ← ask (.incr (seqKey userId))
  return reply.getD 0

def drawSeqs : List ℤ → Handler (List (ℤ × ℕ))
  | [] => return []
  | m :: members => do
    let seq ← nextSeq m
    let targets ← drawSeqs members
    return (m, seq) :: targets

def pushLocations (userId : ℤ) (seq : ℕ) (msgType : ℤ) : List (Bytes × Bytes) → Handler Unit
  | [] => return ()
  | (_, addr) :: locations => do
    ask (.pushNotify addr userId seq msgType)
    pushLocations userId seq msgType locations

def push (onlineKey : Bytes) (userId : ℤ) (seq : ℕ) (msgType : ℤ) : Handler Unit := do
  let online ← ask (.exists? onlineKey)
  if online then
    let locations ← ask (.hgetall (locationKey userId))
    pushLocations userId seq msgType locations
  else return ()

def pushTargets (msgType : ℤ) : List (ℤ × ℕ) → Handler Unit
  | [] => return ()
  | (userId, seq) :: targets => do
    push (sessionKey userId) userId seq msgType
    pushTargets msgType targets

def indexRows (groupId : ℤ) (msgId : ℕ) (targets : List (ℤ × ℕ)) : List IndexRow :=
  targets.map fun t ↦
    { ownerId := t.1, otherId := groupId, msgId := msgId, seqId := t.2, isSender := 0 }

def singleRow (req : SendMessageReq) (msgId seq : ℕ) : IndexRow :=
  { ownerId := req.receiverId, otherId := req.senderId, msgId := msgId, seqId := seq, isSender := 0 }

abbrev Reply := Status × SendMessageResp

def fanOut (req : SendMessageReq) (msgId : ℕ) (members : List ℤ) : Handler Reply :=
  if members = [] then return (none, { msgId := msgId, success := true })
  else do
    let targets ← drawSeqs members
    -- the source logs a failure and goes on
    let _inserted ← ask (.insertIndex (indexRows req.groupId msgId targets))
    pushTargets req.type targets
    return (none, { msgId := msgId, seqId := 0, success := true })

def sendGroup (req : SendMessageReq) (msgId : ℕ) : Handler Reply := do
  let found ← ask (.selectMembers req.groupId)
  fanOut req msgId (found.getD [])

def isFriend (status : Option (Option ℤ)) : Bool := status = some (some 1)

/-- Types 3 and 4 are SYSTEM and FRIEND_REQ. -/
def maySend (friend : Bool) (msgType : ℤ) : Bool := friend || msgType = 3 || msgType = 4

def finishSingle (req : SendMessageReq) (msgId seq : ℕ) (inserted : Bool) : Handler Reply :=
  if inserted then do
    push (locationKey req.receiverId) req.receiverId seq req.type
    return (none, { msgId := msgId, seqId := seq, success := true })
  else return (none, { success := false })

def sendSingle (req : SendMessageReq) (msgId : ℕ) : Handler Reply := do
  let status ← ask (.selectRelation req.senderId req.receiverId)
  if maySend (isFriend status) req.type then
    let seq ← nextSeq req.receiverId
    let inserted ← ask (.insertIndex [singleRow req msgId seq])
    finishSingle req msgId seq inserted
  else return (none, { success := false, errorMessage := ascii "Not friends" })

def sendMessage (req : SendMessageReq) : Handler Reply := do
  let valid ← ask .connectWrite
  let readValid ← ask .connectRead
  if !valid || !readValid then return (some (ascii "Database Error"), {})
  else
    let body ← ask (.insertBody req.senderId req.groupId req.type req.content)
    match body with
    | none => return (none, { success := false, errorMessage := ascii "Save Body Failed" })
    | some msgId => if 0 < req.groupId then sendGroup req msgId else sendSingle req msgId

/-- The way of `SendMessage` to its two paths, under a contract that takes no
account of the connections. -/
theorem meets_sendMessage {τ : Type} {K : Contract Command Answer τ} {t : τ} {Q : τ → Reply → Prop}
    {req : SendMessageReq} (hwrite : K.may t .connectWrite ∧ ∀ valid, K.after t .connectWrite valid = t)
    (hread : K.may t .connectRead ∧ ∀ valid, K.after t .connectRead valid = t)
    (hrefused : Q t (some (ascii "Database Error"), {}))
    (hbody : K.may t (.insertBody req.senderId req.groupId req.type req.content))
    (hunsaved : Q (K.after t (.insertBody req.senderId req.groupId req.type req.content) none)
      (none, { success := false, errorMessage := ascii "Save Body Failed" }))
    (hgroup : ∀ msgId, 0 < req.groupId → Meets K Q
      (K.after t (.insertBody req.senderId req.groupId req.type req.content) (some msgId)) (sendGroup req msgId))
    (hsingle : ∀ msgId, ¬ 0 < req.groupId → Meets K Q
      (K.after t (.insertBody req.senderId req.groupId req.type req.content) (some msgId)) (sendSingle req msgId)) :
    Meets K Q t (sendMessage req) := by
  refine meets_perform_bind.mpr ⟨hwrite.1, ?_⟩
  intro valid _
  rw [hwrite.2]
  refine meets_perform_bind.mpr ⟨hread.1, ?_⟩
  intro readValid _
  rw [hread.2]
  split
  · exact hrefused
  · refine meets_perform_bind.mpr ⟨hbody, ?_⟩
    intro body _
    match body with
    | none => exact hunsaved
    | some msgId =>
      change Meets K Q _ (if 0 < req.groupId then sendGroup req msgId else sendSingle req msgId)
      split_ifs with hpositive
      · exact hgroup msgId hpositive
      · exact hsingle msgId hpositive

/-- A contract under which a call may push each of `targets`. -/
structure AllowsPush {τ : Type} (K : Contract Command Answer τ) (targets : List (ℤ × ℕ)) : Prop where
  may : ∀ t, (∀ key, K.may t (.exists? key) ∧ K.may t (.hgetall key)) ∧
    ∀ addr msgType, ∀ x ∈ targets, K.may t (.pushNotify addr x.1 x.2 msgType)
  after : ∀ t, (∀ key a, K.after t (.exists? key) a = t) ∧ (∀ key a, K.after t (.hgetall key) a = t) ∧
    ∀ addr userId maxSeq msgType a, K.after t (.pushNotify addr userId maxSeq msgType) a = t

section Push

variable {τ : Type} {K : Contract Command Answer τ} {targets : List (ℤ × ℕ)} {t : τ}

theorem pushLocations_meets (h : AllowsPush K targets) {userId : ℤ} {seq : ℕ}
    (hmem : (userId, seq) ∈ targets) (msgType : ℤ) (locations : List (Bytes × Bytes)) :
    Meets K (fun t' _ ↦ t' = t) t (pushLocations userId seq msgType locations) := by
  induction locations with
  | nil => exact rfl
  | cons l locations ih =>
    refine meets_perform_bind.mpr ⟨(h.may t).2 l.2 msgType _ hmem, ?_⟩
    intro a _
    rw [(h.after t).2.2]
    exact ih

theorem push_meets (h : AllowsPush K targets) {userId : ℤ} {seq : ℕ}
    (hmem : (userId, seq) ∈ targets) (onlineKey : Bytes) (msgType : ℤ) :
    Meets K (fun t' _ ↦ t' = t) t (push onlineKey userId seq msgType) := by
  refine meets_perform_bind.mpr ⟨((h.may t).1 onlineKey).1, ?_⟩
  intro online _
  rw [(h.after t).1]
  split_ifs
  · refine meets_perform_bind.mpr ⟨((h.may t).1 _).2, ?_⟩
    intro locations _
    rw [(h.after t).2.1]
    exact pushLocations_meets h hmem msgType locations
  · exact rfl

theorem pushTargets_meets (msgType : ℤ) {todo : List (ℤ × ℕ)} (h : AllowsPush K targets)
    (hsub : ∀ x ∈ todo, x ∈ targets) :
    Meets K (fun t' _ ↦ t' = t) t (pushTargets msgType todo) := by
  induction todo with
  | nil => exact rfl
  | cons x todo ih =>
    refine meets_bind.mpr ((push_meets h (hsub x List.mem_cons_self) _ msgType).mono ?_)
    intro _ _ heq
    obtain rfl := heq
    exact ih fun y hy ↦ hsub y (List.mem_cons_of_mem x hy)

end Push

namespace World

variable (w : World)

def membersOf (groupId : ℤ) : List ℤ :=
  (w.members.rows.filter fun r ↦ r.groupId = groupId).map MemberRow.userId

def statusOf (userId friendId : ℤ) : Option ℤ :=
  (w.relations.rows.find? fun r ↦ r.key = (userId, friendId)).map RelationRow.status

def succeed : (c : Command) → World × Answer c
  | .connectWrite => (w, true)
  | .connectRead => (w, true)
  | .insertBody senderId groupId msgType content =>
    ({ w with
        bodies := w.bodies ++ [⟨w.nextMsgId, senderId, groupId, msgType, content, w.clock⟩]
        nextMsgId := w.nextMsgId + 1 }, some w.nextMsgId)
  | .selectMembers groupId => (w, some (w.membersOf groupId))
  | .selectRelation userId friendId => (w, some (w.statusOf userId friendId))
  | .incr key => ({ w with redis := (w.redis.incr key).1 }, some (w.redis.incr key).2)
  | .insertIndex rows =>
    match w.index.insert rows with
    | some index => ({ w with index := index }, true)
    | none => (w, false)
  | .exists? key => (w, w.redis.exists? key)
  | .hgetall key => (w, w.redis.hgetall key)
  | .pushNotify _ _ _ _ => (w, ())

def failure : (c : Command) → Answer c
  | .connectWrite => false
  | .connectRead => false
  | .insertBody _ _ _ _ => none
  | .selectMembers _ => none
  | .selectRelation _ _ => none
  | .incr _ => none
  | .insertIndex _ => false
  | .exists? _ => false
  | .hgetall _ => []
  | .pushNotify _ _ _ _ => ()

def perform (ok : Bool) (c : Command) : World × Answer c :=
  if ok then w.succeed c else (w, failure c)

end World

structure TimelineRow where
  index : IndexRow
  body : Option BodyRow
  deriving DecidableEq, Repr

def bySeq (r r' : IndexRow) : Prop := r.seqId ≤ r'.seqId

instance : DecidableRel bySeq := fun _ _ ↦ inferInstanceAs (Decidable (_ ≤ _))

def World.inbox (w : World) (userId : ℤ) : List IndexRow := w.index.rows.filter fun r ↦ r.ownerId = userId

def World.rowsAfter (w : World) (userId localSeq : ℤ) : List IndexRow :=
  w.index.rows.filter fun r ↦ r.ownerId = userId ∧ localSeq < r.seqId

/-- The row with its body. -/
def World.timeline (w : World) (r : IndexRow) : TimelineRow := ⟨r, w.bodies.find? fun b ↦ b.msgId = r.msgId⟩

/-- The query of `SyncMessages`: `LEFT JOIN`, `ORDER BY seq_id`, `LIMIT`. -/
def World.selectTimeline (w : World) (userId localSeq : ℤ) (limit : ℕ) (reverse : Bool) :
    List TimelineRow :=
  let rows :=
    if reverse then
      page (fun r r' ↦ bySeq r' r) (w.inbox userId) limit
    else page bySeq (w.rowsAfter userId localSeq) limit
  rows.map w.timeline

/-- One turn of the fetch loop; `std::stoll` throws on the columns of a body
that is missing. The texts of a row are C strings. -/
def TimelineRow.item? (r : TimelineRow) : Option MessageItem :=
  r.body.map fun b ↦
    { msgId := r.index.msgId, seqId := r.index.seqId, senderId := b.senderId, groupId := b.groupId,
      type := b.msgType, content := cString b.msgContent, createdAt := cString b.createdAt }

def pageLimit (limit : ℤ) : ℕ := if limit ≤ 0 then 10 else limit.toNat

/-- `ChatServiceImpl::SyncMessages` on a connection that works: the reply, or
`none` when the handler throws. -/
def syncMessages (w : World) (req : SyncMessagesReq) : Option SyncMessagesResp :=
  let rows := w.selectTimeline req.userId req.localSeq (pageLimit req.limit) req.reverse
  (rows.mapM TimelineRow.item?).map fun msgs ↦
    { maxSeq := msgs.foldl (fun maxSeq m ↦ if m.seqId > maxSeq then m.seqId else maxSeq) req.localSeq
      msgs := msgs
      success := true }

end TinyIM.Chat

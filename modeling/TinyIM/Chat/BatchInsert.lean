import TinyIM.Chat.ChatService
import TinyIM.Library.ValueList

namespace TinyIM.Chat.BatchInsert

open Library.ByteOrder Library.Decimal Library.Program Library.ValueList Protocol

/-- The commands of `SendMessage` with the text of each `INSERT` into
`im_message_index`. -/
inductive Request
  | command (c : Command)
  | query (sql : Bytes)

abbrev Response : Request → Type
  | .command c => Answer c
  | .query _ => Bool

abbrev SqlHandler := Prog Request Response

def batchHead : Bytes :=
  ascii "INSERT INTO im_message_index (owner_id, other_id, msg_id, seq_id, is_sender) VALUES "

/-- One row of the statement. -/
def tuple (ownerId otherId msgId seqId : ℤ) : Bytes :=
  ascii "(" ++ stdToString ownerId ++ ascii ", " ++ stdToString otherId ++ ascii ", " ++
    stdToString msgId ++ ascii ", " ++ stdToString seqId ++ ascii ", 0)"

abbrev lifted {α : Type} (p : Handler α) : SqlHandler α := p.lift Request.command

abbrev askFor (c : Command) : SqlHandler (Answer c) := Prog.perform (Request.command c)

/-- The loop over the members from the `i`-th on, with `batch_sql` and
`push_targets` so far. -/
def batchLoop (groupId : ℤ) (msgId size : ℕ) :
    ℕ → List ℤ → Bytes → List (ℤ × ℕ) → SqlHandler (Bytes × List (ℤ × ℕ))
  | _, [], batchSql, targets => return (batchSql, targets)
  | i, m :: members, batchSql, targets => do
    let seq ← lifted (nextSeq m)
    let batchSql := batchSql ++ tuple m groupId msgId seq
    let batchSql := if i < size - 1 then batchSql ++ ascii "," else batchSql
    batchLoop groupId msgId size (i + 1) members batchSql (targets ++ [(m, seq)])

def fanOut (req : SendMessageReq) (msgId : ℕ) (members : List ℤ) : SqlHandler Reply :=
  if members = [] then return (none, { msgId := msgId, success := true })
  else do
    let (batchSql, targets) ← batchLoop req.groupId msgId members.length 0 members batchHead []
    let _inserted ← Prog.perform (Request.query batchSql)
    lifted (pushTargets req.type targets)
    return (none, { msgId := msgId, seqId := 0, success := true })

def sendGroup (req : SendMessageReq) (msgId : ℕ) : SqlHandler Reply := do
  let found ← askFor (.selectMembers req.groupId)
  fanOut req msgId (found.getD [])

def sendSingle (req : SendMessageReq) (msgId : ℕ) : SqlHandler Reply := do
  let status ← askFor (.selectRelation req.senderId req.receiverId)
  if maySend (isFriend status) req.type then
    let seq ← lifted (nextSeq req.receiverId)
    let sqlIndex := batchHead ++ tuple req.receiverId req.senderId msgId seq
    let inserted ← Prog.perform (Request.query sqlIndex)
    lifted (finishSingle req msgId seq inserted)
  else return (none, { success := false, errorMessage := ascii "Not friends" })

def sendMessage (req : SendMessageReq) : SqlHandler Reply := do
  let valid ← askFor .connectWrite
  let readValid ← askFor .connectRead
  if !valid || !readValid then return (some (ascii "Database Error"), {})
  else
    let body ← askFor (.insertBody req.senderId req.groupId req.type req.content)
    match body with
    | none => return (none, { success := false, errorMessage := ascii "Save Body Failed" })
    | some msgId => if 0 < req.groupId then sendGroup req msgId else sendSingle req msgId

section Spelled

variable {α β : Type}

def rowText (r : IndexRow) : Bytes :=
  40 :: printed [r.ownerId, r.otherId, r.msgId, r.seqId, r.isSender] ++ [41]

def insertSql (rows : List IndexRow) : Bytes := batchHead ++ [44].intercalate (rows.map rowText)

/-- A handler with the text of its `INSERT` statements. -/
def spelled : Handler α → SqlHandler α
  | .done a => .done a
  | .call (.insertIndex rows) k => .call (.query (insertSql rows)) fun ok ↦ spelled (k ok)
  | .call c k => .call (.command c) fun a ↦ spelled (k a)

theorem spelled_call {c : Command} {k : Answer c → Handler α} (h : ∀ rows, c ≠ .insertIndex rows) :
    spelled (.call c k) = .call (.command c) fun a ↦ spelled (k a) := by
  cases c with
  | insertIndex rows => exact absurd rfl (h rows)
  | _ => rfl

theorem spelled_bind (p : Handler α) (f : α → Handler β) :
    spelled (p >>= f) = spelled p >>= fun a ↦ spelled (f a) := by
  induction p with
  | done a => rfl
  | call c k ih =>
    by_cases hinsert : ∃ rows, c = .insertIndex rows
    · obtain ⟨rows, rfl⟩ := hinsert
      exact congrArg (Prog.call _) (funext ih)
    · have hother : ∀ rows, c ≠ .insertIndex rows := fun rows hc ↦ hinsert ⟨rows, hc⟩
      rw [Prog.call_bind, spelled_call hother, spelled_call hother, Prog.call_bind]
      exact congrArg (Prog.call _) (funext ih)

/-- A call that does not insert into `im_message_index`. -/
def insertsNothing : Contract Command Answer Unit := permits fun c ↦ ∀ rows, c ≠ .insertIndex rows

theorem spelled_eq_lifted {Q : Unit → α → Prop} {t : Unit} {p : Handler α}
    (h : Meets insertsNothing Q t p) : spelled p = lifted p := by
  induction p with
  | done a => rfl
  | call c k ih =>
    rw [spelled_call h.1]
    exact congrArg (Prog.call _) (funext fun a ↦ ih a (h.2 a trivial))

theorem allowsPush (targets : List (ℤ × ℕ)) : AllowsPush insertsNothing targets where
  may _ := ⟨fun _ ↦ ⟨fun _ ↦ nofun, fun _ ↦ nofun⟩, fun _ _ _ _ _ ↦ nofun⟩
  after _ := ⟨fun _ _ ↦ rfl, fun _ _ ↦ rfl, fun _ _ _ _ _ ↦ rfl⟩

theorem spelled_pushTargets (msgType : ℤ) (targets : List (ℤ × ℕ)) :
    spelled (pushTargets msgType targets) = lifted (pushTargets msgType targets) :=
  spelled_eq_lifted (pushTargets_meets (t := ()) msgType (allowsPush targets) fun _ h ↦ h)

theorem spelled_finishSingle (req : SendMessageReq) (msgId seq : ℕ) (inserted : Bool) :
    spelled (finishSingle req msgId seq inserted) = lifted (finishSingle req msgId seq inserted) := by
  refine spelled_eq_lifted (Q := fun _ _ ↦ True) (t := ()) ?_
  unfold finishSingle
  split_ifs
  · refine meets_bind.mpr ((push_meets (allowsPush [(req.receiverId, seq)]) ?_ _ _).mono ?_)
    · exact List.mem_singleton_self _
    · exact fun _ _ _ ↦ trivial
  · exact trivial

end Spelled

section Text

variable {groupId : ℤ} {msgId : ℕ}

theorem tuple_eq (ownerId otherId : ℤ) (msgId seqId : ℕ) :
    tuple ownerId otherId msgId seqId = rowText ⟨ownerId, otherId, msgId, seqId, 0⟩ := by
  have hopen : ascii "(" = [40] := rfl
  have hcomma : ascii ", " = [44, 32] := rfl
  have hclose : ascii ", 0)" = [44, 32, 48, 41] := rfl
  have hzero : stdToString ((0 : ℕ) : ℤ) = [48] := rfl
  simp only [tuple, rowText, printed, hopen, hcomma, hclose, hzero, List.map_cons, List.map_nil,
    List.intercalate_cons_cons, List.intercalate_singleton]
  simp

theorem insertSql_singleton (r : IndexRow) : insertSql [r] = batchHead ++ rowText r := by
  rw [insertSql, List.map_singleton, List.intercalate_singleton]

theorem spelled_drawSeqs_bind {β : Type} (m : ℤ) (members : List ℤ) (f : List (ℤ × ℕ) → SqlHandler β) :
    spelled (drawSeqs (m :: members)) >>= f =
      lifted (nextSeq m) >>= fun seq ↦ spelled (drawSeqs members) >>= fun drawn ↦ f ((m, seq) :: drawn) := by
  rw [drawSeqs, spelled_bind, Prog.bind_assoc]
  refine bind_congr fun seq ↦ ?_
  rw [spelled_bind, Prog.bind_assoc]
  rfl

/-- The last member has no comma behind it. -/
theorem batchLoop_eq {size i : ℕ} {members : List ℤ} (h : i + members.length = size) (batchSql : Bytes)
    (targets : List (ℤ × ℕ)) :
    batchLoop groupId msgId size i members batchSql targets =
      spelled (drawSeqs members) >>= fun drawn ↦
        return (batchSql ++ [44].intercalate ((indexRows groupId msgId drawn).map rowText),
          targets ++ drawn) := by
  induction members generalizing i batchSql targets with
  | nil =>
    rw [batchLoop, drawSeqs]
    simp [spelled, indexRows]
  | cons m members ih =>
    have hrest : i + 1 + members.length = size := by
      rw [← h, List.length_cons]
      omega
    rw [spelled_drawSeqs_bind, batchLoop]
    refine bind_congr fun seq ↦ ?_
    rw [ih hrest]
    cases members with
    | nil =>
      have hlast : ¬ i < size - 1 := by
        rw [← hrest, List.length_nil]
        omega
      rw [if_neg hlast, drawSeqs]
      simp [spelled, indexRows, tuple_eq]
    | cons m' members =>
      have hnext : i < size - 1 := by
        rw [← hrest, List.length_cons]
        omega
      have hcomma : ascii "," = [44] := rfl
      rw [if_pos hnext, spelled_drawSeqs_bind, spelled_drawSeqs_bind]
      refine bind_congr fun seq' ↦ bind_congr fun drawn ↦ ?_
      simp [indexRows, tuple_eq, hcomma, List.intercalate_cons_cons]

theorem fanOut_spelled (req : SendMessageReq) (members : List ℤ) :
    fanOut req msgId members = spelled (Chat.fanOut req msgId members) := by
  rw [fanOut, Chat.fanOut]
  split_ifs with hmembers
  · rfl
  · rw [batchLoop_eq (Nat.zero_add _), Prog.bind_assoc, spelled_bind]
    refine bind_congr fun drawn ↦ ?_
    rw [Prog.pure_eq, Prog.done_bind, spelled_bind]
    refine bind_congr fun inserted ↦ ?_
    rw [spelled_bind, spelled_pushTargets]
    rfl

theorem sendSingle_spelled (req : SendMessageReq) :
    sendSingle req msgId = spelled (Chat.sendSingle req msgId) := by
  rw [sendSingle, Chat.sendSingle, spelled_bind]
  refine bind_congr fun status ↦ ?_
  split_ifs with hmay
  · rw [spelled_bind]
    refine bind_congr fun seq ↦ ?_
    rw [spelled_bind, tuple_eq, ← insertSql_singleton]
    simp only [spelled_finishSingle]
    rfl
  · rfl

/-- Apart from the text of its `INSERT`, this is the handler of the other
modules. -/
theorem sendMessage_spelled (req : SendMessageReq) :
    sendMessage req = spelled (Chat.sendMessage req) := by
  rw [sendMessage, Chat.sendMessage, spelled_bind]
  refine bind_congr fun valid ↦ ?_
  rw [spelled_bind]
  refine bind_congr fun readValid ↦ ?_
  split
  · rfl
  · rw [spelled_bind]
    refine bind_congr fun body ↦ ?_
    cases body with
    | none => rfl
    | some msgId =>
      by_cases hgroup : 0 < req.groupId
      · simp only [if_pos hgroup]
        rw [sendGroup, Chat.sendGroup, spelled_bind]
        exact bind_congr fun found ↦ fanOut_spelled req _
      · simp only [if_neg hgroup]
        exact sendSingle_spelled req

end Text

end TinyIM.Chat.BatchInsert

import TinyIM.Chat.CursorSync
import TinyIM.Chat.Replication
import TinyIM.Gateway.Dispatch

namespace TinyIM.Chat.SessionOrder

open Library.ByteOrder Library.Page Library.Transition Library.Program Library.Interleaving
  Library.Table Library.Tickets Protocol Store Gateway Gateway.Dispatch InboxSequence CursorSync
  Replication

/-- The packets of a session in order, or a message of another service. -/
inductive Sender
  | session (s : Session) (ps : List (Packet × Surroundings))
  | service (req : SendMessageReq)

def asSend : (Σ m : Rpc, m.Req) → Option SendMessageReq
  | ⟨.sendMessage, req⟩ => some req
  | _ => none

/-- What the handling of a packet sends to the chat service. -/
def sends (effects : List Effect) : Option SendMessageReq := (forwarded effects).findSome? asSend

def Sender.sends (e : Endian) (pb : Codec) : Sender → List (Option SendMessageReq)
  | session s ps => (turns e pb s ps).map fun t ↦ SessionOrder.sends t.effects
  | service req => [some req]

/-- The RPC returns when its handler has finished. -/
def handle : Option SendMessageReq → Handler (Option Reply)
  | some req => do
    let reply ← sendMessage req
    return some reply
  | none => return none

structure Sent where
  sender : ℕ
  packet : ℕ
  row : IndexRow

/-- The stores, the rows by the packets that have brought them, and a client
that pulls an inbox from replicas. -/
structure Feed where
  master : Master
  sent : List Sent
  cursor : ℤ
  received : List MessageItem

inductive Event
  | sync (seen : ℕ) (limit : ℤ)
  | store (o : Replication.Event)

def insertedRows : (c : Command) → Answer c → List IndexRow
  | .insertIndex rows, true => rows
  | _, _ => []

/-- `INCR` always reaches Redis. -/
def reaching (env : Replication.Env) : Command → Replication.Env
  | .incr _ => { env with ok := true }
  | _ => env

def exec (i : ℕ) (env : Replication.Env) (s : Feed) (c : ℕ × Command) : Feed × Answer c.2 :=
  let r := s.master.exec (reaching env c.2) c.2
  ({ s with master := r.1, sent := s.sent ++ (insertedRows c.2 r.2).map (Sent.mk i c.1) }, r.2)

def outside (u : ℤ) : Event → Feed → Option Feed
  | .sync seen limit, s =>
    match syncMessages (s.master.read seen) { userId := u, localSeq := s.cursor, limit := limit } with
    | some resp => some { s with cursor := resp.maxSeq, received := s.received ++ resp.msgs }
    | none => some s
  | .store o, s => (Replication.outside o s.master).map fun m ↦ { s with master := m }

def system (e : Endian) (pb : Codec) (u : ℤ) :
    System (ℕ × Command) (fun c ↦ Answer c.2) (List (Option Reply)) (ℕ × Holding) Feed Sender
      Replication.Env Event where
  contract := drawThenInsert.inTurns ⟨[], []⟩
  fresh := (0, ⟨[], []⟩)
  start r := .inTurns 0 ((r.sends e pb).map handle)
  exec := exec
  outside := outside u

abbrev Sessions := Served (ℕ × Command) (fun c ↦ Answer c.2) (List (Option Reply)) (ℕ × Holding) Feed
  Sender

def start (relations : Keyed RelationRow.key) (r : Redis) (cursor : ℤ) : Sessions :=
  ⟨⟨⟨.start relations r, [], cursor, []⟩, []⟩, []⟩

/-- Of two packets of one session that bring rows into the inbox of `u`, the
earlier brings the smaller ids, and a client receives its row first. -/
structure InSessionOrder (u : ℤ) (s : Feed) : Prop where
  rows : s.sent.map Sent.row = s.master.world.index.rows
  ids : ∀ x ∈ s.sent, ∀ y ∈ s.sent, x.sender = y.sender → x.packet < y.packet →
    x.row.ownerId = u → y.row.ownerId = u → x.row.msgId < y.row.msgId ∧ x.row.seqId < y.row.seqId
  received : ∀ x ∈ s.sent, ∀ y ∈ s.sent, x.sender = y.sender → x.packet < y.packet →
    x.row.ownerId = u → y.row.ownerId = u → ∀ (i j : ℕ) (m m' : MessageItem),
      s.received[i]? = some m → s.received[j]? = some m' →
        itemIds m = rowIds x.row → itemIds m' = rowIds y.row → i < j

/-- Only the packets for `SendMessage` send anything, and they send it under
the user of the session. -/
theorem sends_handlePacket (e : Endian) (pb : Codec) (out : Surroundings) (s : Session) (p : Packet) :
    sends (handlePacket e pb out s p).effects =
      if p.cmdId = CommandID.msgSendReq.value then
        (pb.parse .sendMessage p.body).map (Rpc.sendMessage.setActingId s.userId)
      else none := by
  rw [sends, forwarded_handlePacket]
  cases hreq : Request.ofCmd p.cmdId with
  | none => rw [if_neg fun hcmd ↦ Request.ofCmd_eq_none.mp hreq (.rpc .sendMessage) hcmd.symm]; rfl
  | some r =>
    have hcmd := Request.ofCmd_eq_some.mp hreq
    by_cases hsend : r = .rpc .sendMessage
    · subst hsend
      rw [if_pos (show p.cmdId = CommandID.msgSendReq.value from hcmd.symm)]
      simp only [incoming]
      cases pb.parse .sendMessage p.body <;> rfl
    · have hne : p.cmdId ≠ CommandID.msgSendReq.value := by
        intro heq
        exact hsend (Request.cmd_injective (CommandID.value_injective (hcmd.trans heq)))
      rw [if_neg hne]
      cases r with
      | rpc m =>
        have hother : ∀ req, asSend ⟨m, req⟩ = none := by
          intro req
          cases m with
          | sendMessage => exact absurd rfl hsend
          | _ => rfl
        cases incoming pb m p.body <;> simp [hother]
      | _ => rfl

theorem handle_meets (req : Option SendMessageReq) :
    Meets drawThenInsert (fun _ _ ↦ True) ⟨[], []⟩ (handle req) := by
  cases req with
  | none => exact trivial
  | some req =>
    refine meets_bind.mpr ((sendMessage_meets req).mono ?_)
    intro _ _ _
    exact trivial

theorem start_meets (e : Endian) (pb : Codec) (r : Sender) :
    Meets (drawThenInsert.inTurns ⟨[], []⟩) (fun _ _ ↦ True) (0, ⟨[], []⟩)
      (Prog.inTurns 0 ((r.sends e pb).map handle)) := by
  refine meets_inTurns (Nat.le_refl 0) (inTurn_self _) ?_
  intro p hp
  obtain ⟨req, -, rfl⟩ := List.mem_map.mp hp
  exact handle_meets req

/-- What a turn has drawn is above all that earlier turns of its sender have
inserted. -/
structure Ahead (s : Feed) (i : ℕ) (t : ℕ × Holding) : Prop where
  bodies : ∀ msgId ∈ t.2.bodies, msgId < s.master.world.nextMsgId ∧
    ∀ x ∈ s.sent, x.sender = i → x.packet < t.1 → x.row.msgId < msgId
  numbers : ∀ d ∈ t.2.numbers, d.2 ≤ s.master.world.redis.counters d.1 ∧
    ∀ x ∈ s.sent, x.sender = i → x.packet < t.1 → seqKey x.row.ownerId = d.1 → x.row.seqId < d.2

structure InOrder (s : Feed) (accounts : List (ℕ × Holding)) : Prop where
  rows : s.sent.map Sent.row = s.master.world.index.rows
  bounds : ∀ x ∈ s.sent, x.row.msgId < s.master.world.nextMsgId ∧
    x.row.seqId ≤ s.master.world.redis.counters (seqKey x.row.ownerId)
  turns : ∀ x ∈ s.sent, ∃ t, accounts[x.sender]? = some t ∧ x.packet ≤ t.1
  ahead : ∀ (i : ℕ) (t : ℕ × Holding), accounts[i]? = some t → Ahead s i t
  sorted : ∀ x ∈ s.sent, ∀ y ∈ s.sent, x.sender = y.sender → x.packet < y.packet →
    x.row.msgId < y.row.msgId ∧ (x.row.ownerId = y.row.ownerId → x.row.seqId < y.row.seqId)
  increasing : s.received.Pairwise fun m m' ↦ m.seqId < m'.seqId
  behind : ∀ m ∈ s.received, m.seqId ≤ s.cursor

structure Grows (s s' : Feed) : Prop where
  sent : s'.sent = s.sent
  index : s'.master.world.index = s.master.world.index
  cursor : s'.cursor = s.cursor
  received : s'.received = s.received
  nextMsgId : s.master.world.nextMsgId ≤ s'.master.world.nextMsgId
  counters : ∀ key, s.master.world.redis.counters key ≤ s'.master.world.redis.counters key

section InOrder

variable {s s' : Feed} {accounts : List (ℕ × Holding)} {i n : ℕ} {t t' : ℕ × Holding} {held : Holding}
  {c : Command}

theorem Ahead.grows (h : Ahead s i t) (hs : Grows s s') : Ahead s' i t := by
  refine ⟨?_, ?_⟩
  · intro msgId hmem
    obtain ⟨hlt, hall⟩ := h.bodies msgId hmem
    rw [hs.sent]
    exact ⟨Nat.lt_of_lt_of_le hlt hs.nextMsgId, hall⟩
  · intro d hd
    obtain ⟨hle, hall⟩ := h.numbers d hd
    rw [hs.sent]
    exact ⟨Nat.le_trans hle (hs.counters d.1), hall⟩

theorem Ahead.turn (h : Ahead s i t) (n : ℕ) : Ahead s i (n, inTurn ⟨[], []⟩ t n) := by
  obtain ⟨k, held⟩ := t
  by_cases hn : k = n
  · subst hn
    rw [inTurn_self]
    exact h
  · rw [inTurn, if_neg hn]
    exact ⟨fun _ hmem ↦ absurd hmem List.not_mem_nil, fun _ hmem ↦ absurd hmem List.not_mem_nil⟩

theorem InOrder.grows (h : InOrder s accounts) (hs : Grows s s') : InOrder s' accounts := by
  obtain ⟨hrows, hbounds, hturns, hahead, hsorted, hincreasing, hbehind⟩ := h
  refine ⟨?_, ?_, ?_, fun i t hi ↦ (hahead i t hi).grows hs, ?_, ?_, ?_⟩
  · rw [hs.sent, hs.index]
    exact hrows
  · intro x hx
    obtain ⟨hlt, hle⟩ := hbounds x (hs.sent ▸ hx)
    exact ⟨Nat.lt_of_lt_of_le hlt hs.nextMsgId, Nat.le_trans hle (hs.counters _)⟩
  · rw [hs.sent]
    exact hturns
  · rw [hs.sent]
    exact hsorted
  · rw [hs.received]
    exact hincreasing
  · rw [hs.received, hs.cursor]
    exact hbehind

theorem turns_set {sent : List Sent} (h : ∀ x ∈ sent, ∃ t, accounts[x.sender]? = some t ∧ x.packet ≤ t.1)
    (hi : accounts[i]? = some t) (hle : t.1 ≤ t'.1) :
    ∀ x ∈ sent, ∃ t, (accounts.set i t')[x.sender]? = some t ∧ x.packet ≤ t.1 := by
  intro x hx
  obtain ⟨t₀, ht₀, hpacket⟩ := h x hx
  by_cases heq : i = x.sender
  · subst heq
    obtain rfl := Option.some.inj (hi.symm.trans ht₀)
    exact ⟨t', List.getElem?_set_self (List.getElem?_eq_some_iff.mp hi).1, Nat.le_trans hpacket hle⟩
  · exact ⟨t₀, (List.getElem?_set_ne heq).trans ht₀, hpacket⟩

theorem InOrder.account (h : InOrder s accounts) (hi : accounts[i]? = some t) (hle : t.1 ≤ t'.1)
    (hahead : Ahead s i t') : InOrder s (accounts.set i t') := by
  refine ⟨h.rows, h.bounds, turns_set h.turns hi hle, ?_, h.sorted, h.increasing, h.behind⟩
  intro j t₀ hj
  rcases getElem?_set_cases hj with ⟨rfl, rfl⟩ | ⟨-, hj⟩
  · exact hahead
  · exact h.ahead j t₀ hj

theorem exec_grows (env : Replication.Env) (hinsert : ∀ rows, c ≠ .insertIndex rows) :
    Grows s (exec i env s (n, c)).1 := by
  obtain ⟨ok, seen⟩ := env
  have hsent : ∀ a, (insertedRows c a) = [] := by
    intro a
    cases c with
    | insertIndex rows => exact absurd rfl (hinsert rows)
    | _ => rfl
  refine ⟨?_, ?_, rfl, rfl, ?_, ?_⟩
  · simp [exec, hsent]
  · cases c with
    | insertIndex rows => exact absurd rfl (hinsert rows)
    | _ => cases ok <;> rfl
  · cases c with
    | insertIndex rows => exact absurd rfl (hinsert rows)
    | insertBody _ _ _ _ => cases ok <;> simp [exec, reaching, Master.exec, Master.answer, World.perform, World.succeed]
    | _ => cases ok <;> exact Nat.le_refl _
  · intro key
    cases c with
    | insertIndex rows => exact absurd rfl (hinsert rows)
    | incr key' => exact le_update_succ _ key' key
    | _ => cases ok <;> exact Nat.le_refl _

theorem InOrder.insertBody (h : InOrder s accounts) (hi : accounts[i]? = some (n, held))
    (env : Replication.Env) (senderId groupId msgType : ℤ) (content : Bytes) :
    InOrder (exec i env s (n, .insertBody senderId groupId msgType content)).1
      (accounts.set i (n, drawThenInsert.after held _
        (exec i env s (n, .insertBody senderId groupId msgType content)).2)) := by
  have hgrows : Grows s (exec i env s (n, .insertBody senderId groupId msgType content)).1 :=
    exec_grows env (by simp)
  refine (h.grows hgrows).account hi (Nat.le_refl n) ?_
  have hold := (h.ahead i _ hi).grows hgrows
  obtain ⟨ok, seen⟩ := env
  cases ok with
  | false => exact hold
  | true =>
    refine ⟨?_, hold.numbers⟩
    intro msgId hmem
    rcases List.mem_append.mp hmem with hmem | hmem
    · exact hold.bodies msgId hmem
    · obtain rfl := List.mem_singleton.mp hmem
      refine ⟨Nat.lt_succ_self _, ?_⟩
      intro x hx _ _
      exact (h.bounds x (hgrows.sent ▸ hx)).1

theorem InOrder.incr (h : InOrder s accounts) (hi : accounts[i]? = some (n, held))
    (env : Replication.Env) (key : Bytes) :
    InOrder (exec i env s (n, .incr key)).1
      (accounts.set i (n, drawThenInsert.after held _ (exec i env s (n, .incr key)).2)) := by
  have hgrows : Grows s (exec i env s (n, .incr key)).1 := exec_grows env (by simp)
  refine (h.grows hgrows).account hi (Nat.le_refl n) ?_
  have hold := (h.ahead i _ hi).grows hgrows
  refine ⟨hold.bodies, ?_⟩
  intro d hd
  rcases List.mem_append.mp hd with hd | hd
  · exact hold.numbers d hd
  · obtain rfl := List.mem_singleton.mp hd
    refine ⟨Nat.le_of_eq (Function.update_self key _ s.master.world.redis.counters).symm, ?_⟩
    intro x hx _ _ hkey
    have hle := (h.bounds x (hgrows.sent ▸ hx)).2
    rw [hkey] at hle
    exact Nat.lt_succ_of_le hle

theorem exec_insertIndex (env : Replication.Env) (rows : List IndexRow) :
    Grows s (exec i env s (n, .insertIndex rows)).1 ∨
      ∃ index, s.master.world.index.insert rows = some index ∧
        (exec i env s (n, .insertIndex rows)).1 =
          { s with
            master := ⟨{ s.master.world with index := index }, s.master.log ++ [.index rows]⟩
            sent := s.sent ++ rows.map (Sent.mk i n) } := by
  obtain ⟨ok, seen⟩ := env
  cases ok with
  | false => exact .inl ⟨List.append_nil _, rfl, rfl, rfl, Nat.le_refl _, fun _ ↦ Nat.le_refl _⟩
  | true =>
    cases hinsert : s.master.world.index.insert rows with
    | none =>
      refine .inl ?_
      simp only [exec, reaching, Master.exec, Master.answer, World.perform, World.succeed, hinsert, if_true]
      exact ⟨List.append_nil _, rfl, rfl, rfl, Nat.le_refl _, fun _ ↦ Nat.le_refl _⟩
    | some index =>
      refine .inr ⟨index, rfl, ?_⟩
      simp only [exec, reaching, Master.exec_insertIndex_ok seen hinsert, insertedRows]

/-- The rows that a packet brings are above those of the packets before it. -/
theorem Ahead.row (h : Ahead s i (n, held)) {rows : List IndexRow}
    (hmay : drawThenInsert.may held (.insertIndex rows)) {r : IndexRow} (hr : r ∈ rows) :
    (r.msgId < s.master.world.nextMsgId ∧
      r.seqId ≤ s.master.world.redis.counters (seqKey r.ownerId)) ∧
    ∀ x ∈ s.sent, x.sender = i → x.packet < n →
      x.row.msgId < r.msgId ∧ (x.row.ownerId = r.ownerId → x.row.seqId < r.seqId) := by
  obtain ⟨htags, hids⟩ := hmay
  obtain ⟨hid, hidAll⟩ := h.bodies r.msgId (hids r hr)
  obtain ⟨hseq, hseqAll⟩ := h.numbers (tag r) (htags ▸ List.mem_map_of_mem hr)
  refine ⟨⟨hid, hseq⟩, ?_⟩
  intro x hx hsender hpacket
  exact ⟨hidAll x hx hsender hpacket,
    fun howner ↦ hseqAll x hx hsender hpacket (congrArg seqKey howner)⟩

theorem Ahead.noNumbers (h : Ahead s i (n, held)) : Ahead s i (n, { held with numbers := [] }) :=
  ⟨h.bodies, fun _ hd ↦ absurd hd List.not_mem_nil⟩

theorem Ahead.insert (h : Ahead s i t) {new : List Sent} (index : Keyed IndexRow.key)
    (log : List Commit) (hnew : ∀ x ∈ new, x.sender = i → ¬ x.packet < t.1) :
    Ahead { s with
      master := ⟨{ s.master.world with index := index }, log⟩
      sent := s.sent ++ new } i t := by
  refine ⟨?_, ?_⟩
  · intro msgId hmem
    obtain ⟨hlt, hall⟩ := h.bodies msgId hmem
    refine ⟨hlt, ?_⟩
    intro x hx hsender hpacket
    rcases List.mem_append.mp hx with hx | hx
    · exact hall x hx hsender hpacket
    · exact absurd hpacket (hnew x hx hsender)
  · intro d hd
    obtain ⟨hle, hall⟩ := h.numbers d hd
    refine ⟨hle, ?_⟩
    intro x hx hsender hpacket
    rcases List.mem_append.mp hx with hx | hx
    · exact hall x hx hsender hpacket
    · exact absurd hpacket (hnew x hx hsender)

theorem mem_sent_append {rows : List IndexRow} {x : Sent}
    (h : x ∈ s.sent ++ rows.map (Sent.mk i n)) : x ∈ s.sent ∨ ∃ r ∈ rows, x = ⟨i, n, r⟩ := by
  rcases List.mem_append.mp h with hx | hx
  · exact .inl hx
  · obtain ⟨r, hr, rfl⟩ := List.mem_map.mp hx
    exact .inr ⟨r, hr, rfl⟩

/-- No row of a later packet is there yet, and the new rows are above the rows of
the packets before. -/
theorem InOrder.sorted_append (h : InOrder s accounts) (hi : accounts[i]? = some (n, held))
    {rows : List IndexRow} (hmay : drawThenInsert.may held (.insertIndex rows)) :
    ∀ x ∈ s.sent ++ rows.map (Sent.mk i n), ∀ y ∈ s.sent ++ rows.map (Sent.mk i n),
      x.sender = y.sender → x.packet < y.packet →
        x.row.msgId < y.row.msgId ∧ (x.row.ownerId = y.row.ownerId → x.row.seqId < y.row.seqId) := by
  intro x hx y hy hsender hpacket
  obtain hx | ⟨r, -, rfl⟩ := mem_sent_append hx <;> obtain hy | ⟨r', hr', rfl⟩ := mem_sent_append hy
  · exact h.sorted x hx y hy hsender hpacket
  · exact ((h.ahead i _ hi).row hmay hr').2 x hx hsender hpacket
  · obtain ⟨t, ht, hle⟩ := h.turns y hy
    rw [← hsender] at ht
    obtain rfl := Option.some.inj (hi.symm.trans ht)
    exact absurd hpacket (Nat.not_lt.mpr hle)
  · exact absurd hpacket (Nat.lt_irrefl n)

theorem InOrder.insertIndex (h : InOrder s accounts) (hi : accounts[i]? = some (n, held))
    (env : Replication.Env) {rows : List IndexRow}
    (hmay : drawThenInsert.may held (.insertIndex rows)) :
    InOrder (exec i env s (n, .insertIndex rows)).1
      (accounts.set i (n, { held with numbers := [] })) := by
  have hold := h.ahead i _ hi
  rcases exec_insertIndex (i := i) (n := n) (s := s) env rows with hgrows | ⟨index, hindex, heq⟩
  · refine (h.grows hgrows).account hi (Nat.le_refl n) ⟨(hold.grows hgrows).bodies, ?_⟩
    intro d hd
    exact absurd hd List.not_mem_nil
  rw [heq]
  refine ⟨?_, ?_, ?_, ?_, h.sorted_append hi hmay, h.increasing, h.behind⟩
  · change (s.sent ++ rows.map (Sent.mk i n)).map Sent.row = index.rows
    rw [(Keyed.rows_of_insert hindex).2, List.map_append, h.rows, List.map_map]
    exact congrArg _ (List.map_id rows)
  · intro x hx
    obtain hx | ⟨r, hr, rfl⟩ := mem_sent_append hx
    · exact h.bounds x hx
    · exact (hold.row hmay hr).1
  · apply turns_set (t := (n, held)) ?_ hi (Nat.le_refl n)
    intro x hx
    obtain hx | ⟨r, -, rfl⟩ := mem_sent_append hx
    · exact h.turns x hx
    · exact ⟨(n, held), hi, Nat.le_refl n⟩
  · intro j t hj
    rcases getElem?_set_cases hj with ⟨rfl, rfl⟩ | ⟨hne, hj⟩
    · refine hold.noNumbers.insert index _ ?_
      intro x hx _
      obtain ⟨r, -, rfl⟩ := List.mem_map.mp hx
      exact Nat.lt_irrefl n
    · refine (h.ahead j t hj).insert index _ ?_
      intro x hx hsender
      obtain ⟨r, -, rfl⟩ := List.mem_map.mp hx
      exact absurd hsender.symm hne

theorem InOrder.turn (h : InOrder s accounts) (hi : accounts[i]? = some t) (hle : t.1 ≤ n) :
    InOrder s (accounts.set i (n, inTurn ⟨[], []⟩ t n)) :=
  h.account hi hle ((h.ahead i t hi).turn n)

theorem InOrder.command (h : InOrder s accounts) (hi : accounts[i]? = some (n, held))
    (env : Replication.Env) (hmay : drawThenInsert.may held c) :
    InOrder (exec i env s (n, c)).1
      (accounts.set i (n, drawThenInsert.after held c (exec i env s (n, c)).2)) := by
  cases c with
  | insertBody senderId groupId msgType content => exact h.insertBody hi env _ _ _ _
  | incr key => exact h.incr hi env key
  | insertIndex rows => exact h.insertIndex hi env hmay
  | _ =>
    rw [show (n, drawThenInsert.after held _ _) = (n, held) from rfl, set_of_getElem? hi]
    exact h.grows (exec_grows env (by simp))

theorem InOrder.exec (h : InOrder s accounts) (hi : accounts[i]? = some t)
    (env : Replication.Env) {c : ℕ × Command}
    (hmay : (drawThenInsert.inTurns ⟨[], []⟩).may t c) :
    InOrder (SessionOrder.exec i env s c).1 (accounts.set i
      ((drawThenInsert.inTurns ⟨[], []⟩).after t c (SessionOrder.exec i env s c).2)) := by
  obtain ⟨hle, hmay⟩ := hmay
  have hlt := (List.getElem?_eq_some_iff.mp hi).1
  have hturn := (h.turn hi hle).command (List.getElem?_set_self hlt) env hmay
  rw [List.set_set] at hturn
  exact hturn

end InOrder

section Pull

variable {w : World} {u c limit : ℤ} {resp : SyncMessagesResp}

theorem page_increasing (w : World) (u c : ℤ) (limit : ℕ) :
    (page bySeq (w.rowsAfter u c) limit).Pairwise fun r r' ↦ r.seqId < r'.seqId := by
  have hkeys : (w.rowsAfter u c).Pairwise fun r r' ↦ r.key ≠ r'.key :=
    (List.pairwise_map.mp w.index.nodup).filter _
  have hperm := List.perm_insertionSort bySeq (w.rowsAfter u c)
  have hkeys' := (hperm.pairwise_iff fun h ↦ Ne.symm h).mpr hkeys
  have hsorted := (List.pairwise_insertionSort bySeq (w.rowsAfter u c)).and hkeys'
  refine (hsorted.imp_of_mem ?_).sublist (List.take_sublist limit _)
  intro r r' hr hr' hcase
  obtain ⟨hle, hne⟩ := hcase
  have howner := (mem_rowsAfter.mp (hperm.mem_iff.mp hr)).2.1
  have howner' := (mem_rowsAfter.mp (hperm.mem_iff.mp hr')).2.1
  refine Nat.lt_of_le_of_ne hle ?_
  intro hseq
  exact hne (Prod.ext (howner.trans howner'.symm) hseq)

theorem increasing_of_pull
    (h : syncMessages w { userId := u, localSeq := c, limit := limit } = some resp) :
    (resp.msgs.Pairwise fun m m' ↦ m.seqId < m'.seqId) ∧
      c ≤ resp.maxSeq ∧ ∀ m ∈ resp.msgs, c < m.seqId ∧ m.seqId ≤ resp.maxSeq := by
  have hids := ids_of_pull h
  have hpage := page_increasing w u c (pageLimit limit)
  refine ⟨?_, ?_, ?_⟩
  · have hrows : ((page bySeq (w.rowsAfter u c) (pageLimit limit)).map rowIds).Pairwise
        fun a b ↦ a.2 < b.2 :=
      List.pairwise_map.mpr (hpage.imp fun hlt ↦ Int.ofNat_lt.mpr hlt)
    rw [← hids] at hrows
    have hitems := List.pairwise_map.mp hrows
    exact hitems
  · obtain ⟨msgs, -, rfl⟩ := Option.map_eq_some_iff.mp h
    exact (foldl_max_spec msgs c).1
  · intro m hm
    obtain ⟨r, hr, heq⟩ := List.mem_map.mp (hids ▸ List.mem_map_of_mem (f := itemIds) hm)
    have hseq : (r.seqId : ℤ) = m.seqId := congrArg Prod.snd heq
    rw [← hseq]
    exact ⟨(mem_rowsAfter.mp (mem_of_mem_page hr)).2.2, (maxSeq_of_pull h).1 r hr⟩

theorem InOrder.pull {s : Feed} {accounts : List (ℕ × Holding)} (h : InOrder s accounts)
    (hresp : syncMessages w { userId := u, localSeq := s.cursor, limit := limit } = some resp) :
    InOrder { s with cursor := resp.maxSeq, received := s.received ++ resp.msgs } accounts := by
  obtain ⟨hpairwise, hcursor, hall⟩ := increasing_of_pull hresp
  refine ⟨h.rows, h.bounds, h.turns, fun i t hi ↦ ⟨(h.ahead i t hi).bodies, (h.ahead i t hi).numbers⟩,
    h.sorted, ?_, ?_⟩
  · refine List.pairwise_append.mpr ⟨h.increasing, hpairwise, ?_⟩
    intro m hm m' hm'
    exact Int.lt_of_le_of_lt (h.behind m hm) (hall m' hm').1
  · intro m hm
    rcases List.mem_append.mp hm with hm | hm
    · exact Int.le_trans (h.behind m hm) hcursor
    · exact (hall m hm).2

end Pull

theorem store_grows {s : Feed} {o : Replication.Event} {m : Master}
    (h : Replication.outside o s.master = some m) : Grows s { s with master := m } := by
  cases o with
  | member row =>
    obtain rfl := Option.some.inj h
    refine ⟨rfl, Master.addMember_index _ row, rfl, rfl,
      Nat.le_of_eq (Master.addMember_nextMsgId _ row).symm, ?_⟩
    intro key
    rw [Master.addMember_redis]
  | relations relations =>
    obtain rfl := Option.some.inj h
    exact ⟨rfl, rfl, rfl, rfl, Nat.le_refl _, fun _ ↦ Nat.le_refl _⟩
  | tick clock =>
    obtain rfl := Option.some.inj h
    exact ⟨rfl, rfl, rfl, rfl, Nat.le_refl _, fun _ ↦ Nat.le_refl _⟩

theorem InOrder.outside {u : ℤ} {o : Event} {s s' : Feed} {accounts : List (ℕ × Holding)}
    (h : InOrder s accounts) (ho : SessionOrder.outside u o s = some s') : InOrder s' accounts := by
  cases o with
  | sync seen limit =>
    simp only [SessionOrder.outside] at ho
    split at ho
    · next resp hresp =>
      obtain rfl := Option.some.inj ho
      exact h.pull hresp
    · obtain rfl := Option.some.inj ho
      exact h
  | store o =>
    obtain ⟨m, hm, rfl⟩ := Option.map_eq_some_iff.mp ho
    exact h.grows (store_grows hm)

theorem inOrder_of_reach {e : Endian} {pb : Codec} {u : ℤ} {relations : Keyed RelationRow.key}
    {r : Redis} {cursor : ℤ} {s : Sessions}
    (h : Reach (system e pb u).serve anyStep (start relations r cursor) s) :
    InOrder s.pool.world s.pool.accounts := by
  have hinv := System.serve_invariant (K := fun _ ↦ drawThenInsert.inTurns ⟨[], []⟩)
    (Q := fun _ _ _ ↦ True) (J := fun s _ accounts ↦ InOrder s accounts) (fun _ ↦ rfl)
    ?start ?spawn ?exec ?outside h ⟨Served.keeps_nil _, ?empty⟩
  · exact hinv.2
  case start =>
    intro _ sender _
    exact start_meets e pb sender
  case spawn =>
    intro s _ _ _ hJ
    refine ⟨hJ.rows, hJ.bounds, ?_, ?_, hJ.sorted, hJ.increasing, hJ.behind⟩
    · intro x hx
      obtain ⟨t, ht, hle⟩ := hJ.turns x hx
      exact ⟨t, getElem?_append_of_some ht _, hle⟩
    · intro i t hi
      rcases getElem?_concat_some hi with hi | ⟨-, rfl⟩
      · exact hJ.ahead i t hi
      · exact ⟨fun _ hmem ↦ absurd hmem List.not_mem_nil, fun _ hmem ↦ absurd hmem List.not_mem_nil⟩
  case exec =>
    intro s i env c k t _ _ hi _ hmay hJ
    refine ⟨?_, hJ.exec (Pool.accounts_of_threads hi) env hmay⟩
    obtain ⟨n, c⟩ := c
    cases c <;> exact trivial
  case outside =>
    intro s o s' _ ho hJ
    exact hJ.outside ho
  case empty =>
    refine ⟨rfl, ?_, ?_, ?_, ?_, List.Pairwise.nil, ?_⟩
    · intro x hx
      exact absurd hx List.not_mem_nil
    · intro x hx
      exact absurd hx List.not_mem_nil
    · intro i t hi
      simp [start, Pool.accounts] at hi
    · intro x hx
      exact absurd hx List.not_mem_nil
    · intro m hm
      exact absurd hm List.not_mem_nil

/-- Whatever other sessions and services send meanwhile, and whichever replicas
the client reads. -/
theorem in_session_order {e : Endian} {pb : Codec} {u : ℤ} {relations : Keyed RelationRow.key}
    {r : Redis} {cursor : ℤ} {s : Sessions}
    (h : Reach (system e pb u).serve anyStep (start relations r cursor) s) :
    InSessionOrder u s.pool.world := by
  have hinv := inOrder_of_reach h
  have hids : ∀ x ∈ s.pool.world.sent, ∀ y ∈ s.pool.world.sent, x.sender = y.sender →
      x.packet < y.packet → x.row.ownerId = u → y.row.ownerId = u →
        x.row.msgId < y.row.msgId ∧ x.row.seqId < y.row.seqId := by
    intro x hx y hy hsender hpacket hxu hyu
    obtain ⟨hmsg, hseq⟩ := hinv.sorted x hx y hy hsender hpacket
    exact ⟨hmsg, hseq (hxu.trans hyu.symm)⟩
  refine ⟨hinv.rows, hids, ?_⟩
  intro x hx y hy hsender hpacket hxu hyu i j m m' hi hj hm hm'
  have hlt : m.seqId < m'.seqId := by
    have hseq := (hids x hx y hy hsender hpacket hxu hyu).2
    have hmseq : m.seqId = x.row.seqId := congrArg Prod.snd hm
    have hmseq' : m'.seqId = y.row.seqId := congrArg Prod.snd hm'
    omega
  by_contra hge
  obtain ⟨hilt, rfl⟩ := List.getElem?_eq_some_iff.mp hi
  obtain ⟨hjlt, rfl⟩ := List.getElem?_eq_some_iff.mp hj
  rcases Nat.lt_or_eq_of_le (Nat.not_lt.mp hge) with hji | rfl
  · have hback := List.pairwise_iff_getElem.mp hinv.increasing j i hjlt hilt hji
    omega
  · exact Int.lt_irrefl _ hlt

/-- protobuf on messages for user 2 with an empty content. -/
def sendCodec : Codec where
  parse
    | .sendMessage, body => if body = [16, 2] then some { receiverId := 2 } else none
    | _, _ => none
  serialize _ _ := []
  parseLogin _ := none
  serializeLogin _ := []

def chatting : Surroundings where
  call _ _ := (none, default)
  localEndpoint := some 8080

def twoPackets : Sender :=
  .session ⟨1, ascii "PC"⟩ (List.replicate 2 (⟨CommandID.msgSendReq.value, [16, 2]⟩, chatting))

/-- User 3 sends while the first of two packets is handled. The client of user 2
pulls before and after the second. -/
def overtaken : List (Library.Interleaving.Action Sender Replication.Env Event) :=
  [.spawn twoPackets, .spawn (.service { senderId := 3, receiverId := 2 })] ++
    List.replicate 3 (.step 0 ⟨true, 0⟩) ++ List.replicate 7 (.step 1 ⟨true, 0⟩) ++
    List.replicate 4 (.step 0 ⟨true, 0⟩) ++ [.outside (.sync 4 10)] ++
    List.replicate 7 (.step 0 ⟨true, 0⟩) ++ [.outside (.sync 6 10)]

theorem in_session_order_overtaken :
    ∃ s : Sessions, InSessionOrder 2 s.pool.world ∧
      s.pool.world.sent = [⟨1, 0, ⟨2, 3, 2, 1, 0⟩⟩, ⟨0, 0, ⟨2, 1, 1, 2, 0⟩⟩, ⟨0, 1, ⟨2, 1, 3, 3, 0⟩⟩] ∧
      s.pool.world.received.map itemIds = [(2, 1), (1, 2), (3, 3)] := by
  have hrun : Reach (system .little sendCodec 2).serve anyStep (start friendsOfTwo .empty 0) _ :=
    reach_of_exec overtaken rfl
  exact ⟨_, in_session_order hrun, rfl, rfl⟩

end TinyIM.Chat.SessionOrder

import TinyIM.Chat.Acknowledgement
import TinyIM.Chat.InboxSequence

namespace TinyIM.Chat.MessageBodies

open Library.ByteOrder Library.Page Library.Transition Library.Program Library.Interleaving
  Library.Table Library.Tickets Protocol Store InboxSequence Acknowledgement

/-- Every index row, and every row that a running call may still insert, has
its body. -/
structure Stored (w : World) (accounts : List (List ℕ)) : Prop where
  indexed : ∀ r ∈ w.index.rows, ∃ b ∈ w.bodies, b.msgId = r.msgId
  held : ∀ msgId ∈ accounts.flatten, ∃ b ∈ w.bodies, b.msgId = msgId
  below : ∀ b ∈ w.bodies, b.msgId < w.nextMsgId

section Stored

variable {w w' : World} {s s' : Inbox} {accounts : List (List ℕ)} {ids : List ℕ} {i : ℕ} {env : Env}
  {c : Command}

theorem Stored.congr (h : Stored w accounts) (hbodies : w'.bodies = w.bodies)
    (hnext : w'.nextMsgId = w.nextMsgId) (hindex : w'.index = w.index) : Stored w' accounts := by
  refine ⟨?_, ?_, ?_⟩
  · rw [hindex, hbodies]
    exact h.indexed
  · rw [hbodies]
    exact h.held
  · rw [hbodies, hnext]
    exact h.below

theorem Stored.insertBody (h : Stored w accounts) (hi : accounts[i]? = some ids)
    (senderId groupId msgType : ℤ) (content : Bytes) :
    Stored (w.succeed (.insertBody senderId groupId msgType content)).1
      (accounts.set i (ids ++ [w.nextMsgId])) := by
  have hold : ∀ {msgId : ℕ}, (∃ b ∈ w.bodies, b.msgId = msgId) →
      ∃ b ∈ (w.succeed (.insertBody senderId groupId msgType content)).1.bodies, b.msgId = msgId := by
    intro _ hcase
    obtain ⟨b, hb, rfl⟩ := hcase
    exact ⟨b, List.mem_append_left _ hb, rfl⟩
  refine ⟨fun r hr ↦ hold (h.indexed r hr), ?_, ?_⟩
  · intro msgId hmem
    rcases mem_flatten_set hmem with hmem | hmem
    · exact hold (h.held msgId hmem)
    rcases List.mem_append.mp hmem with hmem | hmem
    · exact hold (h.held msgId (List.mem_flatten.mpr ⟨ids, List.mem_of_getElem? hi, hmem⟩))
    · obtain rfl := List.mem_singleton.mp hmem
      exact ⟨_, List.mem_append_right _ (List.mem_singleton_self _), rfl⟩
  · intro b hb
    rcases List.mem_append.mp hb with hb | hb
    · exact Nat.lt_succ_of_lt (h.below b hb)
    · obtain rfl := List.mem_singleton.mp hb
      exact Nat.lt_succ_self _

theorem Stored.insertIndex (h : Stored w accounts) (hi : accounts[i]? = some ids)
    {rows : List IndexRow} (hrows : ∀ r ∈ rows, r.msgId ∈ ids) :
    Stored (w.succeed (.insertIndex rows)).1 accounts := by
  cases hinsert : w.index.insert rows with
  | none =>
    simp only [World.succeed, hinsert]
    exact h
  | some index =>
    obtain ⟨-, hall⟩ := Keyed.rows_of_insert hinsert
    simp only [World.succeed, hinsert]
    refine ⟨?_, h.held, h.below⟩
    intro r hr
    rw [hall] at hr
    rcases List.mem_append.mp hr with hr | hr
    · exact h.indexed r hr
    · exact h.held r.msgId (List.mem_flatten.mpr ⟨ids, List.mem_of_getElem? hi, hrows r hr⟩)

theorem Stored.exec {held : Holding} (h : Stored s.world accounts)
    (hi : accounts[i]? = some held.bodies) (hmay : drawThenInsert.may held c) :
    Stored (InboxSequence.exec i env s c).1.world
      (accounts.set i (drawThenInsert.after held c (InboxSequence.exec i env s c).2).bodies) := by
  obtain ⟨ok, members⟩ := env
  cases ok with
  | false =>
    have hsame : (drawThenInsert.after held c
        (InboxSequence.exec i ⟨false, members⟩ s c).2).bodies = held.bodies := by
      cases c <;> rfl
    rw [hsame, set_of_getElem? hi]
    cases c <;> exact h.congr rfl rfl rfl
  | true =>
    cases c with
    | insertBody senderId groupId msgType content =>
      exact h.insertBody hi senderId groupId msgType content
    | insertIndex rows =>
      rw [show (drawThenInsert.after held _ _).bodies = held.bodies from rfl, set_of_getElem? hi]
      exact h.insertIndex hi hmay.2
    | _ =>
      rw [show (drawThenInsert.after held _ _).bodies = held.bodies from rfl, set_of_getElem? hi]
      exact h.congr rfl rfl rfl

theorem Stored.outside {u : ℤ} {o : Event} (h : Stored s.world accounts)
    (ho : InboxSequence.outside u o s = some s') : Stored s'.world accounts := by
  obtain ⟨limit, resp, -, -, rfl⟩ | ⟨members, relations, clock, rfl⟩ := outside_cases ho
  · exact h
  · exact h.congr rfl rfl rfl

end Stored

def heldBodies (holdings : List Holding) : List (List ℕ) := holdings.map Holding.bodies

theorem stored_of_reach {u : ℤ} {members : Keyed MemberRow.key} {relations : Keyed RelationRow.key}
    {r : Redis} {p : Calls}
    (h : Reach (system u).next anyStep ⟨start members relations r, []⟩ p) :
    Stored p.world.world (heldBodies p.accounts) := by
  have hstored := System.invariant (J := fun s accounts ↦ Stored s.world (heldBodies accounts))
    sendMessage_meets ?spawn ?exec ?outside h ⟨Pool.lawful_nil _ _, ?start⟩
  · exact hstored.2
  case spawn =>
    intro s accounts hs
    have hflat : (heldBodies (accounts ++ [⟨[], []⟩])).flatten = (heldBodies accounts).flatten := by
      simp [heldBodies]
    exact ⟨hs.indexed, fun msgId hmem ↦ hs.held msgId (hflat ▸ hmem), hs.below⟩
  case exec =>
    intro p i env c k held _ hi hmay hJ
    have hget : (heldBodies p.accounts)[i]? = some held.bodies := by
      rw [heldBodies, List.getElem?_map, Pool.accounts_of_threads hi]
      rfl
    rw [heldBodies, List.map_set]
    exact ⟨exec_answers i env p.world, hJ.exec hget hmay⟩
  case outside =>
    intro p o s _ ho hJ
    exact hJ.outside ho
  case start =>
    refine ⟨?_, ?_, ?_⟩ <;>
    · intro x hx
      exact absurd hx List.not_mem_nil

theorem mapM_item_of_body {rows : List TimelineRow} (h : ∀ r ∈ rows, ∃ b, r.body = some b) :
    ∃ msgs, rows.mapM TimelineRow.item? = some msgs := by
  induction rows with
  | nil => exact ⟨[], rfl⟩
  | cons r rows ih =>
    obtain ⟨b, hb⟩ := h r List.mem_cons_self
    obtain ⟨msgs, hmsgs⟩ := ih fun r' hr' ↦ h r' (List.mem_cons_of_mem r hr')
    simp [List.mapM_cons, TimelineRow.item?, hb, hmsgs]

theorem mem_selectTimeline {w : World} {userId localSeq : ℤ} {limit : ℕ} {reverse : Bool}
    {r : TimelineRow} (h : r ∈ w.selectTimeline userId localSeq limit reverse) :
    r.index ∈ w.index.rows ∧ r.body = w.bodies.find? fun b ↦ b.msgId = r.index.msgId := by
  obtain ⟨row, hrow, rfl⟩ := List.mem_map.mp h
  refine ⟨?_, rfl⟩
  split_ifs at hrow
  · exact (List.mem_filter.mp (mem_of_mem_page hrow)).1
  · exact (List.mem_filter.mp (mem_of_mem_page hrow)).1

section Join

variable {w : World} (h : ∀ r ∈ w.index.rows, ∃ b ∈ w.bodies, b.msgId = r.msgId)
include h

theorem body_of_selectTimeline {userId localSeq : ℤ} {limit : ℕ} {reverse : Bool}
    {row : TimelineRow} (hrow : row ∈ w.selectTimeline userId localSeq limit reverse) :
    ∃ b, row.body = some b ∧ b.msgId = row.index.msgId := by
  obtain ⟨hindex, hbody⟩ := mem_selectTimeline hrow
  obtain ⟨b, hb, hid⟩ := h row.index hindex
  have hsome : (w.bodies.find? fun b ↦ b.msgId = row.index.msgId).isSome :=
    List.find?_isSome.mpr ⟨b, hb, decide_eq_true hid⟩
  obtain ⟨b', hb'⟩ := Option.isSome_iff_exists.mp hsome
  have hid' := List.find?_some hb'
  exact ⟨b', hbody.trans hb', of_decide_eq_true hid'⟩

theorem syncMessages_replies (req : SyncMessagesReq) : ∃ resp, syncMessages w req = some resp := by
  have hbodies : ∀ row ∈ w.selectTimeline req.userId req.localSeq (pageLimit req.limit) req.reverse,
      ∃ b, row.body = some b := by
    intro row hrow
    obtain ⟨b, hb, -⟩ := body_of_selectTimeline h hrow
    exact ⟨b, hb⟩
  obtain ⟨msgs, hmsgs⟩ := mapM_item_of_body hbodies
  simp only [syncMessages, hmsgs, Option.map_some]
  exact ⟨_, rfl⟩

end Join

/-- A pull never throws: the join finds a body for every row. -/
theorem pull_replies {u : ℤ} {members : Keyed MemberRow.key} {relations : Keyed RelationRow.key}
    {r : Redis} {p : Calls}
    (h : Reach (system u).next anyStep ⟨start members relations r, []⟩ p) (req : SyncMessagesReq) :
    ∃ resp, syncMessages p.world.world req = some resp :=
  syncMessages_replies (stored_of_reach h).indexed req

theorem fresh_of_reach {u : ℤ} {members : Keyed MemberRow.key} {relations : Keyed RelationRow.key}
    {r : Redis} {p : Calls}
    (h : Reach (system u).next anyStep ⟨start members relations r, []⟩ p) :
    Fresh p.world.world := by
  have hstored := stored_of_reach h
  intro row hrow
  obtain ⟨b, hb, hid⟩ := hstored.indexed row hrow
  rw [← hid]
  exact hstored.below b hb

theorem not_taken_of_reach {u : ℤ} {members : Keyed MemberRow.key}
    {relations : Keyed RelationRow.key} {r : Redis} {p : Calls}
    (h : Reach (system u).next anyStep ⟨start members relations r, []⟩ p) (v : ℤ) {seq : ℕ}
    (hseq : seq = 0 ∨ p.world.world.redis.counters (seqKey v) < seq) :
    (v, seq) ∉ p.world.world.index.rows.map IndexRow.key := by
  intro hv
  obtain ⟨row, hrow, hkey⟩ := List.mem_map.mp hv
  obtain ⟨rfl, rfl⟩ := Prod.mk.inj hkey
  have hbounds := (ledger_of_reach h).2.bounded row hrow
  omega

/-- Between concurrent calls no number is taken, so that only the failures
decide whether a reply of success can be trusted. -/
theorem acknowledged_iff_of_reach {u : ℤ} {members : Keyed MemberRow.key}
    {relations : Keyed RelationRow.key} {r : Redis} {p : Calls}
    (h : Reach (system u).next anyStep ⟨start members relations r, []⟩ p) (fails : ℕ → Bool)
    (req : SendMessageReq) :
    Acknowledged p.world.world req (send fails p.world.world req) ↔
      fails 0 ∨ fails 1 ∨ fails 2 ∨
        if 0 < req.groupId then
          p.world.world.membersOf req.groupId = [] ∨
            fails 3 = false ∧
              (∀ i < (p.world.world.membersOf req.groupId).length, fails (4 + i) = false) ∧
              fails (4 + (p.world.world.membersOf req.groupId).length) = false
        else
          maySend (isFriend (if fails 3 then none
            else some (p.world.world.statusOf req.senderId req.receiverId))) req.type = false ∨
            fails 4 = false ∨ fails 5 := by
  have hnew : ∀ v, (v, p.world.world.redis.counters (seqKey v) + 1) ∉
      p.world.world.index.rows.map IndexRow.key :=
    fun v ↦ not_taken_of_reach h v (.inr (Nat.lt_succ_self _))
  have hpos : ∀ v, (v, 0) ∉ p.world.world.index.rows.map IndexRow.key :=
    fun v ↦ not_taken_of_reach h v (.inl rfl)
  have hiff : Acknowledged p.world.world req (send fails p.world.world req) ↔
      Noticed fails p.world.world req :=
    ⟨noticed_of_acknowledged (fresh_of_reach h), acknowledged_of_noticed⟩
  rw [hiff, Noticed]
  simp only [hnew, hpos, not_false_eq_true, implies_true, and_true, or_false]

end TinyIM.Chat.MessageBodies

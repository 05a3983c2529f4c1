import TinyIM.Chat.CursorSync
import TinyIM.Chat.Mailbox

namespace TinyIM.Chat.MailboxService

open Library.ByteOrder Library.Delimited Library.Page Library.Program Library.Service Library.Table
  Protocol Store Mailbox Acknowledgement

/-- `none` where `std::stoll` throws on the columns of a missing body. -/
def shown (w : World) (r : IndexRow) : Option MessageItem := (w.timeline r).item?

section Items

variable {box : List Mail}

@[simp] theorem length_items : (Mailboxes.items box).length = box.length := List.length_mapIdx

theorem seqIds_items (box : List Mail) :
    (Mailboxes.items box).map MessageItem.seqId = (List.range' 1 box.length).map Nat.cast := by
  refine List.ext_getElem (by simp) ?_
  intro i _ _
  simp [Mailboxes.items, Nat.add_comm]

theorem items_concat (mail : Mail) :
    Mailboxes.items (box ++ [mail]) = Mailboxes.items box ++
      [{ msgId := mail.msgId, seqId := box.length + 1, senderId := mail.senderId, groupId := mail.groupId,
         type := mail.type, content := mail.content, createdAt := mail.createdAt }] := by
  simp [Mailboxes.items, List.mapIdx_append]

end Items

section Lists

variable {ρ μ : Type}

/-- Rows numbered without gaps: those behind a cursor are the rest of them. -/
theorem filter_eq_drop_of_numbered {f : ρ → ℕ} {rows : List ρ} {k : ℕ} (c : ℤ)
    (h : rows.map f = List.range' (k + 1) rows.length) :
    rows.filter (fun r ↦ c < (f r : ℤ)) = rows.drop (c - k).toNat := by
  induction rows generalizing k with
  | nil => simp
  | cons r rows ih =>
    rw [List.map_cons, List.length_cons, List.range'_succ, List.cons.injEq] at h
    obtain ⟨hfirst, hrest⟩ := h
    have hih := ih hrest
    rw [List.filter_cons, hih]
    by_cases hc : c ≤ k
    · have hzero : (c - k).toNat = 0 := by omega
      have hzero' : (c - (k + 1 : ℕ)).toNat = 0 := by omega
      rw [if_pos (decide_eq_true (by omega)), hzero, hzero']
      rfl
    · have hsucc : (c - k).toNat = (c - (k + 1 : ℕ)).toNat + 1 := by omega
      rw [if_neg (by simp only [decide_eq_true_eq]; omega), hsucc]
      rfl

theorem mapM_of_map_eq {f : ρ → Option μ} {rows : List ρ} {items : List μ} (h : rows.map f = items.map some) :
    rows.mapM f = some items := by
  induction rows generalizing items with
  | nil =>
    obtain rfl := List.map_eq_nil_iff.mp h.symm
    rfl
  | cons r rows ih =>
    cases items with
    | nil => exact absurd h (by simp)
    | cons item items =>
      obtain ⟨hitem, hitems⟩ := List.cons.inj h
      rw [List.mapM_cons, hitem, ih hitems]
      rfl

end Lists

theorem eq_of_bySeq {w : World} {u : ℤ} :
    ∀ r ∈ w.inbox u, ∀ r' ∈ w.inbox u, bySeq r r' → bySeq r' r → r = r' := by
  intro r hr r' hr' hle hge
  obtain ⟨hrow, howner⟩ := List.mem_filter.mp hr
  obtain ⟨hrow', howner'⟩ := List.mem_filter.mp hr'
  refine Keyed.eq_of_key_eq hrow hrow' (Prod.ext ?_ (le_antisymm hle hge))
  exact (of_decide_eq_true howner).trans (of_decide_eq_true howner').symm

theorem foldl_maxSeq (msgs : List MessageItem) (c : ℤ) :
    msgs.foldl (fun maxSeq m ↦ if m.seqId > maxSeq then m.seqId else maxSeq) c =
      (msgs.map MessageItem.seqId).foldl max c := by
  induction msgs generalizing c with
  | nil => rfl
  | cons x msgs ih =>
    rw [List.foldl_cons, ih, List.map_cons, List.foldl_cons]
    congr 1
    split_ifs <;> omega

section Holds

variable {w : World} {m : Mailboxes} (h : Holds w m)
include h

theorem seqIds_inbox (u : ℤ) :
    (w.inbox u).map IndexRow.seqId = List.range' 1 (m.box u).length := by
  have hseq : (w.inbox u).map (fun r ↦ (shown w r).map MessageItem.seqId) =
      (List.range' 1 (m.box u).length).map fun n : ℕ ↦ some (n : ℤ) := by
    have hboxes := congrArg (List.map (Option.map MessageItem.seqId)) (h.boxes u)
    have hitems := congrArg (List.map some) (seqIds_items (m.box u))
    rw [List.map_map, List.map_map] at hboxes hitems
    exact hboxes.trans hitems
  have hshown : ∀ r ∈ w.inbox u, (shown w r).map MessageItem.seqId = some (r.seqId : ℤ) := by
    intro r hr
    have hmem : shown w r ∈ (Mailboxes.items (m.box u)).map some :=
      h.boxes u ▸ List.mem_map_of_mem (f := shown w) hr
    obtain ⟨item, -, hitem⟩ := List.mem_map.mp hmem
    obtain ⟨b, -, rfl⟩ := Option.map_eq_some_iff.mp hitem.symm
    rw [← hitem]
    rfl
  have hinjective : Function.Injective fun n : ℕ ↦ some (n : ℤ) := by
    intro a b hab
    exact Int.ofNat.inj (Option.some.inj hab)
  rw [List.map_congr_left hshown] at hseq
  refine List.map_injective_iff.mpr hinjective ?_
  rw [List.map_map]
  exact hseq

theorem length_inbox (u : ℤ) : (w.inbox u).length = (m.box u).length := by
  have := congrArg List.length (seqIds_inbox h u)
  simpa using this

theorem seqId_le {u : ℤ} {r : IndexRow} (hr : r ∈ w.inbox u) : 1 ≤ r.seqId ∧ r.seqId ≤ (m.box u).length := by
  have hmem : r.seqId ∈ List.range' 1 (m.box u).length :=
    seqIds_inbox h u ▸ List.mem_map_of_mem (f := IndexRow.seqId) hr
  rw [List.mem_range'_1] at hmem
  omega

theorem free_of_holds (u : ℤ) : (u, w.redis.counters (seqKey u) + 1) ∉ w.index.rows.map IndexRow.key := by
  intro hmem
  obtain ⟨r, hr, hkey⟩ := List.mem_map.mp hmem
  obtain ⟨howner, hseq⟩ := Prod.mk.inj hkey
  have hle := (seqId_le h (List.mem_filter.mpr ⟨hr, decide_eq_true howner⟩)).2
  rw [h.counters] at hseq
  omega

theorem pairwise_inbox (u : ℤ) : (w.inbox u).Pairwise bySeq := by
  have hsorted : (List.range' 1 (m.box u).length).Pairwise (· ≤ ·) := List.pairwise_le_range' 1
  rw [← seqIds_inbox h u, List.pairwise_map] at hsorted
  exact hsorted

theorem page_forward (u c : ℤ) (limit : ℕ) :
    page bySeq (w.rowsAfter u c) limit = ((w.inbox u).drop c.toNat).take limit := by
  have hrows : w.rowsAfter u c = (w.inbox u).drop c.toNat := by
    have hnumbered : (w.inbox u).map IndexRow.seqId = List.range' (0 + 1) (w.inbox u).length := by
      rw [length_inbox h, Nat.zero_add, seqIds_inbox h]
    have hdrop := filter_eq_drop_of_numbered c hnumbered
    rw [Nat.cast_zero, Int.sub_zero, World.inbox, List.filter_filter] at hdrop
    rw [World.inbox, ← hdrop]
    simp only [World.rowsAfter, Bool.decide_and, Bool.and_comm]
  rw [hrows]
  exact page_of_pairwise ((pairwise_inbox h u).drop)

theorem page_reverse (u : ℤ) (limit : ℕ) :
    page (fun r r' ↦ bySeq r' r) (w.inbox u) limit = (w.inbox u).reverse.take limit :=
  page_flip_of_pairwise (pairwise_inbox h u) eq_of_bySeq

theorem shown_reverse_take (u : ℤ) (limit : ℕ) :
    ((w.inbox u).reverse.take limit).map (shown w) =
      ((Mailboxes.items (m.box u)).reverse.take limit).map some := by
  rw [List.map_take, List.map_reverse, List.map_take, List.map_reverse, ← h.boxes u]
  rfl

theorem shown_drop_take (u : ℤ) (n limit : ℕ) :
    (((w.inbox u).drop n).take limit).map (shown w) =
      (((Mailboxes.items (m.box u)).drop n).take limit).map some := by
  rw [List.map_take, List.map_drop, List.map_take, List.map_drop, ← h.boxes u]
  rfl

/-- The page is what the boxes show. -/
theorem shown_selectTimeline (req : SyncMessagesReq) :
    (w.selectTimeline req.userId req.localSeq (pageLimit req.limit) req.reverse).map
        TimelineRow.item? = (m.sync req).msgs.map some := by
  rw [World.selectTimeline, Mailboxes.sync]
  cases req.reverse with
  | true =>
    have hpage := page_reverse h req.userId (pageLimit req.limit)
    rw [if_pos rfl, if_pos rfl, List.map_map, ← shown_reverse_take h, ← hpage]
    rfl
  | false =>
    rw [if_neg Bool.false_ne_true, if_neg Bool.false_ne_true, List.map_map, ← shown_drop_take h,
      page_forward h]
    rfl

theorem sync_of_holds (req : SyncMessagesReq) : syncMessages w req = some (m.sync req) := by
  have hmsgs := mapM_of_map_eq (shown_selectTimeline h req)
  simp only [syncMessages, hmsgs, Option.map_some, foldl_maxSeq]
  rfl

end Holds

section Store

variable {w : World} {m : Mailboxes} {req : SendMessageReq}

theorem shown_isSome (h : Holds w m) {u : ℤ} {r : IndexRow} (hr : r ∈ w.inbox u) :
    ∃ b, w.bodies.find? (fun b ↦ b.msgId = r.msgId) = some b := by
  have hmem : shown w r ∈ (Mailboxes.items (m.box u)).map some :=
    h.boxes u ▸ List.mem_map_of_mem (f := shown w) hr
  obtain ⟨item, -, hitem⟩ := List.mem_map.mp hmem
  obtain ⟨b, hb, -⟩ := Option.map_eq_some_iff.mp hitem.symm
  exact ⟨b, hb⟩

theorem holds_bodyStored (h : Holds w m) (req : SendMessageReq) :
    Holds (bodyStored w req) { m with nextMsgId := m.nextMsgId + 1 } where
  boxes u := by
    refine Eq.trans (List.map_congr_left ?_) (h.boxes u)
    intro r hr
    obtain ⟨b, hb⟩ := shown_isSome h hr
    have hkept : (bodyStored w req).timeline r = w.timeline r := by
      rw [World.timeline, World.timeline, hb]
      change TimelineRow.mk r (List.find? _ (w.bodies ++ _)) = _
      rw [List.find?_append, hb]
      rfl
    rw [hkept]
  counters := h.counters
  stored := by
    intro b hb
    rcases List.mem_append.mp hb with hb | hb
    · exact Nat.lt_succ_of_lt (h.stored b hb)
    · obtain rfl := List.mem_singleton.mp hb
      exact Nat.lt_succ_self _
  nextMsgId := congrArg (· + 1) h.nextMsgId
  members := h.members
  friend := h.friend
  clock := h.clock

theorem find_bodyStored (h : Holds w m) (req : SendMessageReq) :
    (bodyStored w req).bodies.find? (fun b ↦ b.msgId = w.nextMsgId) =
      some ⟨w.nextMsgId, req.senderId, req.groupId, req.type, req.content, w.clock⟩ := by
  have hnone : w.bodies.find? (fun b ↦ b.msgId = w.nextMsgId) = none := by
    refine List.find?_eq_none.mpr ?_
    intro b hb heq
    exact absurd (of_decide_eq_true heq) (Nat.ne_of_lt (h.stored b hb))
  change (w.bodies ++ _).find? _ = _
  rw [List.find?_append, hnone]
  simp

/-- The counters of `users` went up by one. -/
def Drawn (r r' : Redis) (users : List ℤ) : Prop :=
  ∀ v, r'.counters (seqKey v) = r.counters (seqKey v) + if v ∈ users then 1 else 0

def rowFor (w : World) (otherId : ℤ) (msgId : ℕ) (u : ℤ) : IndexRow :=
  ⟨u, otherId, msgId, w.redis.counters (seqKey u) + 1, 0⟩

theorem filter_rowFor (otherId : ℤ) (msgId : ℕ) {users : List ℤ} (hnodup : users.Nodup) (u : ℤ) :
    (users.map (rowFor w otherId msgId)).filter (fun r ↦ r.ownerId = u) =
      if u ∈ users then [rowFor w otherId msgId u] else [] := by
  induction users with
  | nil => rfl
  | cons v users ih =>
    obtain ⟨hv, hrest⟩ := List.nodup_cons.mp hnodup
    rw [List.map_cons, List.filter_cons, ih hrest]
    by_cases hu : v = u
    · subst hu
      simp [rowFor, hv]
    · have hmem : u ∈ v :: users ↔ u ∈ users := List.mem_cons.trans (or_iff_right (Ne.symm hu))
      have hother : ¬ decide ((rowFor w otherId msgId v).ownerId = u) = true := decide_eq_true_iff.not.mpr hu
      rw [if_neg hother, if_congr hmem rfl rfl]

theorem holds_deliver (h : Holds w m) {otherId : ℤ} {msgId : ℕ} {b : BodyRow}
    (hb : w.bodies.find? (fun b ↦ b.msgId = msgId) = some b) {users : List ℤ} (hnodup : users.Nodup)
    {index : Keyed IndexRow.key} (hrows : index.rows = w.index.rows ++ users.map (rowFor w otherId msgId))
    {r : Redis} (hdrawn : Drawn w.redis r users) :
    Holds { w with index := index, redis := r }
      (m.deliver users
        ⟨msgId, b.senderId, b.groupId, b.msgType, cString b.msgContent, cString b.createdAt⟩) where
  boxes u := by
    change (index.rows.filter fun r ↦ r.ownerId = u).map (shown w) = _
    rw [hrows, List.filter_append, filter_rowFor otherId msgId hnodup, List.map_append]
    have hbox : ((w.index.rows.filter fun r ↦ r.ownerId = u).map (shown w)) = _ := h.boxes u
    rw [hbox, Mailboxes.box_deliver]
    split_ifs with hu
    · rw [items_concat, List.map_append]
      simp [shown, World.timeline, rowFor, hb, TimelineRow.item?, h.counters]
    · simp
  counters v := by
    refine (hdrawn v).trans ?_
    rw [h.counters, Mailboxes.box_deliver]
    split_ifs <;> simp
  stored := h.stored
  nextMsgId := h.nextMsgId
  members := h.members
  friend := h.friend
  clock := h.clock

end Store

section Runs

variable {fails : ℕ → Bool} {n : ℕ} {w : World} {req : SendMessageReq}

theorem drawn_nextSeq (hn : fails n = false) (u : ℤ) :
    ∃ r, Drawn w.redis r [u] ∧ run (exec fails) n w (nextSeq u) =
      ⟨{ w with redis := r }, [.incr (seqKey u)], number fails w n u⟩ := by
  refine ⟨(w.redis.incr (seqKey u)).1, ?_, ?_⟩
  · intro v
    by_cases hv : v = u
    · simp [Redis.incr, hv]
    · simp [Redis.incr, hv, Function.update_of_ne fun h ↦ hv (seqKey_injective h)]
  · simp [nextSeq, exec_of_not_fails fails w n hn, World.succeed, number, hn, Redis.incr]

theorem drawn_drawSeqs {members : List ℤ} (hnodup : members.Nodup)
    (hfails : ∀ i < members.length, fails (n + i) = false) :
    ∃ r, Drawn w.redis r members ∧ run (exec fails) n w (drawSeqs members) =
      ⟨{ w with redis := r }, members.map fun u ↦ .incr (seqKey u), numbered fails w n members⟩ := by
  induction members generalizing n w with
  | nil => exact ⟨w.redis, fun _ ↦ rfl, rfl⟩
  | cons u members ih =>
    obtain ⟨hu, hrest⟩ := List.nodup_cons.mp hnodup
    obtain ⟨r, hr, hrun⟩ := drawn_nextSeq (n := n) (w := w) (hfails 0 (Nat.succ_pos _)) u
    obtain ⟨r', hr', hrun'⟩ := ih (n := n + 1) (w := { w with redis := r }) hrest (by
      intro i hi
      rw [Nat.add_assoc, Nat.add_comm 1 i]
      exact hfails (i + 1) (Nat.succ_lt_succ hi))
    have hsame : numbered fails { w with redis := r } (n + 1) members =
        numbered fails w (n + 1) members := by
      apply numbered_congr fails w (n + 1)
      intro v hv
      rw [hr v, if_neg (by simpa using fun h : v = u ↦ hu (h ▸ hv))]
      rfl
    refine ⟨r', ?_, ?_⟩
    · intro v
      rw [hr' v, hr v]
      by_cases hv : v = u
      · subst hv
        simp [hu]
      · simp [hv]
    · simp [drawSeqs, run_bind, hrun, hrun', hsame, numbered_cons]

theorem state_fanOut (req : SendMessageReq) (msgId : ℕ) {members : List ℤ} (hsome : members ≠ []) (hnodup : members.Nodup)
    (hfails : ∀ i < members.length, fails (n + i) = false) :
    ∃ r, Drawn w.redis r members ∧ (run (exec fails) n w (fanOut req msgId members)).state =
      { w with
        index := inserted fails w (n + members.length)
          (indexRows req.groupId msgId (numbered fails w n members))
        redis := r } := by
  obtain ⟨r, hdrawn, hr⟩ := drawn_drawSeqs (w := w) hnodup hfails
  obtain ⟨hsame, -⟩ := run_pushes fails
    { w with index := inserted fails w (n + members.length)
              (indexRows req.groupId msgId (numbered fails w n members)),
             redis := r } (n + members.length + 1)
    (pushTargets_meets req.type (allowsPush (numbered fails w n members)) fun _ hx ↦ hx)
  refine ⟨r, hdrawn, ?_⟩
  rw [fanOut, if_neg hsome, run_bind, hr]
  simp only [run_perform_bind, List.length_map, exec_insertIndex]
  rw [run_bind_pure]
  exact hsame

theorem state_sendSingle (msgId : ℕ)
    (hmay : maySend (isFriend (if fails n then none
      else some (w.statusOf req.senderId req.receiverId))) req.type = true) (hn : fails (n + 1) = false) :
    ∃ r, Drawn w.redis r [req.receiverId] ∧ (run (exec fails) n w (sendSingle req msgId)).state =
      { w with
        index := inserted fails w (n + 2) [singleRow req msgId (number fails w (n + 1) req.receiverId)]
        redis := r } := by
  obtain ⟨r, hdrawn, hr⟩ := drawn_nextSeq (w := w) hn req.receiverId
  refine ⟨r, hdrawn, ?_⟩
  rw [sendSingle, run_perform_bind, exec_selectRelation]
  simp only [hmay, if_true]
  rw [run_bind, hr]
  simp only [run_perform_bind, exec_insertIndex, List.length_singleton]
  exact (run_finishSingle fails _ (n + 3) req msgId _ _).2.1

end Runs

section Send

variable {fails : ℕ → Bool} {w : World} {m : Mailboxes} {req : SendMessageReq}

theorem rows_indexRows {n : ℕ} {members : List ℤ} (groupId : ℤ) (msgId : ℕ)
    (hfails : ∀ i < members.length, fails (n + i) = false) :
    indexRows groupId msgId (numbered fails w n members) = members.map (rowFor w groupId msgId) := by
  rw [numbered_of_incr hfails, indexRows, List.map_map]
  rfl

theorem value_of_fails (h : fails 0 = true ∨ fails 1 = true ∨ fails 2 = true) :
    (send fails w req).value = (m.send fails req).2 ∧ (m.send fails req).1 = m := by
  rw [send, sendMessage, run_perform_bind, run_perform_bind, Mailboxes.send]
  cases h0 : fails 0 with
  | true =>
    rw [exec_of_fails fails w 0 h0]
    exact ⟨rfl, rfl⟩
  | false =>
    rw [exec_of_not_fails fails w 0 h0]
    cases h1 : fails 1 with
    | true =>
      rw [exec_of_fails fails _ 1 h1]
      exact ⟨rfl, rfl⟩
    | false =>
      have h2 : fails 2 = true := by simpa [h0, h1] using h
      rw [exec_of_not_fails fails _ 1 h1]
      simp only [World.succeed, Bool.not_true, Bool.or_false, Bool.false_eq_true, if_false,
        run_perform_bind, exec_of_fails fails w 2 h2, h2]
      exact ⟨rfl, rfl⟩

theorem mail_of_holds (h : Holds w m) :
    Mail.mk w.nextMsgId req.senderId req.groupId req.type (cString req.content) (cString w.clock) =
      ⟨m.nextMsgId, req.senderId, req.groupId, req.type, cString req.content, cString m.clock⟩ := by
  rw [h.nextMsgId, h.clock]

theorem send_of_holds_group (h : Holds w m) (hgroup : 0 < req.groupId) (h0 : fails 0 = false)
    (h1 : fails 1 = false) (h2 : fails 2 = false)
    (hrest : ∀ n, 3 ≤ n → n ≤ 4 + (w.membersOf req.groupId).length → fails n = false) :
    Holds (send fails w req).state (m.send fails req).1 ∧ (send fails w req).value = (m.send fails req).2 := by
  have hstored := holds_bodyStored h req
  have hsent : m.send fails req = _ :=
    (if_neg (by simp [h0, h1])).trans ((if_neg (by simp [h2])).trans (if_pos hgroup))
  have h3 : fails 3 = false := hrest 3 le_rfl (by omega)
  rw [hsent]
  by_cases hempty : w.membersOf req.groupId = []
  · have hstate : (send fails w req).state = bodyStored w req := by
      rw [send_of_stored h0 h1 h2, if_pos hgroup, run_sendGroup, h3]
      change (run _ _ _ (fanOut req w.nextMsgId (w.membersOf req.groupId))).state = _
      rw [fanOut, if_pos hempty]
      rfl
    have hnobody : m.members req.groupId = [] := h.members ▸ hempty
    rw [hstate, (send_group_unread hgroup h0 h1 h2 (.inr hempty)).1, hnobody, h.nextMsgId]
    exact ⟨hstored, rfl⟩
  · have hincr : ∀ i < (w.membersOf req.groupId).length, fails (4 + i) = false :=
      fun i hi ↦ hrest (4 + i) (by omega) (by omega)
    have hnodup := membersOf_nodup w req.groupId
    obtain ⟨r, hdrawn, hstate⟩ := state_fanOut (n := 4) (w := bodyStored w req) req w.nextMsgId
      hempty hnodup hincr
    have hfree : (bodyStored w req).index.Free
        (indexRows req.groupId w.nextMsgId (numbered fails (bodyStored w req) 4 (w.membersOf req.groupId))) :=
      (free_indexRows_iff (w := bodyStored w req) _ _ hnodup hincr).mpr fun u _ ↦ free_of_holds hstored u
    have hrows := inserted_of_free (w := bodyStored w req)
      (hrest (4 + (w.membersOf req.groupId).length) (by omega) le_rfl) hfree
    rw [rows_indexRows _ _ hincr] at hrows hstate
    have hall : (send fails w req).state = _ := congrArg Finished.state (send_of_stored h0 h1 h2)
    rw [if_pos hgroup, run_sendGroup, h3] at hall
    have hdelivered := holds_deliver hstored (find_bodyStored h req) hnodup hrows hdrawn
    rw [hall.trans hstate, (send_group hgroup h0 h1 h2 h3 hempty hnodup).1, ← mail_of_holds h,
      ← congrFun h.members req.groupId]
    exact ⟨hdelivered, by rw [h.nextMsgId]⟩

theorem send_of_holds_single (h : Holds w m) (hsingle : ¬ 0 < req.groupId) (h0 : fails 0 = false)
    (h1 : fails 1 = false) (h2 : fails 2 = false) (hrest : ∀ n, 3 ≤ n → n ≤ 5 → fails n = false) :
    Holds (send fails w req).state (m.send fails req).1 ∧ (send fails w req).value = (m.send fails req).2 := by
  have hstored := holds_bodyStored h req
  have hsent : m.send fails req = _ :=
    (if_neg (by simp [h0, h1])).trans ((if_neg (by simp [h2])).trans (if_neg hsingle))
  have h3 : fails 3 = false := hrest 3 le_rfl (by omega)
  have h4 : fails 4 = false := hrest 4 (by omega) (by omega)
  rw [hsent, ← h.friend]
  cases hmay : maySend (isFriend (some (w.statusOf req.senderId req.receiverId))) req.type with
  | false =>
    have hrefused := run_sendSingle_refused fails (bodyStored w req) 3 req w.nextMsgId (by rw [h3]; exact hmay)
    rw [send_of_stored h0 h1 h2, if_neg hsingle, hrefused]
    exact ⟨hstored, rfl⟩
  | true =>
    have hmay' : maySend (isFriend (if fails 3 then none
        else some (w.statusOf req.senderId req.receiverId))) req.type = true := by rw [h3]; exact hmay
    obtain ⟨r, hdrawn, hstate⟩ := state_sendSingle (w := bodyStored w req) w.nextMsgId hmay' h4
    have hnumber : number fails w 4 req.receiverId = (m.box req.receiverId).length + 1 := by
      rw [number, h4, h.counters]
      rfl
    have hrow : [singleRow req w.nextMsgId (number fails w 4 req.receiverId)] =
        [req.receiverId].map (rowFor w req.senderId w.nextMsgId) := by
      rw [number, h4]
      rfl
    have hfree : w.index.Free [singleRow req w.nextMsgId (number fails w 4 req.receiverId)] := by
      refine Keyed.free_iff.mpr ⟨List.nodup_singleton _, ?_⟩
      intro r hr
      obtain rfl := List.mem_singleton.mp hr
      rw [number, h4]
      exact free_of_holds h req.receiverId
    have hrows := inserted_of_free (w := bodyStored w req) (hrest 5 (by omega) le_rfl) hfree
    have hok : insertedOk fails w 5 [singleRow req w.nextMsgId (number fails w 4 req.receiverId)] = true := by
      obtain ⟨index, hindex, -⟩ := Keyed.insert_of_free hfree
      rw [insertedOk, hrest 5 (by omega) le_rfl, hindex]
      rfl
    have hall : (send fails w req).state = _ := congrArg Finished.state (send_of_stored h0 h1 h2)
    rw [if_neg hsingle] at hall
    have hdelivered := holds_deliver hstored (find_bodyStored h req) (List.nodup_singleton _)
      (hrows.trans (congrArg _ hrow)) hdrawn
    rw [hall.trans hstate, (send_single hsingle h0 h1 h2 hmay').1, hok, hnumber, ← mail_of_holds h]
    exact ⟨hdelivered, by rw [h.nextMsgId]; rfl⟩

end Send

theorem simulates : Simulates serve Sound Mailboxes.serve Holds := by
  intro w m call hsound h
  cases call with
  | sync index bodies req =>
    obtain ⟨rfl, rfl⟩ := hsound
    exact ⟨h, congrArg Outcome.synced (sync_of_holds h req)⟩
  | change members relations hashes clock =>
    exact ⟨⟨h.boxes, h.counters, h.stored, h.nextMsgId, rfl, fun _ _ ↦ rfl, rfl⟩, rfl⟩
  | send fails req =>
    by_cases hfails : fails 0 = true ∨ fails 1 = true ∨ fails 2 = true
    · obtain ⟨hvalue, hsame⟩ : (send fails w req).value = (m.send fails req).2 ∧ (m.send fails req).1 = m :=
        value_of_fails hfails
      refine ⟨?_, congrArg Outcome.sent hvalue⟩
      change Holds (send fails w req).state (m.send fails req).1
      rw [hsame, (send_of_fails hfails).1]
      exact h
    · obtain ⟨h0, h1, h2⟩ : fails 0 = false ∧ fails 1 = false ∧ fails 2 = false := by
        simpa using hfails
      have hrest := ((hsound.resolve_left (by simp [h0])).resolve_left (by simp [h1])).resolve_left (by simp [h2])
      have hsent : Holds (send fails w req).state (m.send fails req).1 ∧
          (send fails w req).value = (m.send fails req).2 := by
        by_cases hgroup : 0 < req.groupId
        · rw [if_pos hgroup] at hrest
          exact send_of_holds_group h hgroup h0 h1 h2 hrest
        · rw [if_neg hgroup] at hrest
          exact send_of_holds_single h hgroup h0 h1 h2 hrest
      exact ⟨hsent.1, congrArg Outcome.sent hsent.2⟩

/-- Before the first message. -/
def start (members : Keyed MemberRow.key) (relations : Keyed RelationRow.key)
    (hashes : Bytes → AList fun _ : Bytes ↦ Bytes) (clock : Bytes) : World :=
  ⟨[], 1, .empty, members, relations, ⟨hashes, fun _ ↦ 0⟩, clock⟩

theorem holds_start (members : Keyed MemberRow.key) (relations : Keyed RelationRow.key)
    (hashes : Bytes → AList fun _ : Bytes ↦ Bytes) (clock : Bytes) :
    Holds (start members relations hashes clock) (.empty members relations clock) :=
  ⟨fun _ ↦ rfl, fun _ ↦ rfl, fun _ hb ↦ absurd hb List.not_mem_nil, rfl, rfl, fun _ _ ↦ rfl, rfl⟩

/-- Through its replies the chat service cannot be told from mailboxes. -/
theorem replies_of_mailboxes (members : Keyed MemberRow.key) (relations : Keyed RelationRow.key)
    (hashes : Bytes → AList fun _ : Bytes ↦ Bytes) (clock : Bytes) (calls : List Call)
    (h : Permits serve Sound (start members relations hashes clock) calls) :
    replies serve (start members relations hashes clock) calls =
      replies Mailboxes.serve (.empty members relations clock) calls :=
  (simulates.replies_eq h (holds_start members relations hashes clock)).1

/-- What a slave shows after two messages. -/
def mirrored : Keyed IndexRow.key := ⟨[⟨2, 1, 1, 1, 0⟩, ⟨3, 1, 1, 1, 0⟩, ⟨3, 9, 2, 2, 0⟩], by decide⟩

def mirroredBodies : List BodyRow := [⟨1, 2, 1, 1, [104, 105, 0, 106], []⟩, ⟨2, 9, 0, 3, [107], []⟩]

/-- The third send is lost before its body is stored. -/
def exchange : List Call :=
  [.send (fun _ ↦ false) { senderId := 2, groupId := 1, type := 1, content := [104, 105, 0, 106] },
    .send (fun _ ↦ false) { senderId := 9, receiverId := 3, type := 3, content := [107] },
    .send (fun n ↦ n = 2) { senderId := 2, groupId := 1, content := [108] },
    .sync mirrored mirroredBodies { userId := 3, localSeq := 1, limit := 5 },
    .sync mirrored mirroredBodies { userId := 3, localSeq := 0, limit := 1, reverse := true }]

theorem replies_of_mailboxes_exchange :
    Permits serve Sound (start pair.members .empty (fun _ ↦ ∅) []) exchange ∧
      (replies serve (start pair.members .empty (fun _ ↦ ∅) []) exchange).getLast? =
        some (.synced (some ⟨2, [⟨2, 2, 9, 0, 3, [107], []⟩], true⟩)) := by
  have hsound : Permits serve Sound (start pair.members .empty (fun _ ↦ ∅) []) exchange := by
    refine ⟨.inr (.inr (.inr ?_)), .inr (.inr (.inr ?_)), .inr (.inr (.inl rfl)), ⟨rfl, rfl⟩, ⟨rfl, rfl⟩, trivial⟩
    · exact fun _ _ _ ↦ rfl
    · exact fun _ _ _ ↦ rfl
  refine ⟨hsound, ?_⟩
  rw [replies_of_mailboxes _ _ _ _ _ hsound]
  decide

end TinyIM.Chat.MailboxService

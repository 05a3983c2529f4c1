import TinyIM.Chat.SessionOrder
import TinyIM.Web.SyncLoop

namespace TinyIM.Web.ReportedOnce

open Library.Page Library.Table Library.Transition Protocol Store Chat SyncLoop
open Chat.CursorSync (maxSeq_of_pull mem_rowsAfter)
open Chat.SessionOrder (increasing_of_pull)

/-- What `SyncMessages` has answered on the connection, in order. -/
def handedOut (s : Loop) : List MessageItem :=
  s.reported ++ s.toClient.flatMap Down.items ++ s.serving.toList.flatMap Down.items

/-- No pull of the connection is under way, and no reply that holds messages. -/
def Alone (s : Loop) : Prop := (∀ q ∈ s.toGateway, ¬ Pulls q) ∧ ∀ d ∈ s.pending, d.items = []

instance (s : Loop) : Decidable (Alone s) := inferInstanceAs (Decidable (_ ∧ _))

/-- A client pulls only when it is alone, and can read the numbers of its rows. -/
def PullsAlone (u : ℤ) (s : Loop) : SyncLoop.Action → Prop
  | .insert r => r.ownerId = u → r.seqId < 2 ^ 31
  | .deliver _ ownerId _ _ => ownerId = u → s.world.redis.counters (seqKey ownerId) + 1 < 2 ^ 31
  | .receive => ∀ d ∈ s.toClient.head?, (s.client.handleMessage d).2 ≠ [] → Alone s
  | .sync => s.client.syncMessages ≠ [] → Alone s
  | _ => True

instance (u : ℤ) (s : Loop) : (a : SyncLoop.Action) → Decidable (PullsAlone u s a)
  | .insert r => inferInstanceAs (Decidable (r.ownerId = u → r.seqId < 2 ^ 31))
  | .deliver _ ownerId _ _ =>
    inferInstanceAs (Decidable (ownerId = u → s.world.redis.counters (seqKey ownerId) + 1 < 2 ^ 31))
  | .receive => inferInstanceAs (Decidable (∀ d ∈ s.toClient.head?, (s.client.handleMessage d).2 ≠ [] → Alone s))
  | .sync => inferInstanceAs (Decidable (s.client.syncMessages ≠ [] → Alone s))
  | .store .. | .tick _ | .draw _ | .session _ | .push | .arrive | .open | .serve _ | .post | .heartbeat =>
    isTrue trivial

/-- The one request under way pulls from behind all that was handed out. -/
structure Requested (s : Loop) (c : ℤ) : Prop where
  only : s.toGateway.filter Pulls = [.msgSyncReq c]
  cursor : Int31 c
  pending : ∀ d ∈ s.pending, d.items = []
  reported : ∀ item ∈ s.reported, item.seqId ≤ c

structure Orderly (u : ℤ) (s : Loop) : Prop where
  numbers : ∀ w, w ∈ s.past ∨ w = s.world → ∀ r ∈ w.index.rows, r.ownerId = u → r.seqId < 2 ^ 31
  nodup : ((handedOut s).map MessageItem.seqId).Nodup
  localSeq : Int31 s.client.localSeq
  reported : ∀ item ∈ s.reported, item.seqId ≤ s.client.localSeq
  replies : ∀ resp, .msgSyncResp resp ∈ s.pending →
    Int31 resp.maxSeq ∧ ∀ item ∈ resp.msgs, item.seqId ≤ resp.maxSeq
  requests : s.toGateway.filter Pulls = [] ∨ ∃ c, Requested s c

section client

variable (c : Client)

/-- Whatever the client sends for a packet is one pull from where it is. -/
theorem handleMessage_sends (d : Down) : (c.handleMessage d).2 = [] ∨
    (c.handleMessage d).2 = [.msgSyncReq (c.handleMessage d).1.localSeq] := by
  cases d with
  | loginResp success =>
    cases success with
    | false => exact .inl rfl
    | true => exact .inr rfl
  | heartbeatResp =>
    rw [Client.handleMessage, Client.syncMessages]
    split_ifs
    · exact .inr rfl
    · exact .inl rfl
    · exact .inl rfl
  | msgPushNotify =>
    rw [Client.handleMessage, Client.syncMessages]
    split_ifs
    · exact .inr rfl
    · exact .inl rfl
  | msgSyncResp resp => exact .inl rfl

theorem localSeq_of_other {d : Down} (h : ∀ resp, d ≠ .msgSyncResp resp) :
    (c.handleMessage d).1.localSeq = c.localSeq := by
  cases d with
  | loginResp success => cases success <;> rfl
  | heartbeatResp => rfl
  | msgPushNotify => rfl
  | msgSyncResp resp => exact absurd rfl (h resp)

theorem localSeq_of_reply {resp : SyncMessagesResp} (h : Int31 resp.maxSeq) :
    (c.handleMessage (.msgSyncResp resp)).1.localSeq = max c.localSeq resp.maxSeq := by
  rw [Client.handleMessage, Client.onSyncResp, ResponseSchema.readInt_eq h]
  split_ifs with hlt
  · exact (max_eq_right hlt.le).symm
  · exact (max_eq_left (not_lt.mp hlt)).symm

end client

theorem mem_insertIndex {w : World} {rows : List IndexRow} {r : IndexRow}
    (h : r ∈ (w.succeed (.insertIndex rows)).1.index.rows) : r ∈ w.index.rows ∨ r ∈ rows := by
  rw [World.succeed] at h
  split at h
  · next index hinsert =>
    rw [(Keyed.rows_of_insert hinsert).2] at h
    exact List.mem_append.mp h
  · exact .inl h

theorem items_of_other {d : Down} (h : ∀ resp, d ≠ .msgSyncResp resp) : d.items = [] := by
  cases d with
  | msgSyncResp resp => exact absurd rfl (h resp)
  | _ => rfl

theorem alone_filter {s : Loop} (h : Alone s) : s.toGateway.filter Pulls = [] := by
  refine List.filter_eq_nil_iff.mpr ?_
  intro q hq
  simpa using h.1 q hq

namespace Orderly

variable {u : ℤ} {s s' : Loop}

/-- Steps that change neither what was handed out nor where the client is. -/
theorem of_same (h : Orderly u s)
    (hnumbers : ∀ w, w ∈ s'.past ∨ w = s'.world → (w ∈ s.past ∨ w = s.world) ∨
      ∀ r ∈ w.index.rows, r.ownerId = u → r.seqId < 2 ^ 31)
    (hclient : s'.client.localSeq = s.client.localSeq) (hreported : s'.reported = s.reported)
    (hhanded : handedOut s' = handedOut s)
    (hpending : ∀ d ∈ s'.pending, d ∈ s.pending ∨ ∀ resp, d ≠ .msgSyncResp resp)
    (hrequests : s'.toGateway.filter Pulls = s.toGateway.filter Pulls) : Orderly u s' := by
  refine ⟨?_, hhanded ▸ h.nodup, hclient ▸ h.localSeq, ?_, ?_, ?_⟩
  · intro w hw
    exact (hnumbers w hw).elim (h.numbers w) id
  · rw [hclient, hreported]
    exact h.reported
  · intro resp hresp
    exact h.replies resp ((hpending _ hresp).resolve_right fun hother ↦ hother resp rfl)
  · rw [hrequests]
    refine h.requests.imp id ?_
    rintro ⟨c, hc⟩
    refine ⟨c, hrequests.trans hc.only, hc.cursor, ?_, hreported ▸ hc.reported⟩
    intro d hd
    exact (hpending d hd).elim (hc.pending d) items_of_other

theorem sends (h : Orderly u s) {ups : List Up} (hups : ups = [] ∨ ups = [.msgSyncReq s.client.localSeq])
    (halone : ups ≠ [] → Alone s) : Orderly u { s with toGateway := s.toGateway ++ ups } := by
  rcases hups with rfl | rfl
  · rw [List.append_nil]
    exact h
  · have hs := halone (List.cons_ne_nil _ _)
    refine ⟨h.numbers, h.nodup, h.localSeq, h.reported, h.replies,
      .inr ⟨s.client.localSeq, ?_, h.localSeq, hs.2, h.reported⟩⟩
    rw [List.filter_append, alone_filter hs]
    rfl

/-- A packet that is handled, before the client sends anything for it. -/
theorem handled (h : Orderly u s) {d : Down} {rest : List Down} (htoClient : s.toClient = d :: rest) :
    Orderly u { s with
      client := (s.client.handleMessage d).1
      toClient := rest
      reported := s.reported ++ d.items } := by
  have hd : d ∈ s.pending := List.mem_append_right _ (htoClient ▸ List.mem_cons_self)
  have hsub : ∀ x ∈ s.serving.toList ++ rest, x ∈ s.pending := fun _ ↦ Loop.mem_pending_of_rest htoClient
  have hhanded : handedOut { s with
      client := (s.client.handleMessage d).1
      toClient := rest
      reported := s.reported ++ d.items } = handedOut s := by
    simp [handedOut, htoClient]
  obtain ⟨hseq, hle, hitems⟩ : Int31 (s.client.handleMessage d).1.localSeq ∧
      s.client.localSeq ≤ (s.client.handleMessage d).1.localSeq ∧
      ∀ item ∈ d.items, item.seqId ≤ (s.client.handleMessage d).1.localSeq := by
    by_cases hother : ∀ resp, d ≠ .msgSyncResp resp
    · rw [localSeq_of_other _ hother, items_of_other hother]
      exact ⟨h.localSeq, le_rfl, fun _ hitem ↦ absurd hitem List.not_mem_nil⟩
    · obtain ⟨resp, hd'⟩ := not_forall.mp hother
      obtain rfl := not_not.mp hd'
      obtain ⟨hrange, hbelow⟩ := h.replies resp hd
      rw [localSeq_of_reply _ hrange]
      refine ⟨⟨le_max_of_le_left h.localSeq.1, max_lt h.localSeq.2 hrange.2⟩, le_max_left _ _, ?_⟩
      intro item hitem
      exact le_max_of_le_right (hbelow item hitem)
  refine ⟨h.numbers, hhanded ▸ h.nodup, hseq, ?_, fun resp hresp ↦ h.replies resp (hsub _ hresp), ?_⟩
  · intro item hitem
    rcases List.mem_append.mp hitem with hold | hnew
    · exact (h.reported item hold).trans hle
    · exact hitems item hnew
  · refine h.requests.imp id ?_
    rintro ⟨c, hc⟩
    refine ⟨c, hc.only, hc.cursor, fun x hx ↦ hc.pending x (hsub x hx), ?_⟩
    change ∀ item ∈ s.reported ++ d.items, item.seqId ≤ c
    rw [hc.pending d hd, List.append_nil]
    exact hc.reported

theorem receive (h : Orderly u s) (hok : PullsAlone u s .receive) (hs : s.receive = some s') : Orderly u s' := by
  obtain ⟨d, rest, htoClient, rfl⟩ := Loop.receive_cases hs
  refine (h.handled htoClient).sends (handleMessage_sends s.client d) ?_
  intro hsent
  obtain ⟨hrequests, hpending⟩ := hok d (htoClient ▸ rfl) hsent
  exact ⟨hrequests, fun x hx ↦ hpending x (Loop.mem_pending_of_rest htoClient hx)⟩

/-- A pull that is answered, by whatever slave. -/
theorem answered (h : Orderly u s) {c : ℤ} {rest : List Up} {w : World} {resp : SyncMessagesResp}
    (hserving : s.serving = none) (hgateway : s.toGateway = .msgSyncReq c :: rest)
    (hw : w ∈ s.past ∨ w = s.world)
    (hresp : syncMessages w { userId := u, localSeq := c, limit := 50 } = some resp) (registered : Bool) :
    Orderly u { s with
      registered := registered
      toGateway := rest
      serving := some (.msgSyncResp resp) } := by
  have hfilter : s.toGateway.filter Pulls = .msgSyncReq c :: rest.filter Pulls := by
    rw [hgateway]
    exact List.filter_cons_of_pos rfl
  obtain ⟨c', hc⟩ := h.requests.resolve_left (hfilter ▸ List.cons_ne_nil _ _)
  obtain ⟨⟨⟩, hrest⟩ := List.cons.inj (hfilter.symm.trans hc.only)
  obtain ⟨hincreasing, hle, hpage⟩ := increasing_of_pull hresp
  have hnothing : s.toClient.flatMap Down.items = [] :=
    List.flatMap_eq_nil_iff.mpr fun d hd ↦ hc.pending d (List.mem_append_right _ hd)
  have hbefore : handedOut s = s.reported := by simp [handedOut, hserving, hnothing]
  refine ⟨h.numbers, ?_, h.localSeq, h.reported, ?_, .inl hrest⟩
  · have hafter : handedOut { s with
        registered := registered
        toGateway := rest
        serving := some (.msgSyncResp resp) } = s.reported ++ resp.msgs := by
      simp [handedOut, hnothing, Down.items]
    have hnodup := h.nodup
    rw [hbefore] at hnodup
    rw [hafter, List.map_append]
    refine hnodup.append (List.pairwise_map.mpr (hincreasing.imp ne_of_lt)) ?_
    intro n hold hnew
    obtain ⟨old, hmem, rfl⟩ := List.mem_map.mp hold
    obtain ⟨new, hmem', heq⟩ := List.mem_map.mp hnew
    have hbelow := hc.reported old hmem
    have habove := (hpage new hmem').1
    omega
  · intro resp' hresp'
    rcases List.mem_append.mp hresp' with hnew | hold
    · obtain rfl := Down.msgSyncResp.inj (List.mem_singleton.mp hnew)
      refine ⟨⟨hc.cursor.1.trans hle, ?_⟩, fun item hitem ↦ (hpage item hitem).2⟩
      obtain ⟨-, htop | ⟨r, hr, htop⟩⟩ := maxSeq_of_pull hresp
      · exact htop ▸ hc.cursor.2
      · obtain ⟨hrow, howner, -⟩ := mem_rowsAfter.mp (mem_of_mem_page hr)
        have hlt := h.numbers w hw r hrow howner
        omega
    · exact h.replies resp' (List.mem_append_right _ hold)

theorem serve (h : Orderly u s) {seen : ℕ} (hs : s.serve u seen = some s') : Orderly u s' := by
  obtain ⟨q, rest, d, hserving, hgateway, hd, rfl⟩ := Loop.serve_cases hs
  have hother : ∀ registered, (∀ resp, d ≠ .msgSyncResp resp) → ¬ Pulls q →
      Orderly u { s with registered := registered, toGateway := rest, serving := some d } := by
    intro registered hnot hq
    refine h.of_same (fun _ ↦ .inl) rfl rfl ?_ ?_ ?_
    · simp [handedOut, hserving, items_of_other hnot]
    · intro x hx
      rcases List.mem_append.mp hx with hnew | hold
      · exact .inr (List.mem_singleton.mp hnew ▸ hnot)
      · exact .inl (List.mem_append_right _ hold)
    · rw [hgateway, List.filter_cons_of_neg (by simpa using hq)]
  cases q with
  | loginReq =>
    obtain rfl := Option.some.inj hd
    exact hother _ nofun id
  | heartbeatReq =>
    obtain rfl := Option.some.inj hd
    exact hother _ nofun id
  | msgSyncReq c =>
    obtain ⟨resp, hresp, rfl⟩ := Option.map_eq_some_iff.mp hd
    exact h.answered hserving hgateway (s.slave_cases seen) hresp _

/-- A statement on the master. -/
theorem committed (h : Orderly u s) {w : World}
    (hw : ∀ r ∈ w.index.rows, r ∈ s.world.index.rows ∨ (r.ownerId = u → r.seqId < 2 ^ 31)) (pushing : ℕ) :
    Orderly u { s with world := w, past := s.past ++ [s.world], pushing := pushing } := by
  refine h.of_same ?_ rfl rfl rfl (fun _ ↦ .inl) rfl
  rintro w' (hpast | rfl)
  · exact .inl ((List.mem_append.mp hpast).imp id List.mem_singleton.mp)
  · refine .inr fun r hr howner ↦ ?_
    exact (hw r hr).elim (fun hold ↦ h.numbers s.world (.inr rfl) r hold howner) fun hlt ↦ hlt howner

theorem step (h : Orderly u s) {a : SyncLoop.Action} (hok : PullsAlone u s a) (hs : s.step u a = some s') :
    Orderly u s' := by
  have hworld : ∀ w : World, w.index = s.world.index → Orderly u { s with world := w } := by
    intro w hindex
    refine h.of_same ?_ rfl rfl rfl (fun _ ↦ .inl) rfl
    rintro w' (hpast | rfl)
    · exact .inl (.inl hpast)
    · exact .inr (hindex ▸ h.numbers s.world (.inr rfl))
  cases a with
  | store senderId groupId msgType content =>
    obtain rfl := Option.some.inj hs
    refine h.committed ?_ s.pushing
    exact fun _ hr ↦ .inl hr
  | tick clock =>
    obtain rfl := Option.some.inj hs
    exact hworld _ rfl
  | draw ownerId =>
    obtain rfl := Option.some.inj hs
    exact hworld _ rfl
  | insert r =>
    obtain ⟨-, hs⟩ := Option.ite_none_right_eq_some.mp hs
    obtain rfl := Option.some.inj hs
    refine h.committed ?_ s.pushing
    intro r' hr'
    refine (mem_insertIndex hr').imp id ?_
    intro hnew
    rw [List.mem_singleton.mp hnew]
    exact hok
  | deliver route ownerId otherId msgId =>
    obtain ⟨-, hs⟩ := Option.ite_none_right_eq_some.mp hs
    obtain rfl := Option.some.inj hs
    refine h.committed ?_ _
    intro r hr
    refine (mem_insertIndex hr).imp id ?_
    intro hnew
    obtain rfl := List.mem_singleton.mp hnew
    have hdrawn : ((s.world.succeed (.incr (seqKey ownerId))).2.getD 0) =
        s.world.redis.counters (seqKey ownerId) + 1 := rfl
    rw [hdrawn]
    exact hok
  | arrive =>
    obtain ⟨-, hs⟩ := Option.ite_none_right_eq_some.mp hs
    obtain rfl := Option.some.inj hs
    refine h.of_same (fun _ ↦ .inl) rfl rfl (by simp [handedOut, Down.items]) ?_ rfl
    intro d hd
    rw [Loop.pending, ← List.append_assoc] at hd
    rcases List.mem_append.mp hd with hold | hnew
    · exact .inl hold
    · obtain rfl := List.mem_singleton.mp hnew
      exact .inr nofun
  | post =>
    obtain ⟨d, hserving, rfl⟩ := Option.map_eq_some_iff.mp hs
    refine h.of_same (fun _ ↦ .inl) rfl rfl (by simp [handedOut, hserving]) ?_ rfl
    intro x hx
    refine .inl ?_
    simpa [Loop.pending, hserving, or_comm] using hx
  | session present =>
    obtain rfl := Option.some.inj hs
    exact h.of_same (fun _ ↦ .inl) rfl rfl rfl (fun _ ↦ .inl) rfl
  | push =>
    obtain ⟨-, hs⟩ := Option.ite_none_right_eq_some.mp hs
    obtain rfl := Option.some.inj hs
    exact h.of_same (fun _ ↦ .inl) rfl rfl rfl (fun _ ↦ .inl) rfl
  | «open» | heartbeat =>
    obtain ⟨-, hs⟩ := Option.ite_none_right_eq_some.mp hs
    obtain rfl := Option.some.inj hs
    refine h.of_same (fun _ ↦ .inl) rfl rfl rfl (fun _ ↦ .inl) ?_
    exact (List.filter_append _ _).trans (List.append_nil _)
  | serve seen => exact h.serve hs
  | receive => exact h.receive hok hs
  | sync =>
    obtain rfl := Option.some.inj hs
    refine h.sends ?_ hok
    rw [Client.syncMessages]
    split_ifs
    · exact .inr rfl
    · exact .inl rfl

end Orderly

theorem orderly_start (u : ℤ) (members : Keyed MemberRow.key) (relations : Keyed RelationRow.key)
    (r : Redis) : Orderly u (start members relations r) where
  numbers := by
    rintro w (hw | rfl) r hr
    · cases hw
    · cases hr
  nodup := List.nodup_nil
  localSeq := ⟨le_rfl, Int.pow_pos (by decide)⟩
  reported _ hitem := absurd hitem List.not_mem_nil
  replies _ hresp := absurd hresp List.not_mem_nil
  requests := .inl rfl

/-- A client that pulls only when it is alone reports every row at most once. -/
theorem reported_once {u : ℤ} {members : Keyed MemberRow.key} {relations : Keyed RelationRow.key}
    {r : Redis} {s : Loop}
    (h : Reach (fun s a ↦ s.step u a) (PullsAlone u) (start members relations r) s) :
    (s.reported.map MessageItem.seqId).Nodup := by
  have horderly : Orderly u s :=
    h.invariant (fun _ _ _ hok hs hi ↦ hi.step hok hs) (orderly_start u members relations r)
  have hnodup := horderly.nodup
  rw [handedOut, List.append_assoc, List.map_append] at hnodup
  exact hnodup.of_append_left

/-- User 2 has one message and logs in. -/
def loggedIn : List SyncLoop.Action :=
  [.store 1 0 0 [], .deliver .single 2 1 1, .open, .serve 0, .post, .receive]

/-- Two more messages come in. The slave that answers the first push does not show
the last of them yet. -/
theorem reported_once_pulling : ∃ s : Loop, (s.reported.map MessageItem.seqId).Nodup ∧
    s.reported.length = 3 := by
  have hrun : ((exec (fun s a ↦ s.step 2 a) (PullsAlone 2) (start .empty .empty .empty)
      (loggedIn ++ [.serve 2, .post, .receive, .deliver .single 2 1 1, .arrive, .receive,
        .deliver .single 2 1 1, .serve 3, .post, .receive, .arrive, .receive, .serve 4, .post,
        .receive])).map fun s ↦ s.reported.length) = some 3 := by decide +kernel
  obtain ⟨s, hs, hlength⟩ := Option.map_eq_some_iff.mp hrun
  exact ⟨s, reported_once (reach_of_exec _ hs), hlength⟩

/-- The client pulls twice from the same place. -/
theorem not_reported_once :
    ¬ ∀ s, Reach (fun s a ↦ s.step 2 a) anyStep (start .empty .empty .empty) s →
      (s.reported.map MessageItem.seqId).Nodup := by
  intro h
  have hrun : ((exec (fun s a ↦ s.step 2 a) anyStep (start .empty .empty .empty)
      (loggedIn ++ [.sync, .serve 2, .post, .receive, .serve 2, .post, .receive])).map fun s ↦
        s.reported.map MessageItem.seqId) = some [1, 1] := by decide +kernel
  obtain ⟨s, hs, hreported⟩ := Option.map_eq_some_iff.mp hrun
  have hnodup := h s (reach_of_exec _ hs)
  rw [hreported] at hnodup
  exact absurd hnodup (by decide)

end TinyIM.Web.ReportedOnce

import TinyIM.Chat.ForwardSync
import TinyIM.Web.SyncLoop

namespace TinyIM.Web.CatchUp

open Library.Page Library.Table Library.Transition Protocol Store Chat SyncLoop
open Chat.CursorSync (maxSeq_of_pull mem_rowsAfter returned_of_pull)
open Chat.ForwardSync (Appends inbox_iff_of_appends mem_inbox)

/-- The largest `seq_id` in the inbox of `u`, or 0. -/
def lastSeq (w : World) (u : ℤ) : ℕ :=
  (w.index.rows.filter fun r ↦ r.ownerId = u).foldr
    (fun r last ↦ if last < r.seqId then r.seqId else last) 0

def Shown (reported : List MessageItem) (r : IndexRow) : Prop :=
  ∃ item ∈ reported, item.msgId = r.msgId ∧ item.seqId = r.seqId

structure CaughtUp (u : ℤ) (s : Loop) : Prop where
  localSeq : s.client.localSeq = lastSeq s.world u
  reported : ∀ r ∈ s.world.index.rows, r.ownerId = u → Shown s.reported r

/-- No push, request or reply of the connection is under way. -/
structure Quiet (s : Loop) : Prop where
  pushing : s.pushing = 0
  toGateway : s.toGateway = []
  serving : s.serving = none
  toClient : s.toClient = []

/-- Packets for which a client that is online sends a request. -/
def Prompts : Down → Prop
  | .loginResp success => success
  | .msgPushNotify => True
  | _ => False

instance : DecidablePred Prompts := fun d ↦ by unfold Prompts; split <;> infer_instance

/-- A further pull will be served. -/
def Triggered (s : Loop) : Prop :=
  0 < s.pushing ∨ (∃ d ∈ s.pending, Prompts d) ∨ ∃ q ∈ s.toGateway, Pulls q

instance (s : Loop) : Decidable (Triggered s) := inferInstanceAs (Decidable (_ ∨ _ ∨ _))

/-- The page that a slave with the tables `w` makes holds all that is behind the
cursor on the master, or it is not the last, and the client can read its numbers. -/
def PageReaches (u c : ℤ) (w : World) (s : Loop) : Prop :=
  (∀ r ∈ page bySeq (w.rowsAfter u c) 50, r.seqId < 2 ^ 31) ∧
    ((w.rowsAfter u c = s.world.rowsAfter u c ∧ (w.rowsAfter u c).length ≤ 50) ∨ Triggered s)

instance (u c : ℤ) (w : World) (s : Loop) : Decidable (PageReaches u c w s) :=
  inferInstanceAs (Decidable (_ ∧ _))

/-- An `INSERT` goes with its `INCR`; what is delivered to a client that is
online is pushed, or a pull is to come anyway; and no pull falls short. -/
def Complete (u : ℤ) (s : Loop) : SyncLoop.Action → Prop
  | .insert _ => False
  | .deliver route ownerId _ _ =>
    ownerId = u → s.client.status = .online → s.notifies route ∨ Triggered s
  | .serve seen => ∀ c ∈ s.nextPull, PageReaches u c (s.slave seen) { s with toGateway := s.toGateway.tail }
  | _ => True

instance (u : ℤ) (s : Loop) (a : SyncLoop.Action) : Decidable (Complete u s a) := by
  unfold Complete
  split <;> infer_instance

def Occurs (w : World) (u n : ℤ) : Prop :=
  n = 0 ∨ ∃ r ∈ w.index.rows, r.ownerId = u ∧ (r.seqId : ℤ) = n

/-- All rows up to the cursor of a reply are in the log or in the reply. -/
structure Answers (u : ℤ) (w : World) (reported : List MessageItem) (resp : SyncMessagesResp) :
    Prop where
  occurs : Occurs w u resp.maxSeq
  range : resp.maxSeq < 2 ^ 31
  complete : ∀ r ∈ w.index.rows, r.ownerId = u → (r.seqId : ℤ) ≤ resp.maxSeq →
    Shown (reported ++ resp.msgs) r

/-- A row that is behind the client or in a reply to it. -/
def Reached (s : Loop) (r : IndexRow) : Prop :=
  (r.seqId : ℤ) ≤ s.client.localSeq ∨
    ∃ resp, .msgSyncResp resp ∈ s.pending ∧ (r.seqId : ℤ) ≤ resp.maxSeq

structure Catching (u : ℤ) (s : Loop) : Prop where
  bounded : ∀ r ∈ s.world.index.rows, r.seqId ≤ s.world.redis.counters (seqKey r.ownerId)
  occurs : Occurs s.world u s.client.localSeq
  range : s.client.localSeq < 2 ^ 31
  requests : ∀ c, .msgSyncReq c ∈ s.toGateway → Occurs s.world u c ∧ c ≤ s.client.localSeq
  replies : ∀ resp, .msgSyncResp resp ∈ s.pending → Answers u s.world s.reported resp
  shown : ∀ r ∈ s.world.index.rows, r.ownerId = u → (r.seqId : ℤ) ≤ s.client.localSeq →
    Shown s.reported r
  registered : s.client.status = .online ∨ .loginResp true ∈ s.pending → s.registered
  covered : s.client.status = .online →
    Triggered s ∨ ∀ r ∈ s.world.index.rows, r.ownerId = u → Reached s r

/-- The tables of a slave have grown into those of the master. -/
def Grown (u : ℤ) (s : Loop) : Prop := ∀ w ∈ s.past, Appends u w s.world

section world

variable {w w' : World} {u n : ℤ}

theorem Occurs.mono (h : Occurs w u n) (hrows : w.index.rows ⊆ w'.index.rows) : Occurs w' u n :=
  h.imp id fun ⟨r, hr, howner, hseq⟩ ↦ ⟨r, hrows hr, howner, hseq⟩

theorem Occurs.nonneg (h : Occurs w u n) : 0 ≤ n := by
  obtain rfl | ⟨r, -, -, rfl⟩ := h
  · exact le_rfl
  · exact Int.natCast_nonneg _

theorem Occurs.le_counter (h : Occurs w u n)
    (hbounded : ∀ r ∈ w.index.rows, r.seqId ≤ w.redis.counters (seqKey r.ownerId)) :
    n ≤ w.redis.counters (seqKey u) := by
  obtain rfl | ⟨r, hr, rfl, rfl⟩ := h
  · exact Int.natCast_nonneg _
  · exact Int.ofNat_le.mpr (hbounded r hr)

theorem foldr_last_spec (rows : List IndexRow) (n : ℕ) :
    rows.foldr (fun r last ↦ if last < r.seqId then r.seqId else last) 0 ≤ n ↔
      ∀ r ∈ rows, r.seqId ≤ n := by
  induction rows with
  | nil => simp
  | cons r rows ih =>
    rw [List.foldr_cons, List.forall_mem_cons, ← ih]
    split_ifs <;> omega

theorem lastSeq_le_iff {last : ℕ} :
    lastSeq w u ≤ last ↔ ∀ r ∈ w.index.rows, r.ownerId = u → r.seqId ≤ last := by
  rw [lastSeq, foldr_last_spec]
  simp

theorem lastSeq_eq (h : Occurs w u n)
    (hall : ∀ r ∈ w.index.rows, r.ownerId = u → (r.seqId : ℤ) ≤ n) : n = lastSeq w u := by
  obtain ⟨last, rfl⟩ := Int.eq_ofNat_of_zero_le h.nonneg
  have hle : lastSeq w u ≤ last :=
    lastSeq_le_iff.mpr fun r hr howner ↦ Int.ofNat_le.mp (hall r hr howner)
  obtain hzero | ⟨r, hr, howner, hseq⟩ := h
  · omega
  · have hrow := lastSeq_le_iff.mp le_rfl r hr howner
    omega

/-- A delivered row gets the next number of its owner. -/
theorem deliver_eq (hbounded : ∀ r ∈ w.index.rows, r.seqId ≤ w.redis.counters (seqKey r.ownerId))
    (ownerId otherId : ℤ) (msgId : ℕ) :
    ∃ index : Keyed IndexRow.key,
      index.rows = w.index.rows ++
        [⟨ownerId, otherId, msgId, w.redis.counters (seqKey ownerId) + 1, 0⟩] ∧
      deliver w ownerId otherId msgId =
        { w with redis := (w.redis.incr (seqKey ownerId)).1, index := index } := by
  have hfree : w.index.Free
      [⟨ownerId, otherId, msgId, w.redis.counters (seqKey ownerId) + 1, 0⟩] := by
    refine Keyed.free_iff.mpr ⟨List.nodup_singleton _, fun r hr htaken ↦ ?_⟩
    obtain rfl := List.mem_singleton.mp hr
    obtain ⟨r', hr', hkey⟩ := List.mem_map.mp htaken
    obtain ⟨howner, hseq⟩ := Prod.mk.inj hkey
    have hle := hbounded r' hr'
    simp only [howner] at hle
    simp only at hseq
    omega
  obtain ⟨index, hindex, hrows⟩ := Keyed.insert_of_free hfree
  refine ⟨index, hrows, ?_⟩
  simp [deliver, World.succeed, Redis.incr, hindex]

/-- A row that is delivered is behind no cursor. -/
theorem Occurs.row_before (hn : Occurs w u n)
    (hbounded : ∀ r ∈ w.index.rows, r.seqId ≤ w.redis.counters (seqKey r.ownerId))
    {ownerId otherId : ℤ} {msgId : ℕ} {r : IndexRow}
    (hr : r ∈ w.index.rows ++ [⟨ownerId, otherId, msgId, w.redis.counters (seqKey ownerId) + 1, 0⟩])
    (howner : r.ownerId = u) (hle : (r.seqId : ℤ) ≤ n) : r ∈ w.index.rows := by
  rcases List.mem_append.mp hr with hr | hr
  · exact hr
  · obtain rfl := List.mem_singleton.mp hr
    subst howner
    have hcounter := hn.le_counter hbounded
    simp only [Nat.cast_add, Nat.cast_one] at hle hcounter
    omega

theorem appends_of_same (hindex : w'.index = w.index) (hbodies : ∃ new, w'.bodies = w.bodies ++ new) :
    Appends u w w' := by
  have hinbox : w'.inbox u = w.inbox u := by rw [World.inbox, World.inbox, hindex]
  exact ⟨hbodies, fun r hr ↦ hinbox ▸ hr, fun r hr hnew ↦ absurd (hinbox ▸ hr) hnew⟩

theorem appends_deliver (hbounded : ∀ r ∈ w.index.rows, r.seqId ≤ w.redis.counters (seqKey r.ownerId))
    (ownerId otherId : ℤ) (msgId : ℕ) : Appends u w (deliver w ownerId otherId msgId) := by
  obtain ⟨index, hrows, hworld⟩ := deliver_eq hbounded ownerId otherId msgId
  rw [hworld]
  refine ⟨⟨[], (List.append_nil _).symm⟩, ?_, ?_⟩
  · intro r hr
    obtain ⟨hrow, howner⟩ := mem_inbox.mp hr
    exact mem_inbox.mpr ⟨hrows ▸ List.mem_append_left _ hrow, howner⟩
  · intro r' hr' hnew r hr
    obtain ⟨hrow', howner'⟩ := mem_inbox.mp hr'
    obtain ⟨hrow, howner⟩ := mem_inbox.mp hr
    rcases List.mem_append.mp (hrows ▸ hrow') with hold | hlast
    · exact absurd (mem_inbox.mpr ⟨hold, howner'⟩) hnew
    · obtain rfl := List.mem_singleton.mp hlast
      have hle := hbounded r hrow
      rw [howner, ← howner'] at hle
      exact Nat.lt_succ_of_le hle

end world

section slave

variable {u : ℤ} {s s' : Loop}

theorem Grown.slave (h : Grown u s) (seen : ℕ) : Appends u (s.slave seen) s.world := by
  rcases s.slave_cases seen with hpast | hsame
  · exact h _ hpast
  · rw [hsame]
    exact .refl u _

theorem Grown.next (h : Grown u s) (hpast : ∀ w ∈ s'.past, w ∈ s.past ∨ w = s.world)
    (hw : Appends u s.world s'.world) : Grown u s' := by
  intro w hmem
  rcases hpast w hmem with hold | rfl
  · exact (h w hold).trans hw
  · exact hw

theorem mem_past {w : World} (h : w ∈ s.past ++ [s.world]) : w ∈ s.past ∨ w = s.world :=
  (List.mem_append.mp h).imp id List.mem_singleton.mp

theorem Grown.step (h : Grown u s)
    (hbounded : ∀ r ∈ s.world.index.rows, r.seqId ≤ s.world.redis.counters (seqKey r.ownerId))
    {a : SyncLoop.Action} (hok : Complete u s a) (hs : s.step u a = some s') : Grown u s' := by
  cases a with
  | store senderId groupId msgType content =>
    obtain rfl := Option.some.inj hs
    exact h.next (fun _ ↦ mem_past) (appends_of_same rfl ⟨_, rfl⟩)
  | tick clock | draw ownerId =>
    obtain rfl := Option.some.inj hs
    exact h.next (fun _ ↦ .inl) (appends_of_same rfl ⟨[], (List.append_nil _).symm⟩)
  | insert r => exact hok.elim
  | deliver route ownerId otherId msgId =>
    obtain ⟨-, hs⟩ := Option.ite_none_right_eq_some.mp hs
    obtain rfl := Option.some.inj hs
    exact h.next (fun _ ↦ mem_past) (appends_deliver hbounded ownerId otherId msgId)
  | serve seen =>
    obtain ⟨q, rest, d, -, -, -, rfl⟩ := Loop.serve_cases hs
    exact h
  | post =>
    obtain ⟨d, -, rfl⟩ := Option.map_eq_some_iff.mp hs
    exact h
  | receive =>
    obtain ⟨d, rest, -, rfl⟩ := Loop.receive_cases hs
    exact h
  | push | arrive | «open» | heartbeat =>
    obtain ⟨-, hs⟩ := Option.ite_none_right_eq_some.mp hs
    obtain rfl := Option.some.inj hs
    exact h
  | session present | sync =>
    obtain rfl := Option.some.inj hs
    exact h

end slave

theorem Shown.mono {reported reported' : List MessageItem} {r : IndexRow}
    (h : Shown reported r) (hsub : reported ⊆ reported') : Shown reported' r := by
  obtain ⟨item, hitem, hids⟩ := h
  exact ⟨item, hsub hitem, hids⟩

/-- The loop after `OnRead` has answered the request `q`. -/
def answering (s : Loop) (q : Up) (rest : List Up) (d : Down) : Loop :=
  { s with
    registered := s.registered || q = .loginReq
    toGateway := rest
    serving := some d }

/-- The loop after the client has handled the packet `d`. -/
def handling (s : Loop) (d : Down) (rest : List Down) (c : Client) (ups : List Up) : Loop :=
  { s with
    client := c
    toGateway := s.toGateway ++ ups
    toClient := rest
    reported := s.reported ++ d.items }

section underway

variable {s : Loop} {q : Up} {rest : List Up} {d : Down} {downs : List Down} {c : Client}
  {ups : List Up}

theorem pending_answering (hserving : s.serving = none) (q : Up) (rest : List Up) (d : Down) :
    (answering s q rest d).pending = d :: s.pending := by
  rw [Loop.pending, Loop.pending, hserving]
  rfl

theorem triggered_answering (hserving : s.serving = none)
    (h : Triggered { s with toGateway := rest }) : Triggered (answering s q rest d) := by
  rcases h with hpos | ⟨x, hx, hprompt⟩ | hpull
  · exact .inl hpos
  · refine .inr (.inl ⟨x, ?_, hprompt⟩)
    rw [pending_answering hserving]
    exact List.mem_cons_of_mem d hx
  · exact .inr (.inr hpull)

theorem Reached.answering {r : IndexRow} (h : Reached s r) (hserving : s.serving = none) :
    Reached (answering s q rest d) r := by
  refine h.imp id fun ⟨resp, hresp, hle⟩ ↦ ⟨resp, ?_, hle⟩
  rw [pending_answering hserving]
  exact List.mem_cons_of_mem d hresp

theorem mem_pending_handling (htoClient : s.toClient = d :: downs) (c : Client) (ups : List Up)
    {x : Down} :
    x ∈ s.pending ↔ x = d ∨ x ∈ (handling s d downs c ups).pending := by
  rw [Loop.pending, htoClient, Loop.pending, handling]
  simp only [List.mem_append, List.mem_cons]
  tauto

theorem triggered_handling (h : Triggered s) (htoClient : s.toClient = d :: downs)
    (hprompts : Prompts d → ∃ q ∈ ups, Pulls q) : Triggered (handling s d downs c ups) := by
  rcases h with hpos | ⟨x, hx, hprompt⟩ | ⟨q, hq, hpulls⟩
  · exact .inl hpos
  · rcases (mem_pending_handling htoClient c ups).mp hx with rfl | hx
    · obtain ⟨q, hq, hpulls⟩ := hprompts hprompt
      exact .inr (.inr ⟨q, List.mem_append_right _ hq, hpulls⟩)
    · exact .inr (.inl ⟨x, hx, hprompt⟩)
  · exact .inr (.inr ⟨q, List.mem_append_left _ hq, hpulls⟩)

theorem Reached.handling {r : IndexRow} (h : Reached s r) (htoClient : s.toClient = d :: downs)
    (hmono : s.client.localSeq ≤ c.localSeq)
    (hresp : ∀ resp, d = .msgSyncResp resp → resp.maxSeq ≤ c.localSeq) :
    Reached (handling s d downs c ups) r := by
  rcases h with hle | ⟨resp, hpending, hle⟩
  · exact .inl (hle.trans hmono)
  · rcases (mem_pending_handling htoClient c ups).mp hpending with heq | hpending
    · exact .inl (hle.trans (hresp resp heq.symm))
    · exact .inr ⟨resp, hpending, hle⟩

end underway

namespace Catching

variable {u : ℤ} {s s' : Loop}

/-- Steps that change neither the rows nor what the client has or gets of them. -/
theorem of_same (h : Catching u s) (hindex : s'.world.index = s.world.index)
    (hcounters : ∀ k, s.world.redis.counters k ≤ s'.world.redis.counters k)
    (hclient : s'.client = s.client) (hregistered : s'.registered = s.registered)
    (hreported : s'.reported = s.reported)
    (hrequests : ∀ c, .msgSyncReq c ∈ s'.toGateway →
      .msgSyncReq c ∈ s.toGateway ∨ c = s.client.localSeq)
    (hpending : ∀ d, d ≠ .msgPushNotify → (d ∈ s'.pending ↔ d ∈ s.pending))
    (htriggered : Triggered s → Triggered s') : Catching u s' := by
  have hmono : ∀ {n}, Occurs s.world u n → Occurs s'.world u n := by
    intro n hn
    exact hn.mono (by rw [hindex]; exact List.Subset.refl _)
  refine ⟨fun r hr ↦ (h.bounded r (hindex ▸ hr)).trans (hcounters _), ?_, hclient ▸ h.range, ?_, ?_,
    ?_, ?_, ?_⟩
  · exact hclient ▸ hmono h.occurs
  · intro c hc
    rw [hclient]
    rcases hrequests c hc with hc | rfl
    · exact ⟨hmono (h.requests c hc).1, (h.requests c hc).2⟩
    · exact ⟨hmono h.occurs, le_rfl⟩
  · intro resp hresp
    obtain ⟨hoccurs, hrange, hcomplete⟩ :=
      h.replies resp ((hpending (.msgSyncResp resp) nofun).mp hresp)
    refine ⟨hmono hoccurs, hrange, ?_⟩
    rwa [hindex, hreported]
  · rw [hindex, hclient, hreported]
    exact h.shown
  · rw [hclient, hregistered, hpending (.loginResp true) nofun]
    exact h.registered
  · rw [hclient, hindex]
    intro honline
    refine (h.covered honline).imp htriggered fun hall r hr howner ↦ ?_
    rw [Reached, hclient]
    refine (hall r hr howner).imp id fun ⟨resp, hresp, hle⟩ ↦ ?_
    exact ⟨resp, (hpending (.msgSyncResp resp) nofun).mpr hresp, hle⟩

theorem deliver (h : Catching u s) {route : Route} {ownerId otherId : ℤ} {msgId : ℕ}
    (hpush : ownerId = u → s.client.status = .online → s.notifies route ∨ Triggered s) :
    Catching u { s with
      world := SyncLoop.deliver s.world ownerId otherId msgId
      past := s.past ++ [s.world]
      pushing := if ownerId = u ∧ s.notifies route then s.pushing + 1 else s.pushing } := by
  obtain ⟨index, hrows, hworld⟩ := deliver_eq h.bounded ownerId otherId msgId
  rw [hworld]
  have hsub : s.world.index.rows ⊆ index.rows := by
    rw [hrows]
    exact List.subset_append_left _ _
  have hold : ∀ r ∈ index.rows, r.ownerId = u → ∀ n, Occurs s.world u n → (r.seqId : ℤ) ≤ n →
      r ∈ s.world.index.rows :=
    fun r hr howner n hn ↦ hn.row_before h.bounded (hrows ▸ hr) howner
  refine ⟨?_, h.occurs.mono hsub, h.range, fun c hc ↦ ⟨(h.requests c hc).1.mono hsub,
    (h.requests c hc).2⟩, ?_, ?_, h.registered, ?_⟩
  · intro r hr
    rw [hrows] at hr
    rcases List.mem_append.mp hr with hr | hr
    · exact (h.bounded r hr).trans (Library.Tickets.le_update_succ _ _ _)
    · obtain rfl := List.mem_singleton.mp hr
      simp [Redis.incr]
  · intro resp hresp
    obtain ⟨hoccurs, hrange, hcomplete⟩ := h.replies resp hresp
    exact ⟨hoccurs.mono hsub, hrange, fun r hr howner hle ↦
      hcomplete r (hold r hr howner _ hoccurs hle) howner hle⟩
  · exact fun r hr howner hle ↦ h.shown r (hold r hr howner _ h.occurs hle) howner hle
  · intro honline
    have htriggered : Triggered s → Triggered { s with
        world := { s.world with redis := (s.world.redis.incr (seqKey ownerId)).1, index := index }
        past := s.past ++ [s.world]
        pushing := if ownerId = u ∧ s.notifies route then s.pushing + 1 else s.pushing } := by
      refine Or.imp (fun hpos ↦ ?_) id
      split_ifs
      · exact Nat.succ_pos _
      · exact hpos
    by_cases howner : ownerId = u
    · rcases hpush howner honline with hnotifies | hs
      · refine .inl (.inl ?_)
        rw [if_pos ⟨howner, hnotifies⟩]
        exact Nat.succ_pos _
      · exact .inl (htriggered hs)
    · refine (h.covered honline).imp htriggered fun hall r hr hrowner ↦ ?_
      rw [hrows] at hr
      rcases List.mem_append.mp hr with hr | hr
      · exact hall r hr hrowner
      · obtain rfl := List.mem_singleton.mp hr
        exact absurd hrowner howner

/-- Packets of the client that pull, if at all, from where it is. -/
theorem sends (h : Catching u s) {ups : List Up}
    (hups : ∀ c, .msgSyncReq c ∈ ups → c = s.client.localSeq) :
    Catching u { s with toGateway := s.toGateway ++ ups } := by
  refine h.of_same rfl (fun _ ↦ le_rfl) rfl rfl rfl (fun c hc ↦ ?_) (fun _ _ ↦ .rfl) ?_
  · exact (List.mem_append.mp hc).imp id (hups c)
  · exact Or.imp id (Or.imp id fun ⟨q, hq, hpull⟩ ↦ ⟨q, List.mem_append_left _ hq, hpull⟩)

theorem opened (h : Catching u s) :
    Catching u { s with
      client := { s.client with status := .handshaking }
      toGateway := s.toGateway ++ [.loginReq] } := by
  refine ⟨h.bounded, h.occurs, h.range, ?_, h.replies, h.shown, ?_, nofun⟩
  · intro c hc
    rcases List.mem_append.mp hc with hc | hc
    · exact h.requests c hc
    · cases List.mem_singleton.mp hc
  · rintro (hstatus | hlogin)
    · cases hstatus
    · exact h.registered (.inr hlogin)

/-- A reply that is computed. `hcovered` is the case of a pull. -/
theorem answered (h : Catching u s) {q : Up} {rest : List Up} {d : Down}
    (hgateway : s.toGateway = q :: rest) (hserving : s.serving = none)
    (hprompts : d = .loginResp true → q = .loginReq)
    (hreplies : ∀ resp, d = .msgSyncResp resp → Answers u s.world s.reported resp)
    (hcovered : Pulls q → Triggered { s with toGateway := rest } ∨
      ∃ resp, d = .msgSyncResp resp ∧ ∀ r ∈ s.world.index.rows, r.ownerId = u →
        (r.seqId : ℤ) ≤ s.client.localSeq ∨ (r.seqId : ℤ) ≤ resp.maxSeq) :
    Catching u (answering s q rest d) := by
  have hpending := pending_answering hserving q rest d
  refine ⟨h.bounded, h.occurs, h.range, ?_, ?_, h.shown, ?_, ?_⟩
  · intro c hc
    exact h.requests c (hgateway ▸ List.mem_cons_of_mem q hc)
  · intro resp hresp
    rw [hpending] at hresp
    rcases List.mem_cons.mp hresp with heq | hresp
    · exact hreplies resp heq.symm
    · exact h.replies resp hresp
  · rw [hpending]
    intro hlogin
    change (s.registered || q = .loginReq) = true
    rcases hlogin with honline | hlogin
    · simp [h.registered (.inl honline)]
    · rcases List.mem_cons.mp hlogin with heq | hlogin
      · simp [hprompts heq.symm]
      · simp [h.registered (.inr hlogin)]
  · intro honline
    by_cases hpulls : Pulls q
    · rcases hcovered hpulls with htriggered | ⟨resp, rfl, hall⟩
      · exact .inl (triggered_answering hserving htriggered)
      · refine .inr fun r hr howner ↦ (hall r hr howner).imp id fun hle ↦ ?_
        exact ⟨resp, hpending ▸ List.mem_cons_self, hle⟩
    · refine (h.covered honline).imp (fun htriggered ↦ triggered_answering hserving ?_)
        fun hall r hr howner ↦ (hall r hr howner).answering hserving
      refine htriggered.imp id (Or.imp id fun ⟨x, hx, hpull⟩ ↦ ⟨x, ?_, hpull⟩)
      rw [hgateway] at hx
      rcases List.mem_cons.mp hx with rfl | hx
      · exact absurd hpull hpulls
      · exact hx

theorem answers_pull (h : Catching u s) {w : World} (hw : Appends u w s.world) {c : ℤ} {resp : SyncMessagesResp}
    (hc : Occurs s.world u c ∧ c ≤ s.client.localSeq)
    (hresp : syncMessages w { userId := u, localSeq := c, limit := 50 } = some resp)
    (hrange : ∀ r ∈ page bySeq (w.rowsAfter u c) 50, r.seqId < 2 ^ 31) :
    Answers u s.world s.reported resp := by
  obtain ⟨-, htop⟩ := maxSeq_of_pull hresp
  refine ⟨?_, ?_, ?_⟩
  · rcases htop with heq | ⟨r, hr, heq⟩
    · rw [heq]
      exact hc.1
    · obtain ⟨hrow, howner, -⟩ := mem_rowsAfter.mp (mem_of_mem_page hr)
      obtain ⟨hrow', -⟩ := mem_inbox.mp (hw.kept r (mem_inbox.mpr ⟨hrow, howner⟩))
      exact .inr ⟨r, hrow', howner, heq⟩
  · rcases htop with heq | ⟨r, hr, heq⟩
    · rw [heq]
      exact hc.2.trans_lt h.range
    · have hlt := hrange r hr
      omega
  · intro r hr howner hle
    by_cases hbehind : (r.seqId : ℤ) ≤ c
    · exact (h.shown r hr howner (hbehind.trans hc.2)).mono (List.subset_append_left _ _)
    · -- the slave may lag, but not within its page
      have hafter := not_le.mp hbehind
      have hold := (inbox_iff_of_appends hresp hw hafter hle).mp (mem_inbox.mpr ⟨hr, howner⟩)
      obtain ⟨item, hitem, hids⟩ :=
        returned_of_pull hresp (mem_rowsAfter.mpr ⟨(mem_inbox.mp hold).1, howner, hafter⟩) hle
      exact ⟨item, List.mem_append_right _ hitem, hids⟩

theorem serve (h : Catching u s) (hgrown : Grown u s) {seen : ℕ} (hok : Complete u s (.serve seen))
    (hs : s.serve u seen = some s') : Catching u s' := by
  obtain ⟨q, rest, d, hserving, hgateway, hd, rfl⟩ := Loop.serve_cases hs
  cases q with
  | loginReq =>
    obtain rfl := Option.some.inj hd
    exact h.answered hgateway hserving (fun _ ↦ rfl) nofun nofun
  | heartbeatReq =>
    obtain rfl := Option.some.inj hd
    exact h.answered hgateway hserving nofun nofun nofun
  | msgSyncReq c =>
    obtain ⟨resp, hresp, rfl⟩ := Option.map_eq_some_iff.mp hd
    have hc := h.requests c (hgateway ▸ List.mem_cons_self)
    obtain ⟨hrange, hreach⟩ := hok c (by rw [Loop.nextPull, hgateway]; rfl)
    rw [hgateway, List.tail_cons] at hreach
    refine h.answered hgateway hserving nofun ?_ ?_
    · rintro _ ⟨⟩
      exact h.answers_pull (hgrown.slave seen) hc hresp hrange
    · intro _
      refine hreach.symm.imp id fun ⟨hsame, hfew⟩ ↦ ⟨resp, rfl, fun r hr howner ↦ ?_⟩
      by_cases hbehind : (r.seqId : ℤ) ≤ c
      · exact .inl (hbehind.trans hc.2)
      · have hrow : r ∈ s.world.rowsAfter u c := mem_rowsAfter.mpr ⟨hr, howner, not_le.mp hbehind⟩
        exact .inr ((maxSeq_of_pull hresp).1 r (mem_page_of_length_le hfew (hsame ▸ hrow)))

/-- A packet that is handled: the client is not behind it afterwards, and pulls
again if it should. -/
theorem handled (h : Catching u s) {d : Down} {rest : List Down} {c : Client} {ups : List Up}
    (htoClient : s.toClient = d :: rest) (hmono : s.client.localSeq ≤ c.localSeq)
    (hoccurs : Occurs s.world u c.localSeq) (hrange : c.localSeq < 2 ^ 31)
    (hups : ∀ seq, .msgSyncReq seq ∈ ups → seq = c.localSeq)
    (hshown : ∀ r ∈ s.world.index.rows, r.ownerId = u → (r.seqId : ℤ) ≤ c.localSeq →
      Shown (s.reported ++ d.items) r)
    (honline : c.status = .online → s.client.status = .online ∨ d = .loginResp true)
    (hprompts : c.status = .online → Prompts d → ∃ q ∈ ups, Pulls q)
    (hresp : ∀ resp, d = .msgSyncResp resp → resp.maxSeq ≤ c.localSeq) :
    Catching u (handling s d rest c ups) := by
  have hsub : ∀ {x}, x ∈ (handling s d rest c ups).pending → x ∈ s.pending :=
    fun hx ↦ (mem_pending_handling htoClient c ups).mpr (.inr hx)
  refine ⟨h.bounded, hoccurs, hrange, ?_, ?_, hshown, ?_, ?_⟩
  · intro seq hseq
    rcases List.mem_append.mp hseq with hseq | hseq
    · exact ⟨(h.requests seq hseq).1, (h.requests seq hseq).2.trans hmono⟩
    · rw [hups seq hseq]
      exact ⟨hoccurs, le_rfl⟩
  · intro resp hpending
    obtain ⟨hocc, hlt, hcomplete⟩ := h.replies resp (hsub hpending)
    refine ⟨hocc, hlt, fun r hr howner hle ↦ (hcomplete r hr howner hle).mono ?_⟩
    exact List.append_subset.mpr ⟨List.Subset.trans (List.subset_append_left _ _)
      (List.subset_append_left _ _), List.subset_append_right _ _⟩
  · rintro (hstatus | hlogin)
    · rcases honline hstatus with hbefore | rfl
      · exact h.registered (.inl hbefore)
      · exact h.registered (.inr ((mem_pending_handling htoClient c ups).mpr (.inl rfl)))
    · exact h.registered (.inr (hsub hlogin))
  · intro hstatus
    rcases honline hstatus with hbefore | rfl
    · exact (h.covered hbefore).imp
        (fun htriggered ↦ triggered_handling htriggered htoClient (hprompts hstatus))
        fun hall r hr howner ↦ (hall r hr howner).handling htoClient hmono hresp
    · obtain ⟨q, hq, hpulls⟩ := hprompts hstatus rfl
      exact .inl (.inr (.inr ⟨q, List.mem_append_right _ hq, hpulls⟩))

theorem syncMessages_pulls {c : Client} {seq : ℤ} (h : .msgSyncReq seq ∈ c.syncMessages) :
    seq = c.localSeq := by
  rw [Client.syncMessages] at h
  split_ifs at h
  · exact Up.msgSyncReq.inj (List.mem_singleton.mp h)
  · cases h

theorem exists_pull {c : Client} (h : c.status = .online) : ∃ q ∈ c.syncMessages, Pulls q := by
  rw [Client.syncMessages, if_pos h]
  exact ⟨_, List.mem_singleton_self _, trivial⟩

theorem readInt_maxSeq (h : Catching u s) {resp : SyncMessagesResp}
    (hresp : .msgSyncResp resp ∈ s.pending) : ResponseSchema.readInt resp.maxSeq = resp.maxSeq :=
  ResponseSchema.readInt_eq ⟨(h.replies resp hresp).occurs.nonneg, (h.replies resp hresp).range⟩

theorem receive (h : Catching u s) (hs : s.receive = some s') : Catching u s' := by
  obtain ⟨d, rest, htoClient, rfl⟩ := Loop.receive_cases hs
  have hkeep : ∀ r ∈ s.world.index.rows, r.ownerId = u → (r.seqId : ℤ) ≤ s.client.localSeq →
      Shown (s.reported ++ d.items) r := fun r hr howner hle ↦
    (h.shown r hr howner hle).mono (List.subset_append_left _ _)
  have hd : d ∈ s.pending := by
    rw [Loop.pending, htoClient]
    exact List.mem_append_right _ List.mem_cons_self
  cases d with
  | loginResp success =>
    cases success with
    | false =>
      exact h.handled htoClient le_rfl h.occurs h.range nofun hkeep .inl (fun _ hf ↦ nomatch hf)
        nofun
    | true =>
      exact h.handled htoClient le_rfl h.occurs h.range
        (fun _ ↦ syncMessages_pulls (c := { s.client with status := .online })) hkeep
        (fun _ ↦ .inr rfl) (fun _ _ ↦ exists_pull (c := { s.client with status := .online }) rfl)
        nofun
  | heartbeatResp =>
    have hups : (s.client.handleMessage .heartbeatResp).2 = [] :=
      if_neg (not_lt.mpr h.occurs.nonneg)
    rw [hups]
    exact h.handled htoClient le_rfl h.occurs h.range nofun hkeep .inl (fun _ hf ↦ hf.elim) nofun
  | msgPushNotify =>
    exact h.handled htoClient le_rfl h.occurs h.range (fun _ ↦ syncMessages_pulls) hkeep .inl
      (fun honline _ ↦ exists_pull honline) nofun
  | msgSyncResp resp =>
    obtain ⟨hoccurs, hrange, hcomplete⟩ := h.replies resp hd
    have hread := h.readInt_maxSeq hd
    simp only [Client.handleMessage, Client.onSyncResp, hread]
    split_ifs with hlt
    · refine h.handled htoClient hlt.le hoccurs hrange nofun hcomplete .inl (fun _ hf ↦ hf.elim) ?_
      rintro _ ⟨⟩
      exact le_rfl
    · refine h.handled htoClient le_rfl h.occurs h.range nofun hkeep .inl (fun _ hf ↦ hf.elim) ?_
      rintro _ ⟨⟩
      exact not_lt.mp hlt

theorem step (h : Catching u s) (hgrown : Grown u s) {a : SyncLoop.Action} (hok : Complete u s a)
    (hs : s.step u a = some s') : Catching u s' := by
  cases a with
  | store senderId groupId msgType content =>
    obtain rfl := Option.some.inj hs
    exact h.of_same rfl (fun _ ↦ le_rfl) rfl rfl rfl (fun _ ↦ .inl) (fun _ _ ↦ .rfl) id
  | tick clock =>
    obtain rfl := Option.some.inj hs
    exact h.of_same rfl (fun _ ↦ le_rfl) rfl rfl rfl (fun _ ↦ .inl) (fun _ _ ↦ .rfl) id
  | draw ownerId =>
    obtain rfl := Option.some.inj hs
    exact h.of_same rfl (fun _ ↦ Library.Tickets.le_update_succ _ _ _) rfl rfl rfl (fun _ ↦ .inl)
      (fun _ _ ↦ .rfl) id
  | insert r => exact hok.elim
  | deliver route ownerId otherId msgId =>
    obtain ⟨-, hs⟩ := Option.ite_none_right_eq_some.mp hs
    obtain rfl := Option.some.inj hs
    exact h.deliver hok
  | session present =>
    obtain rfl := Option.some.inj hs
    exact h.of_same rfl (fun _ ↦ le_rfl) rfl rfl rfl (fun _ ↦ .inl) (fun _ _ ↦ .rfl) id
  | push =>
    rw [Loop.step] at hs
    split_ifs at hs
    obtain rfl := Option.some.inj hs
    exact h.of_same rfl (fun _ ↦ le_rfl) rfl rfl rfl (fun _ ↦ .inl) (fun _ _ ↦ .rfl)
      fun _ ↦ .inl (Nat.succ_pos _)
  | arrive =>
    rw [Loop.step] at hs
    split_ifs at hs
    obtain rfl := Option.some.inj hs
    refine h.of_same rfl (fun _ ↦ le_rfl) rfl rfl rfl (fun _ ↦ .inl) (fun d hd ↦ ?_) fun _ ↦
      .inr (.inl ⟨.msgPushNotify, ?_, trivial⟩)
    · simp [Loop.pending, hd]
    · simp [Loop.pending]
  | «open» =>
    rw [Loop.step] at hs
    split_ifs at hs
    obtain rfl := Option.some.inj hs
    exact h.opened
  | serve seen => exact h.serve hgrown hok hs
  | post =>
    obtain ⟨d, hserving, rfl⟩ := Option.map_eq_some_iff.mp hs
    have hpending : ∀ x, x ∈ (none : Option Down).toList ++ (s.toClient ++ [d]) ↔ x ∈ s.pending := by
      intro x
      simp [Loop.pending, hserving, or_comm]
    refine h.of_same rfl (fun _ ↦ le_rfl) rfl rfl rfl (fun _ ↦ .inl) (fun x _ ↦ hpending x) ?_
    exact Or.imp id (Or.imp (fun ⟨x, hx, hprompt⟩ ↦ ⟨x, (hpending x).mpr hx, hprompt⟩) id)
  | receive => exact h.receive hs
  | sync =>
    obtain rfl := Option.some.inj hs
    exact h.sends fun _ ↦ syncMessages_pulls
  | heartbeat =>
    rw [Loop.step] at hs
    split_ifs at hs
    obtain rfl := Option.some.inj hs
    exact h.sends (by simp)

end Catching

theorem catching_start (u : ℤ) (members : Keyed MemberRow.key) (relations : Keyed RelationRow.key)
    (r : Redis) : Catching u (start members relations r) where
  bounded _ hr := absurd hr List.not_mem_nil
  occurs := .inl rfl
  range := Int.pow_pos (by decide)
  requests _ hc := absurd hc List.not_mem_nil
  replies _ hresp := absurd hresp List.not_mem_nil
  shown _ hr := absurd hr List.not_mem_nil
  registered := by rintro (h | h) <;> cases h
  covered := nofun

theorem not_triggered {s : Loop} (h : Quiet s) : ¬ Triggered s := by
  rintro (hpos | ⟨d, hd, -⟩ | ⟨q, hq, -⟩)
  · exact hpos.ne' h.pushing
  · rw [Loop.pending, h.serving, h.toClient] at hd
    cases hd
  · rw [h.toGateway] at hq
    cases hq

section backlog

/-- `n` messages for user 2, who then logs in and pulls. -/
def backlog (n : ℕ) (pulls : List SyncLoop.Action) : List SyncLoop.Action :=
  .store 1 0 0 [] :: List.replicate n (.deliver .single 2 1 1) ++ [.open, .serve 0, .post, .receive] ++ pulls

/-- All that is under way is a reply up to `top`. -/
def AwaitsPage (s : Loop) (top : ℤ) : Prop :=
  s.client = ⟨.online, 0⟩ ∧ s.toGateway = [] ∧ s.serving = none ∧ s.pushing = 0 ∧
    match s.toClient with
    | [.msgSyncResp resp] => resp.maxSeq = top
    | _ => False

instance (s : Loop) (top : ℤ) : Decidable (AwaitsPage s top) := by
  unfold AwaitsPage
  split <;> infer_instance

theorem receive_page {s : Loop} {top : ℤ} (h : AwaitsPage s top) (htop : Int31 top) :
    ∃ s', s.step 2 .receive = some s' ∧ s'.client = ⟨.online, top⟩ ∧ Quiet s' ∧
      s'.world = s.world := by
  obtain ⟨hclient, hgateway, hserving, hpushing, hpage⟩ := h
  split at hpage
  · next resp htoClient =>
    subst hpage
    have hread : ResponseSchema.readInt resp.maxSeq = resp.maxSeq :=
      ResponseSchema.readInt_eq htop
    have hstep : s.step 2 .receive = some { s with
        client := (s.client.handleMessage (.msgSyncResp resp)).1
        toGateway := s.toGateway ++ (s.client.handleMessage (.msgSyncResp resp)).2
        toClient := []
        reported := s.reported ++ resp.msgs } := by
      rw [Loop.step, Loop.receive, htoClient]
      rfl
    refine ⟨_, hstep, ?_, ⟨hpushing, ?_, hserving, rfl⟩, rfl⟩
    · simp only [Client.handleMessage, Client.onSyncResp, hclient, hread]
      split_ifs with hlt
      · rfl
      · rw [le_antisymm (not_lt.mp hlt) htop.1]
    · simp [Client.handleMessage, hgateway]
  · exact hpage.elim

/-- An `INSERT` goes with its `INCR`. -/
def OneStep (_ : Loop) : SyncLoop.Action → Prop
  | .insert _ => False
  | _ => True

instance (s : Loop) (a : SyncLoop.Action) : Decidable (OneStep s a) := by
  unfold OneStep
  split <;> infer_instance

end backlog

end TinyIM.Web.CatchUp

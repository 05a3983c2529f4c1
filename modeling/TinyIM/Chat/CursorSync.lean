import TinyIM.Chat.InboxSequence

namespace TinyIM.Chat.CursorSync

open Library.ByteOrder Library.Page Library.Transition Library.Program Library.Interleaving
  Library.Table Library.Tickets Protocol Store InboxSequence

/-- What a pull of `u` must have returned: every row up to the cursor. -/
def NothingMissed (u : ℤ) (s : Inbox) : Prop :=
  ∀ r ∈ s.world.index.rows, r.ownerId = u → (r.seqId : ℤ) ≤ s.cursor →
    ∃ m ∈ s.received, m.msgId = r.msgId ∧ m.seqId = r.seqId

/-- No call that runs holds a number of `u` below the last row of the page:
either there are no rows above it or the page is full before it. -/
def SafePull (u limit : ℤ) (p : Calls) : Prop :=
  ∀ t ∈ (heldNumbers p.accounts).flatten, t.1 = seqKey u →
    (∀ r ∈ p.world.world.rowsAfter u p.world.cursor, r.seqId < t.2) ∨
      pageLimit limit ≤
        (p.world.world.rowsAfter u p.world.cursor).countP fun r ↦ r.seqId < t.2

instance (u limit : ℤ) (p : Calls) : Decidable (SafePull u limit p) :=
  inferInstanceAs (Decidable (∀ _ ∈ _, _))

def PullsSafely (u : ℤ) (p : Calls) : Library.Interleaving.Action SendMessageReq Env Event → Prop
  | .outside (.sync limit) => SafePull u limit p
  | _ => True

instance (u : ℤ) (p : Calls) (a : Library.Interleaving.Action SendMessageReq Env Event) :
    Decidable (PullsSafely u p a) := by
  unfold PullsSafely
  split <;> infer_instance

instance : Std.Total bySeq := ⟨fun r r' ↦ Nat.le_total r.seqId r'.seqId⟩

instance : IsTrans IndexRow bySeq := ⟨fun _ _ _ ↦ Nat.le_trans⟩

theorem foldl_max_spec (msgs : List MessageItem) (c : ℤ) :
    let top := msgs.foldl (fun maxSeq m ↦ if m.seqId > maxSeq then m.seqId else maxSeq) c
    c ≤ top ∧ (∀ m ∈ msgs, m.seqId ≤ top) ∧ (top = c ∨ ∃ m ∈ msgs, m.seqId = top) := by
  induction msgs generalizing c with
  | nil => exact ⟨Int.le_refl c, fun _ hm ↦ absurd hm List.not_mem_nil, .inl rfl⟩
  | cons m msgs ih =>
    simp only [List.foldl_cons]
    obtain ⟨hle, hall, htop⟩ := ih (if m.seqId > c then m.seqId else c)
    have hstep : c ≤ (if m.seqId > c then m.seqId else c) ∧
        m.seqId ≤ (if m.seqId > c then m.seqId else c) := by
      split_ifs <;> omega
    refine ⟨Int.le_trans hstep.1 hle, ?_, ?_⟩
    · intro m' hm'
      rcases List.mem_cons.mp hm' with rfl | hm'
      · exact Int.le_trans hstep.2 hle
      · exact hall m' hm'
    · rcases htop with htop | ⟨m', hm', htop⟩
      · split_ifs at htop ⊢ with hgt
        · exact .inr ⟨m, List.mem_cons_self, htop.symm⟩
        · exact .inl htop
      · exact .inr ⟨m', List.mem_cons_of_mem _ hm', htop⟩

def rowIds (r : IndexRow) : ℤ × ℤ := (r.msgId, r.seqId)

def itemIds (m : MessageItem) : ℤ × ℤ := (m.msgId, m.seqId)

theorem ids_of_items {rows : List TimelineRow} {msgs : List MessageItem}
    (h : rows.mapM TimelineRow.item? = some msgs) :
    msgs.map itemIds = rows.map fun r ↦ rowIds r.index := by
  induction rows generalizing msgs with
  | nil =>
    obtain rfl := Option.some.inj h
    rfl
  | cons r rows ih =>
    rw [List.mapM_cons] at h
    obtain ⟨m, hm, h⟩ := Option.bind_eq_some_iff.mp h
    obtain ⟨rest, hrest, h⟩ := Option.bind_eq_some_iff.mp h
    obtain rfl := Option.some.inj h
    obtain ⟨b, -, rfl⟩ := Option.map_eq_some_iff.mp hm
    exact congrArg (rowIds r.index :: ·) (ih hrest)

section Pull

variable {w : World} {u c limit : ℤ} {resp : SyncMessagesResp}

theorem ids_of_pull
    (h : syncMessages w { userId := u, localSeq := c, limit := limit } = some resp) :
    resp.msgs.map itemIds = (page bySeq (w.rowsAfter u c) (pageLimit limit)).map rowIds := by
  obtain ⟨msgs, hmsgs, rfl⟩ := Option.map_eq_some_iff.mp h
  rw [ids_of_items hmsgs]
  simp [World.selectTimeline, World.timeline]

theorem maxSeq_of_pull
    (h : syncMessages w { userId := u, localSeq := c, limit := limit } = some resp) :
    (∀ r ∈ page bySeq (w.rowsAfter u c) (pageLimit limit), (r.seqId : ℤ) ≤ resp.maxSeq) ∧
      (resp.maxSeq = c ∨
        ∃ r ∈ page bySeq (w.rowsAfter u c) (pageLimit limit), (r.seqId : ℤ) = resp.maxSeq) := by
  have hids := ids_of_pull h
  obtain ⟨msgs, hmsgs, rfl⟩ := Option.map_eq_some_iff.mp h
  obtain ⟨-, hall, htop⟩ := foldl_max_spec msgs c
  refine ⟨?_, htop.imp id ?_⟩
  · intro r hr
    obtain ⟨m, hm, heq⟩ := List.mem_map.mp (hids ▸ List.mem_map_of_mem (f := rowIds) hr)
    have hseq : m.seqId = r.seqId := congrArg Prod.snd heq
    exact hseq ▸ hall m hm
  · intro ⟨m, hm, hseq⟩
    obtain ⟨r, hr, heq⟩ := List.mem_map.mp (hids ▸ List.mem_map_of_mem (f := itemIds) hm)
    exact ⟨r, hr, (congrArg Prod.snd heq).trans hseq⟩

theorem mem_rowsAfter {r : IndexRow} :
    r ∈ w.rowsAfter u c ↔ r ∈ w.index.rows ∧ r.ownerId = u ∧ c < r.seqId := by
  simp [World.rowsAfter]

/-- A row behind the cursor that is not beyond the new one is on the page. -/
theorem mem_page_of_le_maxSeq
    (h : syncMessages w { userId := u, localSeq := c, limit := limit } = some resp)
    {r : IndexRow} (hr : r ∈ w.rowsAfter u c) (hle : (r.seqId : ℤ) ≤ resp.maxSeq) :
    r ∈ page bySeq (w.rowsAfter u c) (pageLimit limit) := by
  obtain ⟨hrow, howner, hafter⟩ := mem_rowsAfter.mp hr
  obtain ⟨-, htop | ⟨r', hr', htop⟩⟩ := maxSeq_of_pull h
  · omega
  · by_cases hseq : r.seqId = r'.seqId
    · obtain ⟨hrow', howner', -⟩ := mem_rowsAfter.mp (mem_of_mem_page hr')
      have hsame := w.index.eq_of_key_eq hrow hrow' (Prod.ext (howner.trans howner'.symm) hseq)
      exact hsame ▸ hr'
    · apply mem_page_of_not_le hr' hr
      intro hge
      have hge' : r'.seqId ≤ r.seqId := hge
      omega

theorem returned_of_pull
    (h : syncMessages w { userId := u, localSeq := c, limit := limit } = some resp)
    {r : IndexRow} (hr : r ∈ w.rowsAfter u c) (hle : (r.seqId : ℤ) ≤ resp.maxSeq) :
    ∃ m ∈ resp.msgs, m.msgId = r.msgId ∧ m.seqId = r.seqId := by
  have hmem : rowIds r ∈ resp.msgs.map itemIds := by
    rw [ids_of_pull h]
    exact List.mem_map_of_mem (mem_page_of_le_maxSeq h hr hle)
  obtain ⟨m, hm, heq⟩ := List.mem_map.mp hmem
  exact ⟨m, hm, congrArg Prod.fst heq, congrArg Prod.snd heq⟩

end Pull

/-- The cursor has not passed a number that is still held, and all rows it has
passed were returned. -/
structure Tracked (u : ℤ) (s : Inbox) (accounts : List (List (Bytes × ℕ))) : Prop where
  ledger : Ledger s accounts
  ahead : ∀ t ∈ accounts.flatten, t.1 = seqKey u → s.cursor < t.2
  behind : s.cursor ≤ s.world.redis.counters (seqKey u)
  nothingMissed : NothingMissed u s

section Tracked

variable {u : ℤ} {s s' : Inbox} {accounts : List (List (Bytes × ℕ))} {held : List (Bytes × ℕ)}
  {i : ℕ} {env : Env} {c : Command}

theorem Tracked.of_unmoved (h : Tracked u s accounts) (hs : Unmoved s s') :
    Tracked u s' accounts := by
  obtain ⟨hledger, hahead, hbehind, hmissed⟩ := h
  refine ⟨hledger.of_unmoved hs, ?_, ?_, ?_⟩
  · rw [hs.cursor]
    exact hahead
  · rw [hs.cursor, hs.redis]
    exact hbehind
  · unfold NothingMissed
    rw [hs.cursor, hs.index, hs.received]
    exact hmissed

theorem Tracked.incr (h : Tracked u s accounts) (hi : accounts[i]? = some held) (key : Bytes) :
    Tracked u (InboxSequence.exec i env s (.incr key)).1
      (accounts.set i (held ++ [(key, (s.world.redis.incr key).2)])) := by
  refine ⟨h.ledger.incr hi key, ?_, ?_, h.nothingMissed⟩
  · intro t ht hkey
    change s.cursor < t.2
    rcases mem_flatten_set ht with ht | ht
    · exact h.ahead t ht hkey
    rcases List.mem_append.mp ht with ht | ht
    · exact h.ahead t (List.mem_flatten.mpr ⟨held, List.mem_of_getElem? hi, ht⟩) hkey
    · obtain rfl := List.mem_singleton.mp ht
      have hbehind := h.behind
      rw [← hkey] at hbehind
      exact Int.lt_add_one_of_le hbehind
  · exact Int.le_trans h.behind (Int.ofNat_le.mpr (le_update_succ _ key _))

theorem Tracked.insertIndex (h : Tracked u s accounts) (hi : accounts[i]? = some held)
    {rows : List IndexRow} (hrows : rows.map tag = held) :
    Tracked u (InboxSequence.exec i env s (.insertIndex rows)).1 (accounts.set i []) := by
  have hahead : ∀ t ∈ (accounts.set i []).flatten, t.1 = seqKey u → s.cursor < t.2 := by
    intro t ht hkey
    exact h.ahead t ((mem_flatten_set ht).resolve_right List.not_mem_nil) hkey
  have hledger : Ledger (InboxSequence.exec i env s (.insertIndex rows)).1 (accounts.set i []) :=
    h.ledger.insertIndex hi hrows
  obtain ⟨ok, members⟩ := env
  cases ok with
  | false => exact ⟨hledger, hahead, h.behind, h.nothingMissed⟩
  | true =>
    obtain ⟨index, hall, hworld⟩ := exec_insertIndex i s members (h.ledger.free hi hrows)
    rw [hworld] at hledger ⊢
    refine ⟨hledger, hahead, h.behind, ?_⟩
    intro r hr howner hle
    change r ∈ index.rows at hr
    rw [hall] at hr
    rcases List.mem_append.mp hr with hr | hr
    · exact h.nothingMissed r hr howner hle
    · have htag : tag r ∈ accounts.flatten :=
        List.mem_flatten.mpr ⟨held, List.mem_of_getElem? hi, hrows ▸ List.mem_map_of_mem hr⟩
      have hgt := h.ahead (tag r) htag (congrArg seqKey howner)
      exact absurd hle (Int.not_le.mpr hgt)

theorem Tracked.exec {holding : Holding} (h : Tracked u s accounts)
    (hi : accounts[i]? = some holding.numbers) (hmay : drawThenInsert.may holding c) :
    Tracked u (InboxSequence.exec i env s c).1
      (accounts.set i (drawThenInsert.after holding c (InboxSequence.exec i env s c).2).numbers) :=
  exec_keeps hi hmay (h.incr hi) (fun _ ↦ h.insertIndex hi) fun _ ↦ h.of_unmoved

/-- A pull is safe exactly when the new cursor passes no number that is held. -/
theorem Tracked.safePull_iff {p : Calls} {limit : ℤ} {resp : SyncMessagesResp}
    (h : Tracked u p.world (heldNumbers p.accounts))
    (hresp : syncMessages p.world.world { userId := u, localSeq := p.world.cursor, limit := limit } =
      some resp) :
    SafePull u limit p ↔ ∀ t ∈ (heldNumbers p.accounts).flatten, t.1 = seqKey u → resp.maxSeq < t.2 := by
  obtain ⟨hall, htop⟩ := maxSeq_of_pull hresp
  constructor
  · intro hsafe t ht hkey
    rcases htop with htop | ⟨r, hr, htop⟩
    · rw [htop]
      exact h.ahead t ht hkey
    rw [← htop]
    rcases hsafe t ht hkey with hbelow | hfull
    · exact Int.ofNat_lt.mpr (hbelow r (mem_of_mem_page hr))
    · by_contra hge
      have hmono : (p.world.world.rowsAfter u p.world.cursor).countP (fun a ↦ a.seqId < t.2) ≤
          (p.world.world.rowsAfter u p.world.cursor).countP fun a ↦ ¬ bySeq r a := by
        apply List.countP_mono_left
        intro a _ ha
        have hlt : a.seqId < t.2 := of_decide_eq_true ha
        have hnot : ¬ r.seqId ≤ a.seqId := by omega
        exact decide_eq_true hnot
      have hfew := countP_lt_of_mem_page hr
      omega
  · intro hpast t ht hkey
    by_contra hunsafe
    push Not at hunsafe
    obtain ⟨⟨r, hr, hle⟩, hfew⟩ := hunsafe
    have hroom : ∃ r' ∈ page bySeq (p.world.world.rowsAfter u p.world.cursor) (pageLimit limit),
        decide (r'.seqId < t.2) = false :=
      exists_mem_page_of_countP_lt hfew hr (decide_eq_false (Nat.not_lt.mpr hle))
    obtain ⟨r', hr', hge⟩ := hroom
    have hge' : t.2 ≤ r'.seqId := Nat.not_lt.mp (of_decide_eq_false hge)
    have hmax := hall r' hr'
    have hlt := hpast t ht hkey
    omega

theorem Tracked.pull {p : Calls} {limit : ℤ} {resp : SyncMessagesResp}
    (h : Tracked u p.world (heldNumbers p.accounts)) (hsafe : SafePull u limit p)
    (hresp : syncMessages p.world.world { userId := u, localSeq := p.world.cursor, limit := limit } =
      some resp) :
    Tracked u { p.world with cursor := resp.maxSeq, received := p.world.received ++ resp.msgs }
      (heldNumbers p.accounts) := by
  refine ⟨⟨h.ledger.sound, h.ledger.draws_nodup, h.ledger.draws_le⟩,
    (h.safePull_iff hresp).mp hsafe, ?_, ?_⟩
  · change resp.maxSeq ≤ _
    obtain ⟨-, htop | ⟨r, hr, htop⟩⟩ := maxSeq_of_pull hresp
    · rw [htop]
      exact h.behind
    · obtain ⟨hrow, howner, -⟩ := mem_rowsAfter.mp (mem_of_mem_page hr)
      rw [← htop, ← howner]
      exact Int.ofNat_le.mpr (h.ledger.bounded r hrow).2
  · intro r hr howner hseq
    change ∃ m ∈ p.world.received ++ resp.msgs, _
    by_cases hold : (r.seqId : ℤ) ≤ p.world.cursor
    · obtain ⟨m, hm, hids⟩ := h.nothingMissed r hr howner hold
      exact ⟨m, List.mem_append_left _ hm, hids⟩
    · have hafter : r ∈ p.world.world.rowsAfter u p.world.cursor :=
        mem_rowsAfter.mpr ⟨hr, howner, Int.not_le.mp hold⟩
      obtain ⟨m, hm, hids⟩ := returned_of_pull hresp hafter hseq
      exact ⟨m, List.mem_append_right _ hm, hids⟩

theorem Tracked.outside {p : Calls} {o : Event} (h : Tracked u p.world (heldNumbers p.accounts))
    (hok : PullsSafely u p (.outside o)) (ho : InboxSequence.outside u o p.world = some s') :
    Tracked u s' (heldNumbers p.accounts) := by
  have hledger := h.ledger.outside ho
  obtain ⟨limit, resp, rfl, hresp, rfl⟩ | ⟨members, relations, clock, rfl⟩ := outside_cases ho
  · exact h.pull hok hresp
  · exact ⟨hledger, h.ahead, h.behind, h.nothingMissed⟩

end Tracked

/-- A user who pulls only when no call holds a number below the end of the page
misses nothing. -/
theorem cursor_sync {u : ℤ} {members : Keyed MemberRow.key} {relations : Keyed RelationRow.key}
    {r : Redis} {p : Calls}
    (h : Reach (system u).next (PullsSafely u) ⟨start members relations r, []⟩ p) :
    NothingMissed u p.world := by
  have htracked := System.invariant (J := fun s accounts ↦ Tracked u s (heldNumbers accounts))
    sendMessage_meets ?spawn ?exec ?outside h ⟨Pool.lawful_nil _ _, ?start⟩
  · exact htracked.2.nothingMissed
  case spawn =>
    intro s accounts hs
    have hflat : (heldNumbers accounts ++ [[]]).flatten = (heldNumbers accounts).flatten := by simp
    rw [heldNumbers, List.map_append]
    refine ⟨⟨hs.ledger.sound.spawn, hs.ledger.draws_nodup, hs.ledger.draws_le⟩, ?_, hs.behind,
      hs.nothingMissed⟩
    intro t ht
    exact hs.ahead t (hflat ▸ ht)
  case exec =>
    intro p i env c k held _ hi hmay hJ
    rw [heldNumbers, List.map_set]
    exact ⟨exec_answers i env p.world, hJ.exec (heldNumbers_get hi) hmay⟩
  case outside =>
    intro p o s hok ho hJ
    exact hJ.outside hok ho
  case start =>
    refine ⟨ledger_start members relations r, ?_, Int.natCast_nonneg _, ?_⟩
    · intro t ht
      exact absurd ht List.not_mem_nil
    · intro row hrow
      exact absurd hrow List.not_mem_nil

def quietPull : List (Library.Interleaving.Action SendMessageReq Env Event) :=
  racingSends ++ [.step 0 ⟨true, none⟩, .step 1 ⟨true, none⟩, .outside (.sync 10)]

theorem cursor_sync_quietPull :
    ∃ p : Calls, NothingMissed 2 p.world ∧ p.world.cursor = 2 ∧ p.world.received.length = 2 := by
  have hrun : Reach (system 2).next (PullsSafely 2) ⟨start .empty friendsOfTwo .empty, []⟩ _ :=
    reach_of_exec quietPull rfl
  exact ⟨_, cursor_sync hrun, rfl, rfl⟩

def Succeeds (_ : Calls) : Library.Interleaving.Action SendMessageReq Env Event → Prop
  | .step _ env => env.ok = true
  | _ => True

instance (p : Calls) (a : Library.Interleaving.Action SendMessageReq Env Event) :
    Decidable (Succeeds p a) := by
  unfold Succeeds
  split <;> infer_instance

/-- The call with number 2 inserts first. User 2 pulls up to 2, and number 1 is
inserted behind the cursor. -/
def latePull : List (Library.Interleaving.Action SendMessageReq Env Event) :=
  racingSends ++ [.step 1 ⟨true, none⟩, .outside (.sync 10), .step 0 ⟨true, none⟩]

theorem not_cursor_sync :
    ¬ ∀ p : Calls, Reach (system 2).next Succeeds ⟨start .empty friendsOfTwo .empty, []⟩ p →
      NothingMissed 2 p.world := by
  intro h
  obtain ⟨p, hrun, hmissed⟩ : ∃ p, Reach (system 2).next Succeeds
      ⟨start .empty friendsOfTwo .empty, []⟩ p ∧ ¬ NothingMissed 2 p.world := by
    refine exists_reach_of_exec latePull ⟨_, rfl, ?_⟩
    intro hnothing
    exact absurd (hnothing ⟨2, 1, 1, 1, 0⟩ (by decide) rfl (by decide)) (by decide)
  exact hmissed (h p hrun)

end TinyIM.Chat.CursorSync

import Mathlib.Data.List.Chain
import TinyIM.Chat.MessageBodies
import TinyIM.Chat.SessionOrder

namespace TinyIM.Chat.ForwardSync

open Library.Page Library.Table Protocol CursorSync
open MessageBodies (mapM_item_of_body)
open SessionOrder (increasing_of_pull)

def Readable (w : World) (u : ℤ) : Prop := ∀ r ∈ w.inbox u, ∃ b, (w.timeline r).body = some b

/-- Between two states, bodies were appended, and rows above all those in the
inbox of `u`. -/
structure Appends (u : ℤ) (w w' : World) : Prop where
  bodies : ∃ new, w'.bodies = w.bodies ++ new
  kept : ∀ r ∈ w.inbox u, r ∈ w'.inbox u
  above : ∀ r' ∈ w'.inbox u, r' ∉ w.inbox u → ∀ r ∈ w.inbox u, r.seqId < r'.seqId

/-- A forward call of `SyncMessages` with its reply. -/
structure Pull where
  world : World
  cursor : ℤ
  limit : ℤ
  resp : SyncMessagesResp

/-- Calls one after another, each with the `max_seq` of the reply before. -/
def pulls (u : ℤ) : ℤ → List (World × ℤ) → Option (List Pull)
  | _, [] => some []
  | c, (w, limit) :: calls => do
    let resp ← syncMessages w { userId := u, localSeq := c, limit := limit }
    let rest ← pulls u resp.maxSeq calls
    return ⟨w, c, limit, resp⟩ :: rest

def finalSeq : ℤ → List Pull → ℤ
  | c, [] => c
  | _, p :: ps => finalSeq p.resp.maxSeq ps

def pages (ps : List Pull) : List MessageItem := ps.flatMap fun p ↦ p.resp.msgs

theorem mem_inbox {w : World} {u : ℤ} {r : IndexRow} :
    r ∈ w.inbox u ↔ r ∈ w.index.rows ∧ r.ownerId = u := by
  simp [World.inbox]

theorem mem_rowsAfter_iff {w : World} {u c : ℤ} {r : IndexRow} :
    r ∈ w.rowsAfter u c ↔ r ∈ w.inbox u ∧ c < r.seqId := by
  rw [mem_rowsAfter, mem_inbox, and_assoc]

theorem pageLimit_pos (limit : ℤ) : 0 < pageLimit limit := by
  rw [pageLimit]
  split_ifs with h
  · decide
  · omega

section Appends

variable {u : ℤ} {w w' w'' : World}

theorem Appends.refl (u : ℤ) (w : World) : Appends u w w :=
  ⟨⟨[], (List.append_nil _).symm⟩, fun _ hr ↦ hr, fun _ hr' hnot ↦ absurd hr' hnot⟩

theorem Appends.trans (h : Appends u w w') (h' : Appends u w' w'') : Appends u w w'' := by
  obtain ⟨new, hnew⟩ := h.bodies
  obtain ⟨new', hnew'⟩ := h'.bodies
  refine ⟨⟨new ++ new', ?_⟩, fun r hr ↦ h'.kept r (h.kept r hr), ?_⟩
  · rw [hnew', hnew, List.append_assoc]
  · intro r' hr' hnot r hr
    by_cases hmid : r' ∈ w'.inbox u
    · exact h.above r' hmid hnot r hr
    · exact h'.above r' hr' hmid r (h.kept r hr)

instance : Trans (Appends u) (Appends u) (Appends u) := ⟨Appends.trans⟩

theorem Appends.timeline_eq (h : Appends u w w') (hread : Readable w u) {r : IndexRow}
    (hr : r ∈ w.inbox u) : w'.timeline r = w.timeline r := by
  obtain ⟨new, hnew⟩ := h.bodies
  obtain ⟨b, hb⟩ := hread r hr
  have hfound : w.bodies.find? (fun b ↦ b.msgId = r.msgId) = some b := hb
  rw [World.timeline, World.timeline, hnew, List.find?_append, hfound]
  rfl

/-- An insert above the inbox is such a step. -/
theorem appends_insertIndex {rows : List IndexRow} {index : Keyed IndexRow.key}
    (hinsert : w.index.insert rows = some index)
    (habove : ∀ r' ∈ rows, r'.ownerId = u → ∀ r ∈ w.inbox u, r.seqId < r'.seqId) :
    Appends u w (w.succeed (.insertIndex rows)).1 := by
  have hworld : (w.succeed (.insertIndex rows)).1 = { w with index := index } := by
    rw [World.succeed, hinsert]
  have hrows := (Keyed.rows_of_insert hinsert).2
  rw [hworld]
  refine ⟨⟨[], (List.append_nil _).symm⟩, ?_, ?_⟩
  · intro r hr
    obtain ⟨hrow, howner⟩ := mem_inbox.mp hr
    refine mem_inbox.mpr ⟨?_, howner⟩
    change r ∈ index.rows
    rw [hrows]
    exact List.mem_append_left _ hrow
  · intro r' hr' hnot r hr
    obtain ⟨hrow, howner⟩ := mem_inbox.mp hr'
    change r' ∈ index.rows at hrow
    rw [hrows] at hrow
    rcases List.mem_append.mp hrow with hrow | hrow
    · exact absurd (mem_inbox.mpr ⟨hrow, howner⟩) hnot
    · exact habove r' hrow howner r hr

end Appends

section Pull

variable {w : World} {u c limit : ℤ} {resp : SyncMessagesResp}

theorem pull_returns (hread : Readable w u) (c limit : ℤ) :
    ∃ resp, syncMessages w { userId := u, localSeq := c, limit := limit } = some resp := by
  have hbodies : ∀ r ∈ w.selectTimeline u c (pageLimit limit) false, ∃ b, r.body = some b := by
    intro r hr
    obtain ⟨row, hrow, rfl⟩ := List.mem_map.mp hr
    exact hread row (mem_rowsAfter_iff.mp (mem_of_mem_page hrow)).1
  obtain ⟨msgs, hmsgs⟩ := mapM_item_of_body hbodies
  exact ⟨_, congrArg (Option.map _) hmsgs⟩

theorem mem_mapM_item {rows : List TimelineRow} {msgs : List MessageItem}
    (h : rows.mapM TimelineRow.item? = some msgs) {m : MessageItem} :
    m ∈ msgs ↔ ∃ r ∈ rows, r.item? = some m := by
  induction rows generalizing msgs with
  | nil =>
    obtain rfl := Option.some.inj h
    simp
  | cons r rows ih =>
    rw [List.mapM_cons] at h
    obtain ⟨item, hitem, h⟩ := Option.bind_eq_some_iff.mp h
    obtain ⟨rest, hrest, h⟩ := Option.bind_eq_some_iff.mp h
    obtain rfl := Option.some.inj h
    rw [List.mem_cons, ih hrest, List.exists_mem_cons_iff, hitem, Option.some_inj, eq_comm]

/-- A page holds the rows between the two cursors, each with its body. -/
theorem mem_pull (h : syncMessages w { userId := u, localSeq := c, limit := limit } = some resp)
    {m : MessageItem} :
    m ∈ resp.msgs ↔ ∃ r ∈ w.inbox u, c < r.seqId ∧ (r.seqId : ℤ) ≤ resp.maxSeq ∧
      (w.timeline r).item? = some m := by
  obtain ⟨hall, -⟩ := maxSeq_of_pull h
  have hpage := fun r hr hle ↦ mem_page_of_le_maxSeq (r := r) h hr hle
  obtain ⟨msgs, hmsgs, rfl⟩ := Option.map_eq_some_iff.mp h
  rw [mem_mapM_item hmsgs]
  constructor
  · intro hcase
    obtain ⟨row, hrow, hitem⟩ := hcase
    obtain ⟨r, hr, rfl⟩ := List.mem_map.mp hrow
    obtain ⟨hinbox, hafter⟩ := mem_rowsAfter_iff.mp (mem_of_mem_page hr)
    exact ⟨r, hinbox, hafter, hall r hr, hitem⟩
  · intro hcase
    obtain ⟨r, hr, hafter, hle, hitem⟩ := hcase
    exact ⟨_, List.mem_map_of_mem (hpage r (mem_rowsAfter_iff.mpr ⟨hr, hafter⟩) hle), hitem⟩

theorem length_pull (h : syncMessages w { userId := u, localSeq := c, limit := limit } = some resp) :
    resp.msgs.length ≤ pageLimit limit := by
  have hlength := congrArg List.length (ids_of_pull h)
  rw [List.length_map, List.length_map] at hlength
  rw [hlength]
  exact List.length_take_le _ _

theorem empty_pull (h : syncMessages w { userId := u, localSeq := c, limit := limit } = some resp) :
    resp.msgs = [] ↔ ∀ r ∈ w.inbox u, (r.seqId : ℤ) ≤ c := by
  have hpage : resp.msgs = [] ↔ w.rowsAfter u c = [] := by
    rw [← List.map_eq_nil_iff (f := itemIds), ids_of_pull h, List.map_eq_nil_iff, page,
      List.take_eq_nil_iff, or_iff_right (pageLimit_pos limit).ne']
    rw [← List.length_eq_zero_iff, List.length_insertionSort, List.length_eq_zero_iff]
  rw [hpage, List.eq_nil_iff_forall_not_mem]
  refine forall_congr' fun r ↦ ?_
  rw [mem_rowsAfter_iff, not_and, not_lt]

end Pull

section Run

variable {u c : ℤ} {w : World} {calls : List (World × ℤ)} {ps : List Pull}

theorem pulls_returns (hread : ∀ call ∈ calls, Readable call.1 u) (c : ℤ) :
    ∃ ps, pulls u c calls = some ps := by
  induction calls generalizing c with
  | nil => exact ⟨[], rfl⟩
  | cons call calls ih =>
    obtain ⟨w, limit⟩ := call
    obtain ⟨hw, hcalls⟩ := List.forall_mem_cons.mp hread
    obtain ⟨resp, hresp⟩ := pull_returns hw c limit
    obtain ⟨rest, hrest⟩ := ih hcalls resp.maxSeq
    refine ⟨⟨w, c, limit, resp⟩ :: rest, ?_⟩
    rw [pulls, hresp, Option.bind_eq_bind, Option.bind_some, hrest]
    rfl

theorem pulls_cons {call : World × ℤ} (h : pulls u c (call :: calls) = some ps) :
    ∃ resp rest, syncMessages call.1 { userId := u, localSeq := c, limit := call.2 } = some resp ∧
      pulls u resp.maxSeq calls = some rest ∧ ps = ⟨call.1, c, call.2, resp⟩ :: rest := by
  obtain ⟨w, limit⟩ := call
  obtain ⟨resp, hresp, h⟩ := Option.bind_eq_some_iff.mp h
  obtain ⟨rest, hrest, h⟩ := Option.bind_eq_some_iff.mp h
  exact ⟨resp, rest, hresp, hrest, (Option.some.inj h).symm⟩

theorem each_pull (h : pulls u c calls = some ps) {p : Pull} (hp : p ∈ ps) :
    syncMessages p.world { userId := u, localSeq := p.cursor, limit := p.limit } = some p.resp := by
  induction calls generalizing c ps with
  | nil =>
    obtain rfl := Option.some.inj h
    cases hp
  | cons call calls ih =>
    obtain ⟨resp, rest, hresp, hrest, rfl⟩ := pulls_cons h
    rcases List.mem_cons.mp hp with rfl | hp
    · exact hresp
    · exact ih hrest hp

/-- The cursor never goes back. -/
theorem cursors_sorted (h : pulls u c calls = some ps) :
    (c :: ps.map fun p ↦ p.resp.maxSeq).Pairwise (· ≤ ·) := by
  induction calls generalizing c ps with
  | nil =>
    obtain rfl := Option.some.inj h
    exact List.pairwise_singleton _ _
  | cons call calls ih =>
    obtain ⟨resp, rest, hresp, hrest, rfl⟩ := pulls_cons h
    have hle := (increasing_of_pull hresp).2.1
    have hsorted := ih hrest
    refine List.pairwise_cons.mpr ⟨?_, hsorted⟩
    intro top htop
    rcases List.mem_cons.mp htop with rfl | htop
    · exact hle
    · exact hle.trans ((List.pairwise_cons.mp hsorted).1 top htop)

theorem le_finalSeq (h : pulls u c calls = some ps) : c ≤ finalSeq c ps := by
  induction calls generalizing c ps with
  | nil =>
    obtain rfl := Option.some.inj h
    exact le_rfl
  | cons call calls ih =>
    obtain ⟨resp, rest, hresp, hrest, rfl⟩ := pulls_cons h
    exact (increasing_of_pull hresp).2.1.trans (ih hrest)

theorem lt_of_mem_pages (h : pulls u c calls = some ps) {m : MessageItem} (hm : m ∈ pages ps) :
    c < m.seqId := by
  induction calls generalizing c ps with
  | nil =>
    obtain rfl := Option.some.inj h
    cases hm
  | cons call calls ih =>
    obtain ⟨resp, rest, hresp, hrest, rfl⟩ := pulls_cons h
    obtain ⟨-, hle, hall⟩ := increasing_of_pull hresp
    rcases List.mem_append.mp hm with hm | hm
    · exact (hall m hm).1
    · exact hle.trans_lt (ih hrest hm)

theorem pages_increasing (h : pulls u c calls = some ps) :
    (pages ps).Pairwise fun m m' ↦ m.seqId < m'.seqId := by
  induction calls generalizing c ps with
  | nil =>
    obtain rfl := Option.some.inj h
    exact List.Pairwise.nil
  | cons call calls ih =>
    obtain ⟨resp, rest, hresp, hrest, rfl⟩ := pulls_cons h
    obtain ⟨hpage, -, hall⟩ := increasing_of_pull hresp
    refine List.pairwise_append.mpr ⟨hpage, ih hrest, ?_⟩
    intro m hm m' hm'
    exact (hall m hm).2.trans_lt (lt_of_mem_pages hrest hm')

/-- What was appended after a page lies beyond its cursor. -/
theorem inbox_iff_of_appends {w' : World} {limit : ℤ} {resp : SyncMessagesResp}
    (h : syncMessages w { userId := u, localSeq := c, limit := limit } = some resp)
    (hw : Appends u w w') {r : IndexRow} (hafter : c < r.seqId) (hle : (r.seqId : ℤ) ≤ resp.maxSeq) :
    r ∈ w'.inbox u ↔ r ∈ w.inbox u := by
  refine ⟨?_, hw.kept r⟩
  intro hr
  by_contra hnot
  obtain ⟨-, htop | ⟨last, hlast, htop⟩⟩ := maxSeq_of_pull h
  · omega
  · have habove := hw.above r hr hnot last (mem_rowsAfter_iff.mp (mem_of_mem_page hlast)).1
    omega

theorem mem_pages (hgrow : (calls.map Prod.fst ++ [w]).IsChain (Appends u))
    (hread : ∀ call ∈ calls, Readable call.1 u) (h : pulls u c calls = some ps) {m : MessageItem} :
    m ∈ pages ps ↔ ∃ r ∈ w.inbox u, c < r.seqId ∧ (r.seqId : ℤ) ≤ finalSeq c ps ∧
      (w.timeline r).item? = some m := by
  induction calls generalizing c ps with
  | nil =>
    obtain rfl := Option.some.inj h
    refine ⟨fun hm ↦ absurd hm List.not_mem_nil, ?_⟩
    intro hcase
    obtain ⟨r, -, hafter, hle, -⟩ := hcase
    exact absurd hafter hle.not_gt
  | cons call calls ih =>
    obtain ⟨resp, rest, hresp, hrest, rfl⟩ := pulls_cons h
    obtain ⟨hw, hcalls⟩ := List.forall_mem_cons.mp hread
    have hchain := List.isChain_iff_pairwise.mp hgrow
    have hfinal : Appends u call.1 w :=
      (List.pairwise_cons.mp hchain).1 w (List.mem_append_right _ List.mem_cons_self)
    have hle := (increasing_of_pull hresp).2.1
    have hlast := le_finalSeq hrest
    have hsplit := ih (List.isChain_iff_pairwise.mpr (List.pairwise_cons.mp hchain).2) hcalls hrest
    change m ∈ resp.msgs ++ pages rest ↔ ∃ r ∈ w.inbox u, c < r.seqId ∧
      (r.seqId : ℤ) ≤ finalSeq resp.maxSeq rest ∧ (w.timeline r).item? = some m
    rw [List.mem_append, mem_pull hresp, hsplit]
    constructor
    · rintro (⟨r, hr, hafter, hmax, hitem⟩ | ⟨r, hr, hafter, hmax, hitem⟩)
      · exact ⟨r, hfinal.kept r hr, hafter, hmax.trans hlast, hfinal.timeline_eq hw hr ▸ hitem⟩
      · exact ⟨r, hr, hle.trans_lt hafter, hmax, hitem⟩
    · intro hcase
      obtain ⟨r, hr, hafter, hmax, hitem⟩ := hcase
      rcases le_or_gt (r.seqId : ℤ) resp.maxSeq with hpage | hpage
      · have hold := (inbox_iff_of_appends hresp hfinal hafter hpage).mp hr
        exact .inl ⟨r, hold, hafter, hpage, hfinal.timeline_eq hw hold ▸ hitem⟩
      · exact .inr ⟨r, hr, hpage, hmax, hitem⟩

end Run

/-- Forward pulls of a growing inbox return the rows behind the first cursor,
in order and each once, up to the last one. -/
theorem forward_sync (u c : ℤ) (calls : List (World × ℤ)) (w : World)
    (hgrow : (calls.map Prod.fst ++ [w]).IsChain (Appends u))
    (hread : ∀ call ∈ calls, Readable call.1 u) :
    ∃ ps, pulls u c calls = some ps ∧
      (∀ p ∈ ps, p.resp.msgs.length ≤ (if p.limit ≤ 0 then 10 else p.limit.toNat) ∧
        (p.resp.msgs = [] ↔ ∀ r ∈ p.world.inbox u, (r.seqId : ℤ) ≤ p.cursor)) ∧
      (pages ps).Pairwise (fun m m' ↦ m.seqId < m'.seqId) ∧
      (pages ps).Nodup ∧
      (∀ m, m ∈ pages ps ↔ ∃ r ∈ w.inbox u, c < r.seqId ∧ (r.seqId : ℤ) ≤ finalSeq c ps ∧
        (w.timeline r).item? = some m) ∧
      (c :: ps.map fun p ↦ p.resp.maxSeq).Pairwise (· ≤ ·) := by
  obtain ⟨ps, hps⟩ := pulls_returns hread c
  refine ⟨ps, hps, ?_, pages_increasing hps, ?_, ?_, cursors_sorted hps⟩
  · intro p hp
    have hpull := each_pull hps hp
    exact ⟨length_pull hpull, empty_pull hpull⟩
  · refine (pages_increasing hps).imp ?_
    intro m m' hlt heq
    exact absurd (heq ▸ hlt) (lt_irrefl _)
  · intro m
    exact mem_pages hgrow hread hps

def twoRows : World where
  bodies := [⟨1, 1, 0, 1, [], []⟩, ⟨2, 1, 0, 1, [], []⟩, ⟨3, 1, 0, 1, [], []⟩]
  nextMsgId := 4
  index := ⟨[⟨2, 1, 1, 1, 0⟩, ⟨2, 1, 2, 2, 0⟩], by decide⟩
  members := .empty
  relations := .empty
  redis := .empty
  clock := []

def threeRows : World := (twoRows.succeed (.insertIndex [⟨2, 1, 3, 3, 0⟩])).1

theorem forward_sync_two_pages :
    ∃ ps, pulls 2 0 [(twoRows, 1), (threeRows, 0)] = some ps ∧ (pages ps).Nodup ∧ finalSeq 0 ps = 3 ∧
      (pages ps).length = 3 := by
  have happends : Appends 2 twoRows threeRows := appends_insertIndex rfl (by decide)
  have hread : Readable twoRows 2 ∧ Readable threeRows 2 := by
    refine ⟨?_, ?_⟩
    · intro r hr
      exact Option.isSome_iff_exists.mp ((by decide : ∀ r ∈ twoRows.inbox 2, (twoRows.timeline r).body.isSome) r hr)
    · intro r hr
      exact Option.isSome_iff_exists.mp ((by decide : ∀ r ∈ threeRows.inbox 2, (threeRows.timeline r).body.isSome) r hr)
  obtain ⟨ps, hps, -, -, hnodup, -⟩ := forward_sync 2 0 [(twoRows, 1), (threeRows, 0)] threeRows
    (by simpa using ⟨happends, Appends.refl 2 threeRows⟩) (by simpa using hread)
  obtain rfl := Option.some.inj (hps.symm.trans rfl)
  exact ⟨_, hps, hnodup, rfl, rfl⟩

end TinyIM.Chat.ForwardSync

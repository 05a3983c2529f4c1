import TinyIM.Chat.ChatService
import TinyIM.Library.Interleaving
import TinyIM.Library.Tickets

namespace TinyIM.Chat.InboxSequence

open Library.ByteOrder Library.Decimal Library.Transition Library.Program Library.Interleaving
  Library.Table Library.Tickets Protocol Store Gateway

/-- The stores, and one user who pulls its inbox: `cursor` is the `max_seq` of
its last reply and `received` is all it has got. `draws` records which call
each `INCR` answered what. -/
structure Inbox where
  world : World
  draws : List (ℕ × Bytes × ℕ)
  cursor : ℤ
  received : List MessageItem

/-- What decides a command beside the stores: whether it works, and the member
list that the read replica has. -/
structure Env where
  ok : Bool
  members : Option (List ℤ)

/-- The user pulls, other services change groups and friends, or time goes on. -/
inductive Event
  | sync (limit : ℤ)
  | tables (members : Keyed MemberRow.key) (relations : Keyed RelationRow.key)
  | tick (clock : Bytes)

/-- One command of call `i`. `INCR` always reaches Redis. -/
def exec (i : ℕ) (env : Env) (s : Inbox) : (c : Command) → Inbox × Answer c
  | .incr key =>
    ({ s with
        world := (s.world.succeed (.incr key)).1
        draws := s.draws ++ [(i, key, (s.world.redis.incr key).2)] }, some (s.world.redis.incr key).2)
  | .selectMembers _ => (s, env.members)
  | c => ({ s with world := (s.world.perform env.ok c).1 }, (s.world.perform env.ok c).2)

def outside (u : ℤ) : Event → Inbox → Option Inbox
  | .sync limit, s =>
    match syncMessages s.world { userId := u, localSeq := s.cursor, limit := limit } with
    | some resp => some { s with cursor := resp.maxSeq, received := s.received ++ resp.msgs }
    | none => some s
  | .tables members relations, s =>
    some { s with world := { s.world with members := members, relations := relations } }
  | .tick clock, s => some { s with world := { s.world with clock := clock } }

def start (members : Keyed MemberRow.key) (relations : Keyed RelationRow.key) (r : Redis) : Inbox where
  world := ⟨[], 1, .empty, members, relations, r, []⟩
  draws := []
  cursor := 0
  received := []

/-- The number that an index row carries, under the key of its counter. -/
def tag (r : IndexRow) : Bytes × ℕ := (seqKey r.ownerId, r.seqId)

/-- What a call has taken from the stores: the numbers it has not inserted yet,
and the ids of the bodies it has stored. -/
structure Holding where
  numbers : List (Bytes × ℕ)
  bodies : List ℕ

/-- A call inserts exactly the numbers that it has drawn, and only for a body
that it has stored. -/
def drawThenInsert : Contract Command Answer Holding where
  may held
    | .insertIndex rows => rows.map tag = held.numbers ∧ ∀ r ∈ rows, r.msgId ∈ held.bodies
    | _ => True
  answers _
    | .incr _, none => False
    | _, _ => True
  after held
    | .insertBody _ _ _ _, some msgId => { held with bodies := held.bodies ++ [msgId] }
    | .incr key, some n => { held with numbers := held.numbers ++ [(key, n)] }
    | .insertIndex _, _ => { held with numbers := [] }
    | _, _ => held

def system (u : ℤ) : System Command Answer Reply Holding Inbox SendMessageReq Env Event where
  contract := drawThenInsert
  fresh := ⟨[], []⟩
  start := sendMessage
  exec := exec
  outside := outside u

abbrev Calls := Pool Command Answer Reply Holding Inbox

structure InboxInvariant (p : Calls) : Prop where
  /-- All rows of one owner have distinct numbers, -/
  distinct : (p.world.world.index.rows.map IndexRow.key).Nodup
  /-- from 1 to the counter of the owner. -/
  bounded : ∀ r ∈ p.world.world.index.rows,
    1 ≤ r.seqId ∧ r.seqId ≤ p.world.world.redis.counters (seqKey r.ownerId)
  /-- Each number of an owner has been handed out once. -/
  handedOnce : (p.world.draws.map Prod.snd).Nodup
  /-- No `INSERT` that a call can issue next violates `uk_owner_seq`. -/
  insertable : ∀ th ∈ p.threads, ∀ rows k, th.prog = .call (.insertIndex rows) k →
    p.world.world.index.Free rows

section Contract

variable {held : Holding}

theorem nextSeq_meets (userId : ℤ) :
    Meets drawThenInsert
      (fun t n ↦ t = { held with numbers := held.numbers ++ [(seqKey userId, n)] }) held
      (nextSeq userId) := by
  refine meets_perform_bind.mpr ⟨trivial, ?_⟩
  intro reply hreply
  cases reply with
  | none => exact hreply.elim
  | some n => exact rfl

theorem drawSeqs_meets (members : List ℤ) :
    Meets drawThenInsert (fun t targets ↦ t =
        { held with numbers := held.numbers ++ targets.map fun x ↦ (seqKey x.1, x.2) }) held
      (drawSeqs members) := by
  induction members generalizing held with
  | nil => simp [drawSeqs]
  | cons m members ih =>
    refine meets_bind.mpr ((nextSeq_meets m).mono ?_)
    intro _ n heq
    obtain rfl := heq
    refine meets_bind.mpr (ih.mono ?_)
    intro _ targets heq
    obtain rfl := heq
    simp

theorem allowsPush (targets : List (ℤ × ℕ)) : AllowsPush drawThenInsert targets where
  may _ := ⟨fun _ ↦ ⟨trivial, trivial⟩, fun _ _ _ _ ↦ trivial⟩
  after _ := ⟨fun _ _ ↦ rfl, fun _ _ ↦ rfl, fun _ _ _ _ _ ↦ rfl⟩

theorem map_tag_indexRows (groupId : ℤ) (msgId : ℕ) (targets : List (ℤ × ℕ)) :
    (indexRows groupId msgId targets).map tag = targets.map fun x ↦ (seqKey x.1, x.2) := by
  simp [indexRows, tag, Function.comp_def]

theorem fanOut_meets (req : SendMessageReq) {msgId : ℕ} (hnone : held.numbers = [])
    (hid : msgId ∈ held.bodies) (members : List ℤ) :
    Meets drawThenInsert (fun _ _ ↦ True) held (fanOut req msgId members) := by
  unfold fanOut
  split_ifs
  · exact trivial
  · refine meets_bind.mpr ((drawSeqs_meets members).mono ?_)
    intro _ targets heq
    obtain rfl := heq
    refine meets_perform_bind.mpr ⟨⟨?_, ?_⟩, ?_⟩
    · rw [map_tag_indexRows, hnone, List.nil_append]
    · intro r hr
      obtain ⟨t, -, rfl⟩ := List.mem_map.mp hr
      exact hid
    · intro inserted _
      refine meets_bind.mpr ((pushTargets_meets req.type (allowsPush targets) fun _ h ↦ h).mono ?_)
      intro _ _ _
      exact trivial

theorem sendGroup_meets (req : SendMessageReq) {msgId : ℕ} (hnone : held.numbers = [])
    (hid : msgId ∈ held.bodies) :
    Meets drawThenInsert (fun _ _ ↦ True) held (sendGroup req msgId) :=
  meets_perform_bind.mpr ⟨trivial, fun _ _ ↦ fanOut_meets req hnone hid _⟩

theorem finishSingle_meets (req : SendMessageReq) (msgId seq : ℕ) (inserted : Bool) :
    Meets drawThenInsert (fun _ _ ↦ True) held (finishSingle req msgId seq inserted) := by
  unfold finishSingle
  split_ifs
  · refine meets_bind.mpr ((push_meets (allowsPush [(req.receiverId, seq)]) ?_ _ _).mono ?_)
    · exact List.mem_singleton_self _
    · intro _ _ _
      exact trivial
  · exact trivial

theorem sendSingle_meets (req : SendMessageReq) {msgId : ℕ} (hnone : held.numbers = [])
    (hid : msgId ∈ held.bodies) :
    Meets drawThenInsert (fun _ _ ↦ True) held (sendSingle req msgId) := by
  refine meets_perform_bind.mpr ⟨trivial, ?_⟩
  intro status _
  split_ifs
  · refine meets_bind.mpr ((nextSeq_meets _).mono ?_)
    intro _ seq heq
    obtain rfl := heq
    refine meets_perform_bind.mpr ⟨⟨?_, ?_⟩, fun inserted _ ↦ finishSingle_meets req msgId seq inserted⟩
    · change [tag _] = held.numbers ++ [(seqKey req.receiverId, seq)]
      rw [hnone]
      rfl
    · intro r hr
      obtain rfl := List.mem_singleton.mp hr
      exact hid
  · exact trivial

theorem sendMessage_meets (req : SendMessageReq) :
    Meets drawThenInsert (fun _ _ ↦ True) ⟨[], []⟩ (sendMessage req) := by
  have hid : ∀ msgId : ℕ, msgId ∈ [] ++ [msgId] := fun msgId ↦ List.mem_singleton_self msgId
  refine meets_sendMessage ⟨trivial, fun _ ↦ rfl⟩ ⟨trivial, fun _ ↦ rfl⟩ trivial trivial trivial ?_ ?_
  · exact fun msgId _ ↦ sendGroup_meets req rfl (hid msgId)
  · exact fun msgId _ ↦ sendSingle_meets req rfl (hid msgId)

end Contract

theorem tag_eq_of_key_eq {r r' : IndexRow} (h : r.key = r'.key) : tag r = tag r' := by
  obtain ⟨howner, hseq⟩ := Prod.mk.inj h
  exact Prod.ext (congrArg seqKey howner) hseq

structure Unmoved (s s' : Inbox) : Prop where
  index : s'.world.index = s.world.index
  redis : s'.world.redis = s.world.redis
  draws : s'.draws = s.draws
  cursor : s'.cursor = s.cursor
  received : s'.received = s.received

section Commands

variable (i : ℕ) (env : Env) (s : Inbox) {c : Command} {held : Holding}

theorem exec_unmoved (hincr : ∀ key, c ≠ .incr key) (hinsert : ∀ rows, c ≠ .insertIndex rows) :
    Unmoved s (exec i env s c).1 := by
  obtain ⟨ok, members⟩ := env
  cases c with
  | incr key => exact absurd rfl (hincr key)
  | insertIndex rows => exact absurd rfl (hinsert rows)
  | selectMembers _ => exact ⟨rfl, rfl, rfl, rfl, rfl⟩
  | _ => cases ok <;> exact ⟨rfl, rfl, rfl, rfl, rfl⟩

theorem after_of_other (hincr : ∀ key, c ≠ .incr key) (hinsert : ∀ rows, c ≠ .insertIndex rows)
    (a : Answer c) : (drawThenInsert.after held c a).numbers = held.numbers := by
  cases c with
  | incr key => exact absurd rfl (hincr key)
  | insertIndex rows => exact absurd rfl (hinsert rows)
  | insertBody _ _ _ _ => cases a <;> rfl
  | _ => rfl

theorem exec_insertIndex (members : Option (List ℤ)) {rows : List IndexRow}
    (h : s.world.index.Free rows) :
    ∃ index : Keyed IndexRow.key, index.rows = s.world.index.rows ++ rows ∧
      (exec i ⟨true, members⟩ s (.insertIndex rows)).1 =
        { s with world := { s.world with index := index } } := by
  obtain ⟨index, hindex, hall⟩ := Keyed.insert_of_free h
  refine ⟨index, hall, ?_⟩
  simp [exec, World.perform, World.succeed, hindex]

theorem exec_answers : drawThenInsert.answers held c (exec i env s c).2 := by
  cases c with
  | incr key => exact trivial
  | _ => exact trivial

end Commands

/-- The numbers that index rows carry or running calls hold are all different
and within the counters, and so are those that were ever handed out. -/
structure Ledger (s : Inbox) (accounts : List (List (Bytes × ℕ))) : Prop where
  sound : Sound s.world.redis.counters (s.world.index.rows.map tag) accounts
  draws_nodup : (s.draws.map Prod.snd).Nodup
  draws_le : ∀ d ∈ s.draws, d.2.2 ≤ s.world.redis.counters d.2.1

section Ledger

variable {s s' : Inbox} {accounts : List (List (Bytes × ℕ))} {held : List (Bytes × ℕ)} {i : ℕ}
  {env : Env} {c : Command}

theorem Ledger.of_unmoved (h : Ledger s accounts) (hs : Unmoved s s') : Ledger s' accounts := by
  obtain ⟨hindex, hredis, hdraws, -, -⟩ := hs
  exact ⟨by rw [hindex, hredis]; exact h.sound, by rw [hdraws]; exact h.draws_nodup,
    by rw [hdraws, hredis]; exact h.draws_le⟩

theorem Ledger.incr (h : Ledger s accounts) (hi : accounts[i]? = some held) (key : Bytes) :
    Ledger (exec i env s (.incr key)).1
      (accounts.set i (held ++ [(key, (s.world.redis.incr key).2)])) := by
  refine ⟨h.sound.draw hi key, ?_, ?_⟩
  · change ((s.draws ++ [(i, key, s.world.redis.counters key + 1)]).map Prod.snd).Nodup
    rw [List.map_append, List.map_singleton, List.nodup_append]
    refine ⟨h.draws_nodup, List.nodup_singleton _, ?_⟩
    intro d hd d' hd' heq
    obtain rfl := List.mem_singleton.mp hd'
    obtain ⟨e, he, rfl⟩ := List.mem_map.mp hd
    have hle := h.draws_le e he
    rw [heq] at hle
    exact absurd hle (Nat.not_succ_le_self _)
  · intro d hd
    change d.2.2 ≤ Function.update s.world.redis.counters key (s.world.redis.counters key + 1) d.2.1
    rcases List.mem_append.mp hd with hd | hd
    · exact Nat.le_trans (h.draws_le d hd) (le_update_succ _ key d.2.1)
    · obtain rfl := List.mem_singleton.mp hd
      exact Nat.le_of_eq (Function.update_self key _ s.world.redis.counters).symm

theorem Ledger.bounded (h : Ledger s accounts) : ∀ r ∈ s.world.index.rows,
    1 ≤ r.seqId ∧ r.seqId ≤ s.world.redis.counters (seqKey r.ownerId) := by
  intro r hr
  exact h.sound.bound (tag r) (List.mem_append_left _ (List.mem_map_of_mem hr))

theorem Ledger.free (h : Ledger s accounts) (hi : accounts[i]? = some held) {rows : List IndexRow}
    (hrows : rows.map tag = held) : s.world.index.Free rows := by
  obtain ⟨hnodup, hnew⟩ := h.sound.fresh hi
  subst hrows
  refine Keyed.free_iff.mpr ⟨?_, ?_⟩
  · apply (List.nodup_map_iff_inj_on (List.Nodup.of_map tag hnodup)).mpr
    intro r hr r' hr' hkey
    exact List.inj_on_of_nodup_map hnodup hr hr' (tag_eq_of_key_eq hkey)
  · intro r hr htaken
    obtain ⟨r', hr', hkey⟩ := List.mem_map.mp htaken
    exact hnew (tag r) (List.mem_map_of_mem hr)
      (List.mem_map.mpr ⟨r', hr', tag_eq_of_key_eq hkey⟩)

theorem Ledger.insertIndex (h : Ledger s accounts) (hi : accounts[i]? = some held)
    {rows : List IndexRow} (hrows : rows.map tag = held) :
    Ledger (exec i env s (.insertIndex rows)).1 (accounts.set i []) := by
  obtain ⟨ok, members⟩ := env
  cases ok with
  | false => exact ⟨h.sound.drop hi, h.draws_nodup, h.draws_le⟩
  | true =>
    obtain ⟨index, hall, hworld⟩ := exec_insertIndex i s members (h.free hi hrows)
    rw [hworld]
    refine ⟨?_, h.draws_nodup, h.draws_le⟩
    change Sound s.world.redis.counters (index.rows.map tag) _
    rw [hall, List.map_append, hrows]
    exact h.sound.use hi

/-- What every draw, every insert of drawn numbers and every other command
keeps, all permitted commands keep. -/
theorem exec_keeps {I : Inbox → List (List (Bytes × ℕ)) → Prop} {holding : Holding}
    (hi : accounts[i]? = some holding.numbers) (hmay : drawThenInsert.may holding c)
    (hincr : ∀ key, I (exec i env s (.incr key)).1
      (accounts.set i (holding.numbers ++ [(key, (s.world.redis.incr key).2)])))
    (hinsert : ∀ rows, rows.map tag = holding.numbers →
      I (exec i env s (.insertIndex rows)).1 (accounts.set i []))
    (hother : ∀ s', Unmoved s s' → I s' accounts) :
    I (exec i env s c).1
      (accounts.set i (drawThenInsert.after holding c (exec i env s c).2).numbers) := by
  by_cases hc : ∃ key, c = .incr key
  · obtain ⟨key, rfl⟩ := hc
    exact hincr key
  by_cases hc' : ∃ rows, c = .insertIndex rows
  · obtain ⟨rows, rfl⟩ := hc'
    exact hinsert rows hmay.1
  have hne : ∀ key, c ≠ .incr key := fun key heq ↦ hc ⟨key, heq⟩
  have hne' : ∀ rows, c ≠ .insertIndex rows := fun rows heq ↦ hc' ⟨rows, heq⟩
  rw [after_of_other hne hne', set_of_getElem? hi]
  exact hother _ (exec_unmoved i env s hne hne')

theorem Ledger.exec {holding : Holding} (h : Ledger s accounts)
    (hi : accounts[i]? = some holding.numbers) (hmay : drawThenInsert.may holding c) :
    Ledger (exec i env s c).1
      (accounts.set i (drawThenInsert.after holding c (InboxSequence.exec i env s c).2).numbers) :=
  exec_keeps hi hmay (h.incr hi) (fun _ ↦ h.insertIndex hi) fun _ ↦ h.of_unmoved

/-- Between two commands the user pulls, or only tables that no call writes and
the clock change. -/
theorem outside_cases {u : ℤ} {o : Event} (ho : outside u o s = some s') :
    (∃ limit resp, o = .sync limit ∧
      syncMessages s.world { userId := u, localSeq := s.cursor, limit := limit } = some resp ∧
      s' = { s with cursor := resp.maxSeq, received := s.received ++ resp.msgs }) ∨
    ∃ members relations clock,
      s' = { s with world := { s.world with members, relations, clock } } := by
  cases o with
  | sync limit =>
    simp only [outside] at ho
    split at ho
    · next resp hresp => exact .inl ⟨limit, resp, rfl, hresp, (Option.some.inj ho).symm⟩
    · exact .inr ⟨_, _, _, (Option.some.inj ho).symm⟩
  | tables members relations => exact .inr ⟨members, relations, _, (Option.some.inj ho).symm⟩
  | tick clock => exact .inr ⟨_, _, clock, (Option.some.inj ho).symm⟩

theorem Ledger.outside {u : ℤ} {o : Event} (h : Ledger s accounts) (ho : outside u o s = some s') :
    Ledger s' accounts := by
  obtain ⟨limit, resp, -, -, rfl⟩ | ⟨members, relations, clock, rfl⟩ := outside_cases ho
  · exact ⟨h.sound, h.draws_nodup, h.draws_le⟩
  · exact ⟨h.sound, h.draws_nodup, h.draws_le⟩

theorem ledger_start (members : Keyed MemberRow.key) (relations : Keyed RelationRow.key) (r : Redis) :
    Ledger (start members relations r) [] :=
  ⟨Sound.start, List.nodup_nil, fun _ hd ↦ absurd hd List.not_mem_nil⟩

def heldNumbers (holdings : List Holding) : List (List (Bytes × ℕ)) := holdings.map Holding.numbers

theorem heldNumbers_get {p : Calls} {th : Thread Command Answer Reply Holding}
    (hi : p.threads[i]? = some th) : (heldNumbers p.accounts)[i]? = some th.account.numbers := by
  rw [heldNumbers, List.getElem?_map, Pool.accounts_of_threads hi]
  rfl

theorem ledger_of_reach {u : ℤ} {members : Keyed MemberRow.key} {relations : Keyed RelationRow.key}
    {r : Redis} {p : Calls}
    (h : Reach (system u).next anyStep ⟨start members relations r, []⟩ p) :
    p.Lawful drawThenInsert ∧ Ledger p.world (heldNumbers p.accounts) := by
  refine System.invariant (J := fun s accounts ↦ Ledger s (heldNumbers accounts)) sendMessage_meets
    ?spawn ?exec ?outside h ⟨Pool.lawful_nil _ _, ledger_start members relations r⟩
  case spawn =>
    intro s accounts hs
    rw [heldNumbers, List.map_append]
    exact ⟨hs.sound.spawn, hs.draws_nodup, hs.draws_le⟩
  case exec =>
    intro p i env c k held _ hi hmay hJ
    rw [heldNumbers, List.map_set]
    exact ⟨exec_answers i env p.world, hJ.exec (heldNumbers_get hi) hmay⟩
  case outside =>
    intro p o s _ ho hJ
    exact hJ.outside ho

/-- Whatever calls run, in whatever order their commands reach MySQL and Redis. -/
theorem inbox_invariant {u : ℤ} {members : Keyed MemberRow.key} {relations : Keyed RelationRow.key}
    {r : Redis} {p : Calls}
    (h : Reach (system u).next anyStep ⟨start members relations r, []⟩ p) : InboxInvariant p := by
  obtain ⟨hlaw, hledger⟩ := ledger_of_reach h
  refine ⟨p.world.world.index.nodup, hledger.bounded, hledger.draws_nodup, ?_⟩
  intro th hth rows k hprog
  obtain ⟨i, hi⟩ := List.getElem?_of_mem hth
  have hmeets := hlaw th hth
  rw [hprog] at hmeets
  exact hledger.free (heldNumbers_get hi) hmeets.1.1

end Ledger

def friendsOfTwo : Keyed RelationRow.key := ⟨[⟨1, 2, 1⟩, ⟨3, 2, 1⟩], by decide⟩

/-- Both send to user 2, and both have their number before either inserts. -/
def racingSends : List (Library.Interleaving.Action SendMessageReq Env Event) :=
  [.spawn { senderId := 1, receiverId := 2 }, .spawn { senderId := 3, receiverId := 2 }] ++
    List.replicate 5 (.step 0 ⟨true, none⟩) ++ List.replicate 5 (.step 1 ⟨true, none⟩)

theorem inbox_invariant_racingSends :
    ∃ p : Calls, InboxInvariant p ∧ p.world.draws = [(0, seqKey 2, 1), (1, seqKey 2, 2)] := by
  have hrun : Reach (system 2).next anyStep ⟨start .empty friendsOfTwo .empty, []⟩ _ :=
    reach_of_exec racingSends rfl
  exact ⟨_, inbox_invariant hrun, rfl⟩

end TinyIM.Chat.InboxSequence

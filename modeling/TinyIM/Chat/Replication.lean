import TinyIM.Chat.MessageBodies
import TinyIM.Chat.SendStages
import TinyIM.Library.CommitLog

namespace TinyIM.Chat.Replication

open Library.ByteOrder Library.Transition Library.Program Library.Interleaving Library.Table
  Library.Tickets Library.CommitLog Protocol Store SendStages MessageBodies

/-- What the master commits to the tables that are read on replicas. -/
inductive Commit
  | body (b : BodyRow)
  | index (rows : List IndexRow)
  | member (m : MemberRow)

structure Tables where
  bodies : List BodyRow
  index : Keyed IndexRow.key
  members : Keyed MemberRow.key

namespace Tables

def empty : Tables := ⟨[], .empty, .empty⟩

def apply (t : Tables) : Commit → Tables
  | .body b => { t with bodies := t.bodies ++ [b] }
  | .index rows => { t with index := (t.index.insert rows).getD t.index }
  | .member m => { t with members := (t.members.insert [m]).getD t.members }

def ofWorld (w : World) : Tables := ⟨w.bodies, w.index, w.members⟩

end Tables

structure Master where
  world : World
  log : List Commit

theorem memberKey_injective : Function.Injective MemberRow.key := by
  intro r r' h
  obtain ⟨hgroup, huser⟩ := Prod.mk.inj h
  cases r
  cases r'
  exact congrArg₂ MemberRow.mk hgroup huser

/-- Whether a command works, and how many commits a read connection has seen. -/
structure Env where
  ok : Bool
  seen : ℕ

/-- The commit that a command of `SendMessage` has made. -/
def committed (w : World) : (c : Command) → Answer c → List Commit
  | .insertBody senderId groupId msgType content, some msgId =>
    [.body ⟨msgId, senderId, groupId, msgType, content, w.clock⟩]
  | .insertIndex rows, true => [.index rows]
  | _, _ => []

namespace Master

def start (relations : Keyed RelationRow.key) (r : Redis) : Master :=
  ⟨⟨[], 1, .empty, .empty, relations, r, []⟩, []⟩

variable (m : Master)

/-- What a read connection finds when its replica has seen so many commits. -/
def read (seen : ℕ) : World :=
  let t := replay Tables.apply .empty (m.log.take seen)
  { m.world with bodies := t.bodies, index := t.index, members := t.members }

def answer (env : Env) : (c : Command) → World × Answer c
  | .selectMembers groupId =>
    (m.world, if env.ok then some ((m.read env.seen).membersOf groupId) else none)
  | c => m.world.perform env.ok c

def exec (env : Env) (c : Command) : Master × Answer c :=
  (⟨(m.answer env c).1, m.log ++ committed m.world c (m.answer env c).2⟩, (m.answer env c).2)

/-- `INSERT INTO im_group_member`, unless there is the row already. -/
def addMember (row : MemberRow) : Master :=
  match m.world.members.insert [row] with
  | some members => ⟨{ m.world with members := members }, m.log ++ [.member row]⟩
  | none => m

/-- A replica that has seen everything has what the master has. -/
def Mirrored : Prop := replay Tables.apply .empty m.log = .ofWorld m.world

structure Unmoved (m m' : Master) : Prop where
  log : m'.log = m.log
  bodies : m'.world.bodies = m.world.bodies
  index : m'.world.index = m.world.index
  members : m'.world.members = m.world.members
  nextMsgId : m'.world.nextMsgId = m.world.nextMsgId

variable {m}

theorem exec_insertBody_ok (seen : ℕ) (senderId groupId msgType : ℤ) (content : Bytes) :
    (m.exec ⟨true, seen⟩ (.insertBody senderId groupId msgType content)).1 =
      ⟨(m.world.succeed (.insertBody senderId groupId msgType content)).1, m.log ++
        [.body ⟨m.world.nextMsgId, senderId, groupId, msgType, content, m.world.clock⟩]⟩ := rfl

theorem exec_insertIndex_ok (seen : ℕ) {rows : List IndexRow} {index : Keyed IndexRow.key}
    (h : m.world.index.insert rows = some index) :
    m.exec ⟨true, seen⟩ (.insertIndex rows) =
      (⟨{ m.world with index := index }, m.log ++ [.index rows]⟩, true) := by
  simp [exec, answer, World.perform, World.succeed, committed, h]

theorem exec_cases (m : Master) (env : Env) (c : Command) :
    (∃ senderId groupId msgType content seen, env = ⟨true, seen⟩ ∧
      c = .insertBody senderId groupId msgType content) ∨
    (∃ rows index seen, env = ⟨true, seen⟩ ∧ c = .insertIndex rows ∧
      m.world.index.insert rows = some index) ∨
    (committed m.world c (m.exec env c).2 = [] ∧ m.Unmoved (m.exec env c).1) := by
  obtain ⟨ok, seen⟩ := env
  cases ok with
  | false => exact .inr (.inr (by cases c <;> exact ⟨rfl, List.append_nil _, rfl, rfl, rfl, rfl⟩))
  | true =>
    cases c with
    | insertBody senderId groupId msgType content => exact .inl ⟨_, _, _, _, seen, rfl, rfl⟩
    | insertIndex rows =>
      cases hinsert : m.world.index.insert rows with
      | some index => exact .inr (.inl ⟨rows, index, seen, rfl, rfl, hinsert⟩)
      | none =>
        refine .inr (.inr ?_)
        simp only [exec, answer, World.perform, World.succeed, hinsert, if_true]
        exact ⟨rfl, List.append_nil _, rfl, rfl, rfl, rfl⟩
    | _ => exact .inr (.inr ⟨rfl, List.append_nil _, rfl, rfl, rfl, rfl⟩)

theorem exec_log (m : Master) (env : Env) (c : Command) :
    (m.exec env c).1.log = m.log ∨ ∃ commit, (m.exec env c).1.log = m.log ++ [commit] := by
  obtain ⟨_, _, _, _, seen, rfl, rfl⟩ | ⟨rows, index, seen, rfl, rfl, hinsert⟩ | ⟨-, hsame⟩ :=
    m.exec_cases env c
  · exact .inr ⟨_, rfl⟩
  · rw [exec_insertIndex_ok seen hinsert]
    exact .inr ⟨_, rfl⟩
  · exact .inl hsame.log

theorem exec_members (m : Master) (env : Env) (c : Command) :
    (m.exec env c).1.world.members = m.world.members := by
  obtain ⟨_, _, _, _, seen, rfl, rfl⟩ | ⟨rows, index, seen, rfl, rfl, hinsert⟩ | ⟨-, hsame⟩ :=
    m.exec_cases env c
  · rfl
  · rw [exec_insertIndex_ok seen hinsert]
  · exact hsame.members

theorem mem_index_exec (m : Master) (env : Env) (c : Command) {r : IndexRow}
    (h : r ∈ m.world.index.rows) : r ∈ (m.exec env c).1.world.index.rows := by
  obtain ⟨_, _, _, _, seen, rfl, rfl⟩ | ⟨rows, index, seen, rfl, rfl, hinsert⟩ | ⟨-, hsame⟩ :=
    m.exec_cases env c
  · exact h
  · rw [exec_insertIndex_ok seen hinsert]
    change r ∈ index.rows
    rw [(Keyed.rows_of_insert hinsert).2]
    exact List.mem_append_left _ h
  · rw [hsame.index]
    exact h

theorem mem_index_of_inserted {env : Env} {rows : List IndexRow}
    (h : (m.exec env (.insertIndex rows)).2 = true) {r : IndexRow} (hr : r ∈ rows) :
    r ∈ (m.exec env (.insertIndex rows)).1.world.index.rows := by
  obtain ⟨ok, seen⟩ := env
  cases ok with
  | false => cases h
  | true =>
    cases hinsert : m.world.index.insert rows with
    | none => simp [exec, answer, World.perform, World.succeed, hinsert] at h
    | some index =>
      rw [exec_insertIndex_ok seen hinsert]
      change r ∈ index.rows
      rw [(Keyed.rows_of_insert hinsert).2]
      exact List.mem_append_right _ hr

theorem mem_of_addMember {m : Master} {row r : MemberRow} (h : r ∈ (m.addMember row).world.members.rows) :
    r ∈ m.world.members.rows ∨ r = row := by
  cases hinsert : m.world.members.insert [row] with
  | some members =>
    simp only [Master.addMember, hinsert] at h
    rw [(Keyed.rows_of_insert hinsert).2] at h
    exact (List.mem_append.mp h).imp id List.mem_singleton.mp
  | none =>
    simp only [Master.addMember, hinsert] at h
    exact .inl h

theorem mem_members_addMember (m : Master) (row : MemberRow) :
    row ∈ (m.addMember row).world.members.rows ∧
      ∀ r ∈ m.world.members.rows, r ∈ (m.addMember row).world.members.rows := by
  cases hinsert : m.world.members.insert [row] with
  | some members =>
    simp only [Master.addMember, hinsert]
    rw [(Keyed.rows_of_insert hinsert).2]
    exact ⟨List.mem_append_right _ (List.mem_singleton_self row), fun r ↦ List.mem_append_left _⟩
  | none =>
    simp only [Master.addMember, hinsert]
    refine ⟨?_, fun _ hr ↦ hr⟩
    by_contra hnew
    have hfree : m.world.members.Free [row] := by
      refine Keyed.free_iff.mpr ⟨List.nodup_singleton _, ?_⟩
      intro r hr htaken
      obtain rfl := List.mem_singleton.mp hr
      obtain ⟨r', hr', hkey⟩ := List.mem_map.mp htaken
      exact hnew (memberKey_injective hkey ▸ hr')
    obtain ⟨_, hsome, -⟩ := Keyed.insert_of_free hfree
    rw [hinsert] at hsome
    cases hsome

theorem Mirrored.start (relations : Keyed RelationRow.key) (r : Redis) :
    (start relations r).Mirrored := rfl

theorem Mirrored.of_tables {m' : Master} (h : m.Mirrored) (hlog : m'.log = m.log)
    (htables : Tables.ofWorld m'.world = .ofWorld m.world) : m'.Mirrored := by
  rw [Mirrored, hlog, htables]
  exact h

theorem Mirrored.exec (h : m.Mirrored) (env : Env) (c : Command) : (m.exec env c).1.Mirrored := by
  obtain ⟨_, _, _, _, seen, rfl, rfl⟩ | ⟨rows, index, seen, rfl, rfl, hinsert⟩ | ⟨-, hsame⟩ :=
    m.exec_cases env c
  · rw [exec_insertBody_ok, Mirrored, replay_concat, h]
    rfl
  · rw [exec_insertIndex_ok seen hinsert, Mirrored, replay_concat, h]
    simp [Tables.apply, Tables.ofWorld, hinsert]
  · refine h.of_tables hsame.log ?_
    rw [Tables.ofWorld, hsame.bodies, hsame.index, hsame.members]
    rfl

theorem Mirrored.addMember (h : m.Mirrored) (row : MemberRow) : (m.addMember row).Mirrored := by
  cases hinsert : m.world.members.insert [row] with
  | none =>
    simp only [Master.addMember, hinsert]
    exact h
  | some members =>
    simp only [Master.addMember, hinsert]
    rw [Mirrored, replay_concat, h]
    simp [Tables.apply, Tables.ofWorld, hinsert]

@[simp] theorem addMember_bodies (m : Master) (row : MemberRow) :
    (m.addMember row).world.bodies = m.world.bodies := by
  unfold Master.addMember
  split <;> rfl

@[simp] theorem addMember_index (m : Master) (row : MemberRow) :
    (m.addMember row).world.index = m.world.index := by
  unfold Master.addMember
  split <;> rfl

@[simp] theorem addMember_nextMsgId (m : Master) (row : MemberRow) :
    (m.addMember row).world.nextMsgId = m.world.nextMsgId := by
  unfold Master.addMember
  split <;> rfl

@[simp] theorem addMember_redis (m : Master) (row : MemberRow) :
    (m.addMember row).world.redis = m.world.redis := by
  unfold Master.addMember
  split <;> rfl

theorem addMember_log (m : Master) (row : MemberRow) :
    (m.addMember row).log = m.log ∨ ∃ commit, (m.addMember row).log = m.log ++ [commit] := by
  unfold Master.addMember
  split
  · exact .inr ⟨_, rfl⟩
  · exact .inl rfl

end Master

/-- Other services change groups and friends, and time goes on. -/
inductive Event
  | member (row : MemberRow)
  | relations (relations : Keyed RelationRow.key)
  | tick (clock : Bytes)

def outside : Event → Master → Option Master
  | .member row, m => some (m.addMember row)
  | .relations relations, m => some { m with world := { m.world with relations := relations } }
  | .tick clock, m => some { m with world := { m.world with clock := clock } }

def system : System Command Answer Reply Stage Master SendMessageReq Env Event where
  contract := ⟨fun _ _ ↦ True, fun _ _ _ ↦ True, Stage.after⟩
  fresh := .opening
  start := sendMessage
  exec _ env m := m.exec env
  outside := outside

abbrev Calls := Served Command Answer Reply Stage Master SendMessageReq

def start (relations : Keyed RelationRow.key) (r : Redis) : Calls :=
  ⟨⟨.start relations r, []⟩, []⟩

/-- Every row has its body, so that no column of the join is NULL and no pull
throws. -/
structure Joinable (w : World) : Prop where
  bodies : ∀ r ∈ w.index.rows, ∃ b ∈ w.bodies, b.msgId = r.msgId
  columns : ∀ req : SyncMessagesReq, ∀ row ∈ w.selectTimeline req.userId req.localSeq
    (pageLimit req.limit) req.reverse, ∃ b, row.body = some b ∧ b.msgId = row.index.msgId
  replies : ∀ req : SyncMessagesReq, ∃ resp, syncMessages w req = some resp

def HasBodies (t : Tables) : Prop := ∀ r ∈ t.index.rows, ∃ b ∈ t.bodies, b.msgId = r.msgId

theorem Joinable.of_hasBodies {w : World} (h : HasBodies (.ofWorld w)) : Joinable w :=
  ⟨h, fun _ _ hrow ↦ body_of_selectTimeline h hrow, syncMessages_replies h⟩

/-- The body that a call has stored and may still insert rows for. -/
def bodyOf : Stage → List ℕ
  | .opening => []
  | .connected => []
  | .stored msgId => [msgId]
  | .drawing msgId _ _ => [msgId]
  | .checked msgId _ => [msgId]
  | .numbered msgId _ => [msgId]
  | .inserted msgId _ _ => [msgId]

section Stored

variable {m : Master} {accounts : List (List ℕ)} {i : ℕ} {req : SendMessageReq} {t : Stage}
  {c : Command}

theorem msgId_of_may {rows : List IndexRow} (hmay : (stages req).may t (.insertIndex rows)) :
    (∀ a, bodyOf (t.after (.insertIndex rows) a) = bodyOf t) ∧ ∀ r ∈ rows, r.msgId ∈ bodyOf t := by
  cases t with
  | drawing msgId members targets =>
    obtain ⟨-, -, rfl⟩ := hmay
    refine ⟨fun _ ↦ rfl, ?_⟩
    intro r hr
    obtain ⟨x, -, rfl⟩ := List.mem_map.mp hr
    exact List.mem_singleton_self msgId
  | numbered msgId seq =>
    obtain ⟨-, rfl⟩ := hmay
    refine ⟨fun _ ↦ rfl, ?_⟩
    intro r hr
    obtain rfl := List.mem_singleton.mp hr
    exact List.mem_singleton_self msgId
  | _ => exact hmay.elim

theorem bodyOf_after {a : Answer c} (h : committed m.world c a = []) :
    bodyOf (t.after c a) = bodyOf t := by
  cases t with
  | connected =>
    cases c with
    | insertBody _ _ _ _ =>
      cases a with
      | none => rfl
      | some msgId => cases h
    | _ => rfl
  | _ => cases c <;> rfl

theorem Stored.execOn (h : Stored m.world accounts) (hi : accounts[i]? = some (bodyOf t))
    (hmay : (stages req).may t c) (env : Env) :
    Stored (m.exec env c).1.world (accounts.set i (bodyOf (t.after c (m.exec env c).2))) := by
  obtain ⟨senderId, groupId, msgType, content, seen, rfl, rfl⟩ |
    ⟨rows, index, seen, rfl, rfl, hinsert⟩ | ⟨hnone, hsame⟩ := m.exec_cases env c
  · cases t with
    | connected => exact h.insertBody hi senderId groupId msgType content
    | _ => exact hmay.elim
  · obtain ⟨hafter, hrows⟩ := msgId_of_may hmay
    have hworld := h.insertIndex hi hrows
    simp only [World.succeed, hinsert] at hworld
    rw [hafter, set_of_getElem? hi, Master.exec_insertIndex_ok seen hinsert]
    exact hworld
  · rw [bodyOf_after hnone, set_of_getElem? hi]
    exact h.congr hsame.bodies hsame.nextMsgId hsame.index

end Stored

/-- What holds of the master and of all replicas between any two commands. -/
structure Replicated (m : Master) (accounts : List (List ℕ)) : Prop where
  stored : Stored m.world accounts
  mirrored : m.Mirrored
  everywhere : EveryReplica Tables.apply .empty HasBodies m.log

theorem Replicated.step {m m' : Master} {accounts accounts' : List (List ℕ)}
    (h : Replicated m accounts) (hstored : Stored m'.world accounts') (hmirrored : m'.Mirrored)
    (hlog : m'.log = m.log ∨ ∃ commit, m'.log = m.log ++ [commit]) : Replicated m' accounts' := by
  refine ⟨hstored, hmirrored, h.everywhere.step hlog ?_⟩
  rw [hmirrored]
  exact hstored.indexed

theorem replicated_of_reach {relations : Keyed RelationRow.key} {r : Redis} {s : Calls}
    (h : Reach system.serve anyStep (start relations r) s) :
    Replicated s.pool.world (s.pool.accounts.map bodyOf) := by
  have hinv := System.serve_invariant (K := stages) (Q := Ended)
    (J := fun m _ accounts ↦ Replicated m (accounts.map bodyOf)) (fun _ ↦ rfl)
    ?start ?spawn ?exec ?outside h ⟨Served.keeps_nil _, ?empty⟩
  · exact hinv.2
  case start =>
    intro _ req _
    exact sendMessage_stages req
  case spawn =>
    intro s _ _ _ hJ
    have hflat : (((s.pool.accounts ++ [system.fresh]).map bodyOf)).flatten =
        (s.pool.accounts.map bodyOf).flatten := by
      rw [List.map_append, List.flatten_append]
      exact List.append_nil _
    exact ⟨⟨hJ.stored.indexed, fun msgId hmem ↦ hJ.stored.held msgId (hflat ▸ hmem),
      hJ.stored.below⟩, hJ.mirrored, hJ.everywhere⟩
  case exec =>
    intro s i env c k t req _ hi _ hmay hJ
    refine ⟨trivial, ?_⟩
    have hget : (s.pool.accounts.map bodyOf)[i]? = some (bodyOf t) := by
      rw [List.getElem?_map, Pool.accounts_of_threads hi]
      rfl
    rw [List.map_set]
    exact hJ.step (Stored.execOn hJ.stored hget hmay env) (hJ.mirrored.exec env c)
      (s.pool.world.exec_log env c)
  case outside =>
    intro s o m _ ho hJ
    cases o with
    | member row =>
      obtain rfl := Option.some.inj ho
      exact hJ.step (hJ.stored.congr (Master.addMember_bodies _ row) (Master.addMember_nextMsgId _ row)
        (Master.addMember_index _ row)) (hJ.mirrored.addMember row) (Master.addMember_log _ row)
    | relations relations =>
      obtain rfl := Option.some.inj ho
      exact ⟨hJ.stored.congr rfl rfl rfl, hJ.mirrored, hJ.everywhere⟩
    | tick clock =>
      obtain rfl := Option.some.inj ho
      exact ⟨hJ.stored.congr rfl rfl rfl, hJ.mirrored, hJ.everywhere⟩
  case empty =>
    refine ⟨⟨?_, ?_, ?_⟩, rfl, ?_⟩
    · intro x hx
      exact absurd hx List.not_mem_nil
    · intro x hx
      exact absurd hx List.not_mem_nil
    · intro x hx
      exact absurd hx List.not_mem_nil
    · apply EveryReplica.nil
      intro x hx
      exact absurd hx List.not_mem_nil

/-- The master, and every replica that has seen any number of its commits, has
a body for each row of the index. -/
theorem every_replica_joinable {relations : Keyed RelationRow.key} {r : Redis} {s : Calls}
    (h : Reach system.serve anyStep (start relations r) s) (seen : ℕ) :
    Joinable (s.pool.world.read seen) :=
  .of_hasBodies ((replicated_of_reach h).everywhere seen)

/-- The sends of two friends of user 2. The second has its body and its number
when the first inserts its row. -/
def interleavedSends : List (Library.Interleaving.Action SendMessageReq Env Event) :=
  [.spawn { senderId := 1, receiverId := 2 }, .spawn { senderId := 3, receiverId := 2 }] ++
    List.replicate 4 (.step 0 ⟨true, 0⟩) ++ List.replicate 5 (.step 1 ⟨true, 0⟩) ++
    List.replicate 2 (.step 0 ⟨true, 0⟩)

theorem every_replica_joinable_interleavedSends :
    ∃ s : Calls, (∀ seen, Joinable (s.pool.world.read seen)) ∧
      (s.pool.world.read 2).index.rows = [] ∧ (s.pool.world.read 2).bodies.length = 2 ∧
      (s.pool.world.read 3).index.rows = [⟨2, 1, 1, 2, 0⟩] := by
  have hrun : Reach system.serve anyStep (start InboxSequence.friendsOfTwo .empty) _ :=
    reach_of_exec interleavedSends rfl
  exact ⟨_, every_replica_joinable hrun, rfl, rfl, rfl⟩

end TinyIM.Chat.Replication

import TinyIM.Chat.ChatService
import TinyIM.Library.Interleaving
import TinyIM.Relation.FriendService

namespace TinyIM.Relation.Friendship

open Library.ByteOrder Library.Transition Library.Program Library.Interleaving Library.Table Protocol
  Store Chat FriendService

inductive Request
  | send (req : SendMessageReq)
  | apply (req : ApplyFriendReq)
  | accept (req : AcceptFriendReq)

inductive Outcome
  | sent (reply : Reply)
  | applied (reply : Status × ApplyFriendResp)
  | accepted (resp : AcceptFriendResp)

inductive Call
  | chat (c : Chat.Command)
  | friend (c : FriendService.Command)

abbrev Answers : Call → Type
  | .chat c => Chat.Answer c
  | .friend c => FriendService.Answer c

/-- A message that a friend handler sends is a request of its own. -/
def Request.program : Request → Prog Call Answers Outcome
  | send req => do
    let reply ← (sendMessage req).lift Call.chat
    return .sent reply
  | apply req => do
    let reply ← (applyFriend req).lift Call.friend
    return .applied reply
  | accept req => do
    let resp ← (acceptFriend req).lift Call.friend
    return .accepted resp

/-- What decides a command beside the tables: whether it works, the members
that the read replica has, and what `im_friend_request` answers. -/
structure Env where
  ok : Bool
  members : Option (List ℤ) := none
  pending : Bool := false
  applyId : ℕ := 0

def execChat (env : Env) (w : World) : (c : Chat.Command) → World × Chat.Answer c
  | .selectMembers _ => (w, env.members)
  | c => w.perform env.ok c

/-- Ids are `BIGINT UNSIGNED`: with `IGNORE` a negative id is stored as 0. -/
def stored (id : ℤ) : ℤ := if id < 0 then 0 else id

theorem stored_of_nonneg {id : ℤ} (h : 0 ≤ id) : stored id = id := if_neg (not_lt.mpr h)

theorem stored_natCast (n : ℕ) : stored n = n := stored_of_nonneg (Int.natCast_nonneg n)

theorem stored_nonneg (id : ℤ) : 0 ≤ stored id := by
  rw [stored]
  split_ifs <;> omega

theorem stored_stored (id : ℤ) : stored (stored id) = stored id := stored_of_nonneg (stored_nonneg id)

def newRelations (userId requesterId : ℤ) : List RelationRow :=
  [⟨stored userId, stored requesterId, 1⟩, ⟨stored requesterId, stored userId, 1⟩]

def execFriend (env : Env) (w : World) : (c : FriendService.Command) → World × FriendService.Answer c
  | .connect => (w, env.ok)
  | .selectPending _ _ => (w, if env.ok then some env.pending else none)
  | .insertRequest _ _ _ => (w, if env.ok then some env.applyId else none)
  | .insertRelations userId requesterId =>
    if env.ok then
      ({ w with relations := w.relations.insertIgnore (newRelations userId requesterId) }, true)
    else (w, false)
  | .sendMessage _ => (w, ())

def exec (env : Env) (w : World) : (c : Call) → World × Answers c
  | .chat c => execChat env w c
  | .friend c => execFriend env w c

/-- The account of a call tells whether it has executed its `INSERT IGNORE`. -/
def after : Bool → (c : Call) → Answers c → Bool
  | _, .friend (.insertRelations _ _), true => true
  | t, _, _ => t

/-- Whatever else runs changes the other tables, Redis and the clock. -/
inductive Event
  | others (world : World)

def outside : Event → World → Option World
  | .others world, w => some { world with relations := w.relations }

def system : System Call Answers Outcome Bool World Request Env Event where
  contract := ⟨fun _ _ ↦ True, fun _ _ _ ↦ True, after⟩
  fresh := false
  start := Request.program
  exec _ := exec
  outside := outside

abbrev Calls := Served Call Answers Outcome Bool World Request

abbrev Step := Library.Interleaving.Action Request Env Event

def start (w : World) : Calls := ⟨⟨{ w with relations := .empty }, []⟩, []⟩

def nextCall (s : Calls) (i : ℕ) : Option Call :=
  match s.pool.threads[i]? with
  | some ⟨.call c _, _⟩ => some c
  | _ => none

def Call.onMySQL : Call → Bool
  | .chat (.incr _) => false
  | .chat (.exists? _) => false
  | .chat (.hgetall _) => false
  | .chat (.pushNotify _ _ _ _) => false
  | .friend (.sendMessage _) => false
  | _ => true

def Request.Genuine : Request → Prop
  | .accept req => 1 ≤ req.userId ∧ 1 ≤ req.requesterId
  | _ => True

instance (r : Request) : Decidable r.Genuine := by
  unfold Request.Genuine
  split <;> infer_instance

/-- Users have ids from 1 on, and MySQL makes no error. -/
def Faultless (s : Calls) : Step → Prop
  | .spawn r => r.Genuine
  | .step i env => ∀ c ∈ nextCall s i, c.onMySQL → env.ok
  | .outside _ => True

instance (s : Calls) (a : Step) : Decidable (Faultless s a) := by
  unfold Faultless
  split <;> infer_instance

/-- The friend check of `SendMessage` passes for a message of `a` to `b`. -/
def Passes (s : Calls) (a b : ℤ) : Prop :=
  isFriend (exec { ok := true } s.pool.world (.chat (.selectRelation a b))).2 = true

def Between (req : AcceptFriendReq) (a b : ℤ) : Prop :=
  req.userId = a ∧ req.requesterId = b ∨ req.userId = b ∧ req.requesterId = a

/-- Some call has accepted a request between the two, and executed its insert. -/
def Accepted (requests : List Request) (accounts : List Bool) (a b : ℤ) : Prop :=
  ∃ (i : ℕ) (req : AcceptFriendReq), requests[i]? = some (.accept req) ∧ req.accept = true ∧ accounts[i]? = some true ∧
    Between req a b

/-- The relations are stored by `AcceptFriend` alone, for the two users of the
request. -/
def duties (r : Request) : Contract Call Answers Bool where
  may _
    | .friend (.insertRelations userId requesterId) =>
      ∃ req, r = .accept req ∧ req.accept = true ∧ userId = req.userId ∧ requesterId = req.requesterId
    | _ => True
  answers _ _ _ := True
  after := after

section Contract

variable {t : Bool}

theorem applyFriend_meets (req : ApplyFriendReq) :
    Meets ((duties (.apply req)).comap Call.friend) (fun _ _ ↦ True) t (applyFriend req) := by
  refine meets_of_permits (applyFriend_commands req) ?_
  rintro _ _ (rfl | rfl | rfl | rfl) <;> exact trivial

theorem acceptFriend_meets (req : AcceptFriendReq) :
    Meets ((duties (.accept req)).comap Call.friend) (fun _ _ ↦ True) t (acceptFriend req) := by
  refine meets_of_permits (acceptFriend_commands req) ?_
  rintro _ _ (rfl | ⟨haccept, rfl⟩ | rfl)
  · exact trivial
  · exact ⟨req, rfl, haccept, rfl, rfl⟩
  · exact trivial

theorem program_meets (r : Request) : Meets (duties r) (fun _ _ ↦ True) false r.program := by
  cases r with
  | send req =>
    have hsend : Meets ((duties (.send req)).comap Call.chat) (fun _ _ ↦ True) false (sendMessage req) :=
      meets_of_may fun _ _ ↦ trivial
    exact meets_bind.mpr (meets_lift.mpr hsend)
  | apply req => exact meets_bind.mpr (meets_lift.mpr (applyFriend_meets req))
  | accept req => exact meets_bind.mpr (meets_lift.mpr (acceptFriend_meets req))

end Contract

section Accepted

variable {requests : List Request} {accounts : List Bool} {a b : ℤ}

theorem between_comm {req : AcceptFriendReq} : Between req a b ↔ Between req b a := or_comm

theorem accepted_comm : Accepted requests accounts a b ↔ Accepted requests accounts b a := by
  simp only [Accepted, between_comm (a := a)]

theorem accepted_spawn (hlength : requests.length = accounts.length) (r : Request) :
    Accepted (requests ++ [r]) (accounts ++ [false]) a b ↔ Accepted requests accounts a b := by
  constructor
  · intro h
    obtain ⟨i, req, hr, haccept, hi, hbetween⟩ := h
    rcases getElem?_concat_some hi with hi | ⟨-, heq⟩
    · rcases getElem?_concat_some hr with hr | ⟨hlast, -⟩
      · exact ⟨i, req, hr, haccept, hi, hbetween⟩
      · have hlt := (List.getElem?_eq_some_iff.mp hi).1
        omega
    · cases heq
  · intro h
    obtain ⟨i, req, hr, haccept, hi, hbetween⟩ := h
    refine ⟨i, req, ?_, haccept, ?_, hbetween⟩
    · exact getElem?_append_of_some hr _
    · exact getElem?_append_of_some hi _

theorem accepted_insert {i : ℕ} {t : Bool} {req : AcceptFriendReq} (hi : accounts[i]? = some t)
    (hr : requests[i]? = some (.accept req)) (haccept : req.accept = true) :
    Accepted requests (accounts.set i true) a b ↔ Accepted requests accounts a b ∨ Between req a b := by
  constructor
  · intro h
    obtain ⟨j, req', hr', haccept', hj, hbetween⟩ := h
    rcases getElem?_set_cases hj with ⟨rfl, -⟩ | ⟨-, hj⟩
    · obtain rfl := Request.accept.inj (Option.some.inj (hr.symm.trans hr'))
      exact .inr hbetween
    · exact .inl ⟨j, req', hr', haccept', hj, hbetween⟩
  · intro h
    have hnew : (accounts.set i true)[i]? = some true :=
      List.getElem?_set_self (List.getElem?_eq_some_iff.mp hi).1
    rcases h with ⟨j, req', hr', haccept', hj, hbetween⟩ | hbetween
    · refine ⟨j, req', hr', haccept', ?_, hbetween⟩
      by_cases hij : i = j
      · exact hij ▸ hnew
      · rw [List.getElem?_set_ne hij, hj]
    · exact ⟨i, req, hr, haccept, hnew, hbetween⟩

end Accepted

theorem mem_newRelations {req : AcceptFriendReq} (hgenuine : (Request.accept req).Genuine) {a b : ℤ} :
    (a, b) ∈ (newRelations req.userId req.requesterId).map RelationRow.key ↔ Between req a b := by
  obtain ⟨huser, hrequester⟩ := hgenuine
  rw [newRelations, stored_of_nonneg (by omega), stored_of_nonneg (by omega)]
  simp only [List.map_cons, List.map_nil, List.mem_cons, List.not_mem_nil, or_false, RelationRow.key,
    Prod.mk.injEq, Between]
  grind

theorem execChat_relations (env : Env) (w : World) (c : Chat.Command) :
    (execChat env w c).1.relations = w.relations := by
  obtain ⟨ok, members, pending, applyId⟩ := env
  cases ok with
  | false => cases c <;> rfl
  | true =>
    cases c with
    | insertIndex rows =>
      simp only [execChat, World.perform, World.succeed, if_true]
      split <;> rfl
    | _ => rfl

/-- Only the insert of the relations touches them, and only it changes an account. -/
theorem exec_frame (env : Env) (w : World) {c : Call}
    (hc : ∀ userId requesterId, c ≠ .friend (.insertRelations userId requesterId)) (t : Bool) :
    (exec env w c).1.relations = w.relations ∧ after t c (exec env w c).2 = t := by
  cases c with
  | chat c => exact ⟨execChat_relations env w c, rfl⟩
  | friend c =>
    cases c with
    | insertRelations userId requesterId => exact absurd rfl (hc userId requesterId)
    | _ => exact ⟨rfl, rfl⟩

/-- All relations are friendships, and each is one that has been accepted. -/
structure Mutual (w : World) (requests : List Request) (accounts : List Bool) : Prop where
  genuine : ∀ r ∈ requests, r.Genuine
  normal : ∀ row ∈ w.relations.rows, row.status = 1
  accepted : ∀ a b, (a, b) ∈ w.relations.rows.map RelationRow.key ↔ Accepted requests accounts a b

section Mutual

variable {w : World} {requests : List Request} {accounts : List Bool}

theorem Mutual.spawn (h : Mutual w requests accounts) (hlength : requests.length = accounts.length)
    {r : Request} (hr : r.Genuine) : Mutual w (requests ++ [r]) (accounts ++ [false]) := by
  refine ⟨?_, h.normal, ?_⟩
  · intro r' hr'
    rcases List.mem_append.mp hr' with hr' | hr'
    · exact h.genuine r' hr'
    · obtain rfl := List.mem_singleton.mp hr'
      exact hr
  · intro a b
    rw [accepted_spawn hlength, h.accepted]

theorem Mutual.congr {w' : World} (h : Mutual w requests accounts)
    (hrelations : w'.relations = w.relations) : Mutual w' requests accounts := by
  refine ⟨h.genuine, ?_, ?_⟩
  · rw [hrelations]
    exact h.normal
  · rw [hrelations]
    exact h.accepted

theorem Mutual.insert (h : Mutual w requests accounts) {i : ℕ} {t : Bool} {req : AcceptFriendReq}
    (hi : accounts[i]? = some t) (hr : requests[i]? = some (.accept req)) (haccept : req.accept = true) :
    Mutual
      { w with relations := w.relations.insertIgnore (newRelations req.userId req.requesterId) }
      requests (accounts.set i true) := by
  refine ⟨h.genuine, ?_, ?_⟩
  · intro row hrow
    rcases Keyed.mem_of_mem_insertIgnore hrow with hrow | hrow
    · exact h.normal row hrow
    · rcases List.mem_pair.mp hrow with rfl | rfl <;> rfl
  · intro a b
    have hgenuine := h.genuine _ (List.mem_of_getElem? hr)
    rw [Keyed.mem_keys_insertIgnore, h.accepted, mem_newRelations hgenuine,
      accepted_insert hi hr haccept]

theorem Mutual.exec {c : Call} {env : Env} {i : ℕ} {t : Bool} {r : Request}
    (h : Mutual w requests accounts) (hi : accounts[i]? = some t) (hr : requests[i]? = some r)
    (hmay : (duties r).may t c) :
    Mutual (exec env w c).1 requests (accounts.set i (after t c (exec env w c).2)) := by
  by_cases hc : ∃ userId requesterId, c = .friend (.insertRelations userId requesterId)
  · obtain ⟨userId, requesterId, rfl⟩ := hc
    obtain ⟨req, rfl, haccept, rfl, rfl⟩ := hmay
    obtain ⟨ok, members, pending, applyId⟩ := env
    cases ok with
    | false =>
      change Mutual w requests (accounts.set i t)
      rw [set_of_getElem? hi]
      exact h
    | true => exact h.insert hi hr haccept
  · obtain ⟨hrelations, hafter⟩ :=
      exec_frame env w (fun userId requesterId heq ↦ hc ⟨userId, requesterId, heq⟩) t
    rw [hafter, set_of_getElem? hi]
    exact h.congr hrelations

theorem Mutual.statusOf (h : Mutual w requests accounts) (a b : ℤ) :
    w.statusOf a b = some 1 ↔ Accepted requests accounts a b := by
  rw [← h.accepted, World.statusOf]
  constructor
  · intro hstatus
    obtain ⟨row, hfind, -⟩ := Option.map_eq_some_iff.mp hstatus
    have hkey : row.key = (a, b) := by simpa using List.find?_some hfind
    exact hkey ▸ List.mem_map_of_mem (List.mem_of_find?_eq_some hfind)
  · intro hmem
    obtain ⟨row, hrow, hkey⟩ := List.mem_map.mp hmem
    have hsome : (w.relations.rows.find? fun r ↦ r.key = (a, b)).isSome :=
      List.find?_isSome.mpr ⟨row, hrow, decide_eq_true hkey⟩
    obtain ⟨found, hfind⟩ := Option.isSome_iff_exists.mp hsome
    rw [hfind, Option.map_some, h.normal found (List.mem_of_find?_eq_some hfind)]

end Mutual

theorem mutual_of_reach {w : World} {s : Calls} (h : Reach system.serve Faultless (start w) s) :
    Mutual s.pool.world s.requests s.pool.accounts := by
  refine (System.serve_invariant (K := duties) (Q := fun _ _ _ ↦ True) (J := Mutual) (fun _ ↦ rfl)
    ?start ?spawn ?exec ?outside h ⟨Served.keeps_nil _, ?_⟩).2
  case start =>
    intro _ r _
    exact program_meets r
  case spawn =>
    intro s r hr hlength hmutual
    exact hmutual.spawn hlength hr
  case exec =>
    intro s i env c k t r _ hi hr hmay hmutual
    exact ⟨trivial, hmutual.exec (Pool.accounts_of_threads hi) hr hmay⟩
  case outside =>
    intro s o w' _ ho hmutual
    cases o with
    | others world =>
      obtain rfl := Option.some.inj ho
      exact hmutual.congr rfl
  · refine ⟨?_, ?_, ?_⟩
    · exact fun _ hr ↦ absurd hr List.not_mem_nil
    · exact fun _ hrow ↦ absurd hrow List.not_mem_nil
    · intro a b
      constructor
      · exact fun hmem ↦ absurd hmem List.not_mem_nil
      · rintro ⟨i, req, hr, -⟩
        cases hr

/-- Friendship is symmetric, and the check finds those who have accepted. -/
theorem friendship_symmetric {w : World} {s : Calls}
    (h : Reach system.serve Faultless (start w) s) (a b : ℤ) :
    (Passes s a b ↔ Passes s b a) ∧
      (Passes s a b ↔ Accepted s.requests s.pool.accounts a b) := by
  have hmutual := mutual_of_reach h
  have hpasses : ∀ a b, Passes s a b ↔ Accepted s.requests s.pool.accounts a b := by
    intro a b
    rw [← hmutual.statusOf, Passes]
    change decide (some (s.pool.world.statusOf a b) = some (some 1)) = true ↔ _
    rw [decide_eq_true_iff, Option.some.injEq]
  refine ⟨?_, hpasses a b⟩
  rw [hpasses, hpasses, accepted_comm]

/-- User 1 applies to user 2, both accept at the same time, and user 1 writes. -/
def befriending : List Step :=
  [.spawn (.apply { userId := 1, friendId := 2 }), .step 0 { ok := true }, .step 0 { ok := true },
    .step 0 { ok := true, applyId := 1 }, .step 0 { ok := true },
    .spawn (.accept { userId := 2, requesterId := 1, accept := true }),
    .spawn (.accept { userId := 1, requesterId := 2, accept := true }), .step 1 { ok := true },
    .step 2 { ok := true }, .step 1 { ok := true }, .step 2 { ok := true },
    .spawn (.send { senderId := 1, receiverId := 2 }), .step 3 { ok := true },
    .step 3 { ok := true }, .step 3 { ok := true }]

theorem friendship_symmetric_befriending :
    ∃ s : Calls, nextCall s 3 = some (.chat (.selectRelation 1 2)) ∧ Passes s 1 2 ∧ Passes s 2 1 := by
  obtain ⟨s, h, hnext, haccepted⟩ : ∃ s : Calls,
      Reach system.serve Faultless (start ⟨[], 1, .empty, .empty, .empty, .empty, []⟩) s ∧
        nextCall s 3 = some (.chat (.selectRelation 1 2)) ∧
          Accepted s.requests s.pool.accounts 1 2 :=
    exists_reach_of_exec befriending ⟨_, rfl, rfl, 1, _, rfl, rfl, rfl, .inr ⟨rfl, rfl⟩⟩
  have hpasses := (friendship_symmetric h 1 2).2.mpr haccepted
  exact ⟨s, hnext, hpasses, (friendship_symmetric h 1 2).1.mp hpasses⟩

end TinyIM.Relation.Friendship

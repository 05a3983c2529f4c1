import TinyIM.Chat.Replication
import TinyIM.Relation.RelationService

namespace TinyIM.Relation.GroupFanOut

open Library.ByteOrder Library.Transition Library.Program Library.Interleaving Library.Table Protocol
  Store Chat Chat.SendStages Chat.Replication
open Friendship (stored stored_stored)
open RelationService (createGroup joinGroup acceptGroup addInitialMembers joinedMsg)

inductive Request
  | send (req : SendMessageReq)
  | create (req : CreateGroupReq)
  | join (req : JoinGroupReq)
  | accept (req : AcceptGroupReq)

inductive Outcome
  | sent (reply : Reply)
  | created (resp : CreateGroupResp)
  | joined (resp : JoinGroupResp)
  | accepted (resp : AcceptGroupResp)

inductive Call
  | chat (c : Chat.Command)
  | group (c : RelationService.Command)

abbrev Answers : Call → Type
  | .chat c => Chat.Answer c
  | .group c => RelationService.Answer c

/-- A message that a group handler sends is a request of its own. -/
def Request.program : Request → Prog Call Answers Outcome
  | send req => do
    let reply ← (sendMessage req).lift Call.chat
    return .sent reply
  | create req => do
    let resp ← (createGroup req).lift Call.group
    return .created resp
  | join req => do
    let resp ← (joinGroup req).lift Call.group
    return .joined resp
  | accept req => do
    let resp ← (acceptGroup req).lift Call.group
    return .accepted resp

/-- A member under the ids that the columns take. -/
def memberRow (groupId userId : ℤ) : MemberRow := ⟨stored groupId, stored userId⟩

/-- The members that a call has reported with success. -/
def joins : Request → Outcome → List MemberRow
  | .create req, .created resp =>
    if resp.success then
      memberRow resp.groupId req.ownerId :: req.initialMembers.map (memberRow resp.groupId)
    else []
  | .join req, .joined resp => if resp.success then [memberRow req.groupId req.userId] else []
  | .accept req, .accepted resp =>
    if req.accept && resp.success then [memberRow req.groupId req.requesterId] else []
  | _, _ => []

/-- The stores, and the members that the master had when each `SendMessage`
opened its connections. -/
structure Groups where
  master : Master
  opened : ℕ → Option (List MemberRow)

/-- Whether a command works, how many commits its read connection has seen, and
the id of a new group. -/
structure Env where
  ok : Bool
  seen : ℕ := 0
  newGroup : ℕ := 0

/-- What the three handlers ask. -/
def execGroup (env : Env) (m : Master) : (c : RelationService.Command) → Master × RelationService.Answer c
  | .connectWrite => (m, env.ok)
  | .insertGroup _ _ => (m, if env.ok then some env.newGroup else none)
  | .selectMember groupId userId =>
    (m, if env.ok then some (decide (⟨groupId, userId⟩ ∈ m.world.members.rows)) else none)
  | .insertMember groupId userId _ =>
    if env.ok then
      (m.addMember (memberRow groupId userId),
        if memberRow groupId userId ∈ m.world.members.rows then .duplicate else .done)
    else (m, .failed)
  | c => (m, RelationService.Tables.failure c)

def openedBy (i : ℕ) (s : Groups) : Chat.Command → ℕ → Option (List MemberRow)
  | .connectWrite => Function.update s.opened i (some s.master.world.members.rows)
  | _ => s.opened

def exec (i : ℕ) (env : Env) (s : Groups) : (c : Call) → Groups × Answers c
  | .chat c =>
    let r := s.master.exec ⟨env.ok, env.seen⟩ c
    (⟨r.1, openedBy i s c⟩, r.2)
  | .group c =>
    let r := execGroup env s.master c
    (⟨r.1, s.opened⟩, r.2)

inductive Event
  | relations (relations : Keyed RelationRow.key)
  | tick (clock : Bytes)

def outside : Event → Groups → Option Groups
  | .relations relations, s =>
    some { s with master := ⟨{ s.master.world with relations := relations }, s.master.log⟩ }
  | .tick clock, s => some { s with master := ⟨{ s.master.world with clock := clock }, s.master.log⟩ }

/-- How far a `SendMessage` has come, or the rows that a group handler has found
or inserted. -/
abbrev Progress := Stage × List MemberRow

def after : Progress → (c : Call) → Answers c → Progress
  | t, .chat c, a => (t.1.after c a, t.2)
  | t, .group (.selectMember groupId userId), some true => (t.1, memberRow groupId userId :: t.2)
  | t, .group (.insertMember groupId userId _), .done => (t.1, memberRow groupId userId :: t.2)
  | t, .group (.insertMember groupId userId _), .duplicate => (t.1, memberRow groupId userId :: t.2)
  | t, _, _ => t

/-- An answer that is no failure. -/
def Works : (c : Call) → Answers c → Prop
  | .chat .connectWrite, ok => ok = true
  | .chat .connectRead, ok => ok = true
  | .chat (.insertBody _ _ _ _), a => a.isSome
  | .chat (.selectMembers _), a => a.isSome
  | .chat (.selectRelation _ _), a => a.isSome
  | .chat (.incr _), a => a.isSome
  | .chat (.insertIndex _), ok => ok = true
  | .group .connectWrite, ok => ok = true
  | .group (.insertGroup _ _), a => a.isSome
  | .group (.selectMember _ _), a => a.isSome
  | .group (.insertMember _ _ _), a => a ≠ .failed
  | _, _ => True

def system : System Call Answers Outcome Progress Groups Request Env Event where
  contract := ⟨fun _ _ ↦ True, fun _ _ _ ↦ True, after⟩
  fresh := (.opening, [])
  start := Request.program
  exec := exec
  outside := outside

abbrev Calls := Served Call Answers Outcome Progress Groups Request

abbrev Step := Library.Interleaving.Action Request Env Event

def start (relations : Keyed RelationRow.key) (r : Redis) : Calls :=
  ⟨⟨⟨.start relations r, fun _ ↦ none⟩, []⟩, []⟩

def nextCall (s : Calls) (i : ℕ) : Option Call :=
  match s.pool.threads[i]? with
  | some ⟨.call c _, _⟩ => some c
  | _ => none

def outcome (s : Calls) (i : ℕ) : Option Outcome :=
  match s.pool.threads[i]? with
  | some ⟨.done a, _⟩ => some a
  | _ => none

instance (c : Call) (a : Answers c) : Decidable (Works c a) := by
  unfold Works
  split <;> infer_instance

def NoFailure (s : Calls) : Step → Prop
  | .step i env => ∀ c ∈ nextCall s i, Works c (exec i env s.pool.world c).2
  | _ => True

instance (s : Calls) (a : Step) : Decidable (NoFailure s a) := by
  unfold NoFailure
  split <;> infer_instance

def FindsMembers (s : Groups) (i : ℕ) (env : Env) : Call → Prop
  | .chat (.selectMembers groupId) => ∀ m ∈ (s.opened i).getD [], m.groupId = groupId →
      m.userId ∈ (s.master.read env.seen).membersOf groupId
  | _ => True

instance (s : Groups) (i : ℕ) (env : Env) (c : Call) : Decidable (FindsMembers s i env c) := by
  unfold FindsMembers
  split <;> infer_instance

/-- The replica that the members are read from has all members that the group
had when the call opened its connections. -/
def CaughtUp (s : Calls) : Step → Prop
  | .step i env => ∀ c ∈ nextCall s i, FindsMembers s.pool.world i env c
  | _ => True

instance (s : Calls) (a : Step) : Decidable (CaughtUp s a) := by
  unfold CaughtUp
  split <;> infer_instance

/-- The user had joined the group: a call has reported it. -/
def HasJoined (s : Calls) (groupId userId : ℤ) : Prop :=
  ∃ j r a, s.requests[j]? = some r ∧ outcome s j = some a ∧ ⟨groupId, userId⟩ ∈ joins r a

/-- A message to a group that starts after `s₁` and is sent by `s` has a row
for all who had joined by `s₁`. -/
def Reaches (s₁ s : Calls) : Prop :=
  ∀ i req reply u, s₁.pool.world.opened i = none → s.requests[i]? = some (.send req) →
    0 < req.groupId → outcome s i = some (.sent reply) → reply.2.success = true →
      HasJoined s₁ req.groupId u →
        ∃ row ∈ s.pool.world.master.world.index.rows, row.ownerId = u ∧ (row.msgId : ℤ) = reply.2.msgId

def duties (r : Request) : Contract Call Answers Progress where
  may t
    | .chat c => ∃ req, r = .send req ∧ (stages req).may t.1 c
    | .group _ => ∀ req, r ≠ .send req
  answers _ := Works
  after := after

def Finished : Request → Progress → Outcome → Prop
  | .send req, t, a => ∃ reply, a = .sent reply ∧ Ended req t.1 reply
  | r, t, a => ∀ m ∈ joins r a, m ∈ t.2

section Contract

variable {r : Request} {t : Progress}

abbrev groupDuties (r : Request) : Contract RelationService.Command RelationService.Answer Progress :=
  (duties r).comap Call.group

theorem insertMember_meets (hr : ∀ req, r ≠ .send req) (groupId userId : ℤ) (role : ℕ) :
    Meets (groupDuties r) (fun t' _ ↦ t'.2 = memberRow groupId userId :: t.2) t
      (RelationService.ask (.insertMember groupId userId role)) := by
  refine meets_perform.mpr ⟨hr, ?_⟩
  intro inserted hworks
  cases inserted with
  | failed => exact absurd rfl hworks
  | _ => rfl

theorem addInitialMembers_meets (hr : ∀ req, r ≠ .send req) (groupId ownerId : ℤ) (rest : List ℤ) :
    Meets (groupDuties r) (fun t' _ ↦ (∀ m ∈ t.2, m ∈ t'.2) ∧
        ∀ uid ∈ rest, uid ≠ ownerId → memberRow groupId uid ∈ t'.2) t
      (addInitialMembers groupId ownerId rest) := by
  induction rest generalizing t with
  | nil => exact ⟨fun _ hm ↦ hm, fun _ hmem ↦ absurd hmem List.not_mem_nil⟩
  | cons uid rest ih =>
    rw [addInitialMembers]
    split_ifs with howner
    · refine ih.mono ?_
      intro t' _ hcase
      obtain ⟨hkept, hrest⟩ := hcase
      refine ⟨hkept, ?_⟩
      intro v hv hne
      rcases List.mem_cons.mp hv with rfl | hv
      · exact absurd howner hne
      · exact hrest v hv hne
    · refine meets_bind.mpr ((insertMember_meets hr groupId uid 1).mono ?_)
      intro t₁ _ heq
      refine ih.mono ?_
      intro t' _ hcase
      obtain ⟨hkept, hrest⟩ := hcase
      rw [heq] at hkept
      refine ⟨fun m hm ↦ hkept m (List.mem_cons_of_mem _ hm), ?_⟩
      intro v hv hne
      rcases List.mem_cons.mp hv with rfl | hv
      · exact hkept _ List.mem_cons_self
      · exact hrest v hv hne

theorem createGroup_meets (req : CreateGroupReq) :
    Meets (groupDuties (.create req)) (fun t' resp ↦ Finished (.create req) t' (.created resp)) t
      (createGroup req) := by
  have hr : ∀ req', Request.create req ≠ .send req' := by simp
  refine meets_perform_bind.mpr ⟨hr, fun _ _ ↦ ?_⟩
  refine meets_perform_bind.mpr ⟨hr, ?_⟩
  intro id hworks
  match id with
  | none => exact absurd hworks (by simp [Contract.comap, duties, Works])
  | some groupId =>
    refine meets_bind.mpr ((insertMember_meets hr groupId req.ownerId 2).mono ?_)
    intro t₁ _ heq
    refine meets_bind.mpr ((addInitialMembers_meets hr groupId req.ownerId req.initialMembers).mono ?_)
    intro t' _ hcase m hm
    obtain ⟨hkept, hrest⟩ := hcase
    rw [heq] at hkept
    simp only [joins, if_true] at hm
    rcases List.mem_cons.mp hm with rfl | hm
    · exact hkept _ List.mem_cons_self
    · obtain ⟨uid, huid, rfl⟩ := List.mem_map.mp hm
      by_cases howner : uid = req.ownerId
      · rw [howner]
        exact hkept _ List.mem_cons_self
      · exact hrest uid huid howner

theorem joinGroup_meets (req : JoinGroupReq) :
    Meets (groupDuties (.join req)) (fun t' resp ↦ Finished (.join req) t' (.joined resp)) t
      (joinGroup req) := by
  have hr : ∀ req', Request.join req ≠ .send req' := by simp
  refine meets_perform_bind.mpr ⟨hr, fun _ _ ↦ ?_⟩
  refine meets_perform_bind.mpr ⟨hr, ?_⟩
  intro found _
  split_ifs with hfound
  · subst hfound
    intro m hm
    obtain rfl := List.mem_singleton.mp hm
    exact List.mem_cons_self
  · refine meets_bind.mpr ((insertMember_meets hr req.groupId req.userId 1).mono ?_)
    intro t₁ inserted heq
    have hjoined : memberRow req.groupId req.userId ∈ t₁.2 := by
      rw [heq]
      exact List.mem_cons_self
    cases inserted with
    | done =>
      refine meets_perform_bind.mpr ⟨hr, ?_⟩
      intro _ _ m hm
      obtain rfl := List.mem_singleton.mp hm
      exact hjoined
    | duplicate =>
      intro m hm
      obtain rfl := List.mem_singleton.mp hm
      exact hjoined
    | failed => exact fun _ hm ↦ absurd hm List.not_mem_nil

theorem acceptGroup_meets (req : AcceptGroupReq) :
    Meets (groupDuties (.accept req)) (fun t' resp ↦ Finished (.accept req) t' (.accepted resp)) t
      (acceptGroup req) := by
  have hr : ∀ req', Request.accept req ≠ .send req' := by simp
  refine meets_perform_bind.mpr ⟨hr, fun _ _ ↦ ?_⟩
  split_ifs with haccept
  · refine meets_bind.mpr ((insertMember_meets hr req.groupId req.requesterId 1).mono ?_)
    intro t₁ _ heq
    refine meets_perform_bind.mpr ⟨hr, ?_⟩
    intro _ _ m hm
    simp only [joins, haccept, Bool.and_true, if_true] at hm
    obtain rfl := List.mem_singleton.mp hm
    exact heq ▸ List.mem_cons_self
  · intro m hm
    simp [joins, haccept] at hm

theorem send_meets (req : SendMessageReq) :
    Meets ((duties (.send req)).comap Call.chat)
      (fun t' reply ↦ Ended req t'.1 reply) (.opening, []) (sendMessage req) := by
  have htransfer : Meets ((duties (.send req)).comap Call.chat)
      (fun t' reply ↦ ∃ t : Stage, t = t'.1 ∧ Ended req t reply) (.opening, []) (sendMessage req) := by
    refine (sendMessage_stages req).transfer (R := fun t (t' : Progress) ↦ t = t'.1) ?_ ?_ ?_ rfl
    · intro t t' c heq hmay
      exact ⟨req, rfl, heq ▸ hmay⟩
    · exact fun _ _ _ _ _ _ ↦ trivial
    · intro t t' c a heq
      subst heq
      rfl
  refine htransfer.mono ?_
  intro t' reply hcase
  obtain ⟨t, rfl, hended⟩ := hcase
  exact hended

theorem program_meets (r : Request) :
    Meets (duties r) (Finished r) (.opening, []) r.program := by
  cases r with
  | send req =>
    refine meets_bind.mpr (meets_lift.mpr ((send_meets req).mono ?_))
    intro _ reply hended
    exact ⟨reply, rfl, hended⟩
  | create req => exact meets_bind.mpr (meets_lift.mpr (createGroup_meets req))
  | join req => exact meets_bind.mpr (meets_lift.mpr (joinGroup_meets req))
  | accept req => exact meets_bind.mpr (meets_lift.mpr (acceptGroup_meets req))

end Contract

/-- What a call that knows of a member of its group has made of it. -/
def Covers (userId : ℤ) : Stage → Prop
  | .drawing _ members _ => userId ∈ members
  | .inserted _ rows _ => ∃ row ∈ rows, row.ownerId = userId
  | _ => True

section Stages

variable {req : SendMessageReq} {t : Stage} {c : Chat.Command} {userId : ℤ}

theorem covers_after (hgroup : 0 < req.groupId) (hmay : (stages req).may t c) (h : Covers userId t)
    {a : Chat.Answer c}
    (hfound : ∀ msgId members, t = .stored msgId → t.after c a = .drawing msgId members [] →
      userId ∈ members) :
    Covers userId (t.after c a) := by
  cases t with
  | stored msgId =>
    cases c with
    | selectMembers g => exact hfound msgId (a.getD []) rfl rfl
    | _ => exact trivial
  | drawing msgId members targets =>
    cases c with
    | insertIndex rows =>
      obtain ⟨-, rfl, rfl⟩ := hmay
      obtain ⟨x, hx, hid⟩ := List.mem_map.mp h
      exact ⟨_, List.mem_map_of_mem hx, hid⟩
    | _ => exact h
  | numbered msgId seq =>
    cases c with
    | insertIndex rows => exact absurd hgroup hmay.1
    | _ => exact trivial
  | inserted msgId rows ok => cases c <;> exact h
  | connected =>
    cases c with
    | insertBody _ _ _ _ => cases a <;> exact trivial
    | _ => exact trivial
  | _ => cases c <;> exact trivial

theorem answered_of_drawing {env : Replication.Env} {m : Master} {msgId : ℕ} {members : List ℤ}
    (hmay : (stages req).may (.stored msgId) c) (hworks : Works (.chat c) (m.exec env c).2)
    (h : (Stage.stored msgId).after c (m.exec env c).2 = .drawing msgId members []) :
    c = .selectMembers req.groupId ∧ members = (m.read env.seen).membersOf req.groupId := by
  obtain ⟨ok, seen⟩ := env
  cases c with
  | selectMembers g =>
    obtain ⟨-, rfl⟩ := hmay
    cases ok with
    | false => cases hworks
    | true =>
      obtain ⟨-, rfl, -⟩ := Stage.drawing.inj h
      exact ⟨rfl, rfl⟩
  | _ => cases h

theorem inserted_after {m : Master} {env : Replication.Env} {msgId : ℕ} {rows : List IndexRow}
    {ok : Bool} (hmay : (stages req).may t c) (hworks : Works (.chat c) (m.exec env c).2)
    (h : t.after c (m.exec env c).2 = .inserted msgId rows ok) :
    t = .inserted msgId rows ok ∨
      ∀ row ∈ rows, row.msgId = msgId ∧ row ∈ (m.exec env c).1.world.index.rows := by
  cases t with
  | inserted => cases c <;> exact .inl h
  | drawing =>
    cases c with
    | insertIndex rows' =>
      obtain ⟨rfl, rfl, -⟩ := Stage.inserted.inj h
      obtain ⟨-, -, rfl⟩ := hmay
      refine .inr fun row hrow ↦ ⟨?_, Master.mem_index_of_inserted hworks hrow⟩
      obtain ⟨x, -, rfl⟩ := List.mem_map.mp hrow
      rfl
    | _ => cases h
  | numbered =>
    cases c with
    | insertIndex rows' =>
      obtain ⟨rfl, rfl, -⟩ := Stage.inserted.inj h
      obtain ⟨-, rfl⟩ := hmay
      refine .inr fun row hrow ↦ ⟨?_, Master.mem_index_of_inserted hworks hrow⟩
      obtain rfl := List.mem_singleton.mp hrow
      rfl
    | _ => cases h
  | connected =>
    cases c with
    | insertBody _ _ _ _ =>
      cases hbody : (m.exec env (.insertBody _ _ _ _)).2 <;> rw [hbody] at h <;> cases h
    | _ => cases h
  | _ => cases c <;> cases h

theorem opening_of_after {a : Chat.Answer c} (hmay : (stages req).may t c)
    (hc : c ≠ .connectWrite) (h : t = .opening) : t.after c a = .opening := by
  subst h
  cases c with
  | connectWrite => exact absurd rfl hc
  | insertBody _ _ _ _ => exact hmay.elim
  | _ => rfl

end Stages

/-- What holds of the members and of all calls between any two commands. -/
structure Informed (s : Groups) (requests : List Request) (accounts : List Progress) : Prop where
  joined : ∀ t ∈ accounts, ∀ m ∈ t.2, m ∈ s.master.world.members.rows
  opened : ∀ (i : ℕ) (t : Progress), accounts[i]? = some t → t.1 ≠ .opening →
    ∃ rows, s.opened i = some rows
  covers : ∀ (i : ℕ) (t : Progress) (req : SendMessageReq), accounts[i]? = some t →
    requests[i]? = some (.send req) → 0 < req.groupId →
      ∀ m ∈ (s.opened i).getD [], m.groupId = req.groupId → Covers m.userId t.1
  indexed : ∀ t ∈ accounts, ∀ msgId rows ok, t.1 = .inserted msgId rows ok →
    ∀ row ∈ rows, row.msgId = msgId ∧ row ∈ s.master.world.index.rows
  unsigned : ∀ m ∈ s.master.world.members.rows, memberRow m.groupId m.userId = m

section Informed

variable {s : Groups} {requests : List Request} {accounts : List Progress} {i : ℕ} {t : Progress}
  {env : Env}

theorem openedBy_other {j : ℕ} (h : j ≠ i) (c : Chat.Command) : openedBy i s c j = s.opened j := by
  cases c with
  | connectWrite => exact Function.update_of_ne h _ s.opened
  | _ => rfl

theorem openedBy_of_ne {c : Chat.Command} (hc : c ≠ .connectWrite) : openedBy i s c = s.opened := by
  cases c with
  | connectWrite => exact absurd rfl hc
  | _ => rfl

section Chat

variable {req : SendMessageReq} {c : Chat.Command}

theorem Informed.opened_chat (h : Informed s requests accounts) (hi : accounts[i]? = some t)
    (hmay : (stages req).may t.1 c) (a : Chat.Answer c) (j : ℕ) (t' : Progress)
    (hj : (accounts.set i (t.1.after c a, t.2))[j]? = some t') (hne : t'.1 ≠ .opening) :
    ∃ rows, openedBy i s c j = some rows := by
  rcases getElem?_set_cases hj with ⟨rfl, rfl⟩ | ⟨hji, hj⟩
  · by_cases hc : c = .connectWrite
    · subst hc
      exact ⟨_, Function.update_self j _ s.opened⟩
    · have hopening : t.1 ≠ .opening := fun heq ↦ hne (opening_of_after hmay hc heq)
      rw [openedBy_of_ne hc]
      exact h.opened j t hi hopening
  · rw [openedBy_other hji]
    exact h.opened j t' hj hne

/-- What a call covers when its command works, if the member query finds all
members that it knows of. -/
theorem Informed.covers_step (h : Informed s requests accounts) (hi : accounts[i]? = some t)
    (hr : requests[i]? = some (.send req)) (hgroup : 0 < req.groupId) (hmay : (stages req).may t.1 c)
    (hworks : Works (.chat c) (exec i env s (.chat c)).2)
    (hcaught : ∀ g, c = .selectMembers g → ∀ m ∈ (s.opened i).getD [], m.groupId = g →
      m.userId ∈ (s.master.read env.seen).membersOf g)
    {m : MemberRow} (hm : m ∈ (openedBy i s c i).getD []) (hmg : m.groupId = req.groupId) :
    Covers m.userId (t.1.after c (exec i env s (.chat c)).2) := by
  by_cases hc : c = .connectWrite
  · subst hc
    cases ht : t.1 with
    | opening => exact trivial
    | _ =>
      rw [ht] at hmay
      exact hmay.elim
  · rw [openedBy_of_ne hc] at hm
    refine covers_after hgroup hmay (h.covers i t req hi hr hgroup m hm hmg) ?_
    intro msgId members hstored hdrawing
    rw [hstored] at hmay hdrawing
    obtain ⟨rfl, rfl⟩ := answered_of_drawing hmay hworks hdrawing
    exact hcaught req.groupId rfl m hm hmg

theorem Informed.indexed_chat (h : Informed s requests accounts) (hi : accounts[i]? = some t)
    (hmay : (stages req).may t.1 c) (hworks : Works (.chat c) (exec i env s (.chat c)).2)
    {t' : Progress} (ht' : t' ∈ accounts.set i (after t (.chat c) (exec i env s (.chat c)).2))
    {msgId : ℕ} {rows : List IndexRow} {ok : Bool} (heq : t'.1 = .inserted msgId rows ok)
    {row : IndexRow} (hrow : row ∈ rows) :
    row.msgId = msgId ∧ row ∈ (exec i env s (.chat c)).1.master.world.index.rows := by
  have hold : ∀ t₀ ∈ accounts, t₀.1 = .inserted msgId rows ok → row.msgId = msgId ∧
      row ∈ (exec i env s (.chat c)).1.master.world.index.rows := by
    intro t₀ ht₀ heq₀
    obtain ⟨hid, hindex⟩ := h.indexed t₀ ht₀ msgId rows ok heq₀ row hrow
    exact ⟨hid, Master.mem_index_exec _ _ c hindex⟩
  rcases List.mem_or_eq_of_mem_set ht' with ht' | rfl
  · exact hold t' ht' heq
  · rcases inserted_after hmay hworks heq with heq₀ | hnew
    · exact hold t (List.mem_of_getElem? hi) heq₀
    · exact hnew row hrow

theorem Informed.chat (h : Informed s requests accounts)
    (hi : accounts[i]? = some t) (hr : requests[i]? = some (.send req))
    (hmay : (stages req).may t.1 c) (hworks : Works (.chat c) (exec i env s (.chat c)).2)
    (hcaught : ∀ g, c = .selectMembers g → ∀ m ∈ (s.opened i).getD [], m.groupId = g →
      m.userId ∈ (s.master.read env.seen).membersOf g) :
    Informed (exec i env s (.chat c)).1 requests
      (accounts.set i (after t (.chat c) (exec i env s (.chat c)).2)) := by
  refine ⟨?_, h.opened_chat hi hmay _, ?_, ?_, ?_⟩
  · intro t' ht' m hm
    change m ∈ (s.master.exec ⟨env.ok, env.seen⟩ c).1.world.members.rows
    rw [Master.exec_members]
    rcases List.mem_or_eq_of_mem_set ht' with ht' | rfl
    · exact h.joined t' ht' m hm
    · exact h.joined t (List.mem_of_getElem? hi) m hm
  · intro j t' req' hj hr' hgroup m hm hmg
    change m ∈ (openedBy i s c j).getD [] at hm
    rcases getElem?_set_cases hj with ⟨rfl, rfl⟩ | ⟨hji, hj⟩
    · obtain rfl := Request.send.inj (Option.some.inj (hr.symm.trans hr'))
      exact h.covers_step hi hr hgroup hmay hworks hcaught hm hmg
    · rw [openedBy_other hji] at hm
      exact h.covers j t' req' hj hr' hgroup m hm hmg
  · intro t' ht' msgId rows ok heq row hrow
    exact h.indexed_chat hi hmay hworks ht' heq hrow
  · change ∀ m ∈ (s.master.exec ⟨env.ok, env.seen⟩ c).1.world.members.rows, memberRow m.groupId m.userId = m
    rw [Master.exec_members]
    exact h.unsigned

end Chat

theorem memberRow_stored (groupId userId : ℤ) :
    memberRow (memberRow groupId userId).groupId (memberRow groupId userId).userId = memberRow groupId userId := by
  simp [memberRow, stored_stored]

theorem unsigned_execGroup {m : Master} (h : ∀ r ∈ m.world.members.rows, memberRow r.groupId r.userId = r)
    (env : Env) (c : RelationService.Command) :
    ∀ r ∈ (execGroup env m c).1.world.members.rows, memberRow r.groupId r.userId = r := by
  cases c with
  | insertMember groupId userId role =>
    unfold execGroup
    split
    · intro r hr
      rcases Master.mem_of_addMember hr with hold | rfl
      · exact h r hold
      · exact memberRow_stored groupId userId
    · exact h
  | _ => exact h

theorem execGroup_grows (env : Env) (m : Master) (c : RelationService.Command) :
    (execGroup env m c).1.world.index = m.world.index ∧
      ∀ r ∈ m.world.members.rows, r ∈ (execGroup env m c).1.world.members.rows := by
  cases c with
  | insertMember groupId userId role =>
    unfold execGroup
    split
    · exact ⟨Master.addMember_index m _, (Master.mem_members_addMember m _).2⟩
    · exact ⟨rfl, fun _ hr ↦ hr⟩
  | _ => exact ⟨rfl, fun _ hr ↦ hr⟩

theorem joined_after {c : RelationService.Command} {r : MemberRow}
    (hunsigned : ∀ m ∈ s.master.world.members.rows, memberRow m.groupId m.userId = m)
    (h : r ∈ (after t (.group c) (execGroup env s.master c).2).2) :
    r ∈ t.2 ∨ r ∈ (execGroup env s.master c).1.world.members.rows := by
  obtain ⟨ok, seen, newGroup⟩ := env
  cases c with
  | selectMember groupId userId =>
    cases ok with
    | false => exact .inl h
    | true =>
      by_cases hrow : ⟨groupId, userId⟩ ∈ s.master.world.members.rows
      · simp only [execGroup, hrow, decide_true, if_true, after] at h
        rcases List.mem_cons.mp h with rfl | h
        · rw [hunsigned _ hrow]
          exact .inr hrow
        · exact .inl h
      · simp only [execGroup, hrow, decide_false, if_true, after] at h
        exact .inl h
  | insertMember groupId userId role =>
    cases ok with
    | false => exact .inl h
    | true =>
      have hnew := (Master.mem_members_addMember s.master (memberRow groupId userId)).1
      have hcons : r ∈ memberRow groupId userId :: t.2 := by
        by_cases hrow : memberRow groupId userId ∈ s.master.world.members.rows <;>
          simpa [execGroup, hrow, after] using h
      rcases List.mem_cons.mp hcons with rfl | h
      · exact .inr hnew
      · exact .inl h
  | _ => exact .inl h

theorem stage_after (c : RelationService.Command) (a : RelationService.Answer c) : (after t (.group c) a).1 = t.1 := by
  cases c with
  | selectMember _ _ =>
    match a with
    | some true | some false | none => rfl
  | insertMember _ _ _ => cases a <;> rfl
  | _ => rfl

theorem Informed.group {c : RelationService.Command} (h : Informed s requests accounts)
    (hi : accounts[i]? = some t) (hr : ∀ req, requests[i]? ≠ some (.send req)) :
    Informed (exec i env s (.group c)).1 requests
      (accounts.set i (after t (.group c) (exec i env s (.group c)).2)) := by
  have hmem := List.mem_of_getElem? hi
  obtain ⟨hindex, hmembers⟩ := execGroup_grows env s.master c
  refine ⟨?_, ?_, ?_, ?_, unsigned_execGroup h.unsigned env c⟩
  · intro t' ht' m hm
    change m ∈ (execGroup env s.master c).1.world.members.rows
    rcases List.mem_or_eq_of_mem_set ht' with ht' | rfl
    · exact hmembers m (h.joined t' ht' m hm)
    · exact (joined_after h.unsigned hm).elim (fun hm ↦ hmembers m (h.joined t hmem m hm)) id
  · intro j t' hj hne
    rcases getElem?_set_cases hj with ⟨rfl, rfl⟩ | ⟨-, hj⟩
    · rw [stage_after] at hne
      exact h.opened j t hi hne
    · exact h.opened j t' hj hne
  · intro j t' req hj hreq hgroup m hm hmg
    rcases getElem?_set_cases hj with ⟨rfl, -⟩ | ⟨-, hj⟩
    · exact absurd hreq (hr req)
    · exact h.covers j t' req hj hreq hgroup m hm hmg
  · intro t' ht' msgId rows ok heq
    change ∀ row ∈ rows, row.msgId = msgId ∧ row ∈ (execGroup env s.master c).1.world.index.rows
    rw [hindex]
    rcases List.mem_or_eq_of_mem_set ht' with ht' | rfl
    · exact h.indexed t' ht' msgId rows ok heq
    · rw [stage_after] at heq
      exact h.indexed t hmem msgId rows ok heq

end Informed

theorem nextCall_of_thread {s : Calls} {i : ℕ} {c : Call} {k : Answers c → Prog Call Answers Outcome}
    {t : Progress} (hi : s.pool.threads[i]? = some ⟨.call c k, t⟩) : nextCall s i = some c := by
  simp only [nextCall, hi]

def CarefulStep (s : Calls) (a : Step) : Prop := NoFailure s a ∧ CaughtUp s a

theorem informed_nil {s : Groups} (h : s.master.world.members.rows = []) : Informed s [] [] := by
  refine ⟨?_, ?_, ?_, ?_, ?_⟩
  · intro t ht
    exact absurd ht List.not_mem_nil
  · intro i t hi
    cases hi
  · intro i t req hi
    cases hi
  · intro t ht
    exact absurd ht List.not_mem_nil
  · intro m hm
    exact absurd (h ▸ hm) List.not_mem_nil

theorem Informed.spawn {s : Groups} {requests : List Request} {accounts : List Progress}
    (h : Informed s requests accounts) (hlength : requests.length = accounts.length) (r : Request) :
    Informed s (requests ++ [r]) (accounts ++ [(.opening, [])]) := by
  refine ⟨?_, ?_, ?_, ?_, h.unsigned⟩
  · intro t ht m hm
    rcases List.mem_append.mp ht with ht | ht
    · exact h.joined t ht m hm
    · obtain rfl := List.mem_singleton.mp ht
      exact absurd hm List.not_mem_nil
  · intro i t hi hne
    rcases getElem?_concat_some hi with hi | ⟨-, rfl⟩
    · exact h.opened i t hi hne
    · exact absurd rfl hne
  · intro i t req hi hr hgroup m hm hmg
    rcases getElem?_concat_some hi with hi | ⟨-, rfl⟩
    · rcases getElem?_concat_some hr with hr | ⟨hlast, -⟩
      · exact h.covers i t req hi hr hgroup m hm hmg
      · have hlt := (List.getElem?_eq_some_iff.mp hi).1
        omega
    · exact trivial
  · intro t ht msgId rows ok heq
    rcases List.mem_append.mp ht with ht | ht
    · exact h.indexed t ht msgId rows ok heq
    · obtain rfl := List.mem_singleton.mp ht
      cases heq

theorem informed_of_reach {relations : Keyed RelationRow.key} {r : Redis} {s : Calls}
    (h : Reach system.serve CarefulStep (start relations r) s) :
    s.Keeps duties Finished ∧ Informed s.pool.world s.requests s.pool.accounts := by
  refine System.serve_invariant (J := Informed) (fun _ ↦ rfl) ?start ?spawn ?exec ?outside h
    ⟨Served.keeps_nil _, informed_nil rfl⟩
  case start =>
    intro _ r _
    exact program_meets r
  case spawn =>
    intro s r _ hlength hJ
    exact hJ.spawn hlength r
  case exec =>
    intro s i env c k t r hok hi hr hmay hJ
    have hcall := nextCall_of_thread hi
    have hworks := hok.1 c hcall
    refine ⟨hworks, ?_⟩
    have hget := Pool.accounts_of_threads hi
    cases c with
    | chat c =>
      obtain ⟨req, rfl, hmay⟩ := hmay
      refine hJ.chat hget hr hmay hworks ?_
      intro g hc m hm hmg
      subst hc
      exact hok.2 _ hcall m hm hmg
    | group c =>
      refine hJ.group hget ?_
      intro req hsend
      exact hmay req (Option.some.inj (hr.symm.trans hsend))
  case outside =>
    intro s o w _ ho hJ
    cases o with
    | _ =>
      obtain rfl := Option.some.inj ho
      exact ⟨hJ.joined, hJ.opened, hJ.covers, hJ.indexed, hJ.unsigned⟩

theorem thread_of_outcome {s : Calls} {i : ℕ} {a : Outcome} (h : outcome s i = some a) :
    ∃ t, s.pool.threads[i]? = some ⟨.done a, t⟩ := by
  simp only [outcome] at h
  split at h
  · next a' t hi =>
    obtain rfl := Option.some.inj h
    exact ⟨t, hi⟩
  · cases h

theorem finished_of_outcome {s : Calls} {i : ℕ} {a : Outcome} {r : Request}
    (h : s.Keeps duties Finished) (hr : s.requests[i]? = some r) (ha : outcome s i = some a) :
    ∃ t, s.pool.accounts[i]? = some t ∧ Finished r t a := by
  obtain ⟨t, hi⟩ := thread_of_outcome ha
  exact ⟨t, Pool.accounts_of_threads hi, h.meets i r _ hr hi⟩

theorem member_of_hasJoined {s : Calls} {groupId userId : ℤ} (hkeeps : s.Keeps duties Finished)
    (hinformed : Informed s.pool.world s.requests s.pool.accounts)
    (h : HasJoined s groupId userId) :
    ⟨groupId, userId⟩ ∈ s.pool.world.master.world.members.rows := by
  obtain ⟨j, r, a, hr, ha, hjoins⟩ := h
  obtain ⟨t, ht, hfinished⟩ := finished_of_outcome hkeeps hr ha
  refine hinformed.joined t (List.mem_of_getElem? ht) _ ?_
  cases r with
  | send req => exact absurd hjoins List.not_mem_nil
  | _ => exact hfinished _ hjoins

/-- A call that opens its connections later finds every member of now. -/
theorem opened_of_reach {s₁ s : Calls} {m : MemberRow} {i : ℕ}
    (h : Reach system.serve CarefulStep s₁ s) (hm : m ∈ s₁.pool.world.master.world.members.rows)
    (hi : s₁.pool.world.opened i = none) :
    m ∈ s.pool.world.master.world.members.rows ∧
      ∀ rows, s.pool.world.opened i = some rows → m ∈ rows := by
  refine h.invariant (I := fun s : Calls ↦ m ∈ s.pool.world.master.world.members.rows ∧
    ∀ rows, s.pool.world.opened i = some rows → m ∈ rows) ?_ ⟨hm, fun rows hrows ↦ ?_⟩
  · intro s a s' _ hstep hcase
    obtain ⟨hmember, hopened⟩ := hcase
    obtain ⟨r, rfl, rfl⟩ | ⟨j, env, c, k, t, rfl, hj, rfl⟩ | ⟨o, w, rfl, ho, rfl⟩ :=
      System.serve_cases hstep
    · exact ⟨hmember, hopened⟩
    · cases c with
      | chat c =>
        refine ⟨?_, ?_⟩
        · change m ∈ (s.pool.world.master.exec ⟨env.ok, env.seen⟩ c).1.world.members.rows
          rw [Master.exec_members]
          exact hmember
        · intro rows hrows
          change openedBy j s.pool.world c i = some rows at hrows
          by_cases hij : i = j
          · subst hij
            cases c with
            | connectWrite =>
              rw [openedBy, Function.update_self] at hrows
              exact Option.some.inj hrows ▸ hmember
            | _ => exact hopened rows hrows
          · rw [openedBy_other hij] at hrows
            exact hopened rows hrows
      | group c => exact ⟨(execGroup_grows env s.pool.world.master c).2 m hmember, hopened⟩
    · cases o with
      | _ =>
        obtain rfl := Option.some.inj ho
        exact ⟨hmember, hopened⟩
  · rw [hi] at hrows
    cases hrows

/-- A message reaches all who had joined before it was sent, when the members
are read from a replica that knows them. -/
theorem reaches_joined {relations : Keyed RelationRow.key} {r : Redis} {s₁ s : Calls}
    (h₁ : Reach system.serve (fun s a ↦ NoFailure s a ∧ CaughtUp s a) (start relations r) s₁)
    (h : Reach system.serve (fun s a ↦ NoFailure s a ∧ CaughtUp s a) s₁ s) : Reaches s₁ s := by
  intro i req reply u hclosed hr hgroup hout hsuccess hjoined
  obtain ⟨hkeeps₁, hinformed₁⟩ := informed_of_reach h₁
  obtain ⟨hkeeps, hinformed⟩ := informed_of_reach (h₁.trans h)
  have hmember := member_of_hasJoined hkeeps₁ hinformed₁ hjoined
  have hopened := (opened_of_reach h hmember hclosed).2
  obtain ⟨t, ht, reply', hreply, hended⟩ := finished_of_outcome hkeeps hr hout
  obtain rfl := Outcome.sent.inj hreply
  have hstarted : t.1 ≠ .opening := by
    intro hopening
    rw [hopening] at hended
    exact hended
  obtain ⟨rows, hrows⟩ := hinformed.opened i t ht hstarted
  have hcovers : Covers u t.1 := by
    refine hinformed.covers i t req ht hr hgroup ⟨req.groupId, u⟩ ?_ rfl
    rw [hrows]
    exact hopened rows hrows
  cases hstage : t.1 with
  | connected =>
    rw [hstage] at hended
    exact absurd hsuccess (by rw [hended]; exact Bool.false_ne_true)
  | drawing msgId members targets =>
    rw [hstage] at hended hcovers
    obtain ⟨rfl, -⟩ := hended
    exact absurd hcovers List.not_mem_nil
  | checked msgId friend =>
    rw [hstage] at hended
    exact absurd hsuccess (by rw [hended.2]; exact Bool.false_ne_true)
  | inserted msgId rows ok =>
    rw [hstage] at hended hcovers
    obtain ⟨row, hrow, howner⟩ := hcovers
    obtain ⟨hid, hindex⟩ :=
      hinformed.indexed t (List.mem_of_getElem? ht) msgId rows ok hstage row hrow
    exact ⟨row, hindex, howner, by rw [hid, hended.2 hsuccess]⟩
  | _ =>
    rw [hstage] at hended
    exact hended.elim

/-- User 1 creates group 7 and user 2 joins it. The replica that the message to
the group reads its members from has seen so many commits. -/
def joining (seen commands : ℕ) : List Step :=
  [.spawn (.create { ownerId := 1, groupName := ascii "g" }), .step 0 ⟨true, 0, 0⟩, .step 0 ⟨true, 0, 7⟩,
    .step 0 ⟨true, 0, 0⟩, .spawn (.join { userId := 2, groupId := 7 }), .step 1 ⟨true, 0, 0⟩,
    .step 1 ⟨true, 0, 0⟩, .step 1 ⟨true, 0, 0⟩, .spawn (.send (joinedMsg 2 7))] ++
    List.replicate commands (.step 2 ⟨true, seen, 0⟩) ++ [.step 1 ⟨true, 0, 0⟩]

def sending (seen commands : ℕ) : List Step :=
  .spawn (.send { senderId := 1, groupId := 7, content := ascii "hi" }) ::
    List.replicate commands (.step 3 ⟨true, seen, 0⟩)

theorem reaches_joined_sending :
    ∃ s₁ s : Calls, Reaches s₁ s ∧ HasJoined s₁ 7 2 ∧
      s.pool.world.master.world.index.rows =
        [⟨1, 7, 1, 1, 0⟩, ⟨2, 7, 1, 1, 0⟩, ⟨1, 7, 2, 2, 0⟩, ⟨2, 7, 2, 2, 0⟩] := by
  have h₁ : Reach system.serve (fun s a ↦ NoFailure s a ∧ CaughtUp s a) (start .empty .empty) _ :=
    reach_of_exec (joining 2 9) rfl
  exact ⟨_, _, reaches_joined h₁ (reach_of_exec (sending 2 9) rfl),
    ⟨1, _, _, rfl, rfl, List.mem_singleton_self _⟩, rfl⟩

theorem not_reaches_joined :
    ¬ ∀ s₁ s : Calls, Reach system.serve NoFailure (start .empty .empty) s₁ →
      Reach system.serve NoFailure s₁ s → Reaches s₁ s := by
  intro h
  obtain ⟨s₁, h₁, s, hs, hnot⟩ : ∃ s₁, Reach system.serve NoFailure (start .empty .empty) s₁ ∧
      ∃ s, Reach system.serve NoFailure s₁ s ∧ ¬ Reaches s₁ s := by
    refine exists_reach_of_exec (joining 1 7) ⟨_, rfl, ?_⟩
    refine exists_reach_of_exec (sending 1 7) ⟨_, rfl, ?_⟩
    intro hreaches
    obtain ⟨row, hrow, howner, -⟩ := hreaches 3 _ _ 2 rfl rfl (by decide) rfl rfl
      ⟨1, _, _, rfl, rfl, List.mem_singleton_self _⟩
    have hall : ∀ row ∈ [(⟨1, 7, 1, 1, 0⟩ : IndexRow), ⟨1, 7, 2, 2, 0⟩], row.ownerId ≠ 2 := by decide
    exact hall row hrow howner
  exact hnot (h s₁ s h₁ hs)

end TinyIM.Relation.GroupFanOut

import TinyIM.Library.Journal
import TinyIM.Relation.RelationService

namespace TinyIM.Relation.AddressedRequests

open Library.ByteOrder Library.Transition Library.Program Library.Interleaving Library.Journal Library.Table
  Protocol Chat RelationService
open Friendship (stored newRelations)

def exec (ok : Bool) (w : Tables) (c : RelationService.Command) : Tables × RelationService.Answer c :=
  w.perform ok c

/-- Users register. -/
def outside (nicknames : List (ℤ × Bytes)) (w : Tables) : Option Tables :=
  some { w with nicknames := nicknames }

abbrev system := recorded Request.program exec outside

abbrev RelationCalls := Calls RelationService.Command RelationService.Answer Outcome Tables Request

abbrev RelationExchange := Exchange RelationService.Command RelationService.Answer

abbrev RelationEntry := Entry RelationService.Command RelationService.Answer Tables

abbrev Step := Library.Interleaving.Action Request Bool (List (ℤ × Bytes))

section Conditions

variable (w : Tables)

/-- `im_friend_request` has an application of the one to the other. -/
def FriendRecorded (requesterId userId : ℤ) : Prop :=
  ∃ row ∈ w.friendRequests.rows, row.2.userId = stored requesterId ∧ row.2.friendId = stored userId

def GroupRecorded (requesterId groupId : ℤ) : Prop :=
  ∃ row ∈ w.groupRequests.rows, row.2.userId = stored requesterId ∧ row.2.groupId = stored groupId

/-- The owner of a group, or a member with role 2 or 3. -/
def MayAccept (userId groupId : ℤ) : Prop :=
  (∃ g ∈ w.groups.rows, (g.1 : ℤ) = stored groupId ∧ g.2.ownerId = stored userId) ∨
    ∃ m ∈ w.members.rows, RelationService.MemberRow.key m = (stored groupId, stored userId) ∧ (m.role = 2 ∨ m.role = 3)

def AlreadyFriends (userId requesterId : ℤ) : Prop :=
  ∀ row ∈ newRelations userId requesterId, row.key ∈ w.relations.rows.map RelationRow.key

def AlreadyMember (groupId userId : ℤ) : Prop :=
  (stored groupId, stored userId) ∈ w.members.rows.map RelationService.MemberRow.key

/-- What is accepted is an application to the caller, or changes nothing. -/
def Acceptable : Request → Prop
  | .acceptFriend req => req.accept = true →
    FriendRecorded w req.requesterId req.userId ∨ AlreadyFriends w req.userId req.requesterId
  | .acceptGroup req => req.accept = true →
    GroupRecorded w req.requesterId req.groupId ∧ MayAccept w req.userId req.groupId ∨
      AlreadyMember w req.groupId req.requesterId
  | _ => True

instance (requesterId userId : ℤ) : Decidable (FriendRecorded w requesterId userId) :=
  inferInstanceAs (Decidable (∃ row ∈ w.friendRequests.rows, _))

instance (requesterId groupId : ℤ) : Decidable (GroupRecorded w requesterId groupId) :=
  inferInstanceAs (Decidable (∃ row ∈ w.groupRequests.rows, _))

instance (userId groupId : ℤ) : Decidable (MayAccept w userId groupId) :=
  inferInstanceAs (Decidable ((∃ g ∈ w.groups.rows, _) ∨ ∃ m ∈ w.members.rows, _))

instance (userId requesterId : ℤ) : Decidable (AlreadyFriends w userId requesterId) :=
  inferInstanceAs (Decidable (∀ row ∈ newRelations userId requesterId, _))

instance (groupId userId : ℤ) : Decidable (AlreadyMember w groupId userId) :=
  inferInstanceAs (Decidable (_ ∈ w.members.rows.map RelationService.MemberRow.key))

instance (r : Request) : Decidable (Acceptable w r) := by
  unfold Acceptable
  split <;> infer_instance

end Conditions

def AcceptsKnown (s : RelationCalls) : Step → Prop
  | .spawn r => Acceptable s.pool.world.world r
  | _ => True

instance (s : RelationCalls) (a : Step) : Decidable (AcceptsKnown s a) := by
  unfold AcceptsKnown
  split <;> infer_instance

section History

variable (w : Tables) (requests : List Request) (past : List RelationEntry)

/-- The application was there at the start, or a call of `ApplyFriend` has
inserted it. -/
def FriendApplied (requesterId userId : ℤ) : Prop :=
  FriendRecorded w requesterId userId ∨
  ∃ e ∈ past, ∃ req, requests[e.call]? = some (.applyFriend req) ∧
    stored req.userId = stored requesterId ∧ stored req.friendId = stored userId ∧
    e.after.friendRequests =
      e.before.friendRequests.insert ⟨stored req.userId, stored req.friendId, req.remark, 0⟩

def GroupApplied (requesterId groupId : ℤ) : Prop :=
  GroupRecorded w requesterId groupId ∨
  ∃ e ∈ past, ∃ req, requests[e.call]? = some (.applyGroup req) ∧
    stored req.userId = stored requesterId ∧ stored req.groupId = stored groupId ∧
    e.after.groupRequests =
      e.before.groupRequests.insert ⟨stored req.groupId, stored req.userId, 0, req.remark⟩

end History

/-- Whatever an accepting call has added since the world was `w` was applied for
before, and accepted by whom it was addressed to. -/
structure Addressed (w : Tables) (s : RelationCalls) : Prop where
  friends : ∀ past e req, past ++ [e] <+: s.pool.world.entries →
    s.requests[e.call]? = some (.acceptFriend req) →
    (∃ row ∈ e.after.relations.rows, row ∉ e.before.relations.rows) →
      FriendRecorded e.before req.requesterId req.userId ∧
        FriendApplied w s.requests past req.requesterId req.userId
  members : ∀ past e req, past ++ [e] <+: s.pool.world.entries →
    s.requests[e.call]? = some (.acceptGroup req) →
    (∃ row ∈ e.after.members.rows, row ∉ e.before.members.rows) →
      GroupRecorded e.before req.requesterId req.groupId ∧
        GroupApplied w s.requests past req.requesterId req.groupId ∧
        MayAccept e.before req.userId req.groupId

/-- No service ever deletes a row of these tables. -/
structure Grows (w w' : Tables) : Prop where
  friendRequests : w.friendRequests.rows <+: w'.friendRequests.rows
  relations : w.relations.rows ⊆ w'.relations.rows
  groups : w.groups.rows ⊆ w'.groups.rows
  members : w.members.rows ⊆ w'.members.rows
  groupRequests : w.groupRequests.rows <+: w'.groupRequests.rows

section Growth

variable {w w' : Tables}

theorem Grows.refl (w : Tables) : Grows w w :=
  ⟨List.prefix_rfl, .refl _, .refl _, .refl _, List.prefix_rfl⟩

theorem Grows.of_change {c : RelationService.Command} (h : w.Change c w') : Grows w w' := by
  cases h with
  | none => exact .refl w
  | friendRequest => exact { Grows.refl w with friendRequests := List.prefix_append _ _ }
  | relations => exact { Grows.refl w with relations := fun _ h ↦ Keyed.mem_insertIgnore_of_mem h }
  | group => exact { Grows.refl w with groups := List.subset_append_left _ _ }
  | member hinsert =>
    refine { Grows.refl w with members := ?_ }
    rw [(Keyed.rows_of_insert hinsert).2]
    exact List.subset_append_left _ _
  | groupRequest => exact { Grows.refl w with groupRequests := List.prefix_append _ _ }

theorem exec_grows (ok : Bool) (w : Tables) (c : RelationService.Command) : Grows w (exec ok w c).1 :=
  .of_change (w.perform_change ok c)

theorem Acceptable.mono (h : Grows w w') {r : Request} (hr : Acceptable w r) : Acceptable w' r := by
  cases r with
  | acceptFriend req =>
    intro haccept
    rcases hr haccept with hrecorded | halready
    · obtain ⟨row, hrow, hids⟩ := hrecorded
      exact .inl ⟨row, h.friendRequests.subset hrow, hids⟩
    · refine .inr fun row hrow ↦ ?_
      obtain ⟨old, hold, hkey⟩ := List.mem_map.mp (halready row hrow)
      exact hkey ▸ List.mem_map_of_mem (h.relations hold)
  | acceptGroup req =>
    intro haccept
    rcases hr haccept with ⟨⟨row, hrow, hids⟩, hmay⟩ | halready
    · refine .inl ⟨⟨row, h.groupRequests.subset hrow, hids⟩, ?_⟩
      rcases hmay with ⟨g, hg, howner⟩ | ⟨m, hm, hrole⟩
      · exact .inl ⟨g, h.groups hg, howner⟩
      · exact .inr ⟨m, h.members hm, hrole⟩
    · obtain ⟨m, hm, hkey⟩ := List.mem_map.mp halready
      exact .inr (List.mem_map.mpr ⟨m, h.members hm, hkey⟩)
  | _ => exact trivial

end Growth

section Sources

variable {w w' : Tables} {c : RelationService.Command}

theorem relations_of_change {row : RelationRow} (h : w.Change c w') (hrow : row ∈ w'.relations.rows)
    (hnew : row ∉ w.relations.rows) : ∃ userId requesterId,
      c = .friend (.insertRelations userId requesterId) ∧ ¬ AlreadyFriends w userId requesterId := by
  cases h with
  | relations userId requesterId =>
    refine ⟨userId, requesterId, rfl, fun halready ↦ ?_⟩
    have hsame := Keyed.insertIgnore_eq_self halready
    exact hnew (hsame ▸ hrow)
  | _ => exact absurd hrow hnew

theorem members_of_change {row : RelationService.MemberRow} (h : w.Change c w') (hrow : row ∈ w'.members.rows)
    (hnew : row ∉ w.members.rows) : ∃ groupId userId role,
      c = .insertMember groupId userId role ∧ ¬ AlreadyMember w groupId userId := by
  cases h with
  | @member groupId userId role _ hinsert =>
    have hfree := (Keyed.free_iff.mp (Keyed.rows_of_insert hinsert).1).2
    exact ⟨groupId, userId, role, rfl, hfree _ (List.mem_singleton_self _)⟩
  | _ => exact absurd hrow hnew

theorem friendRequests_of_change {row : ℕ × FriendRequestRow} (h : w.Change c w')
    (hrow : row ∈ w'.friendRequests.rows.drop w.friendRequests.rows.length) :
    ∃ userId friendId remark, c = .friend (.insertRequest userId friendId remark) ∧
      row.2 = ⟨stored userId, stored friendId, remark, 0⟩ ∧
      w'.friendRequests = w.friendRequests.insert row.2 := by
  cases h with
  | friendRequest userId friendId remark =>
    have hlast : row = (w.friendRequests.next, ⟨stored userId, stored friendId, remark, 0⟩) := by
      simpa [Numbered.insert] using hrow
    subst hlast
    exact ⟨userId, friendId, remark, rfl, rfl, rfl⟩
  | _ => simp at hrow

theorem groupRequests_of_change {row : ℕ × GroupRequestRow} (h : w.Change c w')
    (hrow : row ∈ w'.groupRequests.rows.drop w.groupRequests.rows.length) :
    ∃ groupId userId remark, c = .insertGroupRequest groupId userId remark ∧
      row.2 = ⟨stored groupId, stored userId, 0, remark⟩ ∧
      w'.groupRequests = w.groupRequests.insert row.2 := by
  cases h with
  | groupRequest groupId userId remark =>
    have hlast : row = (w.groupRequests.next, ⟨stored groupId, stored userId, 0, remark⟩) := by
      simpa [Numbered.insert] using hrow
    subst hlast
    exact ⟨groupId, userId, remark, rfl, rfl, rfl⟩
  | _ => simp at hrow

end Sources

section Runs

variable {w : Tables} {s : RelationCalls} {past : List RelationEntry} {e : RelationEntry}

theorem ordered (h : Reach system.serve AcceptsKnown (idle w) s) :
    Ordered Request.Writes Acceptable s.pool.world s.requests := by
  refine ordered_of_reach program_writes (fun s r hr ↦ hr) ?exec ?outside h
  case exec =>
    intro ok w c r hr
    exact hr.mono (exec_grows ok w c)
  case outside =>
    intro nicknames w w' r hw' hr
    obtain rfl := Option.some.inj hw'
    exact hr.mono { Grows.refl w with }

theorem records {κ : Type} (f : Tables → List κ) (hgrows : ∀ ok w c, f w <+: f (exec ok w c).1)
    (houtside : ∀ (w : Tables) nicknames, f { w with nicknames := nicknames } = f w)
    (h : Reach system.serve AcceptsKnown (idle w) s) :
    Records exec f (growth f) w s.pool.world s.pool.accounts := by
  refine records_of_grows hgrows ?_ (h.mono fun _ _ _ ↦ trivial)
  intro nicknames w w' hw'
  obtain rfl := Option.some.inj hw'
  exact houtside w nicknames

theorem change_of_entry (h : Reach system.serve AcceptsKnown (idle w) s) (he : e ∈ s.pool.world.entries) :
    e.before.Change e.exchange.1 e.after := by
  have hrecords := records (fun w ↦ w.friendRequests.rows) (fun ok w c ↦ (exec_grows ok w c).friendRequests)
    (fun _ _ ↦ rfl) h
  obtain ⟨ok, heffect⟩ := hrecords.effects e he
  have hafter : (exec ok e.before e.exchange.1).1 = e.after := congrArg Prod.fst heffect
  exact hafter ▸ e.before.perform_change ok e.exchange.1

/-- A row was there at the start or was inserted for a request. -/
theorem origin {κ : Type} {f : Tables → List κ} (hgrows : ∀ ok w c, f w <+: f (exec ok w c).1)
    (houtside : ∀ (w : Tables) nicknames, f { w with nicknames := nicknames } = f w)
    (h : Reach system.serve AcceptsKnown (idle w) s) (hpast : past ++ [e] <+: s.pool.world.entries)
    {x : κ} (hx : x ∈ f e.before) :
    x ∈ f w ∨ ∃ e' ∈ past, ∃ r, s.requests[e'.call]? = some r ∧ r.Writes e'.exchange.1 ∧
      e'.before.Change e'.exchange.1 e'.after ∧ x ∈ growth f e' := by
  obtain hstart | ⟨e', he', hmem, hadded⟩ := (records f hgrows houtside h).origin hpast hx
  · exact .inl hstart
  · obtain ⟨r, hr, hwrites, -⟩ := (ordered h).commands e' hmem
    exact .inr ⟨e', he', r, hr, hwrites, change_of_entry h hmem, hadded⟩

/-- A recorded application comes from `ApplyFriend`. -/
theorem friendApplied (h : Reach system.serve AcceptsKnown (idle w) s)
    (hpast : past ++ [e] <+: s.pool.world.entries) {requesterId userId : ℤ}
    (hrecorded : FriendRecorded e.before requesterId userId) :
    FriendApplied w s.requests past requesterId userId := by
  obtain ⟨row, hrow, hids⟩ := hrecorded
  obtain hstart | ⟨e', he', r, hr, hwrites, hchange, hadded⟩ :=
    origin (f := fun w ↦ w.friendRequests.rows) (fun ok w c ↦ (exec_grows ok w c).friendRequests)
      (fun _ _ ↦ rfl) h hpast hrow
  · exact .inl ⟨row, hstart, hids⟩
  · obtain ⟨_, _, _, hcommand, hvalue, hinsert⟩ := friendRequests_of_change hchange hadded
    rw [hcommand] at hwrites
    obtain ⟨req, rfl, rfl, rfl, rfl⟩ := hwrites
    rw [hvalue] at hids hinsert
    exact .inr ⟨e', he', req, hr, hids.1, hids.2, hinsert⟩

theorem groupApplied (h : Reach system.serve AcceptsKnown (idle w) s)
    (hpast : past ++ [e] <+: s.pool.world.entries) {requesterId groupId : ℤ}
    (hrecorded : GroupRecorded e.before requesterId groupId) :
    GroupApplied w s.requests past requesterId groupId := by
  obtain ⟨row, hrow, hids⟩ := hrecorded
  obtain hstart | ⟨e', he', r, hr, hwrites, hchange, hadded⟩ :=
    origin (f := fun w ↦ w.groupRequests.rows) (fun ok w c ↦ (exec_grows ok w c).groupRequests)
      (fun _ _ ↦ rfl) h hpast hrow
  · exact .inl ⟨row, hstart, hids⟩
  · obtain ⟨_, _, _, hcommand, hvalue, hinsert⟩ := groupRequests_of_change hchange hadded
    rw [hcommand] at hwrites
    obtain ⟨req, rfl, rfl, rfl, rfl⟩ := hwrites
    rw [hvalue] at hids hinsert
    exact .inr ⟨e', he', req, hr, hids.1, hids.2, hinsert⟩

theorem friends_addressed (h : Reach system.serve AcceptsKnown (idle w) s)
    (hpast : past ++ [e] <+: s.pool.world.entries) {req : AcceptFriendReq}
    (hreq : s.requests[e.call]? = some (.acceptFriend req))
    (hadds : ∃ row ∈ e.after.relations.rows, row ∉ e.before.relations.rows) :
    FriendRecorded e.before req.requesterId req.userId := by
  have he : e ∈ s.pool.world.entries := hpast.subset (List.mem_append_right _ (List.mem_singleton_self e))
  obtain ⟨r, hr, hwrites, hacceptable⟩ := (ordered h).commands e he
  obtain rfl : r = .acceptFriend req := Option.some.inj (hr.symm.trans hreq)
  obtain ⟨row, hrow, hnew⟩ := hadds
  obtain ⟨_, _, hcommand, hfresh⟩ := relations_of_change (change_of_entry h he) hrow hnew
  rw [hcommand] at hwrites
  obtain ⟨_, heq, haccept, rfl, rfl⟩ := hwrites
  cases heq
  exact (hacceptable haccept).resolve_right hfresh

theorem members_addressed (h : Reach system.serve AcceptsKnown (idle w) s)
    (hpast : past ++ [e] <+: s.pool.world.entries) {req : AcceptGroupReq}
    (hreq : s.requests[e.call]? = some (.acceptGroup req))
    (hadds : ∃ row ∈ e.after.members.rows, row ∉ e.before.members.rows) :
    GroupRecorded e.before req.requesterId req.groupId ∧ MayAccept e.before req.userId req.groupId := by
  have he : e ∈ s.pool.world.entries := hpast.subset (List.mem_append_right _ (List.mem_singleton_self e))
  obtain ⟨r, hr, hwrites, hacceptable⟩ := (ordered h).commands e he
  obtain rfl : r = .acceptGroup req := Option.some.inj (hr.symm.trans hreq)
  obtain ⟨row, hrow, hnew⟩ := hadds
  obtain ⟨_, _, _, hcommand, hfresh⟩ := members_of_change (change_of_entry h he) hrow hnew
  rw [hcommand] at hwrites
  obtain ⟨_, heq⟩ | ⟨_, heq, -⟩ | ⟨_, heq, haccept, rfl, rfl, -⟩ := hwrites
  · cases heq
  · cases heq
  · cases heq
    exact (hacceptable haccept).resolve_right hfresh

end Runs

/-- In a run in which only what was applied for is accepted, by those who may,
nothing else is. -/
theorem addressed {w : Tables} {s : RelationCalls} (h : Reach system.serve AcceptsKnown (idle w) s) :
    Addressed w s := by
  refine ⟨?_, ?_⟩
  · intro past e req hpast hreq hadds
    have hrecorded := friends_addressed h hpast hreq hadds
    exact ⟨hrecorded, friendApplied h hpast hrecorded⟩
  · intro past e req hpast hreq hadds
    obtain ⟨hrecorded, hmay⟩ := members_addressed h hpast hreq hadds
    exact ⟨hrecorded, groupApplied h hpast hrecorded, hmay⟩

/-- User 1 applies to user 2, who accepts. -/
def befriended : List Step :=
  .spawn (.applyFriend { userId := 1, friendId := 2 }) :: List.replicate 4 (.step 0 true) ++
    .spawn (.acceptFriend { userId := 2, requesterId := 1, accept := true }) :: List.replicate 3 (.step 1 true)

theorem addressed_befriended :
    ∃ s, Addressed .empty s ∧ s.pool.world.world.relations.rows = [⟨2, 1, 1⟩, ⟨1, 2, 1⟩] := by
  have hrun : Reach system.serve AcceptsKnown (idle .empty) _ := reach_of_exec befriended rfl
  exact ⟨_, addressed hrun, rfl⟩

/-- User 2 accepts an application that user 1 has not made. -/
def unasked : List Step :=
  .spawn (.acceptFriend { userId := 2, requesterId := 1, accept := true }) :: List.replicate 2 (.step 0 true)

theorem not_addressed : ¬ ∀ w s, Reach system.serve anyStep (idle w) s → Addressed w s := by
  intro h
  obtain ⟨s, hrun, hnot⟩ : ∃ s, Reach system.serve anyStep (idle .empty) s ∧ ¬ Addressed .empty s := by
    refine exists_reach_of_exec unasked ⟨_, rfl, ?_⟩
    intro haddressed
    obtain ⟨⟨row, hrow, -⟩, -⟩ := haddressed.friends _ _ _ (List.prefix_refl _) rfl
      ⟨⟨2, 1, 1⟩, by decide, by decide⟩
    exact absurd hrow List.not_mem_nil
  exact hnot (h .empty s hrun)

end TinyIM.Relation.AddressedRequests

import TinyIM.Relation.AddressedRequests
import TinyIM.Relation.GroupIntegrity

namespace TinyIM.Relation.JoinOnce

open Library.ByteOrder Library.Transition Library.Program Library.Interleaving Library.Journal Library.Table
  Protocol RelationService AddressedRequests
open Friendship (stored stored_natCast stored_nonneg)

/-- What each request writes to `im_group_member` and sends, after what it has
done by then. -/
def Issues (r : Request) (past : List RelationExchange) : RelationService.Command → Prop
  | .insertMember groupId userId _ =>
    (∃ req id, r = .createGroup req ∧ ⟨.insertGroup req.groupName req.ownerId, some id⟩ ∈ past ∧
      groupId = (id : ℕ) ∧ userId ∈ req.ownerId :: req.initialMembers) ∨
    (∃ req, r = .joinGroup req ∧ groupId = req.groupId ∧ userId = req.userId) ∨
    ∃ req, r = .acceptGroup req ∧ groupId = req.groupId ∧ userId = req.requesterId
  | .sendMessage msg =>
    (∃ req, r = .joinGroup req ∧ msg = joinedMsg req.userId req.groupId) ∨
    (∃ requesterId, msg = acceptedMsg requesterId) ∨ ∃ ownerId, msg = groupRequestMsg ownerId
  | _ => True

/-- The account of a call is its journal. -/
def issuing (r : Request) : Contract RelationService.Command RelationService.Answer (List RelationExchange) :=
  ⟨Issues r, fun _ _ _ ↦ True, (keeping _ _).after⟩

section Contract

variable {past : List RelationExchange} {r : Request}

theorem addInitialMembers_issues {req : CreateGroupReq} {id : ℕ} (members : List ℤ)
    (hid : ⟨.insertGroup req.groupName req.ownerId, some id⟩ ∈ past)
    (hmembers : members ⊆ req.initialMembers) :
    Meets (issuing (.createGroup req)) (fun _ _ ↦ True) past
      (RelationService.addInitialMembers id req.ownerId members) := by
  induction members generalizing past with
  | nil => exact trivial
  | cons uid members ih =>
    obtain ⟨huid, hmembers⟩ := List.cons_subset.mp hmembers
    rw [RelationService.addInitialMembers]
    split_ifs
    · exact ih hid hmembers
    · refine meets_perform_bind.mpr ⟨?_, fun _ _ ↦ ih (List.mem_append_left _ hid) hmembers⟩
      exact .inl ⟨req, id, rfl, hid, rfl, List.mem_cons_of_mem _ huid⟩

theorem createGroup_issues (req : CreateGroupReq) :
    Meets (issuing (.createGroup req)) (fun _ _ ↦ True) past (RelationService.createGroup req) := by
  refine meets_perform_bind.mpr ⟨trivial, fun valid _ ↦ meets_perform_bind.mpr ⟨trivial, ?_⟩⟩
  intro id _
  cases id with
  | none => exact trivial
  | some id =>
    have hid : (⟨.insertGroup req.groupName req.ownerId, some id⟩ : RelationExchange) ∈
        past ++ [⟨.connectWrite, valid⟩] ++ [⟨.insertGroup req.groupName req.ownerId, some id⟩] :=
      List.mem_append_right _ (List.mem_singleton_self _)
    refine meets_perform_bind.mpr ⟨.inl ⟨req, id, rfl, hid, rfl, List.mem_cons_self⟩, fun _ _ ↦ ?_⟩
    exact meets_bind.mpr (addInitialMembers_issues _ (List.mem_append_left _ hid) (List.Subset.refl _))

theorem joinGroup_issues (req : JoinGroupReq) :
    Meets (issuing (.joinGroup req)) (fun _ _ ↦ True) past (RelationService.joinGroup req) := by
  refine meets_of_permits (joinGroup_commands req) ?_
  rintro _ _ (rfl | rfl | rfl | rfl)
  · exact trivial
  · exact trivial
  · exact .inr (.inl ⟨req, rfl, rfl, rfl⟩)
  · exact .inl ⟨req, rfl, rfl⟩

theorem applyGroup_issues (req : ApplyGroupReq) :
    Meets (issuing r) (fun _ _ ↦ True) past (applyGroup req) := by
  refine meets_of_permits (applyGroup_commands req) ?_
  rintro _ _ (rfl | rfl | rfl | rfl | ⟨ownerId, rfl⟩)
  · exact trivial
  · exact trivial
  · exact trivial
  · exact trivial
  · exact .inr (.inr ⟨ownerId, rfl⟩)

theorem acceptGroup_issues (req : AcceptGroupReq) :
    Meets (issuing (.acceptGroup req)) (fun _ _ ↦ True) past (RelationService.acceptGroup req) := by
  refine meets_of_permits (acceptGroup_commands req) ?_
  rintro _ _ (rfl | ⟨-, rfl⟩ | rfl)
  · exact trivial
  · exact .inr (.inr ⟨req, rfl, rfl, rfl⟩)
  · exact .inr (.inl ⟨req.requesterId, rfl⟩)

theorem program_issues (r : Request) : Meets (issuing r) (fun _ _ ↦ True) past r.program := by
  cases r with
  | applyFriend req => exact meets_bind.mpr (meets_lift.mpr (meets_of_may fun _ _ ↦ trivial))
  | acceptFriend req => exact meets_bind.mpr (meets_lift.mpr (meets_of_may fun _ _ ↦ trivial))
  | getFriendList req =>
    refine meets_bind.mpr (meets_perform_bind.mpr ⟨trivial, fun _ _ ↦ meets_perform_bind.mpr ⟨trivial, ?_⟩⟩)
    intro rows _
    cases rows <;> exact trivial
  | createGroup req => exact meets_bind.mpr (createGroup_issues req)
  | joinGroup req => exact meets_bind.mpr (joinGroup_issues req)
  | getGroupList req =>
    refine meets_bind.mpr (meets_perform_bind.mpr ⟨trivial, fun _ _ ↦ meets_perform_bind.mpr ⟨trivial, ?_⟩⟩)
    intro rows _
    cases rows <;> exact trivial
  | applyGroup req => exact meets_bind.mpr (applyGroup_issues req)
  | acceptGroup req => exact meets_bind.mpr (acceptGroup_issues req)

end Contract

/-- The row that an exchange has added to `im_group_member`. -/
def newRow : RelationExchange → List RelationService.MemberRow
  | ⟨.insertMember groupId userId role, .done⟩ => [⟨stored groupId, stored userId, role⟩]
  | _ => []

section Join

variable (g u : ℤ)

/-- `JoinGroup(u, g)`. -/
def join : Request := .joinGroup { userId := u, groupId := g }

/-- The row that `JoinGroup(u, g)` is about. -/
def isRow (m : RelationService.MemberRow) : Bool := m.key = (stored g, stored u)

def rowsOf (w : Tables) : List RelationService.MemberRow := w.members.rows.filter (isRow g u)

def inserts (x : RelationExchange) : Bool := (newRow x).any (isRow g u)

def notifies (x : RelationExchange) : Bool := x.1 = .sendMessage (joinedMsg u g)

/-- The call is `JoinGroup(u, g)` itself, or joins or accepts another user or
into another group. -/
def Admitted : Request → Prop
  | .joinGroup req =>
    req = { userId := u, groupId := g } ∨ (stored req.groupId, stored req.userId) ≠ (stored g, stored u)
  | .acceptGroup req => (stored req.groupId, stored req.requesterId) ≠ (stored g, stored u)
  | _ => True

/-- The users that a request wants in a new group. -/
def membersOf : Request → List ℤ
  | .createGroup req => req.ownerId :: req.initialMembers
  | _ => []

def createsGroup : RelationService.Command → Bool
  | .insertGroup _ _ => true
  | _ => false

/-- If this command creates the group with the number `g`, then without `u`. -/
def CreatedWithout (w : Tables) (r : Request) (c : RelationService.Command) : Prop :=
  createsGroup c = true → (w.groups.next : ℤ) = stored g → stored u ∉ (membersOf r).map stored

instance (w : Tables) (r : Request) (c : RelationService.Command) : Decidable (CreatedWithout g u w r c) :=
  inferInstanceAs (Decidable (_ → _ → _))

instance : (r : Request) → Decidable (Admitted g u r)
  | .joinGroup _ => inferInstanceAs (Decidable (_ ∨ _ ≠ _))
  | .acceptGroup _ => inferInstanceAs (Decidable (_ ≠ _))
  | .applyFriend _ => isTrue trivial
  | .acceptFriend _ => isTrue trivial
  | .getFriendList _ => isTrue trivial
  | .createGroup _ => isTrue trivial
  | .getGroupList _ => isTrue trivial
  | .applyGroup _ => isTrue trivial

/-- The other calls are of other users or groups, and statements fail on unique
keys only. -/
def OthersApart (s : RelationCalls) : Step → Prop
  | .spawn r => Admitted g u r
  | .step i ok => ok = true ∧
    ∀ r ∈ s.requests[i]?, ∀ c ∈ s.pool.command i, CreatedWithout g u s.pool.world.world r c
  | .outside _ => True

instance (s : RelationCalls) : (a : Step) → Decidable (OthersApart g u s a)
  | .spawn r => inferInstanceAs (Decidable (Admitted g u r))
  | .step i ok => inferInstanceAs (Decidable (ok = true ∧ ∀ r ∈ s.requests[i]?, ∀ c ∈ s.pool.command i, _))
  | .outside _ => isTrue trivial

/-- What a call of `JoinGroup(u, g)` has done when it ends. -/
inductive Joined : List RelationExchange → Outcome → Prop
  | member (valid) :
    Joined [⟨.connectWrite, valid⟩, ⟨.selectMember g u, some true⟩] (.joined { success := true })
  | done (valid found) :
    Joined [⟨.connectWrite, valid⟩, ⟨.selectMember g u, found⟩, ⟨.insertMember g u 1, .done⟩,
      ⟨.sendMessage (joinedMsg u g), ()⟩] (.joined { success := true })
  | duplicate (valid found) :
    Joined [⟨.connectWrite, valid⟩, ⟨.selectMember g u, found⟩, ⟨.insertMember g u 1, .duplicate⟩]
      (.joined { success := true })
  | failed (valid found) :
    Joined [⟨.connectWrite, valid⟩, ⟨.selectMember g u, found⟩, ⟨.insertMember g u 1, .failed⟩]
      (.joined { success := false })

variable {g u} {l : List RelationExchange} {a : Outcome}

theorem joined_of_runs (h : Runs (join g u).program l a) : Joined g u l a := by
  obtain ⟨_, _, resp, rfl, hruns, rfl, rfl⟩ := runs_bind.mp h
  obtain ⟨valid, _, rfl, found, _, rfl, hruns⟩ := hruns
  rw [List.append_nil]
  change Runs (if found = some true then _ else _) _ _ at hruns
  split_ifs at hruns with hfound
  · obtain ⟨rfl, rfl⟩ := hruns
    subst hfound
    exact .member valid
  · obtain ⟨inserted, _, rfl, hruns⟩ := hruns
    cases inserted with
    | done =>
      obtain ⟨_, _, rfl, rfl, rfl⟩ := hruns
      exact .done valid found
    | duplicate =>
      obtain ⟨rfl, rfl⟩ := hruns
      exact .duplicate valid found
    | failed =>
      obtain ⟨rfl, rfl⟩ := hruns
      exact .failed valid found

theorem inserts_cases {x : RelationExchange} (h : inserts g u x = true) :
    ∃ groupId userId role, x.1 = .insertMember groupId userId role ∧
      (stored groupId, stored userId) = (stored g, stored u) := by
  unfold inserts newRow at h
  split at h
  · next groupId userId role =>
    rw [List.any_cons, List.any_nil, Bool.or_false, isRow, decide_eq_true_eq] at h
    exact ⟨groupId, userId, role, rfl, h⟩
  · cases h

theorem joinedMsg_injective {u' g' : ℤ} (h : joinedMsg u g = joinedMsg u' g') : u = u' ∧ g = g' :=
  ⟨congrArg SendMessageReq.senderId h, congrArg SendMessageReq.groupId h⟩

theorem joinedMsg_ne_acceptedMsg (requesterId : ℤ) : joinedMsg u g ≠ acceptedMsg requesterId := by
  intro h
  have hsecond : (115 : UInt8) = 111 := congrArg (fun msg : SendMessageReq ↦ msg.content.getD 1 0) h
  exact absurd hsecond (by decide)

theorem joinedMsg_ne_groupRequestMsg (ownerId : ℤ) : joinedMsg u g ≠ groupRequestMsg ownerId := by
  intro h
  have htype : (3 : ℤ) = 4 := congrArg SendMessageReq.type h
  exact absurd htype (by decide)

end Join

section Runs

variable {g u : ℤ} {w : Tables} {s : RelationCalls} {e : RelationEntry}

theorem exec_members (ok : Bool) (w : Tables) (c : RelationService.Command) :
    (AddressedRequests.exec ok w c).1.members.rows =
      w.members.rows ++ newRow ⟨c, (AddressedRequests.exec ok w c).2⟩ := by
  cases ok with
  | false => cases c <;> exact (List.append_nil _).symm
  | true =>
    cases c with
    | friend c => cases c <;> exact (List.append_nil _).symm
    | insertMember groupId userId role =>
      rw [AddressedRequests.exec, Tables.perform, if_pos rfl, Tables.succeed]
      obtain ⟨-, hnone⟩ | ⟨-, members, hsome, hrows⟩ :=
        Keyed.insert_singleton_cases (t := w.members) ⟨stored groupId, stored userId, role⟩
      · rw [hnone]
        exact (List.append_nil _).symm
      · rw [hsome]
        exact hrows
    | _ => exact (List.append_nil _).symm

/-- What an entry of such a run is: a statement that fails on unique keys only,
and no creation of the group with `u` in it. -/
def Carried (g u : ℤ) (r : Request) (e : RelationEntry) : Prop :=
  e.before.succeed e.exchange.1 = (e.after, e.exchange.2) ∧ CreatedWithout g u e.before r e.exchange.1

theorem conducted (h : Reach system.serve (OthersApart g u) (idle w) s) :
    Conducted Issues (Carried g u) s.pool.world s.requests := by
  refine conducted_of_reach program_issues ?_ h
  intro s i ok c k t r hok hi hr
  obtain ⟨rfl, hcreated⟩ := hok
  exact ⟨rfl, hcreated r hr c (Pool.command_of_threads hi)⟩

/-- What a call has on record was done by an entry, as the tables answer it. -/
theorem exists_entry (h : Reach system.serve (OthersApart g u) (idle w) s) {i : ℕ} {x : RelationExchange}
    (hx : x ∈ journalOf i s.pool.world) :
    ∃ e ∈ s.pool.world.entries, e.exchange = x ∧ e.before.succeed x.1 = (e.after, x.2) := by
  obtain ⟨e, he, -, rfl⟩ := mem_journalOf.mp hx
  obtain ⟨_, -, hcarried, -⟩ := (conducted h).of_mem he
  exact ⟨e, he, rfl, hcarried⟩

theorem admitted (h : Reach system.serve (OthersApart g u) (idle w) s) : ∀ r ∈ s.requests, Admitted g u r := by
  have hordered : Ordered (fun _ _ ↦ True) (fun _ ↦ Admitted g u) s.pool.world s.requests :=
    ordered_of_reach (fun _ ↦ meets_of_may fun _ _ ↦ trivial) (fun _ _ hr ↦ hr) (fun _ _ _ _ hr ↦ hr)
      (fun _ _ _ _ _ hr ↦ hr) h
  exact hordered.standing

theorem keeps_and_records (h : Reach system.serve (OthersApart g u) (idle w) s) :
    s.Keeps (fun _ ↦ keeping _ _) (fun r t a ↦ Runs r.program t a) ∧
      Records AddressedRequests.exec (fun w ↦ w.members.rows) (fun e ↦ newRow e.exchange) w s.pool.world
        s.pool.accounts := by
  refine records_of_reach (fun _ ok w c ↦ exec_members ok w c) ?_ (h.mono fun _ _ _ ↦ trivial)
  intro nicknames w w' hw'
  obtain rfl := Option.some.inj hw'
  rfl

/-- A group that was created with the number `g` was created without `u`. -/
theorem created_without (h : Reach system.serve (OthersApart g u) (idle w) s) (he : e ∈ s.pool.world.entries)
    {req : CreateGroupReq} {groupName : Bytes} {ownerId : ℤ} {id : ℕ}
    (hr : s.requests[e.call]? = some (.createGroup req))
    (hid : e.exchange = ⟨.insertGroup groupName ownerId, some id⟩) (hg : (id : ℤ) = stored g) :
    stored u ∉ (req.ownerId :: req.initialMembers).map stored := by
  obtain ⟨r, hr', hcarried, hcreated⟩ := (conducted h).of_mem he
  obtain rfl : r = .createGroup req := Option.some.inj (hr'.symm.trans hr)
  rw [hid] at hcarried hcreated
  obtain rfl : e.before.groups.next = id := Option.some.inj (congrArg Prod.snd hcarried)
  exact hcreated rfl hg

/-- What the other calls insert and send is about other users or groups. -/
theorem apart (h : Reach system.serve (OthersApart g u) (idle w) s) (he : e ∈ s.pool.world.entries)
    (hother : s.requests[e.call]? ≠ some (join g u)) :
    inserts g u e.exchange = false ∧ notifies g u e.exchange = false := by
  obtain ⟨past, hpast⟩ := exists_prefix_of_mem he
  obtain ⟨r, hr, hissues, -⟩ := conducted h past e hpast
  have hadmitted := admitted h r (List.mem_of_getElem? hr)
  have hjoin : ∀ req, r = .joinGroup req → (stored req.groupId, stored req.userId) ≠ (stored g, stored u) := by
    rintro req rfl
    refine hadmitted.resolve_left fun hreq ↦ hother ?_
    rw [hr, join, hreq]
  refine ⟨?_, ?_⟩
  · rw [← Bool.not_eq_true]
    intro hinserts
    obtain ⟨groupId, userId, role, hc, hkey⟩ := inserts_cases hinserts
    rw [hc] at hissues
    obtain ⟨req, id, rfl, hid, rfl, huser⟩ | ⟨req, rfl, rfl, rfl⟩ | ⟨req, rfl, rfl, rfl⟩ := hissues
    · obtain ⟨e', he', hcall, hexchange⟩ := mem_journalOf.mp hid
      obtain ⟨hg, hu⟩ := Prod.mk.inj hkey
      rw [stored_natCast] at hg
      have he'' : e' ∈ s.pool.world.entries := hpast.subset (List.mem_append_left _ he')
      refine created_without h he'' (hcall ▸ hr) hexchange hg ?_
      exact hu ▸ List.mem_map_of_mem huser
    · exact hjoin req rfl hkey
    · exact hadmitted hkey
  · rw [← Bool.not_eq_true]
    intro hnotifies
    rw [of_decide_eq_true hnotifies] at hissues
    obtain ⟨req, rfl, hmsg⟩ | ⟨_, hmsg⟩ | ⟨_, hmsg⟩ := hissues
    · obtain ⟨rfl, rfl⟩ := joinedMsg_injective hmsg
      exact hjoin req rfl rfl
    · exact joinedMsg_ne_acceptedMsg _ hmsg
    · exact joinedMsg_ne_groupRequestMsg _ hmsg

section Rows

theorem length_rowsOf_le (w : Tables) : (rowsOf g u w).length ≤ 1 := by
  have hcount := List.nodup_iff_count_le_one.mp w.members.nodup (stored g, stored u)
  rw [List.count, List.countP_map, List.countP_eq_length_filter] at hcount
  refine le_of_eq_of_le (congrArg List.length (List.filter_congr fun m _ ↦ ?_)) hcount
  exact (beq_eq_decide _ _).symm

theorem length_filter_newRow (x : RelationExchange) :
    ((newRow x).filter (isRow g u)).length = if inserts g u x then 1 else 0 := by
  unfold inserts newRow
  split
  · next groupId userId role =>
    by_cases h : isRow g u ⟨stored groupId, stored userId, role⟩ <;> simp [h]
  · rfl

theorem length_filter_newRows (entries : List RelationEntry) :
    ((entries.flatMap fun e ↦ newRow e.exchange).filter (isRow g u)).length =
      entries.countP fun e ↦ inserts g u e.exchange := by
  induction entries with
  | nil => rfl
  | cons e entries ih =>
    rw [List.flatMap_cons, List.filter_append, List.length_append, ih, length_filter_newRow,
      List.countP_cons, Nat.add_comm]

theorem length_rowsOf (h : Reach system.serve (OthersApart g u) (idle w) s) :
    (rowsOf g u s.pool.world.world).length =
      (rowsOf g u w).length + s.pool.world.entries.countP fun e ↦ inserts g u e.exchange := by
  rw [rowsOf, (keeps_and_records h).2.gained, List.filter_append, List.length_append, length_filter_newRows]
  rfl

/-- The id columns are `BIGINT UNSIGNED`. -/
def Unsigned (w : Tables) : Prop := ∀ m ∈ w.members.rows, 0 ≤ m.groupId ∧ 0 ≤ m.userId

theorem unsigned (hw : Unsigned w) (h : Reach system.serve (OthersApart g u) (idle w) s) :
    Unsigned s.pool.world.world := by
  intro m hm
  rw [(keeps_and_records h).2.gained] at hm
  rcases List.mem_append.mp hm with hm | hm
  · exact hw m hm
  · obtain ⟨e, -, hm⟩ := List.mem_flatMap.mp hm
    unfold newRow at hm
    split at hm
    · obtain rfl := List.mem_singleton.mp hm
      exact ⟨stored_nonneg _, stored_nonneg _⟩
    · exact absurd hm List.not_mem_nil

theorem rowsOf_ne_nil (h : Reach system.serve (OthersApart g u) (idle w) s) (he : e ∈ s.pool.world.entries)
    {m : RelationService.MemberRow} (hm : m ∈ e.before.members.rows) (hkey : m.key = (stored g, stored u)) :
    rowsOf g u s.pool.world.world ≠ [] := by
  have hkept := ((keeps_and_records h).2.kept he).subset hm
  exact List.ne_nil_of_mem (List.mem_filter.mpr ⟨hkept, decide_eq_true hkey⟩)

theorem rowsOf_of_inserted (h : Reach system.serve (OthersApart g u) (idle w) s)
    (he : e ∈ s.pool.world.entries) (hinserts : inserts g u e.exchange = true) :
    rowsOf g u s.pool.world.world ≠ [] := by
  have hpos : 0 < s.pool.world.entries.countP fun e ↦ inserts g u e.exchange :=
    List.countP_pos_iff.mpr ⟨e, he, hinserts⟩
  have hlength := length_rowsOf h
  refine List.ne_nil_of_length_pos ?_
  omega

end Rows

/-- When a call of `JoinGroup(u, g)` has ended, its row is there. -/
theorem joined_success (hw : Unsigned w) (h : Reach system.serve (OthersApart g u) (idle w) s) {i : ℕ}
    {a : Outcome} (hjoined : Joined g u (journalOf i s.pool.world) a) :
    a = .joined { success := true } ∧ rowsOf g u s.pool.world.world ≠ [] := by
  have hentry := fun x (hx : x ∈ journalOf i s.pool.world) ↦ exists_entry h hx
  generalize hl : journalOf i s.pool.world = l at hjoined hentry
  cases hjoined with
  | member valid =>
    obtain ⟨e, he, -, hselect⟩ := hentry ⟨.selectMember g u, some true⟩ (by simp)
    have hany := Option.some.inj (congrArg Prod.snd hselect)
    obtain ⟨m, hm, hkey⟩ := List.any_eq_true.mp hany
    have hkey : m.key = (g, u) := of_decide_eq_true hkey
    have hids := unsigned hw h m (((keeps_and_records h).2.kept he).subset hm)
    obtain ⟨hg, hu⟩ := Prod.mk.inj hkey
    refine ⟨rfl, rowsOf_ne_nil h he hm ?_⟩
    rw [hkey, stored, stored, if_neg (by omega), if_neg (by omega)]
  | done valid found =>
    obtain ⟨e, he, hexchange, -⟩ := hentry ⟨.insertMember g u 1, .done⟩ (by simp)
    refine ⟨rfl, rowsOf_of_inserted h he ?_⟩
    rw [hexchange]
    simp [inserts, newRow, isRow, MemberRow.key]
  | duplicate valid found =>
    obtain ⟨e, he, -, hinsert⟩ := hentry ⟨.insertMember g u 1, .duplicate⟩ (by simp)
    refine ⟨rfl, ?_⟩
    obtain ⟨htaken, -⟩ | ⟨-, members, hsome, -⟩ :=
      Keyed.insert_singleton_cases (t := e.before.members) ⟨stored g, stored u, 1⟩
    · obtain ⟨m, hm, hkey⟩ := List.mem_map.mp htaken
      exact rowsOf_ne_nil h he hm hkey
    · rw [Tables.succeed, hsome] at hinsert
      cases congrArg Prod.snd hinsert
  | failed valid found =>
    obtain ⟨e, -, -, hinsert⟩ := hentry ⟨.insertMember g u 1, .failed⟩ (by simp)
    rw [Tables.succeed] at hinsert
    split at hinsert <;> cases congrArg Prod.snd hinsert

def Ended (s : RelationCalls) (i : ℕ) (a : Outcome) : Prop :=
  ∃ th, s.pool.threads[i]? = some th ∧ th.prog = .done a

theorem joined_of_ended (h : Reach system.serve (OthersApart g u) (idle w) s) {i : ℕ} {a : Outcome}
    (hr : s.requests[i]? = some (join g u)) (hended : Ended s i a) : Joined g u (journalOf i s.pool.world) a := by
  obtain ⟨th, hth, hdone⟩ := hended
  exact joined_of_runs (runs_of_keeps (keeps_and_records h) hr hth hdone)

theorem Joined.countP_eq {l : List RelationExchange} {a : Outcome} (h : Joined g u l a) :
    l.countP (inserts g u) = l.countP (notifies g u) := by
  cases h <;> simp [inserts, notifies, newRow, isRow, MemberRow.key]

/-- A call of `JoinGroup(u, g)` notifies the group exactly if it has inserted
the row, and the other calls do neither. -/
theorem countP_eq (h : Reach system.serve (OthersApart g u) (idle w) s)
    (hended : ∀ i, s.requests[i]? = some (join g u) → ∃ a, Ended s i a) :
    (s.pool.world.entries.countP fun e ↦ inserts g u e.exchange) =
      s.pool.world.entries.countP fun e ↦ notifies g u e.exchange := by
  refine countP_eq_of_calls _ (keeps_and_records h).2.calls ?_
  intro i
  by_cases hr : s.requests[i]? = some (join g u)
  · obtain ⟨a, ha⟩ := hended i hr
    have hcount := (joined_of_ended h hr ha).countP_eq
    rwa [journalOf, List.countP_map, List.countP_map] at hcount
  · have hnone : ∀ e ∈ s.pool.world.entries.filter (fun e ↦ e.call = i),
        inserts g u e.exchange = false ∧ notifies g u e.exchange = false := by
      intro e he
      obtain ⟨he, hcall⟩ := List.mem_filter.mp he
      exact apart h he (of_decide_eq_true hcall ▸ hr)
    rw [List.countP_eq_zero.mpr, List.countP_eq_zero.mpr]
    · exact fun e he ↦ Bool.not_eq_true _ ▸ (hnone e he).2
    · exact fun e he ↦ Bool.not_eq_true _ ▸ (hnone e he).1

/-- `JoinGroup(u, g)` issues at most four commands. -/
theorem program_brief (r : Request) :
    Meets ⟨fun l _ ↦ r = join g u → l.length < 4, fun _ _ _ ↦ True, (keeping _ _).after⟩ (fun _ _ ↦ True) []
      r.program := by
  by_cases hjoin : r = join g u
  · subst hjoin
    refine meets_bind.mpr (meets_perform_bind.mpr ⟨fun _ ↦ by simp, fun _ _ ↦ ?_⟩)
    refine meets_perform_bind.mpr ⟨fun _ ↦ by simp [keeping], fun found _ ↦ ?_⟩
    split
    · exact trivial
    · refine meets_perform_bind.mpr ⟨fun _ ↦ by simp [keeping], fun inserted _ ↦ ?_⟩
      cases inserted with
      | done => exact meets_perform_bind.mpr ⟨fun _ ↦ by simp [keeping], fun _ _ ↦ trivial⟩
      | duplicate => exact trivial
      | failed => exact trivial
  · exact meets_of_may fun _ _ hr ↦ absurd hr hjoin

theorem length_journalOf_le (h : Reach system.serve (OthersApart g u) (idle w) s) {i : ℕ}
    (hr : s.requests[i]? = some (join g u)) : (journalOf i s.pool.world).length ≤ 4 := by
  have hconducted : Conducted (fun r l _ ↦ r = join g u → l.length < 4) (fun _ _ ↦ True)
      s.pool.world s.requests :=
    conducted_of_reach program_brief (fun _ _ _ _ _ _ _ _ _ _ ↦ trivial) h
  exact hconducted.length_journalOf_le hr rfl

end Runs

/-- What calls of `JoinGroup(u, g)` have done since the world was `w`. -/
structure JoinedOnce (g u : ℤ) (w : Tables) (s : RelationCalls) : Prop where
  /-- None issues more than four commands, -/
  brief : ∀ i, s.requests[i]? = some (join g u) → (journalOf i s.pool.world).length ≤ 4
  /-- each succeeds, and then there is one row. -/
  joined : ∀ i a, s.requests[i]? = some (join g u) → Ended s i a →
    a = .joined { success := true } ∧ (rowsOf g u s.pool.world.world).length = 1
  /-- When all have ended, the group was told once if there was no row before. -/
  notified : join g u ∈ s.requests → (∀ i, s.requests[i]? = some (join g u) → ∃ a, Ended s i a) →
    (s.pool.world.entries.countP fun e ↦ notifies g u e.exchange) = if rowsOf g u w = [] then 1 else 0

/-- Any number of racing calls join a user to a group as one call does. -/
theorem joinGroup_once (g u : ℤ) {w : Tables} (hw : Unsigned w) {s : RelationCalls}
    (h : Reach system.serve (OthersApart g u) (idle w) s) : JoinedOnce g u w s := by
  have hone : ∀ i a, s.requests[i]? = some (join g u) → Ended s i a →
      a = .joined { success := true } ∧ (rowsOf g u s.pool.world.world).length = 1 := by
    intro i a hr hended
    obtain ⟨hreply, hrows⟩ := joined_success hw h (joined_of_ended h hr hended)
    have hle := length_rowsOf_le (g := g) (u := u) s.pool.world.world
    have hpos := List.length_pos_iff.mpr hrows
    exact ⟨hreply, by omega⟩
  refine ⟨fun i hr ↦ length_journalOf_le h hr, hone, ?_⟩
  intro hjoin hended
  obtain ⟨i, hr⟩ := List.mem_iff_getElem?.mp hjoin
  obtain ⟨a, ha⟩ := hended i hr
  have hrows := length_rowsOf h
  rw [(hone i a hr ha).2, countP_eq h hended] at hrows
  split_ifs with hnone
  · rw [hnone, List.length_nil] at hrows
    omega
  · have hpos := List.length_pos_iff.mpr hnone
    omega

/-- User 1 joins group 1 twice at a time: both calls find no row. -/
def racing : List Step :=
  [.spawn (join 1 1), .spawn (join 1 1)] ++ List.replicate 2 (.step 0 true) ++ List.replicate 3 (.step 1 true) ++
    [.step 0 true, .step 1 true]

theorem joinGroup_once_racing :
    ∃ s, JoinedOnce 1 1 .empty s ∧ rowsOf 1 1 s.pool.world.world = [⟨1, 1, 1⟩] ∧
      s.pool.world.entries.countP (fun e ↦ notifies 1 1 e.exchange) = 1 := by
  have hrun : Reach system.serve (OthersApart 1 1) (idle .empty) _ := reach_of_exec racing rfl
  exact ⟨_, joinGroup_once 1 1 (fun _ hm ↦ absurd hm List.not_mem_nil) hrun, rfl, rfl⟩

end TinyIM.Relation.JoinOnce

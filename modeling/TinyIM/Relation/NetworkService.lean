import TinyIM.Relation.GroupIntegrity
import TinyIM.Relation.SocialNetwork

namespace TinyIM.Relation.NetworkService

open Library.ByteOrder Library.Delimited Library.Program Library.Service Library.SqlStatement Library.Table
  Protocol RelationService SocialNetwork GroupIntegrity
open Chat (RelationRow)
open Friendship (stored newRelations stored_natCast stored_stored)

section Lists

variable {ρ κ μ : Type} [DecidableEq κ] {key : ρ → κ} (t : Keyed key)

/-- The keys of a table as a set lose none of its rows. -/
theorem filterMap_toFinset (p : κ → Prop) [DecidablePred p] (f : κ → Option μ) :
    ((t.rows.map key).toFinset.filter p).val.filterMap f =
      ((t.rows.filter fun r ↦ p (key r)).filterMap fun r ↦ f (key r) : List μ) := by
  have hval : (t.rows.map key).toFinset.val = (t.rows.map key : List κ) := by
    rw [List.toFinset_val, t.nodup.dedup]
  rw [Finset.filter_val, hval, Multiset.filter_coe, Multiset.filterMap_coe, List.filter_map, List.filterMap_map]
  rfl

/-- Rows numbered by their place are found by their number. -/
theorem find_numbered {γ : Type} (groups : List γ) (k : ℕ) (id : ℤ) :
    (groups.mapIdx fun i g ↦ (k + i + 1, g)).find? (fun g ↦ (g.1 : ℤ) = id) =
      if (k : ℤ) < id then groups[(id - k - 1).toNat]?.map fun g ↦ (id.toNat, g) else none := by
  induction groups generalizing k with
  | nil => simp
  | cons g groups ih =>
    have hrest : (groups.mapIdx fun i g ↦ (k + (i + 1) + 1, g)) = groups.mapIdx fun i g ↦ (k + 1 + i + 1, g) := by
      congr 1
      funext i g
      rw [Nat.add_assoc k 1 i, Nat.add_comm 1 i]
    rw [List.mapIdx_cons, List.find?_cons, hrest, ih]
    by_cases hid : id = k + 1
    · subst hid
      simp
    · have hne : decide (((k + 0 + 1 : ℕ) : ℤ) = id) = false := decide_eq_false (by omega)
      simp only [hne]
      by_cases hlt : (k : ℤ) < id
      · have hsucc : (id - k - 1).toNat = (id - (k + 1 : ℕ) - 1).toNat + 1 := by omega
        rw [if_pos hlt, if_pos (by omega), hsucc, List.getElem?_cons_succ]
      · rw [if_neg hlt, if_neg (by omega)]

end Lists

section Holds

variable {w : Tables} {n : Network} (h : Holds w n)
include h

theorem friendsOf_of_holds (userId : ℤ) :
    (((w.friendsOf userId).map fun r ↦ { userId := r.1, nickname := cString r.2 } : List FriendInfo) :
      Multiset FriendInfo) = n.friendsOf userId := by
  rw [Network.friendsOf, ← h.friends, filterMap_toFinset]
  congr 1
  rw [Tables.friendsOf, List.map_filterMap]
  have hrows : (w.relations.rows.filter fun r ↦ r.userId = userId ∧ r.status = 1) =
      w.relations.rows.filter fun r ↦ r.key.1 = userId := by
    refine List.filter_congr ?_
    intro r hr
    exact decide_eq_decide.mpr (and_iff_left (h.normal r hr))
  rw [hrows]
  refine List.filterMap_congr ?_
  intro r _
  rw [← h.nickname, Option.map_map]
  refine Option.map_congr ?_
  intro x hx
  have hid : x.1 = r.friendId := by simpa using List.find?_some hx
  rw [hid]
  rfl

theorem find_group (groupId : ℤ) :
    ((w.groups.rows.find? fun g ↦ (g.1 : ℤ) = groupId).map fun g ↦
      ({ groupId := g.1, groupName := g.2.groupName, ownerId := g.2.ownerId } : GroupInfo)) =
      n.groupInfo groupId := by
  have hrows : w.groups.rows = n.groups.mapIdx fun i g ↦ (0 + i + 1, g) := by simpa using h.groups
  rw [hrows, find_numbered, Network.groupInfo]
  by_cases hpos : 0 < groupId
  · have hid : (groupId.toNat : ℤ) = groupId := Int.toNat_of_nonneg hpos.le
    simp [hpos, hid, Function.comp_def]
  · simp [hpos]

theorem zero_not_mem_groupName {groupId : ℤ} {g : GroupInfo} (hg : n.groupInfo groupId = some g) :
    0 ∉ g.groupName := by
  rw [Network.groupInfo] at hg
  split_ifs at hg
  obtain ⟨row, hrow, rfl⟩ := Option.map_eq_some_iff.mp hg
  exact h.names row (List.mem_of_getElem? hrow)

theorem groupsOf_of_holds (userId : ℤ) :
    (((w.groupsOf userId).map fun g ↦ { g with groupName := cString g.groupName } : List GroupInfo) :
      Multiset GroupInfo) = n.groupsOf userId := by
  rw [Network.groupsOf, ← h.members, filterMap_toFinset, Tables.groupsOf, List.map_filterMap]
  congr 1
  refine List.filterMap_congr ?_
  intro m _
  rw [find_group h m.groupId]
  cases hg : n.groupInfo m.groupId with
  | none => exact hg.symm
  | some g =>
    rw [Option.map_some, cString_eq_self (zero_not_mem_groupName h hg)]
    exact hg.symm

theorem ownerOf_of_holds (groupId : ℤ) : w.ownerOf groupId = (n.groupInfo groupId).map GroupInfo.ownerId := by
  rw [← find_group h, Option.map_map]
  rfl

end Holds

section Tables

variable {w : Tables} {n : Network}

theorem holds_users (h : Holds w n) (nicknames : List (ℤ × Bytes)) :
    Holds { w with nicknames := nicknames } (n.setNicknames nicknames) :=
  { h with nickname := fun _ ↦ rfl }

theorem holds_friendRequest (h : Holds w n) (userId friendId : ℤ) (remark : Bytes) :
    Holds { w with friendRequests := w.friendRequests.insert ⟨stored userId, stored friendId, remark, 0⟩ }
      { n with applied := insert (stored userId, stored friendId) n.applied
               friendRequests := n.friendRequests + 1 } :=
  { h with
    friendRequests := congrArg (· + 1) h.friendRequests
    applied := by
      intro u v
      rw [Finset.mem_insert, ← h.applied]
      constructor
      · rintro ⟨r, hr, rfl, rfl, hstatus⟩
        rcases List.mem_append.mp hr with hr | hr
        · exact .inr ⟨r, hr, rfl, rfl, hstatus⟩
        · obtain rfl := List.mem_singleton.mp hr
          exact .inl rfl
      · rintro (heq | ⟨r, hr, hpending⟩)
        · obtain ⟨rfl, rfl⟩ := Prod.mk.inj heq
          exact ⟨_, List.mem_append_right _ (List.mem_singleton_self _), rfl, rfl, rfl⟩
        · exact ⟨r, List.mem_append_left _ hr, hpending⟩ }

theorem holds_relations (h : Holds w n) (userId requesterId : ℤ) :
    Holds { w with relations := w.relations.insertIgnore (newRelations userId requesterId) }
      { n with friends := n.friends ∪
          {(stored userId, stored requesterId), (stored requesterId, stored userId)} } :=
  { h with
    friends := by
      ext e
      rw [List.mem_toFinset, Keyed.mem_keys_insertIgnore, Finset.mem_union, ← h.friends, List.mem_toFinset]
      simp [newRelations, RelationRow.key]
    normal := by
      intro r hr
      rcases Keyed.mem_of_mem_insertIgnore hr with hr | hr
      · exact h.normal r hr
      · simp only [newRelations, List.mem_cons, List.not_mem_nil, or_false] at hr
        rcases hr with rfl | rfl <;> rfl }

theorem holds_addMember (h : Holds w n) (groupId userId : ℤ) (role : ℕ) :
    Holds (addMember w groupId userId role)
      { n with members := insert (stored groupId, stored userId) n.members } := by
  obtain ⟨htaken, hnone⟩ | ⟨-, members, hsome, hrows⟩ :=
    Keyed.insert_singleton_cases (t := w.members) ⟨stored groupId, stored userId, role⟩
  · have hsame : addMember w groupId userId role = w := by
      simp only [addMember, Tables.succeed, hnone]
    have hin : (stored groupId, stored userId) ∈ n.members := h.members ▸ List.mem_toFinset.mpr htaken
    rw [hsame, Finset.insert_eq_of_mem hin]
    exact h
  · have hadded : addMember w groupId userId role = { w with members := members } := by
      simp only [addMember, Tables.succeed, hsome]
    rw [hadded]
    refine { h with members := ?_, unsigned := ?_ }
    · rw [hrows, List.map_append, List.toFinset_append, h.members, Finset.union_comm]
      rfl
    · intro m hm
      rw [hrows] at hm
      rcases List.mem_append.mp hm with hm | hm
      · exact h.unsigned m hm
      · obtain rfl := List.mem_singleton.mp hm
        exact ⟨stored_stored _, stored_stored _⟩

theorem holds_addGroup (h : Holds w n) {req : CreateGroupReq} (hname : 0 ∉ req.groupName) :
    Holds (addGroup w req) { n with groups := n.groups ++ [⟨req.groupName, stored req.ownerId⟩] } :=
  { h with
    names := by
      intro g hg
      rcases List.mem_append.mp hg with hg | hg
      · exact h.names g hg
      · obtain rfl := List.mem_singleton.mp hg
        exact hname
    groups := by
      change w.groups.rows ++ [(w.groups.next, _)] = _
      rw [h.groups, h.nextGroup, List.mapIdx_append]
      simp
    nextGroup := by
      change w.groups.next + 1 = _
      rw [h.nextGroup, List.length_append]
      rfl }

theorem holds_groupRequest (h : Holds w n) (groupId userId : ℤ) (remark : Bytes) :
    Holds { w with groupRequests := w.groupRequests.insert ⟨stored groupId, stored userId, 0, remark⟩ }
      { n with groupRequests := n.groupRequests + 1 } :=
  { h with groupRequests := congrArg (· + 1) h.groupRequests }

theorem holds_addMembers (h : Holds w n) (groupId : ℕ) (ownerId : ℤ) (members : List ℤ)
    (howner : ((groupId : ℤ), stored ownerId) ∈ n.members) :
    Holds (addMembers groupId ownerId members w)
      { n with members := n.members ∪ (members.map fun u ↦ ((groupId : ℤ), stored u)).toFinset } := by
  induction members generalizing w n with
  | nil => simpa [addMembers] using h
  | cons uid members ih =>
    rw [addMembers, List.foldl_cons, List.map_cons, List.toFinset_cons]
    split_ifs with huid
    · have hih := ih h howner
      have hin : ((groupId : ℤ), stored uid) ∈ n.members := huid ▸ howner
      have hsame : n.members ∪ insert ((groupId : ℤ), stored uid)
            (members.map fun u ↦ ((groupId : ℤ), stored u)).toFinset =
          n.members ∪ (members.map fun u ↦ ((groupId : ℤ), stored u)).toFinset := by
        rw [Finset.union_insert, Finset.insert_eq_of_mem (Finset.mem_union_left _ hin)]
      rw [hsame]
      exact hih
    · have hih := ih (holds_addMember h groupId uid 1) (Finset.mem_insert_of_mem howner)
      simp only [stored_natCast] at hih
      have hsame : n.members ∪ insert ((groupId : ℤ), stored uid)
            (members.map fun u ↦ ((groupId : ℤ), stored u)).toFinset =
          insert ((groupId : ℤ), stored uid) n.members ∪
            (members.map fun u ↦ ((groupId : ℤ), stored u)).toFinset := by
        rw [Finset.union_insert, Finset.insert_union]
      rw [hsame]
      exact hih

end Tables

section Handlers

variable {w : Tables} {n : Network}

/-- The tables and the network stay together, and the caller cannot tell them apart. -/
def Agree (x : Tables × Answered) (y : Network × Answered) : Prop := Holds x.1 y.1 ∧ x.2 = y.2

theorem agree_call {slave : Tables} {i : ℕ} {c : RelationService.Command}
    {k : RelationService.Answer c → RelationService.Handler RelationService.Outcome}
    {w' : Tables} {a : RelationService.Answer c} {y : Network × Answered} (hnotice : notice c = none)
    (hexec : execute slave w c = (w', a))
    (hrest : Agree (finish (run (fun _ w c ↦ execute slave w c) (i + 1) w' (k a))) y) :
    Agree (finish (run (fun _ w c ↦ execute slave w c) i w (.call c k))) y := by
  rw [run_call, hexec, finish, List.filterMap_cons_none hnotice]
  exact hrest

/-- A part of a handler that asks for no message. -/
theorem agree_silent {slave : Tables} {i : ℕ} {α : Type} {p : RelationService.Handler α}
    {f : α → RelationService.Handler RelationService.Outcome} {b : RelationService.Outcome}
    {y : Network × Answered}
    (hsilent : (run (fun _ w c ↦ execute slave w c) i w p).issued.filterMap notice = [])
    (hf : ∀ a, f a = .done b)
    (hrest : Agree ((run (fun _ w c ↦ execute slave w c) i w p).state, view b, []) y) :
    Agree (finish (run (fun _ w c ↦ execute slave w c) i w (p >>= f))) y := by
  rw [run_bind, hf, finish, run_done, List.append_nil, hsilent]
  exact hrest

theorem inserting_of_plain {i : TextFields.Insert} {text : Bytes} (htext : i.texts = [text]) (hplain : Plain text)
    (hlength : text.length ≤ 64) (insert : Bytes → Tables × Option ℕ) : inserting w i insert = insert text := by
  rw [inserting, TextFields.Insert.textRead_of_plain htext hplain hlength]

theorem run_execute_addInitialMembers (slave : Tables) (i : ℕ) (w : Tables) (groupId ownerId : ℤ)
    (members : List ℤ) :
    run (fun _ w c ↦ execute slave w c) i w (RelationService.addInitialMembers groupId ownerId members) =
      run (fun _ w c ↦ Tables.succeed w c) i w (RelationService.addInitialMembers groupId ownerId members) := by
  induction members generalizing i w with
  | nil => rfl
  | cons uid members ih =>
    rw [RelationService.addInitialMembers]
    split_ifs
    · exact ih i w
    · have hsame : execute slave w (.insertMember groupId uid 1) = w.succeed (.insertMember groupId uid 1) := rfl
      rw [run_perform_bind, run_perform_bind, hsame, ih (i + 1)]

theorem agree_applyFriend (h : Holds w n) {req : ApplyFriendReq} (hplain : Plain req.remark)
    (hlength : req.remark.length ≤ 64) (slave : Tables) :
    Agree (serve w (.request slave (.applyFriend req))) (n.applyFriend req) := by
  have hfound : (w.friendRequests.rows.any fun r ↦
      r.2.userId = req.userId ∧ r.2.friendId = req.friendId ∧ r.2.status = 0) =
      decide ((req.userId, req.friendId) ∈ n.applied) := by
    rw [Bool.eq_iff_iff, List.any_eq_true, decide_eq_true_eq, ← h.applied]
    simp only [decide_eq_true_eq]
  rw [serve, Request.program, RelationService.applyFriend, FriendService.applyFriend, Network.applyFriend]
  by_cases hself : req.userId = req.friendId
  · rw [if_pos hself, if_pos hself]
    exact ⟨h, rfl⟩
  · rw [if_neg hself, if_neg hself]
    refine agree_call rfl rfl (agree_call rfl (congrArg (fun found ↦ (w, some found)) hfound) ?_)
    by_cases hpending : (req.userId, req.friendId) ∈ n.applied
    · rw [if_pos hpending, decide_eq_true hpending]
      exact ⟨h, rfl⟩
    · rw [if_neg hpending, decide_eq_false hpending]
      refine agree_call rfl (inserting_of_plain rfl hplain hlength _) ⟨holds_friendRequest h _ _ _, ?_⟩
      rw [h.friendRequests]
      rfl

theorem agree_acceptFriend (h : Holds w n) (req : AcceptFriendReq) (slave : Tables) :
    Agree (serve w (.request slave (.acceptFriend req))) (n.acceptFriend req) := by
  rw [serve, Request.program, RelationService.acceptFriend, FriendService.acceptFriend, Network.acceptFriend]
  refine agree_call rfl rfl ?_
  cases req.accept with
  | false => exact ⟨h, rfl⟩
  | true => exact agree_call rfl rfl ⟨holds_relations h _ _, rfl⟩

theorem agree_getFriendList (h : Holds w n) (req : GetFriendListReq) :
    Agree (serve w (.request w (.getFriendList req))) (n, .friends true (n.friendsOf req.userId), []) := by
  refine agree_call rfl rfl (agree_call rfl rfl ⟨h, ?_⟩)
  rw [← friendsOf_of_holds h]
  rfl

theorem issued_addInitialMembers (slave : Tables) (i : ℕ) (w : Tables) (groupId ownerId : ℤ) (members : List ℤ) :
    (run (fun _ w c ↦ execute slave w c) i w
      (RelationService.addInitialMembers groupId ownerId members)).issued.filterMap notice = [] := by
  induction members generalizing i w with
  | nil => rfl
  | cons uid members ih =>
    rw [RelationService.addInitialMembers]
    split_ifs
    · exact ih i w
    · exact ih (i + 1) _

theorem holds_createGroup (h : Holds w n) {req : CreateGroupReq} (hname : 0 ∉ req.groupName) :
    Holds (addMembers w.groups.next req.ownerId req.initialMembers
        (addMember (addGroup w req) w.groups.next req.ownerId 2)) (n.createGroup req).1 := by
  have hadded := holds_addMember (holds_addGroup h hname) w.groups.next req.ownerId 2
  have hall := holds_addMembers hadded w.groups.next req.ownerId req.initialMembers
    (by rw [stored_natCast]; exact Finset.mem_insert_self _ _)
  have hmembers : (n.createGroup req).1.members = insert ((w.groups.next : ℤ), stored req.ownerId) n.members ∪
      (req.initialMembers.map fun u ↦ ((w.groups.next : ℤ), stored u)).toFinset := by
    rw [h.nextGroup, Network.createGroup, List.map_cons, List.toFinset_cons, Finset.union_insert,
      Finset.insert_union]
  rw [stored_natCast] at hall
  exact { hall with members := hall.members.trans hmembers.symm }

theorem agree_createGroup (h : Holds w n) {req : CreateGroupReq} (hplain : Plain req.groupName)
    (hlength : req.groupName.length ≤ 64) (slave : Tables) :
    Agree (serve w (.request slave (.createGroup req))) (n.createGroup req) := by
  refine agree_call rfl rfl (agree_call rfl (inserting_of_plain rfl hplain hlength _)
    (agree_call rfl (Prod.eta _).symm ?_))
  change Agree (finish (run _ _ _ ((RelationService.addInitialMembers w.groups.next req.ownerId req.initialMembers >>=
    fun _ ↦ pure { success := true, groupId := w.groups.next }) >>= fun resp ↦ pure (.created resp)))) _
  rw [Prog.bind_assoc]
  refine agree_silent (issued_addInitialMembers _ _ _ _ _ _) (fun _ ↦ rfl) ?_
  rw [run_execute_addInitialMembers, run_addInitialMembers]
  refine ⟨holds_createGroup h hplain.1, ?_⟩
  rw [h.nextGroup]
  rfl

theorem any_member (h : Holds w n) (groupId userId : ℤ) :
    (w.members.rows.any fun m ↦ m.key = (groupId, userId)) = decide ((groupId, userId) ∈ n.members) := by
  rw [Bool.eq_iff_iff, List.any_eq_true, decide_eq_true_eq, ← h.members, List.mem_toFinset, List.mem_map]
  simp only [decide_eq_true_eq]

theorem stored_of_mem (h : Holds w n) {groupId userId : ℤ} (hmem : (groupId, userId) ∈ n.members) :
    stored groupId = groupId ∧ stored userId = userId := by
  rw [← h.members, List.mem_toFinset] at hmem
  obtain ⟨m, hm, hkey⟩ := List.mem_map.mp hmem
  obtain ⟨rfl, rfl⟩ := Prod.mk.inj hkey
  exact h.unsigned m hm

theorem succeed_insertMember (h : Holds w n) (groupId userId : ℤ) (role : ℕ) :
    w.succeed (.insertMember groupId userId role) =
      (addMember w groupId userId role,
        if (stored groupId, stored userId) ∈ n.members then .duplicate else .done) := by
  rw [← h.members]
  obtain ⟨htaken, hnone⟩ | ⟨hfree, members, hsome, -⟩ :=
    Keyed.insert_singleton_cases (t := w.members) ⟨stored groupId, stored userId, role⟩
  · have hin : (stored groupId, stored userId) ∈ (w.members.rows.map MemberRow.key).toFinset :=
      List.mem_toFinset.mpr htaken
    rw [if_pos hin]
    simp only [addMember, Tables.succeed, hnone]
  · have hout : (stored groupId, stored userId) ∉ (w.members.rows.map MemberRow.key).toFinset :=
      fun hmem ↦ hfree (List.mem_toFinset.mp hmem)
    rw [if_neg hout]
    simp only [addMember, Tables.succeed, hsome]

theorem agree_joinGroup (h : Holds w n) (req : JoinGroupReq) (slave : Tables) :
    Agree (serve w (.request slave (.joinGroup req))) (n.joinGroup req) := by
  refine agree_call rfl rfl
    (agree_call rfl (congrArg (fun found ↦ (w, some found)) (any_member h req.groupId req.userId)) ?_)
  rw [Network.joinGroup]
  by_cases hfound : (req.groupId, req.userId) ∈ n.members
  · obtain ⟨hgroup, huser⟩ := stored_of_mem h hfound
    rw [hgroup, huser, if_pos hfound, decide_eq_true hfound]
    exact ⟨h, rfl⟩
  · rw [decide_eq_false hfound]
    refine agree_call rfl (succeed_insertMember h req.groupId req.userId 1) ?_
    have hadded := holds_addMember h req.groupId req.userId 1
    split_ifs with htaken
    · rw [Finset.insert_eq_of_mem htaken] at hadded
      exact ⟨hadded, rfl⟩
    · exact ⟨hadded, rfl⟩

theorem agree_getGroupList (h : Holds w n) (req : GetGroupListReq) :
    Agree (serve w (.request w (.getGroupList req))) (n, .groups true (n.groupsOf req.userId), []) := by
  refine agree_call rfl rfl (agree_call rfl rfl ⟨h, ?_⟩)
  rw [← groupsOf_of_holds h]
  rfl

theorem agree_applyGroup (h : Holds w n) {req : ApplyGroupReq} (hplain : Plain req.remark)
    (hlength : req.remark.length ≤ 64) (slave : Tables) :
    Agree (serve w (.request slave (.applyGroup req))) (n.applyGroup req) := by
  refine agree_call rfl rfl
    (agree_call rfl (congrArg (fun found ↦ (w, some found)) (any_member h req.groupId req.userId)) ?_)
  rw [Network.applyGroup]
  by_cases hfound : (req.groupId, req.userId) ∈ n.members
  · rw [if_pos hfound, decide_eq_true hfound]
    exact ⟨h, rfl⟩
  · have happlied := holds_groupRequest h req.groupId req.userId req.remark
    rw [if_neg hfound, decide_eq_false hfound]
    refine agree_call rfl (inserting_of_plain rfl hplain hlength _)
      (agree_call rfl (congrArg (fun owner ↦ (_, some owner)) (ownerOf_of_holds happlied req.groupId)) ?_)
    rw [h.groupRequests]
    change Agree (finish (run _ _ _
      ((RelationService.notifyOwner (some ((n.groupInfo req.groupId).map GroupInfo.ownerId)) >>=
        fun _ ↦ pure _) >>= fun resp ↦ pure (.groupApplied resp)))) _
    cases n.groupInfo req.groupId with
    | none => exact ⟨happlied, rfl⟩
    | some g => exact ⟨happlied, rfl⟩

theorem agree_acceptGroup (h : Holds w n) (req : AcceptGroupReq) (slave : Tables) :
    Agree (serve w (.request slave (.acceptGroup req))) (n.acceptGroup req) := by
  rw [serve, Request.program, RelationService.acceptGroup, Network.acceptGroup]
  refine agree_call rfl rfl ?_
  cases req.accept with
  | false => exact ⟨h, rfl⟩
  | true => exact agree_call rfl rfl ⟨holds_addMember h _ _ 1, rfl⟩

end Handlers

theorem simulates : Simulates serve Sound Network.serve Holds := by
  intro w n call hsound h
  cases call with
  | users nicknames => exact ⟨holds_users h nicknames, rfl⟩
  | request slave r =>
    obtain ⟨htexts, rfl⟩ := hsound
    cases r with
    | applyFriend req =>
      obtain ⟨hplain, hlength⟩ := htexts req.remark (List.mem_singleton_self _)
      exact agree_applyFriend h hplain hlength _
    | acceptFriend req => exact agree_acceptFriend h req _
    | getFriendList req => exact agree_getFriendList h req
    | createGroup req =>
      obtain ⟨hplain, hlength⟩ := htexts req.groupName (List.mem_singleton_self _)
      exact agree_createGroup h hplain hlength _
    | joinGroup req => exact agree_joinGroup h req _
    | getGroupList req => exact agree_getGroupList h req
    | applyGroup req =>
      obtain ⟨hplain, hlength⟩ := htexts req.remark (List.mem_singleton_self _)
      exact agree_applyGroup h hplain hlength _
    | acceptGroup req => exact agree_acceptGroup h req _

theorem holds_empty : Holds .empty .empty where
  nickname _ := rfl
  friends := rfl
  normal _ hr := absurd hr List.not_mem_nil
  applied _ _ := by simp [Tables.empty, Numbered.empty, Network.empty]
  friendRequests := rfl
  groups := rfl
  names _ hg := absurd hg List.not_mem_nil
  nextGroup := rfl
  members := rfl
  unsigned _ hm := absurd hm List.not_mem_nil
  groupRequests := rfl

/-- Through its replies and its messages the relation service cannot be told
from the network. -/
theorem replies_of_network (calls : List Call) (h : Permits serve Sound .empty calls) :
    replies serve .empty calls = replies Network.serve .empty calls :=
  (simulates.replies_eq h holds_empty).1

def founding : Call :=
  .request .empty (.createGroup { ownerId := 1, groupName := ascii "g", initialMembers := [2] })

/-- User 1 founds a group with user 2, who then lists his groups. -/
theorem replies_of_network_founding :
    let calls := [founding, .request (serve .empty founding).1 (.getGroupList { userId := 2 })]
    Permits serve Sound .empty calls ∧
      replies serve .empty calls = [(.created { groupId := 1, success := true }, []),
        (.groups true {{ groupId := 1, groupName := ascii "g", ownerId := 1 }}, [])] := by
  intro calls
  have hsound : Permits serve Sound .empty calls := by
    refine ⟨⟨?_, rfl⟩, ⟨fun _ ht ↦ absurd ht List.not_mem_nil, rfl⟩, trivial⟩
    exact List.forall_mem_singleton.mpr ⟨⟨by decide, trivial⟩, by decide⟩
  refine ⟨hsound, ?_⟩
  rw [replies_of_network calls hsound]
  rfl

end TinyIM.Relation.NetworkService

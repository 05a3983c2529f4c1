import TinyIM.Relation.GroupIntegrity

namespace TinyIM.Relation.CreatedGroup

open Library.ByteOrder Library.Program Library.Table Protocol RelationService GroupIntegrity
open Friendship (stored stored_natCast)

/-- The reply of a call whose statements fail on unique keys only. -/
def reply (w : Tables) (r : Request) : Outcome :=
  (run (fun _ w c ↦ w.succeed c) 0 w r.program).value

/-- The number of the next group has no member rows yet. -/
def Fresh (w : Tables) : Prop := ∀ m ∈ w.members.rows, m.groupId ≠ (w.groups.next : ℤ)

/-- A row for the owner and one for each other user that was asked for. Ids are
taken as MySQL stores them. -/
structure HasMembers (req : CreateGroupReq) (groupId : ℤ) (rows : List RelationService.MemberRow) : Prop where
  members : ∀ userId role, ⟨groupId, userId, role⟩ ∈ rows ↔
    (userId = stored req.ownerId ∧ role = 2) ∨
      (userId ∈ req.initialMembers.map stored ∧ userId ≠ stored req.ownerId ∧ role = 1)
  once : ((rows.filter fun m ↦ m.groupId = groupId).map RelationService.MemberRow.userId).Nodup

def memberRow (groupId : ℤ) (role : ℕ) (userId : ℤ) : RelationService.MemberRow :=
  ⟨stored groupId, stored userId, role⟩

section

variable {w : Tables} {groupId ownerId : ℤ}

theorem addMember_eq (w : Tables) (groupId userId : ℤ) (role : ℕ) :
    addMember w groupId userId role =
      { w with members := w.members.insertIgnore [memberRow groupId role userId] } := by
  obtain ⟨-, hnone⟩ | ⟨-, members, hsome, -⟩ :=
    Keyed.insert_singleton_cases (t := w.members) (memberRow groupId role userId)
  · rw [Keyed.insertIgnore, hnone]
    rw [memberRow] at hnone
    simp only [addMember, Tables.succeed, hnone]
    rfl
  · rw [Keyed.insertIgnore, hsome]
    rw [memberRow] at hsome
    simp only [addMember, Tables.succeed, hsome]
    rfl

/-- The loop over the initial members is an `INSERT IGNORE` of them all. -/
theorem addMembers_eq (groupId ownerId : ℤ) (members : List ℤ) (w : Tables) :
    addMembers groupId ownerId members w = { w with
      members := w.members.insertIgnore ((members.filter (· ≠ ownerId)).map (memberRow groupId 1)) } := by
  induction members generalizing w with
  | nil => rfl
  | cons uid members ih =>
    rw [addMembers, List.foldl_cons]
    by_cases howner : uid = ownerId
    · rw [if_pos howner, List.filter_cons_of_neg (by simpa using howner)]
      exact ih w
    · rw [if_neg howner, List.filter_cons_of_pos (by simpa using howner), addMember_eq]
      exact ih _

theorem mem_memberRows {groupId : ℤ} {role : ℕ} {members : List ℤ} {m : RelationService.MemberRow} :
    m ∈ members.map (memberRow groupId role) ↔
      m.groupId = stored groupId ∧ m.role = role ∧ m.userId ∈ members.map stored := by
  simp only [List.mem_map, memberRow]
  constructor
  · rintro ⟨uid, huid, rfl⟩
    exact ⟨rfl, rfl, uid, huid, rfl⟩
  · rintro ⟨hgroup, hrole, uid, huid, huser⟩
    refine ⟨uid, huid, ?_⟩
    rw [← hgroup, ← hrole, huser]

theorem memberRows_functional (groupId : ℤ) (role : ℕ) (members : List ℤ) :
    ∀ m ∈ members.map (memberRow groupId role), ∀ m' ∈ members.map (memberRow groupId role),
      m.key = m'.key → m = m' := by
  intro m hm m' hm' hkey
  obtain ⟨hgroup, hrole, -⟩ := mem_memberRows.mp hm
  obtain ⟨hgroup', hrole', -⟩ := mem_memberRows.mp hm'
  have huser : m.userId = m'.userId := (Prod.mk.inj hkey).2
  cases m
  cases m'
  simp_all

theorem reply_createGroup (w : Tables) (req : CreateGroupReq) :
    reply w (.createGroup req) = .created { success := true, groupId := w.groups.next } := by
  have hmembers : ∀ n w', (run (fun _ w c ↦ Tables.succeed w c) n w'
      (RelationService.addInitialMembers w.groups.next req.ownerId req.initialMembers >>= fun _ ↦
        return { success := true, groupId := (w.groups.next : ℤ) })).value =
      ({ success := true, groupId := (w.groups.next : ℤ) } : CreateGroupResp) := by
    intro n w'
    rw [run_bind]
    rfl
  rw [reply, Request.program, run_bind]
  exact congrArg Outcome.created (hmembers 3 _)

section Members

variable (req : CreateGroupReq)

/-- The table behind the insert of the owner, -/
def withOwner (w : Tables) (req : CreateGroupReq) : Keyed RelationService.MemberRow.key :=
  w.members.insertIgnore [memberRow w.groups.next 2 req.ownerId]

/-- and behind those of the others. -/
def withMembers (w : Tables) (req : CreateGroupReq) : Keyed RelationService.MemberRow.key :=
  (withOwner w req).insertIgnore
    ((req.initialMembers.filter (· ≠ req.ownerId)).map (memberRow w.groups.next 1))

theorem complete_members : (complete w (.createGroup req)).members = withMembers w req := by
  rw [complete_createGroup, addMembers_eq, addMember_eq]
  rfl

theorem mem_withOwner (hfresh : Fresh w) {userId : ℤ} {role : ℕ} :
    ⟨w.groups.next, userId, role⟩ ∈ (withOwner w req).rows ↔ userId = stored req.ownerId ∧ role = 2 := by
  have hnone : ∀ userId role, ⟨w.groups.next, userId, role⟩ ∉ w.members.rows :=
    fun _ _ hm ↦ hfresh _ hm rfl
  have hfree : (memberRow w.groups.next 2 req.ownerId).key ∉ w.members.rows.map RelationService.MemberRow.key := by
    intro htaken
    obtain ⟨m, hm, hkey⟩ := List.mem_map.mp htaken
    exact hfresh m hm ((Prod.mk.inj hkey).1.trans (stored_natCast _))
  rw [withOwner, Keyed.mem_insertIgnore_iff (by simp), List.mem_singleton]
  constructor
  · rintro (hold | ⟨heq, -⟩)
    · exact absurd hold (hnone _ _)
    · rw [memberRow] at heq
      cases heq
      exact ⟨rfl, rfl⟩
  · rintro ⟨rfl, rfl⟩
    refine .inr ⟨?_, ?_⟩
    · rw [memberRow, stored_natCast]
    · rw [memberRow, stored_natCast] at hfree
      exact hfree

theorem mem_keys_withOwner (hfresh : Fresh w) {userId : ℤ} :
    ((w.groups.next : ℤ), userId) ∈ (withOwner w req).rows.map RelationService.MemberRow.key ↔
      userId = stored req.ownerId := by
  rw [withOwner, Keyed.mem_keys_insertIgnore]
  simp only [List.map_singleton, List.mem_singleton, RelationService.MemberRow.key, memberRow,
    stored_natCast, Prod.mk.injEq, true_and]
  refine or_iff_right fun hold ↦ ?_
  obtain ⟨m, hm, hkey⟩ := List.mem_map.mp hold
  exact hfresh m hm (Prod.mk.inj hkey).1

theorem mem_withMembers (hfresh : Fresh w) {userId : ℤ} {role : ℕ} :
    ⟨w.groups.next, userId, role⟩ ∈ (withMembers w req).rows ↔
      (userId = stored req.ownerId ∧ role = 2) ∨
        (userId ∈ req.initialMembers.map stored ∧ userId ≠ stored req.ownerId ∧ role = 1) := by
  rw [withMembers, Keyed.mem_insertIgnore_iff (memberRows_functional _ _ _), mem_withOwner req hfresh,
    mem_memberRows, RelationService.MemberRow.key, mem_keys_withOwner req hfresh, stored_natCast]
  refine or_congr_right ?_
  constructor
  · rintro ⟨⟨-, hrole, huser⟩, hne⟩
    obtain ⟨uid, huid, heq⟩ := List.mem_map.mp huser
    exact ⟨List.mem_map.mpr ⟨uid, List.mem_of_mem_filter huid, heq⟩, hne, hrole⟩
  · rintro ⟨huser, hne, hrole⟩
    obtain ⟨uid, huid, heq⟩ := List.mem_map.mp huser
    refine ⟨⟨rfl, hrole, heq ▸ List.mem_map_of_mem (List.mem_filter.mpr ⟨huid, ?_⟩)⟩, hne⟩
    rw [decide_eq_true_eq]
    rintro rfl
    exact hne heq.symm

theorem others_withMembers (hfresh : Fresh w) :
    (withMembers w req).rows.filter (fun m ↦ m.groupId ≠ (w.groups.next : ℤ)) = w.members.rows := by
  obtain ⟨owner, howner, hmem⟩ := Keyed.rows_insertIgnore (t := w.members) [memberRow w.groups.next 2 req.ownerId]
  obtain ⟨others, hothers, hmem'⟩ := Keyed.rows_insertIgnore (t := withOwner w req)
    ((req.initialMembers.filter (· ≠ req.ownerId)).map (memberRow w.groups.next 1))
  have hgroup : ∀ m ∈ owner ++ others, m.groupId = (w.groups.next : ℤ) := by
    intro m hm
    rw [← stored_natCast w.groups.next]
    rcases List.mem_append.mp hm with hm | hm
    · exact List.mem_singleton.mp (hmem m hm) ▸ rfl
    · exact (mem_memberRows.mp (hmem' m hm)).1
  rw [withMembers, hothers, withOwner, howner, List.append_assoc, List.filter_append,
    List.filter_eq_self.mpr, List.filter_eq_nil_iff.mpr, List.append_nil]
  · intro m hm
    simpa using hgroup m hm
  · intro m hm
    simpa using hfresh m hm

end Members

end

/-- A new group has exactly the members it was created with. -/
theorem createGroup_members (w : Tables) (hfresh : Fresh w) (req : CreateGroupReq) :
    reply w (.createGroup req) = .created { success := true, groupId := w.groups.next } ∧
      HasMembers req w.groups.next (complete w (.createGroup req)).members.rows ∧
      (complete w (.createGroup req)).members.rows.filter (fun m ↦ m.groupId ≠ (w.groups.next : ℤ)) =
        w.members.rows := by
  rw [complete_members]
  refine ⟨reply_createGroup w req, ⟨fun _ _ ↦ mem_withMembers req hfresh, ?_⟩, others_withMembers req hfresh⟩
  refine List.Nodup.map_on ?_ (((withMembers w req).nodup.of_map _).filter _)
  intro m hm m' hm' huser
  obtain ⟨hm, hgroup⟩ := List.mem_filter.mp hm
  obtain ⟨hm', hgroup'⟩ := List.mem_filter.mp hm'
  rw [decide_eq_true_eq] at hgroup hgroup'
  exact Keyed.eq_of_key_eq hm hm' (Prod.ext (hgroup.trans hgroup'.symm) huser)

/-- User 1 names user 2 twice, and itself. -/
theorem createGroup_members_repeated :
    reply .empty (.createGroup { ownerId := 1, initialMembers := [2, 1, 2] }) =
        .created { success := true, groupId := 1 } ∧
      (complete .empty (.createGroup { ownerId := 1, initialMembers := [2, 1, 2] })).members.rows =
        [⟨1, 1, 2⟩, ⟨1, 2, 1⟩] ∧
      HasMembers { ownerId := 1, initialMembers := [2, 1, 2] } 1 [⟨1, 1, 2⟩, ⟨1, 2, 1⟩] := by
  have hfresh : Fresh .empty := fun _ hm ↦ absurd hm List.not_mem_nil
  obtain ⟨hreply, hmembers, -⟩ :=
    createGroup_members .empty hfresh { ownerId := 1, initialMembers := [2, 1, 2] }
  have hrows : (complete .empty (.createGroup { ownerId := 1, initialMembers := [2, 1, 2] })).members.rows =
      [⟨1, 1, 2⟩, ⟨1, 2, 1⟩] := by decide
  exact ⟨hreply, hrows, hrows ▸ hmembers⟩

end TinyIM.Relation.CreatedGroup

import TinyIM.Relation.RelationService

namespace TinyIM.Relation.GroupIntegrity

open Library.ByteOrder Library.Program Library.Table Protocol RelationService
open Friendship (stored stored_natCast)

/-- A call that runs to its end while statements fail on unique keys only. -/
def complete (w : Tables) (r : Request) : Tables :=
  (run (fun _ w c ↦ w.succeed c) 0 w r.program).state

def after (calls : List Request) : Tables := calls.foldl complete .empty

structure Integrity (w : Tables) : Prop where
  /-- The group of each member exists, -/
  known : ∀ m ∈ w.members.rows, ∃ g ∈ w.groups.rows, (g.1 : ℤ) = m.groupId
  /-- and each group has one owner, the one it was created by. -/
  owned : ∀ g ∈ w.groups.rows,
    w.members.rows.filter (fun m ↦ m.groupId = (g.1 : ℤ) ∧ m.role = 2) = [⟨g.1, g.2.ownerId, 2⟩]

def Exists (w : Tables) (groupId : ℤ) : Prop := ∃ g ∈ w.groups.rows, (g.1 : ℤ) = stored groupId

/-- The row of the new member is there already, or its group is. -/
def Joinable (w : Tables) (groupId userId : ℤ) : Prop :=
  (stored groupId, stored userId) ∈ w.members.rows.map MemberRow.key ∨ Exists w groupId

/-- The call names a group that exists, unless it inserts nothing. -/
def Names (w : Tables) : Request → Prop
  | .joinGroup req => Joinable w req.groupId req.userId
  | .acceptGroup req => req.accept = true → Joinable w req.groupId req.requesterId
  | _ => True

def addMember (w : Tables) (groupId userId : ℤ) (role : ℕ) : Tables :=
  (w.succeed (.insertMember groupId userId role)).1

section Members

variable {w : Tables} {groupId userId : ℤ} {role : ℕ}

theorem addMember_cases (w : Tables) (groupId userId : ℤ) (role : ℕ) :
    ((stored groupId, stored userId) ∈ w.members.rows.map MemberRow.key ∧ addMember w groupId userId role = w) ∨
    ((stored groupId, stored userId) ∉ w.members.rows.map MemberRow.key ∧
      (addMember w groupId userId role).members.rows = w.members.rows ++ [⟨stored groupId, stored userId, role⟩] ∧
      (addMember w groupId userId role).groups = w.groups) := by
  obtain ⟨htaken, hnone⟩ | ⟨hfree, members, hsome, hrows⟩ :=
    Keyed.insert_singleton_cases (t := w.members) ⟨stored groupId, stored userId, role⟩
  · refine .inl ⟨htaken, ?_⟩
    simp only [addMember, Tables.succeed, hnone]
  · have hadded : addMember w groupId userId role = { w with members := members } := by
      simp only [addMember, Tables.succeed, hsome]
    rw [hadded]
    exact .inr ⟨hfree, hrows, rfl⟩

theorem addMember_groups : (addMember w groupId userId role).groups = w.groups := by
  obtain ⟨-, hsame⟩ | ⟨-, -, hgroups⟩ := addMember_cases w groupId userId role
  · rw [hsame]
  · exact hgroups

/-- A new member row, perhaps with new groups. -/
theorem Integrity.extend {w' : Tables} {m : MemberRow} (h : Integrity w) (groups : List (ℕ × GroupRow))
    (hgroups : w'.groups.rows = w.groups.rows ++ groups) (hmembers : w'.members.rows = w.members.rows ++ [m])
    (hknown : ∃ g ∈ w'.groups.rows, (g.1 : ℤ) = m.groupId)
    (hold : ∀ g ∈ w.groups.rows, ¬ (m.groupId = (g.1 : ℤ) ∧ m.role = 2))
    (hnew : ∀ g ∈ groups,
      w'.members.rows.filter (fun m ↦ m.groupId = (g.1 : ℤ) ∧ m.role = 2) = [⟨g.1, g.2.ownerId, 2⟩]) :
    Integrity w' := by
  refine ⟨?_, ?_⟩
  · intro m' hm'
    rw [hmembers] at hm'
    rcases List.mem_append.mp hm' with hm' | hm'
    · obtain ⟨g, hg, heq⟩ := h.known m' hm'
      exact ⟨g, hgroups ▸ List.mem_append_left _ hg, heq⟩
    · obtain rfl := List.mem_singleton.mp hm'
      exact hknown
  · intro g hg
    rw [hgroups] at hg
    rcases List.mem_append.mp hg with hg | hg
    · have hapart : [m].filter (fun m ↦ m.groupId = (g.1 : ℤ) ∧ m.role = 2) = [] := by
        simpa using hold g hg
      rw [hmembers, List.filter_append, h.owned g hg, hapart, List.append_nil]
    · exact hnew g hg

/-- A member joins: that keeps the tables in order exactly if the group exists. -/
theorem Integrity.addMember_iff (h : Integrity w) :
    Integrity (addMember w groupId userId 1) ↔ Joinable w groupId userId := by
  obtain ⟨htaken, hsame⟩ | ⟨hfree, hrows, hgroups⟩ := addMember_cases w groupId userId 1
  · rw [hsame]
    exact iff_of_true h (.inl htaken)
  · constructor
    · intro hnew
      obtain ⟨g, hg, heq⟩ := hnew.known ⟨stored groupId, stored userId, 1⟩
        (hrows ▸ List.mem_append_right _ (List.mem_singleton_self _))
      exact .inr ⟨g, hgroups ▸ hg, heq⟩
    · intro hjoin
      have hexists : Exists w groupId := hjoin.resolve_left hfree
      refine h.extend [] ?_ hrows (hgroups.symm ▸ hexists) ?_ ?_
      · rw [hgroups, List.append_nil]
      · exact fun _ _ hrole ↦ absurd hrole.2 Nat.one_lt_two.ne
      · exact fun _ hg ↦ absurd hg List.not_mem_nil

end Members

section Create

variable {w : Tables}

def addGroup (w : Tables) (req : CreateGroupReq) : Tables :=
  (w.succeed (.insertGroup req.groupName req.ownerId)).1

/-- The loop over the initial members. -/
def addMembers (groupId ownerId : ℤ) (members : List ℤ) (w : Tables) : Tables :=
  members.foldl (fun w uid ↦ if uid = ownerId then w else addMember w groupId uid 1) w

/-- No member can have come before a group and its number. -/
theorem Integrity.next_free (h : Integrity w) : ∀ m ∈ w.members.rows, m.groupId ≠ (w.groups.next : ℤ) := by
  intro m hm heq
  obtain ⟨g, hg, hid⟩ := h.known m hm
  have hlt := w.groups.below g hg
  rw [heq] at hid
  exact absurd (Nat.cast_injective hid) (Nat.ne_of_lt hlt)

theorem Integrity.addGroup (h : Integrity w) (req : CreateGroupReq) :
    Integrity (addMember (addGroup w req) w.groups.next req.ownerId 2) := by
  have hgroups : (GroupIntegrity.addGroup w req).groups.rows =
      w.groups.rows ++ [(w.groups.next, ⟨req.groupName, stored req.ownerId⟩)] := rfl
  have hmembers : (GroupIntegrity.addGroup w req).members.rows = w.members.rows := rfl
  obtain ⟨htaken, -⟩ | ⟨-, hrows, hsame⟩ :=
    addMember_cases (GroupIntegrity.addGroup w req) w.groups.next req.ownerId 2
  · obtain ⟨m, hm, hkey⟩ := List.mem_map.mp htaken
    rw [stored_natCast] at hkey
    exact absurd (Prod.mk.inj hkey).1 (h.next_free m hm)
  · rw [hmembers, stored_natCast] at hrows
    rw [← hsame] at hgroups
    refine h.extend _ hgroups hrows ?_ ?_ ?_
    · rw [hgroups]
      exact ⟨_, List.mem_append_right _ (List.mem_singleton_self _), rfl⟩
    · intro g hg hsame
      have hlt := w.groups.below g hg
      exact Nat.ne_of_gt hlt (Nat.cast_injective hsame.1)
    · intro g hg
      obtain rfl := List.mem_singleton.mp hg
      have hnone : w.members.rows.filter (fun m ↦ m.groupId = (w.groups.next : ℤ) ∧ m.role = 2) = [] := by
        refine List.filter_eq_nil_iff.mpr fun m hm ↦ ?_
        simp [h.next_free m hm]
      rw [hrows, List.filter_append, hnone]
      simp

theorem Integrity.addMembers {groupId : ℤ} (h : Integrity w) (hexists : Exists w groupId) (ownerId : ℤ)
    (members : List ℤ) : Integrity (addMembers groupId ownerId members w) := by
  induction members generalizing w with
  | nil => exact h
  | cons uid members ih =>
    rw [GroupIntegrity.addMembers, List.foldl_cons]
    split_ifs with howner
    · exact ih h hexists
    · refine ih (h.addMember_iff.mpr (.inr hexists)) ?_
      rw [Exists, addMember_groups]
      exact hexists

theorem run_addInitialMembers (n : ℕ) (groupId ownerId : ℤ) (members : List ℤ) :
    (run (fun _ w c ↦ Tables.succeed w c) n w
      (RelationService.addInitialMembers groupId ownerId members)).state =
      addMembers groupId ownerId members w := by
  induction members generalizing n w with
  | nil => rfl
  | cons uid members ih =>
    rw [RelationService.addInitialMembers, addMembers, List.foldl_cons]
    split_ifs with howner
    · exact ih n
    · exact ih (n + 1)

theorem complete_createGroup (req : CreateGroupReq) :
    complete w (.createGroup req) = addMembers w.groups.next req.ownerId req.initialMembers
      (addMember (addGroup w req) w.groups.next req.ownerId 2) := by
  rw [complete, Request.program, run_bind_pure, RelationService.createGroup]
  exact (run_bind_pure 3 _ _ _).trans (run_addInitialMembers 3 _ _ _)

theorem Integrity.createGroup (h : Integrity w) (req : CreateGroupReq) :
    Integrity (complete w (.createGroup req)) := by
  rw [complete_createGroup]
  refine (h.addGroup req).addMembers ?_ _ _
  rw [Exists, addMember_groups, stored_natCast]
  exact ⟨_, List.mem_append_right _ (List.mem_singleton_self _), rfl⟩

end Create

section Calls

variable {w : Tables}

theorem complete_joinGroup (req : JoinGroupReq) :
    complete w (.joinGroup req) =
      if (req.groupId, req.userId) ∈ w.members.rows.map MemberRow.key then w
      else addMember w req.groupId req.userId 1 := by
  have hfound : some (w.members.rows.any fun m ↦ m.key = (req.groupId, req.userId)) = some true ↔
      (req.groupId, req.userId) ∈ w.members.rows.map MemberRow.key := by
    rw [Option.some.injEq, List.any_eq_true, List.mem_map]
    simp only [decide_eq_true_eq]
  rw [complete, Request.program, run_bind_pure]
  change (run _ 2 w (if some (w.members.rows.any fun m ↦ m.key = (req.groupId, req.userId)) = some true
    then _ else _)).state = _
  split_ifs with hselect hmember hmember
  · rfl
  · exact absurd (hfound.mp hselect) hmember
  · exact absurd (hfound.mpr hmember) hselect
  · change (run _ 3 (addMember w req.groupId req.userId 1) (RelationService.finishJoin req _)).state = _
    cases (w.succeed (.insertMember req.groupId req.userId 1)).2 <;> rfl

theorem complete_acceptGroup (req : AcceptGroupReq) :
    complete w (.acceptGroup req) = if req.accept then addMember w req.groupId req.requesterId 1 else w := by
  rw [complete, Request.program, run_bind_pure]
  change (run _ 1 w (if req.accept then _ else _)).state = _
  split_ifs <;> rfl

theorem Integrity.joinGroup_iff (h : Integrity w) (req : JoinGroupReq) :
    Integrity (complete w (.joinGroup req)) ↔ Joinable w req.groupId req.userId := by
  rw [complete_joinGroup]
  split_ifs with hmember
  · refine iff_of_true h (.inr ?_)
    obtain ⟨m, hm, hkey⟩ := List.mem_map.mp hmember
    obtain ⟨g, hg, hid⟩ := h.known m hm
    refine ⟨g, hg, ?_⟩
    rw [← (Prod.mk.inj hkey).1, ← hid, stored_natCast]
  · exact h.addMember_iff

theorem Integrity.acceptGroup_iff (h : Integrity w) (req : AcceptGroupReq) :
    Integrity (complete w (.acceptGroup req)) ↔ (req.accept = true → Joinable w req.groupId req.requesterId) := by
  rw [complete_acceptGroup]
  split_ifs with haccept
  · exact h.addMember_iff.trans ⟨fun hjoin _ ↦ hjoin, fun hjoin ↦ hjoin haccept⟩
  · exact iff_of_true h fun hnot ↦ absurd hnot haccept

theorem Integrity.congr {w' : Tables} (h : Integrity w) (hgroups : w'.groups = w.groups)
    (hmembers : w'.members = w.members) : Integrity w' := by
  refine ⟨?_, ?_⟩
  · rw [hmembers, hgroups]
    exact h.known
  · rw [hmembers, hgroups]
    exact h.owned

/-- A command that is about neither groups nor members. -/
def Apart (c : RelationService.Command) : Prop :=
  (∀ groupName ownerId, c ≠ .insertGroup groupName ownerId) ∧
    ∀ groupId userId role, c ≠ .insertMember groupId userId role

theorem Apart.of_change {w' : Tables} {c : RelationService.Command} (h : Apart c) (hchange : w.Change c w') :
    w'.groups = w.groups ∧ w'.members = w.members := by
  cases hchange with
  | group groupName ownerId => exact absurd rfl (h.1 groupName ownerId)
  | @member groupId userId role _ _ => exact absurd rfl (h.2 groupId userId role)
  | _ => exact ⟨rfl, rfl⟩

theorem complete_apart {r : Request} (h : ∀ c, r.Writes c → Apart c) :
    (complete w r).groups = w.groups ∧ (complete w r).members = w.members := by
  have hstep : ∀ (_ : ℕ) (w' : Tables) (_ : Unit) (c : RelationService.Command), r.Writes c →
      w'.groups = w.groups ∧ w'.members = w.members →
        True ∧ (w'.succeed c).1.groups = w.groups ∧ (w'.succeed c).1.members = w.members := by
    intro _ w' _ c hc hsame
    obtain ⟨hgroups, hmembers⟩ := (h c hc).of_change (w'.succeed_change c)
    exact ⟨trivial, hgroups.trans hsame.1, hmembers.trans hsame.2⟩
  obtain ⟨⟨_, hsame, -⟩, -⟩ := (program_writes (t := ()) r).run (n := 0) (s := w)
    (I := fun (w' : Tables) _ ↦ w'.groups = w.groups ∧ w'.members = w.members) hstep ⟨rfl, rfl⟩
  exact hsame

theorem Integrity.complete_iff (h : Integrity w) (r : Request) : Integrity (complete w r) ↔ Names w r := by
  have hapart : (∀ c, r.Writes c → Apart c) → (Integrity (complete w r) ↔ True) := by
    intro hwrites
    obtain ⟨hgroups, hmembers⟩ := complete_apart (w := w) hwrites
    exact iff_of_true (h.congr hgroups hmembers) trivial
  cases r with
  | createGroup req => exact iff_of_true (h.createGroup req) trivial
  | joinGroup req => exact h.joinGroup_iff req
  | acceptGroup req => exact h.acceptGroup_iff req
  | _ =>
    refine hapart fun c hc ↦ ⟨?_, ?_⟩
    · rintro groupName ownerId rfl
      obtain ⟨req, hreq, -⟩ := hc
      cases hreq
    · rintro groupId userId role rfl
      obtain ⟨req, hreq⟩ | ⟨req, hreq, -⟩ | ⟨req, hreq, -⟩ := hc <;> cases hreq

end Calls

theorem integrity_empty : Integrity .empty :=
  ⟨fun _ hm ↦ absurd hm List.not_mem_nil, fun _ hg ↦ absurd hg List.not_mem_nil⟩

theorem after_concat (calls : List Request) (r : Request) :
    after (calls ++ [r]) = complete (after calls) r := by
  rw [after, List.foldl_append]
  rfl

/-- The group tables are in order all the time exactly if every call names a
group that is there. -/
theorem integrity_iff (calls : List Request) :
    (∀ past, past <+: calls → Integrity (after past)) ↔
      ∀ past r, past ++ [r] <+: calls → Names (after past) r := by
  constructor
  · intro h past r hcall
    have hpast := h past ((List.prefix_append past [r]).trans hcall)
    rw [← hpast.complete_iff, ← after_concat]
    exact h _ hcall
  · intro h past
    induction past using List.reverseRecOn with
    | nil => exact fun _ ↦ integrity_empty
    | append_singleton past r ih =>
      intro hcall
      rw [after_concat, (ih ((List.prefix_append past [r]).trans hcall)).complete_iff]
      exact h past r hcall

/-- User 1 joins a group that does not exist and then creates the group that
gets its number. -/
def joinedBefore : List Request := [.joinGroup { userId := 1, groupId := 1 }, .createGroup { ownerId := 1 }]

theorem not_integrity : ¬ ∀ calls, Integrity (after calls) := by
  intro h
  have howner : (after joinedBefore).members.rows = [⟨1, 1, 1⟩] ∧
      (after joinedBefore).groups.rows = [(1, ⟨[], 1⟩)] := by decide
  have howned := (h joinedBefore).owned (1, ⟨[], 1⟩) (howner.2 ▸ List.mem_singleton_self _)
  rw [howner.1] at howned
  exact absurd howned (by decide)

end TinyIM.Relation.GroupIntegrity

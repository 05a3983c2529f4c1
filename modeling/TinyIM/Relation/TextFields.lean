import TinyIM.Auth.Registration
import TinyIM.Library.SqlStatement
import TinyIM.Relation.RelationService

namespace TinyIM.Relation.TextFields

open Library.ByteOrder Library.Decimal Library.Delimited Library.SqlStatement Protocol Auth.Registration

def applyFriendSql (userId friendId : ℤ) (remark : Bytes) : Bytes :=
  ascii "INSERT INTO im_friend_request (user_id, friend_id, remark) VALUES (" ++ stdToString userId ++
    ascii ", " ++ stdToString friendId ++ ascii ", '" ++ remark ++ ascii "')"

def createGroupSql (name : Bytes) (ownerId : ℤ) : Bytes :=
  ascii "INSERT INTO im_group (group_name, owner_id) VALUES ('" ++ name ++ ascii "', " ++
    stdToString ownerId ++ ascii ")"

def applyGroupSql (groupId userId : ℤ) (remark : Bytes) : Bytes :=
  ascii "INSERT INTO im_group_request (group_id, user_id, remark, status) VALUES (" ++
    stdToString groupId ++ ascii ", " ++ stdToString userId ++ ascii ", '" ++ remark ++ ascii "', 0)"

/-- The inserts with text that the handlers build. -/
inductive Insert
  | register (req : RegisterReq)
  | applyFriend (req : ApplyFriendReq)
  | createGroup (req : CreateGroupReq)
  | applyGroup (req : ApplyGroupReq)

namespace Insert

def sql : Insert → Bytes
  | register req => registerSql req
  | applyFriend req => applyFriendSql req.userId req.friendId req.remark
  | createGroup req => createGroupSql req.groupName req.ownerId
  | applyGroup req => applyGroupSql req.groupId req.userId req.remark

/-- The statement before its first literal, -/
def head : Insert → Bytes
  | register _ => ascii "INSERT INTO im_user (username, password_hash, nickname) VALUES ("
  | applyFriend req =>
    ascii "INSERT INTO im_friend_request (user_id, friend_id, remark) VALUES (" ++ stdToString req.userId ++
      ascii ", " ++ stdToString req.friendId ++ ascii ", "
  | createGroup _ => ascii "INSERT INTO im_group (group_name, owner_id) VALUES ("
  | applyGroup req =>
    ascii "INSERT INTO im_group_request (group_id, user_id, remark, status) VALUES (" ++
      stdToString req.groupId ++ ascii ", " ++ stdToString req.userId ++ ascii ", "

/-- and the values that it is meant to insert, each with what follows it. -/
def fields : Insert → List (Bytes × Bytes)
  | register req => [(req.username, ascii ", "), (req.password, ascii ", "), (req.nickname, ascii ")")]
  | applyFriend req => [(req.remark, ascii ")")]
  | createGroup req => [(req.groupName, ascii ", " ++ stdToString req.ownerId ++ ascii ")")]
  | applyGroup req => [(req.remark, ascii ", 0)")]

def texts (i : Insert) : List Bytes := i.fields.map Prod.fst

theorem sql_eq (i : Insert) : i.sql = text i.head i.fields := by
  cases i <;> simp [sql, head, fields, text, registerSql, applyFriendSql, createGroupSql, applyGroupSql, ascii]

end Insert

theorem outside_stdToString (n : ℤ) : Outside (stdToString n) := by
  refine ⟨?_, ?_⟩
  · intro b hb
    have hdigit : ∀ c : UInt8, c ≠ 45 → isDigit c = false → b ≠ c := by
      rintro c hminus hdigit rfl
      exact not_mem_stdToString hminus hdigit n hb
    exact ⟨hdigit 34 (by decide) (by decide), hdigit 35 (by decide) (by decide),
      hdigit 39 (by decide) (by decide), hdigit 47 (by decide) (by decide), hdigit 96 (by decide) (by decide)⟩
  · have hdigits : ∀ b ∈ natToString n.natAbs, b ≠ 45 :=
      fun b hb ↦ (unsigned_of_isDigit (isDigit_of_mem_natToString hb)).2.1
    have hchain : (natToString n.natAbs).IsChain fun a b ↦ ¬ (a = 45 ∧ b = 45) :=
      List.Pairwise.isChain (List.pairwise_of_forall_mem_list fun a ha _ _ h ↦ hdigits a ha (And.left h))
    rw [stdToString]
    split_ifs
    · exact List.isChain_cons.mpr ⟨fun b hb h ↦ hdigits b (List.mem_of_mem_head? hb) h.2, hchain⟩
    · exact hchain

/-- A number between two constants. -/
theorem outside_number {o o' : Bytes} (h : Outside o) (n : ℤ) (h' : Outside o')
    (ho : o.getLast? ≠ some 45) (ho' : o'.head? ≠ some 45) : Outside (o ++ stdToString n ++ o') :=
  (h.append (outside_stdToString n) (.inl ho)).append h' (.inr ho')

/-- A text outside literals that has no NUL and may stand before a number. -/
def Constant (o : Bytes) : Prop :=
  (o.all fun b ↦ b ≠ 0 ∧ b ≠ 34 ∧ b ≠ 35 ∧ b ≠ 39 ∧ b ≠ 47 ∧ b ≠ 96) = true ∧
    (o.IsChain fun a b ↦ ¬ (a = 45 ∧ b = 45)) ∧ o.getLast? ≠ some 45

instance (o : Bytes) : Decidable (Constant o) := inferInstanceAs (Decidable (_ ∧ _ ∧ _))

section Constants

variable {o : Bytes}

theorem Constant.bytes (h : Constant o) {b : UInt8} (hb : b ∈ o) :
    b ≠ 0 ∧ b ≠ 34 ∧ b ≠ 35 ∧ b ≠ 39 ∧ b ≠ 47 ∧ b ≠ 96 :=
  of_decide_eq_true (List.all_eq_true.mp h.1 b hb)

theorem Constant.outside (h : Constant o) : Outside o := ⟨fun _ hb ↦ (h.bytes hb).2, h.2.1⟩

theorem Constant.zero_not_mem (h : Constant o) : 0 ∉ o := fun hzero ↦ (h.bytes hzero).1 rfl

theorem constant_heads :
    Constant (ascii "INSERT INTO im_user (username, password_hash, nickname) VALUES (") ∧
      Constant (ascii "INSERT INTO im_friend_request (user_id, friend_id, remark) VALUES (") ∧
      Constant (ascii "INSERT INTO im_group (group_name, owner_id) VALUES (") ∧
      Constant (ascii "INSERT INTO im_group_request (group_id, user_id, remark, status) VALUES (") := by
  decide +kernel

theorem constant_tails : Constant (ascii ", ") ∧ Constant (ascii ")") ∧ Constant (ascii ", 0)") := by
  decide +kernel

theorem outside_numbers (h : Constant o) (m n : ℤ) :
    Outside (o ++ stdToString m ++ ascii ", " ++ stdToString n ++ ascii ", ") := by
  have hlast : (o ++ stdToString m ++ ascii ", ").getLast? = some 32 := by
    rw [show ascii ", " = [44] ++ [32] from rfl, ← List.append_assoc, List.getLast?_concat]
  have hcomma := constant_tails.1.outside
  exact outside_number (outside_number h.outside m hcomma h.2.2 (by decide)) n hcomma
    (by rw [hlast]; decide) (by decide)

theorem zero_not_mem_stdToString (n : ℤ) : 0 ∉ stdToString n := not_mem_stdToString (by decide) (by decide) n

theorem zero_not_mem_numbers (h : Constant o) (m n : ℤ) :
    0 ∉ o ++ stdToString m ++ ascii ", " ++ stdToString n ++ ascii ", " := by
  have hcomma := constant_tails.1.zero_not_mem
  simp only [List.mem_append, not_or]
  exact ⟨⟨⟨⟨h.zero_not_mem, zero_not_mem_stdToString m⟩, hcomma⟩, zero_not_mem_stdToString n⟩, hcomma⟩

end Constants

section Parts

variable (i : Insert)

theorem outside_head : Outside i.head := by
  obtain ⟨hregister, happlyFriend, hcreateGroup, happlyGroup⟩ := constant_heads
  cases i with
  | register req => exact hregister.outside
  | applyFriend req => exact outside_numbers happlyFriend _ _
  | createGroup req => exact hcreateGroup.outside
  | applyGroup req => exact outside_numbers happlyGroup _ _

theorem outside_fields : ∀ f ∈ i.fields, Outside f.2 ∧ ∃ b ∈ f.2.head?, b ≠ 92 := by
  have hcomma := constant_tails.1.outside
  have hclose := constant_tails.2.1.outside
  cases i with
  | register req =>
    refine List.forall_mem_cons.mpr ⟨⟨hcomma, 44, rfl, by decide⟩, ?_⟩
    refine List.forall_mem_cons.mpr ⟨⟨hcomma, 44, rfl, by decide⟩, ?_⟩
    exact List.forall_mem_singleton.mpr ⟨hclose, 41, rfl, by decide⟩
  | applyFriend req => exact List.forall_mem_singleton.mpr ⟨hclose, 41, rfl, by decide⟩
  | createGroup req =>
    have hnumber := outside_number hcomma req.ownerId hclose (by decide) (by decide)
    exact List.forall_mem_singleton.mpr ⟨hnumber, 44, rfl, by decide⟩
  | applyGroup req => exact List.forall_mem_singleton.mpr ⟨constant_tails.2.2.outside, 44, rfl, by decide⟩

theorem zero_not_mem_head : 0 ∉ i.head := by
  obtain ⟨hregister, happlyFriend, hcreateGroup, happlyGroup⟩ := constant_heads
  cases i with
  | register req => exact hregister.zero_not_mem
  | applyFriend req => exact zero_not_mem_numbers happlyFriend _ _
  | createGroup req => exact hcreateGroup.zero_not_mem
  | applyGroup req => exact zero_not_mem_numbers happlyGroup _ _

theorem zero_not_mem_fields : ∀ f ∈ i.fields, 0 ∉ f.2 := by
  have hcomma := constant_tails.1.zero_not_mem
  have hclose := constant_tails.2.1.zero_not_mem
  cases i with
  | register req =>
    refine List.forall_mem_cons.mpr ⟨hcomma, List.forall_mem_cons.mpr ⟨hcomma, ?_⟩⟩
    exact List.forall_mem_singleton.mpr hclose
  | applyFriend req => exact List.forall_mem_singleton.mpr hclose
  | createGroup req =>
    refine List.forall_mem_singleton.mpr ?_
    simp only [List.mem_append, not_or]
    exact ⟨⟨hcomma, zero_not_mem_stdToString _⟩, hclose⟩
  | applyGroup req => exact List.forall_mem_singleton.mpr constant_tails.2.2.zero_not_mem

end Parts

/-- A statement whose texts have no NUL goes to MySQL whole. -/
theorem zero_not_mem_sql (i : Insert) (hnul : ∀ t ∈ i.texts, 0 ∉ t) : 0 ∉ i.sql := by
  rw [i.sql_eq]
  exact not_mem_text (by decide) (zero_not_mem_head i) fun f hf ↦
    ⟨hnul f.1 (List.mem_map_of_mem hf), zero_not_mem_fields i f hf⟩

theorem pieces_sql_iff (i : Insert) (hnul : ∀ t ∈ i.texts, 0 ∉ t) :
    pieces false (cString i.sql) = some (meant i.head i.fields) ↔ ∀ t ∈ i.texts, Verbatim t := by
  rw [cString_eq_self (zero_not_mem_sql i hnul), i.sql_eq, pieces_text_iff (outside_head i) (outside_fields i),
    Insert.texts, List.forall_mem_map]

/-- The text that MySQL reads out of an insert of one text. An insert of another shape,
or of more than 64 bytes, is not followed. -/
def Insert.textRead (i : Insert) : Option Bytes :=
  match pieces false (cString i.sql) with
  | some [_, t, _] => if t.length ≤ 64 then some t else none
  | _ => none

theorem Insert.textRead_of_plain {i : Insert} {t : Bytes} (ht : i.texts = [t]) (hplain : Plain t)
    (hlength : t.length ≤ 64) : i.textRead = some t := by
  obtain ⟨f, hf, rfl⟩ := List.map_eq_singleton_iff.mp ht
  have hpieces : pieces false (cString i.sql) = some (meant i.head i.fields) := by
    refine (pieces_sql_iff i ?_).mpr ?_
    · rw [ht]
      exact List.forall_mem_singleton.mpr hplain.1
    · rw [ht]
      exact List.forall_mem_singleton.mpr hplain.2
  rw [textRead, hpieces, hf]
  exact if_pos hlength

/-- An insert is read as one row of the values that it is meant to insert
exactly if all its texts are verbatim. -/
theorem insert_read_iff (i : Insert) (hnul : ∀ t ∈ i.texts, 0 ∉ t) :
    pieces false (cString i.sql) = some (meant i.head i.fields) ↔ ∀ t ∈ i.texts, Verbatim t :=
  pieces_sql_iff i hnul

/-- User 5 applies to group 7 with a remark that has a wildcard in it. -/
def wildcard : Insert := .applyGroup { groupId := 7, userId := 5, remark := ascii "100\\% me" }

theorem insert_read_wildcard :
    pieces false (cString wildcard.sql) = some [wildcard.head, ascii "100\\% me", ascii ", 0)"] :=
  (insert_read_iff wildcard (List.forall_mem_singleton.mpr (by decide))).mpr
    (List.forall_mem_singleton.mpr ⟨.inl rfl, trivial⟩)

/-- A group that is called `Bob's`. -/
theorem not_insert_read :
    ¬ ∀ i : Insert, (∀ t ∈ i.texts, 0 ∉ t) → pieces false (cString i.sql) = some (meant i.head i.fields) := by
  intro h
  have hread := h (.createGroup { ownerId := 1, groupName := ascii "Bob's" })
    (List.forall_mem_singleton.mpr (by decide))
  exact absurd hread (by decide +kernel)

end TinyIM.Relation.TextFields

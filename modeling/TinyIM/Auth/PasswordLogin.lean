import Mathlib.Data.List.Nodup
import TinyIM.Auth.AuthService
import TinyIM.Library.SqlStatement

namespace TinyIM.Auth.PasswordLogin

open Library.ByteOrder Library.Delimited Library.Program Library.SqlLiteral Library.SqlStatement Protocol
  Gateway

structure User where
  userId : ℤ
  username : Bytes
  passwordHash : Bytes
  nickname : Bytes
  deriving DecidableEq, Repr

structure Users where
  rows : List User
  primaryKey : (rows.map User.userId).Nodup

/-- The row as `mysql_fetch_row` gives it to C++. -/
def User.fetched (u : User) : UserRow := ⟨u.userId, cString u.nickname, cString u.passwordHash⟩

def query : Bytes :=
  ascii "SELECT user_id, nickname, password_hash FROM im_user WHERE username='"

-- the comparison of the column, the words that can follow a value in a `WHERE`
-- clause, and what MySQL answers to statements that go on behind the literal
variable (same : Bytes → Bytes → Prop) (continues : Bytes → Prop) (answers : Bytes → UserRow → Prop)
  (users : Users)

/-- Behind the literal stands a word that cannot stand there. -/
def Misplaced (rest : Bytes) : Prop := word rest ≠ [] ∧ ¬ continues (word rest)

/-- The rows that MySQL may answer with. -/
def MayFetch (sql : Bytes) (row : UserRow) : Prop :=
  match read (sql.drop query.length) with
  | .unterminated => False
  | .exactly value => ∃ u ∈ users.rows, same value u.username ∧ row = u.fetched
  | .followed rest => ¬ Misplaced continues rest ∧ answers sql row

def mysql : Contract Command Answer Unit where
  may _ _ := True
  answers
    | _, .selectUser sql, some (some row) => MayFetch same continues answers users sql row
    | _, _, _ => True
  after _ _ _ := ()

/-- Whoever is logged in has the username and the password of the request. -/
def Proper (req : LoginReq) (reply : Status × LoginResp) : Prop :=
  reply.2.success → ∃ u ∈ users.rows, u.userId = reply.2.userId ∧ u.username = req.username ∧
    u.passwordHash = req.password

/-- Logging in by this username is sound, whatever the password. -/
def Sound (username : Bytes) : Prop :=
  ∀ req : LoginReq, req.username = username →
    Meets (mysql same continues answers users) (fun _ reply ↦ Proper users req reply) () (login req)

/-- The statement fails, or its literal is all that follows and finds only
users of the very name, or it goes on and MySQL answers with nobody else. -/
def Guarded (username : Bytes) : Prop :=
  match read ((loginSql username).drop query.length) with
  | .unterminated => True
  | .exactly value => ∀ u ∈ users.rows, same value u.username →
      u.username = username ∧ 0 ∉ u.passwordHash
  | .followed rest => Misplaced continues rest ∨ ∀ row, answers (loginSql username) row →
      ∃ u ∈ users.rows, u.userId = row.userId ∧ u.username = username ∧ u.passwordHash = row.passwordHash

variable {same continues answers users} {req : LoginReq} {row : UserRow} {device : Bytes}
  {Q : Unit → Status × LoginResp → Prop}

theorem allowsPick : AllowsPick (mysql same continues answers users) :=
  ⟨fun _ _ ↦ ⟨trivial, fun _ ↦ rfl⟩, fun _ _ ↦ ⟨trivial, fun _ ↦ rfl⟩,
    fun _ _ ↦ ⟨trivial, fun _ ↦ rfl⟩⟩

theorem openSession_mysql (hQ : ∀ token, Q () (none, ⟨row.userId, token, row.nickname, true, []⟩)) :
    Meets (mysql same continues answers users) Q () (openSession row device) := by
  have hkick : Meets (mysql same continues answers users) (fun t' _ ↦ t' = ()) () (kickOut row.userId device) :=
    kickOut_meets (fun _ ↦ ⟨trivial, fun _ ↦ rfl⟩) (meets_perform.mpr ⟨trivial, fun _ _ ↦ rfl⟩)
  refine openSession_meets ⟨trivial, fun _ ↦ rfl⟩ hkick allowsPick fun now ↦ ?_
  exact meets_perform_bind.mpr ⟨trivial, fun _ _ ↦ meets_perform.mpr ⟨trivial, fun _ _ ↦ hQ _⟩⟩

theorem of_openSession (h : Meets (mysql same continues answers users) Q () (openSession row device)) :
    ∃ token, Q () (none, ⟨row.userId, token, row.nickname, true, []⟩) := by
  have hlocation := h.2 (0 : ℕ) trivial
  have hsession := hlocation.2 [] trivial
  have hstore := hsession.2 [] trivial
  have hexpire := hstore.2 () trivial
  have hkeys := hexpire.2 () trivial
  exact ⟨_, hkeys.2 [] trivial⟩

/-- A login succeeds with each row that MySQL may answer with, by the password
in that row. -/
theorem sound_iff_fetched (username : Bytes) :
    Sound same continues answers users username ↔
      ∀ row, MayFetch same continues answers users (loginSql username) row →
        ∃ u ∈ users.rows, u.userId = row.userId ∧ u.username = username ∧
          u.passwordHash = row.passwordHash := by
  constructor
  · intro h row hrow
    have hfound := (h { username := username, password := row.passwordHash } rfl).2 true trivial
    have hopen : Meets (mysql same continues answers users) _ ()
        (if row.passwordHash ≠ row.passwordHash then _ else _) :=
      hfound.2 (some (some row)) hrow
    rw [if_neg (not_not_intro rfl)] at hopen
    obtain ⟨token, hproper⟩ := of_openSession hopen
    exact hproper rfl
  · intro h req heq
    subst heq
    refine login_meets ⟨trivial, fun _ ↦ rfl⟩ trivial ?_ ?_
    · exact fun _ _ hrefused hsuccess ↦ absurd hsuccess (hrefused ▸ Bool.false_ne_true)
    · intro row hfound hpassword
      refine openSession_mysql fun token _ ↦ ?_
      rw [← hpassword]
      exact h row hfound

theorem Users.eq_of_userId {u v : User} (hu : u ∈ users.rows) (hv : v ∈ users.rows)
    (h : u.userId = v.userId) : u = v :=
  List.inj_on_of_nodup_map users.primaryKey hu hv h

variable {username : Bytes}

theorem guarded_of_sound (h : Sound same continues answers users username) :
    Guarded same continues answers users username := by
  rw [sound_iff_fetched] at h
  rw [Guarded]
  simp only [MayFetch] at h
  cases hread : read ((loginSql username).drop query.length) with
  | unterminated => exact trivial
  | exactly value =>
    intro u hu hsame
    rw [hread] at h
    obtain ⟨v, hv, hid, hname, hhash⟩ := h u.fetched ⟨u, hu, hsame, rfl⟩
    obtain rfl := Users.eq_of_userId hv hu hid
    have hwhole : cString v.passwordHash = v.passwordHash := hhash.symm
    exact ⟨hname, hwhole ▸ zero_not_mem_cString⟩
  | followed rest =>
    rw [hread] at h
    by_cases hrest : Misplaced continues rest
    · exact .inl hrest
    · exact .inr fun row hrow ↦ h row ⟨hrest, hrow⟩

theorem sound_of_guarded (h : Guarded same continues answers users username) :
    Sound same continues answers users username := by
  rw [sound_iff_fetched]
  intro row hrow
  rw [Guarded] at h
  rw [MayFetch] at hrow
  cases hread : read ((loginSql username).drop query.length) with
  | unterminated =>
    rw [hread] at hrow
    exact hrow.elim
  | exactly value =>
    rw [hread] at h hrow
    obtain ⟨u, hu, hsame, rfl⟩ := hrow
    obtain ⟨hname, hhash⟩ := h u hu hsame
    exact ⟨u, hu, rfl, hname, (cString_eq_self hhash).symm⟩
  | followed rest =>
    rw [hread] at h hrow
    exact h.elim (fun hmisplaced ↦ absurd hmisplaced hrow.1) fun hproper ↦ hproper row hrow.2

/-- Password login is sound for a username exactly when the statement built
from it is guarded. -/
theorem sound_iff (same : Bytes → Bytes → Prop) (continues : Bytes → Prop)
    (answers : Bytes → UserRow → Prop) (users : Users) (username : Bytes) :
    Sound same continues answers users username ↔ Guarded same continues answers users username :=
  ⟨guarded_of_sound, sound_of_guarded⟩

theorem loginSql_plain (hnul : 0 ∉ username) (hfits : username.length ≤ 185) :
    (loginSql username).drop query.length = username ++ [39] := by
  have hcut : cString username = username := cString_eq_self hnul
  have hquery : query.length = 69 := by decide
  have hsql : loginSql username = query ++ (username ++ [39]) := by
    have hquote : ascii "'" = [39] := by decide
    have hlen : (query ++ (username ++ [39])).length ≤ 255 := by
      simp only [List.length_append, List.length_singleton, hquery]
      omega
    change ((query ++ cString username) ++ ascii "'").take 255 = _
    rw [hcut, hquote, List.append_assoc, List.take_of_length_le hlen]
  rw [hsql, List.drop_left]

-- a word that has no meaning behind the literal, and a quote that is left open
example :
    read ((loginSql (ascii "O'Brien's")).drop query.length) = .followed (ascii "Brien's'") ∧
      read ((loginSql (ascii "x'\"")).drop query.length) = .unterminated := by
  decide

/-- A username that stands for itself and fits the buffer is sound when the
column compares exactly. -/
theorem sound_of_verbatim (hverbatim : Verbatim username) (hnul : 0 ∉ username)
    (hfits : username.length ≤ 185) (hhash : ∀ u ∈ users.rows, 0 ∉ u.passwordHash) :
    Sound (· = ·) continues answers users username := by
  apply sound_of_guarded
  rw [Guarded, loginSql_plain hnul hfits, read_of_verbatim hverbatim]
  intro u hu hname
  exact ⟨hname.symm, hhash u hu⟩

def alice : Users := ⟨[⟨1, ascii "alice", ascii "pw", []⟩], by simp⟩

/-- MySQL drops the backslash, and user 1 is logged in by another name. -/
theorem not_sound :
    ¬ Sound (· = ·) (fun _ ↦ False) (fun _ _ ↦ False) alice (ascii "\\alice") := by
  intro h
  have hguarded := guarded_of_sound h
  have hread : read ((loginSql (ascii "\\alice")).drop query.length) = .exactly (ascii "alice") := by
    decide
  rw [Guarded, hread] at hguarded
  obtain ⟨hname, -⟩ := hguarded _ (List.mem_singleton.mpr rfl) rfl
  exact absurd hname (by decide)

end TinyIM.Auth.PasswordLogin

import TinyIM.Library.Delimited
import TinyIM.Library.Program
import TinyIM.Protocol.Messages
import TinyIM.Protocol.Packet

namespace TinyIM.Auth.Registration

open Library.ByteOrder Library.Delimited Library.Program Protocol

structure RegisterReq where
  username : Bytes := []
  password : Bytes := []
  nickname : Bytes := []
  deriving DecidableEq, Repr

structure RegisterResp where
  userId : ℤ := 0
  success : Bool := false
  errorMessage : Bytes := []
  deriving DecidableEq, Repr

/-- What `Register` asks of MySQL. -/
inductive Command
  | connectWrite
  | insertUser (sql : Bytes)
  deriving DecidableEq, Repr

/-- An insert answers the id of the new row, and `none` if it fails. -/
abbrev Answer : Command → Type
  | .connectWrite => Bool
  | .insertUser _ => Option ℕ

abbrev Handler := Prog Command Answer

abbrev ask (c : Command) : Handler (Answer c) := Prog.perform c

def registerSql (req : RegisterReq) : Bytes :=
  ascii "INSERT INTO im_user (username, password_hash, nickname) VALUES ('" ++ req.username ++
    ascii "', '" ++ req.password ++ ascii "', '" ++ req.nickname ++ ascii "')"

def finishRegister : Option ℕ → Status × RegisterResp
  | none => (none, { errorMessage := ascii "Register failed: User may exist" })
  | some id => (none, { success := true, userId := id })

def register (req : RegisterReq) : Handler (Status × RegisterResp) :=
  if req.username = [] ∨ req.password = [] then
    return (none, { errorMessage := ascii "Username or password cannot be empty" })
  else do
    let valid ← ask .connectWrite
    if !valid then return (some (ascii "Database error"), {})
    else
      let id ← ask (.insertUser (cString (registerSql req)))
      return finishRegister id

end TinyIM.Auth.Registration

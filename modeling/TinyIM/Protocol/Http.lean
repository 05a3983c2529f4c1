import TinyIM.Protocol.Packet

namespace TinyIM.Protocol.Http

open Library.ByteOrder

inductive Verb
  | get
  | post
  | options
  | other
  deriving DecidableEq, Repr

structure Request where
  method : Verb := .get
  target : Bytes := []
  version : ℕ := 11
  keepAlive : Bool := true
  body : Bytes := []
  deriving DecidableEq, Repr

structure Response where
  result : ℕ := 200
  version : ℕ := 11
  keepAlive : Bool := true
  fields : List (Bytes × Bytes) := []
  contentLength : Option ℕ := none
  body : Bytes := []
  deriving DecidableEq, Repr

def Response.preparePayload (res : Response) : Response := { res with contentLength := some res.body.length }

/-- What both HTTP servers answer to a body that they cannot read. -/
def badRequest (res : Response) : Response := { res with result := 400, body := ascii "Invalid JSON" }

/-- The header fields that both HTTP servers set. -/
def commonFields (server : String) : List (Bytes × Bytes) :=
  [(ascii "Server", ascii server), (ascii "Content-Type", ascii "application/json"),
    (ascii "Access-Control-Allow-Origin", ascii "*"),
    (ascii "Access-Control-Allow-Methods", ascii "GET, POST, OPTIONS"),
    (ascii "Access-Control-Allow-Headers", ascii "Content-Type")]

end TinyIM.Protocol.Http

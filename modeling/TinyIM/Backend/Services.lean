import Mathlib.Data.Finset.Sort
import TinyIM.Chat.Mailbox
import TinyIM.Relation.SocialNetwork

namespace TinyIM.Backend.Services

open Chat (World)
open Chat.Mailbox (Mail Mailboxes)
open Library.ByteOrder Library.Program Library.Service Library.Table Protocol
open Relation.RelationService (Request Tables)
open Relation.SocialNetwork (Network View)

/-- `im_group_member` as `SendMessage` reads it. -/
def chatMembers (members : Keyed Relation.RelationService.MemberRow.key) : Keyed Chat.MemberRow.key where
  rows := members.rows.map fun m ↦ ⟨m.groupId, m.userId⟩
  nodup := by
    rw [List.map_map]
    exact members.nodup

/-- The chat service and the relation service over one MySQL. -/
structure Servers where
  tables : Tables
  chat : World
  members : chat.members = chatMembers tables.members
  relations : chat.relations = tables.relations

/-- The commands that fail in the `SendMessage` that a call is or makes, and what the
slaves show for what the master holds. -/
structure Env where
  fails : ℕ → Bool
  tables : Tables → Tables
  timeline : World → World

/-- Nothing fails, and the slaves are up to date. -/
def Env.calm : Env := ⟨fun _ ↦ false, id, id⟩

/-- A call of one of the services, or a change of `im_user`, or of the sessions in
Redis and of the clock. -/
inductive Call
  | relation (r : Request) (env : Env)
  | users (nicknames : List (ℤ × Bytes))
  | send (env : Env) (req : SendMessageReq)
  | sync (env : Env) (req : SyncMessagesReq)
  | others (hashes : Bytes → AList fun _ : Bytes ↦ Bytes) (clock : Bytes)

inductive Answer
  | related (view : View)
  | chat (outcome : Chat.Mailbox.Outcome)

namespace Servers

variable (s : Servers)

/-- What a `SendMessage` works on that reads the members of groups from these tables. It
looks for friends on the master. -/
def asking (t : Tables) : World := { s.chat with members := chatMembers t.members }

def send (env : Env) (req : SendMessageReq) : Servers where
  tables := s.tables
  chat := { (Chat.Acknowledgement.send env.fails (s.asking (env.tables s.tables)) req).state with
    members := s.chat.members
    relations := s.chat.relations }
  members := s.members
  relations := s.relations

def sendReply (env : Env) (req : SendMessageReq) : Chat.Reply :=
  (Chat.Acknowledgement.send env.fails (s.asking (env.tables s.tables)) req).value

/-- The messages that a relation call asks for are sent after its last statement. -/
def tell (env : Env) (notices : List SendMessageReq) : Servers :=
  notices.foldl (fun s req ↦ s.send env req) s

def relate (call : Relation.SocialNetwork.Call) : Servers where
  tables := (Relation.SocialNetwork.serve s.tables call).1
  chat := { s.chat with
    members := chatMembers (Relation.SocialNetwork.serve s.tables call).1.members
    relations := (Relation.SocialNetwork.serve s.tables call).1.relations }
  members := rfl
  relations := rfl

def others (hashes : Bytes → AList fun _ : Bytes ↦ Bytes) (clock : Bytes) : Servers :=
  { s with chat := { s.chat with redis := { s.chat.redis with hashes := hashes }, clock := clock } }

/-- The rows that a slave shows to `SyncMessages`. -/
def shown (env : Env) : World :=
  { s.chat with index := (env.timeline s.chat).index, bodies := (env.timeline s.chat).bodies }

/-- A call of the relation service that lists from a slave. -/
def asked (env : Env) (r : Request) : Relation.SocialNetwork.Call := .request (env.tables s.tables) r

/-- The services as they are. -/
def serve : Server Servers Call Answer
  | s, .relation r env =>
    let d := Relation.SocialNetwork.serve s.tables (s.asked env r)
    ((s.relate (s.asked env r)).tell env d.2.2, .related d.2.1)
  | s, .users nicknames => (s.relate (.users nicknames), .related .changed)
  | s, .send env req => (s.send env req, .chat (.sent (s.sendReply env req)))
  | s, .sync env req => (s, .chat (.synced (Chat.syncMessages (s.shown env) req)))
  | s, .others hashes clock => (s.others hashes clock, .chat .changed)

/-- Before the first call. -/
def start (hashes : Bytes → AList fun _ : Bytes ↦ Bytes) (clock : Bytes) : Servers :=
  ⟨.empty, ⟨[], 1, .empty, .empty, .empty, ⟨hashes, fun _ ↦ 0⟩, clock⟩, rfl, rfl⟩

end Servers

/-- Texts that are stored as they are given, slaves that are up to date when they are
asked, and a `SendMessage` that fails before it stores a body, or only when it notifies. -/
def Sound (s : Servers) : Call → Prop
  | .relation r env =>
    Relation.SocialNetwork.Sound s.tables (s.asked env r) ∧
      env.tables (s.relate (s.asked env r)).tables = (s.relate (s.asked env r)).tables ∧
      ∀ req ∈ (Relation.SocialNetwork.serve s.tables (s.asked env r)).2.2,
        Chat.Mailbox.Sound (s.relate (s.asked env r)).chat (.send env.fails req)
  | .send env req => env.tables s.tables = s.tables ∧ Chat.Mailbox.Sound s.chat (.send env.fails req)
  | .sync env _ => (env.timeline s.chat).index = s.chat.index ∧ (env.timeline s.chat).bodies = s.chat.bodies
  | .users _ => True
  | .others _ _ => True

/-- What the two services are for together: the network says who may write to
whom, and whatever is written lands in the boxes. -/
structure Messenger where
  network : Network
  box : ℤ → List Mail
  nextMsgId : ℕ
  clock : Bytes

namespace Messenger

variable (m : Messenger)

def membersIn (groupId : ℤ) : List ℤ :=
  ((m.network.members.filter fun e ↦ e.1 = groupId).image Prod.snd).sort (· ≤ ·)

/-- The boxes, with the members and the friends of the network. -/
def mailboxes : Mailboxes :=
  ⟨m.box, m.nextMsgId, m.membersIn, fun u v ↦ (u, v) ∈ m.network.friends, m.clock⟩

def send (fails : ℕ → Bool) (req : SendMessageReq) : Messenger :=
  let d := m.mailboxes.send fails req
  { m with box := d.1.box, nextMsgId := d.1.nextMsgId }

def tell (fails : ℕ → Bool) (notices : List SendMessageReq) : Messenger :=
  notices.foldl (fun m req ↦ m.send fails req) m

def serve : Server Messenger Call Answer
  | m, .relation r env =>
    let d := m.network.request r
    ({ m with network := d.1 }.tell env.fails d.2.2, .related d.2.1)
  | m, .users nicknames => ({ m with network := m.network.setNicknames nicknames }, .related .changed)
  | m, .send env req => (m.send env.fails req, .chat (.sent (m.mailboxes.send env.fails req).2))
  | m, .sync _ req => (m, .chat (.synced (some (m.mailboxes.sync req))))
  | m, .others _ clock => ({ m with clock := clock }, .chat .changed)

def start (clock : Bytes) : Messenger := ⟨.empty, fun _ ↦ [], 1, clock⟩

end Messenger

/-- The tables hold the network and the boxes. -/
structure Holds (s : Servers) (m : Messenger) : Prop where
  network : Relation.SocialNetwork.Holds s.tables m.network
  mail : Chat.Mailbox.Holds s.chat { m.mailboxes with members := s.chat.membersOf }

end TinyIM.Backend.Services

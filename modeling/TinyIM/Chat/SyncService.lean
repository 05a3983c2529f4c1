import TinyIM.Chat.ChatService

namespace TinyIM.Chat.SyncService

open Library.Program Protocol

/-- What `SyncMessages` asks of MySQL, on a read connection. -/
inductive Command
  | connectRead
  | selectTimeline (userId localSeq : ℤ) (limit : ℕ) (reverse : Bool)
  deriving DecidableEq, Repr

/-- The query fails (`none`), has no result set (`some none`), or gives rows. -/
abbrev Answer : Command → Type
  | .connectRead => Bool
  | .selectTimeline _ _ _ _ => Option (Option (List TimelineRow))

abbrev Handler := Prog Command Answer

abbrev ask (c : Command) : Handler (Answer c) := Prog.perform c

/-- `none` where the fetch loop throws. -/
def finishSync (req : SyncMessagesReq) : Option (Option (List TimelineRow)) → Option SyncMessagesResp
  | none => some { success := false }
  | some none => some { success := true }
  | some (some rows) =>
    (rows.mapM TimelineRow.item?).map fun msgs ↦
      { maxSeq := msgs.foldl (fun maxSeq m ↦ if m.seqId > maxSeq then m.seqId else maxSeq) req.localSeq
        msgs := msgs
        success := true }

def syncMessages (req : SyncMessagesReq) : Handler (Option SyncMessagesResp) := do
  -- the source does not look at whether the connection is valid
  let _valid ← ask .connectRead
  let found ← ask (.selectTimeline req.userId req.localSeq (pageLimit req.limit) req.reverse)
  return finishSync req found

/-- A read connection that works. -/
def working (w : World) : (c : Command) → World × Answer c
  | .connectRead => (w, true)
  | .selectTimeline userId localSeq limit reverse =>
    (w, some (some (w.selectTimeline userId localSeq limit reverse)))

/-- On such a connection the handler is `Chat.syncMessages`. -/
theorem run_syncMessages (w : World) (req : SyncMessagesReq) :
    (run (fun _ ↦ working) 0 w (syncMessages req)).value = Chat.syncMessages w req := rfl

end TinyIM.Chat.SyncService

import TinyIM.Chat.BatchInsert
import TinyIM.Library.Journal

namespace TinyIM.Chat.ExactFanOut

open Library.ByteOrder Library.Transition Library.Program Library.Interleaving Library.Journal
  Library.Table Protocol Store BatchInsert

def rowOf : List ℤ → Option IndexRow
  | [ownerId, otherId, .ofNat msgId, .ofNat seqId, .ofNat isSender] =>
    some ⟨ownerId, otherId, msgId, seqId, isSender⟩
  | _ => none

/-- The rows that MySQL reads in the statement, one for each tuple. -/
def readInsert (sql : Bytes) : Option (List IndexRow) :=
  if batchHead <+: sql then
    (Library.ValueList.rows (sql.drop batchHead.length)).bind fun rows ↦ rows.mapM rowOf
  else none

/-- What decides a command beside the stores: whether it works, and what the
member query returns. -/
structure Env where
  ok : Bool
  members : Option (List ℤ)

def exec (env : Env) (w : World) : (c : Request) → World × Response c
  | .command (.selectMembers _) => (w, env.members)
  | .command c => w.perform env.ok c
  | .query sql =>
    match readInsert sql with
    | some rows => w.perform env.ok (.insertIndex rows)
    | none => (w, false)

/-- Other services change groups, friends and sessions, and time goes on. -/
structure Event where
  members : Keyed MemberRow.key
  relations : Keyed RelationRow.key
  hashes : Bytes → AList fun _ : Bytes ↦ Bytes
  clock : Bytes

def outside (o : Event) (w : World) : Option World :=
  some { w with
    members := o.members, relations := o.relations, clock := o.clock
    redis := { w.redis with hashes := o.hashes } }

abbrev system := recorded BatchInsert.sendMessage exec outside

abbrev SendCalls := Calls Request Response Reply World SendMessageReq

abbrev SendEntry := Entry Request Response World

abbrev SendExchange := Exchange Request Response

def Succeeded : (c : Request) → Response c → Prop
  | .command .connectWrite, valid => valid = true
  | .command .connectRead, valid => valid = true
  | .command (.insertBody _ _ _ _), body => body.isSome
  | .command (.selectMembers _), found => found.isSome
  | .command (.selectRelation _ _), status => status.isSome
  | .command (.incr _), n => n.isSome
  | .command (.insertIndex _), inserted => inserted = true
  | .query _, inserted => inserted = true
  | _, _ => True

section Statement

variable (req : SendMessageReq) (msgId : ℕ)

/-- The text of `batch_sql`. -/
def batchText (targets : List (ℤ × ℕ)) : Bytes :=
  batchHead ++ [44].intercalate (targets.map fun t ↦ tuple t.1 req.groupId msgId t.2)

def opening (ms : List ℤ) : List SendExchange :=
  [⟨.command .connectWrite, true⟩, ⟨.command .connectRead, true⟩,
    ⟨.command (.insertBody req.senderId req.groupId req.type req.content), some msgId⟩,
    ⟨.command (.selectMembers req.groupId), some ms⟩]

/-- One `INCR` for each member, with the number that it answered. -/
def draws (targets : List (ℤ × ℕ)) : List SendExchange :=
  targets.map fun t ↦ ⟨.command (.incr (seqKey t.1)), some t.2⟩

end Statement

def addedRows (e : SendEntry) : List IndexRow := e.after.index.rows.drop e.before.index.rows.length

/-- What the `i`-th call, a message to a group with the members `ms`, has done
since the world was `w`. -/
structure FansOut (w : World) (s : Recorded Request Response World) (i : ℕ) (req : SendMessageReq)
    (ms : List ℤ) (msgId : ℕ) (targets : List (ℤ × ℕ)) : Prop where
  members : targets.map Prod.fst = ms
  /-- The call sends one `INSERT`, or none when there are no members, -/
  issued : ∃ pushes : List SendExchange,
    journalOf i s = opening req msgId ms ++
      (if ms = [] then [] else draws targets ++ ⟨.query (batchText req msgId targets), true⟩ :: pushes) ∧
    (ms ≠ [] → Runs (lifted (pushTargets req.type targets)) pushes ())
  /-- with one tuple for each member, -/
  tuples : ms ≠ [] → readInsert (batchText req msgId targets) = some (indexRows req.groupId msgId targets)
  /-- adds these rows -/
  added : (entriesOf i s).flatMap addedRows = indexRows req.groupId msgId targets
  one : ∀ m ∈ ms, ∃! r, r ∈ (entriesOf i s).flatMap addedRows ∧ r.ownerId = m
  appended : ∀ e ∈ entriesOf i s, e.after.index.rows = e.before.index.rows ++ addedRows e
  kept : s.world.index.rows = w.index.rows ++ s.entries.flatMap addedRows
  /-- and leaves all other users alone. -/
  others : ∀ e ∈ entriesOf i s, ∀ u ∉ ms,
    e.after.inbox u = e.before.inbox u ∧
      e.after.redis.counters (seqKey u) = e.before.redis.counters (seqKey u)

section Reader

variable {rows : List IndexRow}

theorem insertSql_eq :
    insertSql rows = batchHead ++ Library.ValueList.printedRows
      (rows.map fun r ↦ [r.ownerId, r.otherId, r.msgId, r.seqId, r.isSender]) := by
  rw [insertSql, Library.ValueList.printedRows, List.map_map]
  rfl

theorem readInsert_insertSql (h : rows ≠ []) : readInsert (insertSql rows) = some rows := by
  rw [readInsert, insertSql_eq, if_pos (List.prefix_append _ _), List.drop_left,
    Library.ValueList.rows_printedRows, Option.bind_some, List.mapM_map]
  · have hread : (rowOf ∘ fun r : IndexRow ↦ [r.ownerId, r.otherId, (r.msgId : ℤ), r.seqId, r.isSender]) =
        fun r ↦ pure (id r) := rfl
    rw [hread, List.mapM_pure, List.map_id]
    rfl
  · simpa using h
  · intro zs hzs
    obtain ⟨r, -, rfl⟩ := List.mem_map.mp hzs
    exact List.cons_ne_nil _ _

theorem batchText_eq (req : SendMessageReq) (msgId : ℕ) (targets : List (ℤ × ℕ)) :
    batchText req msgId targets = insertSql (indexRows req.groupId msgId targets) := by
  simp [batchText, insertSql, indexRows, tuple_eq, Function.comp_def]

end Reader

section Effects

variable {env : Env} {w : World} {c : Request}

/-- The rows that a command adds. -/
def gain : SendExchange → List IndexRow
  | ⟨.command (.insertIndex rows), inserted⟩ => if inserted = true then rows else []
  | ⟨.query sql, inserted⟩ => if inserted = true then (readInsert sql).getD [] else []
  | _ => []

theorem perform_insertIndex (ok : Bool) (rows : List IndexRow) :
    (w.perform ok (.insertIndex rows)).1.index.rows =
        w.index.rows ++ (if (w.perform ok (.insertIndex rows)).2 = true then rows else []) ∧
      (w.perform ok (.insertIndex rows)).1.redis = w.redis := by
  cases ok with
  | false => exact ⟨(List.append_nil _).symm, rfl⟩
  | true =>
    simp only [World.perform, World.succeed, if_true]
    cases hinsert : w.index.insert rows with
    | none => exact ⟨(List.append_nil _).symm, rfl⟩
    | some index => exact ⟨(Keyed.rows_of_insert hinsert).2, rfl⟩

theorem exec_query (sql : Bytes) :
    (exec env w (.query sql)).1.index.rows = w.index.rows ++ gain ⟨.query sql, (exec env w (.query sql)).2⟩ ∧
      (exec env w (.query sql)).1.redis = w.redis := by
  cases hread : readInsert sql with
  | none =>
    have hexec : exec env w (.query sql) = (w, false) := by
      simp only [exec, hread]
    rw [hexec]
    exact ⟨(List.append_nil _).symm, rfl⟩
  | some rows =>
    have hexec : exec env w (.query sql) = w.perform env.ok (.insertIndex rows) := by
      simp only [exec, hread]
    have hgain : ∀ inserted : Bool, gain ⟨.query sql, inserted⟩ = if inserted = true then rows else [] := by
      intro inserted
      simp only [gain, hread, Option.getD_some]
    rw [hgain, hexec]
    exact perform_insertIndex env.ok rows

theorem exec_index : (exec env w c).1.index.rows = w.index.rows ++ gain ⟨c, (exec env w c).2⟩ := by
  cases c with
  | command c =>
    obtain ⟨ok, members⟩ := env
    cases c with
    | insertIndex rows => exact (perform_insertIndex ok rows).1
    | _ => cases ok <;> exact (List.append_nil _).symm
  | query sql => exact (exec_query sql).1

theorem exec_counters (env : Env) (w : World) {key : Bytes} (h : c ≠ .command (.incr key)) :
    (exec env w c).1.redis.counters key = w.redis.counters key := by
  cases c with
  | command c =>
    obtain ⟨ok, members⟩ := env
    cases c with
    | incr key' =>
      have hne : key ≠ key' := fun heq ↦ h (heq ▸ rfl)
      cases ok with
      | false => rfl
      | true => exact Function.update_of_ne hne _ _
    | insertIndex rows => exact congrFun (congrArg Redis.counters (perform_insertIndex ok rows).2) key
    | _ => cases ok <;> rfl
  | query sql => exact congrFun (congrArg Redis.counters (exec_query sql).2) key

theorem addedRows_exec (i : ℕ) (env : Env) (w : World) (c : Request) :
    addedRows ⟨i, w, ⟨c, (exec env w c).2⟩, (exec env w c).1⟩ = gain ⟨c, (exec env w c).2⟩ := by
  rw [addedRows, exec_index, List.drop_left]

theorem exec_appends (i : ℕ) (env : Env) (w : World) (c : Request) :
    (exec env w c).1.index.rows =
      w.index.rows ++ addedRows ⟨i, w, ⟨c, (exec env w c).2⟩, (exec env w c).1⟩ := by
  rw [addedRows_exec]
  exact exec_index

theorem addedRows_eq {e : SendEntry} (h : ∃ env, exec env e.before e.exchange.1 = (e.after, e.exchange.2)) :
    addedRows e = gain e.exchange ∧ e.after.index.rows = e.before.index.rows ++ addedRows e := by
  obtain ⟨i, w, ⟨c, a⟩, w'⟩ := e
  obtain ⟨env, henv⟩ := h
  have henv : exec env w c = (w', a) := henv
  obtain ⟨rfl, rfl⟩ := Prod.ext_iff.mp henv
  exact ⟨addedRows_exec i env w c, exec_appends i env w c⟩

theorem outside_index (o : Event) (w w' : World) (h : outside o w = some w') :
    w'.index.rows = w.index.rows := by
  obtain rfl := Option.some.inj h
  rfl

end Effects

section Journal

variable {req : SendMessageReq} {msgId : ℕ} {l : List SendExchange} {reply : Reply}

theorem runs_drawSeqs {members : List ℤ} {drawn : List (ℤ × ℕ)}
    (h : Runs (spelled (drawSeqs members)) l drawn) (hok : ∀ x ∈ l, Succeeded x.1 x.2) :
    drawn.map Prod.fst = members ∧ l = draws drawn := by
  induction members generalizing l drawn with
  | nil =>
    obtain ⟨rfl, rfl⟩ := h
    exact ⟨rfl, rfl⟩
  | cons m members ih =>
    rw [drawSeqs, spelled_bind, runs_bind] at h
    obtain ⟨first, rest, seq, rfl, ⟨n, _, rfl, rfl, rfl⟩, h⟩ := h
    rw [spelled_bind, runs_bind] at h
    obtain ⟨first, rest, drawn', rfl, hdrawn, rfl, rfl⟩ := h
    rw [List.forall_mem_append] at hok
    obtain ⟨hfirst, hrest⟩ := hok
    have hn : n.isSome := hfirst _ (List.mem_singleton_self _)
    obtain ⟨n, rfl⟩ := Option.isSome_iff_exists.mp hn
    rw [List.append_nil] at hrest ⊢
    obtain ⟨rfl, rfl⟩ := ih hdrawn hrest
    exact ⟨rfl, rfl⟩

theorem runs_fanOut {members : List ℤ} (h : Runs (BatchInsert.fanOut req msgId members) l reply)
    (hok : ∀ x ∈ l, Succeeded x.1 x.2) :
    ∃ targets : List (ℤ × ℕ), targets.map Prod.fst = members ∧ ∃ pushes,
      (l = if members = [] then []
        else draws targets ++ ⟨.query (batchText req msgId targets), true⟩ :: pushes) ∧
      (members ≠ [] → Runs (lifted (pushTargets req.type targets)) pushes ()) := by
  rw [BatchInsert.fanOut] at h
  split_ifs at h with hmembers
  · subst hmembers
    exact ⟨[], rfl, [], h.1, fun hne ↦ absurd rfl hne⟩
  · rw [batchLoop_eq (Nat.zero_add _), Prog.bind_assoc, runs_bind] at h
    obtain ⟨first, rest, drawn, rfl, hdrawn, h⟩ := h
    rw [Prog.pure_eq, Prog.done_bind, runs_perform_bind] at h
    obtain ⟨inserted, rest, rfl, h⟩ := h
    rw [runs_bind] at h
    obtain ⟨pushes, last, _, rfl, hpushes, rfl, -⟩ := h
    rw [List.forall_mem_append, List.forall_mem_cons] at hok
    obtain ⟨hfirst, hinserted, -⟩ := hok
    obtain ⟨hmembers', rfl⟩ := runs_drawSeqs hdrawn hfirst
    have hinserted : inserted = true := hinserted
    refine ⟨drawn, hmembers', pushes, ?_, fun _ ↦ hpushes⟩
    rw [if_neg hmembers, batchText_eq, hinserted, List.append_nil]
    rfl

/-- All that a message to a group does when nothing fails. -/
theorem runs_group (hgroup : 0 < req.groupId) (h : Runs (BatchInsert.sendMessage req) l reply)
    (hok : ∀ x ∈ l, Succeeded x.1 x.2) :
    ∃ msgId ms targets, targets.map Prod.fst = ms ∧ ∃ pushes,
      (l = opening req msgId ms ++
        if ms = [] then [] else draws targets ++ ⟨.query (batchText req msgId targets), true⟩ :: pushes) ∧
      (ms ≠ [] → Runs (lifted (pushTargets req.type targets)) pushes ()) := by
  obtain ⟨valid, _, rfl, readValid, l, rfl, h⟩ := h
  simp only [List.forall_mem_cons] at hok
  obtain ⟨hvalid, hreadValid, hok⟩ := hok
  have hvalid : valid = true := hvalid
  have hreadValid : readValid = true := hreadValid
  subst hvalid hreadValid
  obtain ⟨body, l, rfl, h⟩ := h
  rw [List.forall_mem_cons] at hok
  obtain ⟨hbody, hok⟩ := hok
  obtain ⟨msgId, rfl⟩ := Option.isSome_iff_exists.mp hbody
  simp only [if_pos hgroup] at h
  obtain ⟨found, l, rfl, h⟩ := h
  rw [List.forall_mem_cons] at hok
  obtain ⟨hfound, hok⟩ := hok
  obtain ⟨ms, rfl⟩ := Option.isSome_iff_exists.mp hfound
  obtain ⟨targets, htargets, pushes, rfl, hpushes⟩ := runs_fanOut h hok
  exact ⟨msgId, ms, targets, htargets, pushes, rfl, hpushes⟩

/-- Commands that add no row and draw no number. -/
def quiet : Contract Request Response Unit :=
  permits fun c ↦ (∀ a, gain ⟨c, a⟩ = []) ∧ ∀ key, c ≠ .command (.incr key)

theorem quiet_of_pushes {targets : List (ℤ × ℕ)} {pushes : List SendExchange}
    (h : Runs (lifted (pushTargets req.type targets)) pushes ()) :
    ∀ x ∈ pushes, gain x = [] ∧ ∀ key, x.1 ≠ .command (.incr key) := by
  have hallows : AllowsPush (quiet.comap Request.command) targets :=
    { may := fun _ ↦ ⟨fun _ ↦ ⟨⟨fun _ ↦ rfl, fun _ ↦ nofun⟩, fun _ ↦ rfl, fun _ ↦ nofun⟩,
        fun _ _ _ _ ↦ ⟨fun _ ↦ rfl, fun _ ↦ nofun⟩⟩
      after := fun _ ↦ ⟨fun _ _ ↦ rfl, fun _ _ ↦ rfl, fun _ _ _ _ _ ↦ rfl⟩ }
  have hmeets : Meets quiet _ () (lifted (pushTargets req.type targets)) :=
    meets_lift.mpr (pushTargets_meets req.type hallows fun _ hx ↦ hx)
  intro x hx
  obtain ⟨-, hgain, hincr⟩ := h.permitted hmeets (fun _ _ _ ↦ trivial) x hx
  exact ⟨hgain x.2, hincr⟩

theorem inbox_of_others {w w' : World} {rows : List IndexRow} {u : ℤ}
    (h : w'.index.rows = w.index.rows ++ rows) (hu : ∀ r ∈ rows, r.ownerId ≠ u) :
    w'.inbox u = w.inbox u := by
  have hnone : rows.filter (fun r ↦ r.ownerId = u) = [] :=
    List.filter_eq_nil_iff.mpr (by simpa using hu)
  rw [World.inbox, h, List.filter_append, hnone, List.append_nil]
  rfl

variable {ms : List ℤ} {targets : List (ℤ × ℕ)} {pushes : List SendExchange}

theorem ownerId_indexRows (groupId : ℤ) (msgId : ℕ) (targets : List (ℤ × ℕ)) :
    (indexRows groupId msgId targets).map IndexRow.ownerId = targets.map Prod.fst := by
  rw [indexRows, List.map_map]
  rfl

theorem one_row_each {rows : List IndexRow} (hnodup : (rows.map IndexRow.ownerId).Nodup) {m : ℤ}
    (hm : m ∈ rows.map IndexRow.ownerId) : ∃! r, r ∈ rows ∧ r.ownerId = m := by
  obtain ⟨r, hr, rfl⟩ := List.mem_map.mp hm
  exact ⟨r, ⟨hr, rfl⟩, fun r' hr' ↦ List.inj_on_of_nodup_map hnodup hr'.1 hr hr'.2⟩

theorem gain_draws : (draws targets).flatMap gain = [] := by
  rw [List.flatMap_eq_nil_iff]
  intro x hx
  obtain ⟨t, -, rfl⟩ := List.mem_map.mp hx
  rfl

theorem gain_journal (hmembers : targets.map Prod.fst = ms)
    (hpushes : ms ≠ [] → Runs (lifted (pushTargets req.type targets)) pushes ()) :
    (opening req msgId ms ++ if ms = [] then []
      else draws targets ++ ⟨.query (batchText req msgId targets), true⟩ :: pushes).flatMap gain =
        indexRows req.groupId msgId targets := by
  have hopening : (opening req msgId ms).flatMap gain = [] := rfl
  rw [List.flatMap_append, hopening, List.nil_append]
  split_ifs with hnil
  · subst hnil
    obtain rfl := List.map_eq_nil_iff.mp hmembers
    rfl
  · have hquery : gain ⟨.query (batchText req msgId targets), true⟩ = indexRows req.groupId msgId targets := by
      have hrows : indexRows req.groupId msgId targets ≠ [] := by
        rw [indexRows, Ne, List.map_eq_nil_iff]
        rintro rfl
        exact hnil hmembers.symm
      rw [batchText_eq]
      simp only [gain, if_true, readInsert_insertSql hrows, Option.getD_some]
    have hquiet : pushes.flatMap gain = [] :=
      List.flatMap_eq_nil_iff.mpr fun x hx ↦ (quiet_of_pushes (hpushes hnil) x hx).1
    rw [List.flatMap_append, List.flatMap_cons, gain_draws, hquery, hquiet, List.nil_append,
      List.append_nil]

theorem incr_of_journal (hmembers : targets.map Prod.fst = ms)
    (hpushes : ms ≠ [] → Runs (lifted (pushTargets req.type targets)) pushes ()) {x : SendExchange}
    (hx : x ∈ opening req msgId ms ++ if ms = [] then []
      else draws targets ++ ⟨.query (batchText req msgId targets), true⟩ :: pushes) {key : Bytes}
    (hkey : x.1 = .command (.incr key)) : ∃ m ∈ ms, key = seqKey m := by
  rcases List.mem_append.mp hx with hx | hx
  · simp only [opening, List.mem_cons, List.not_mem_nil, or_false] at hx
    rcases hx with rfl | rfl | rfl | rfl <;> cases hkey
  · split_ifs at hx with hnil
    · cases hx
    · rcases List.mem_append.mp hx with hx | hx
      · obtain ⟨t, ht, rfl⟩ := List.mem_map.mp hx
        cases hkey
        exact ⟨t.1, hmembers ▸ List.mem_map_of_mem ht, rfl⟩
      · rcases List.mem_cons.mp hx with rfl | hx
        · cases hkey
        · exact absurd hkey ((quiet_of_pushes (hpushes hnil) x hx).2 key)

end Journal

variable {w : World} {s : SendCalls} {i : ℕ} {req : SendMessageReq}
  {th : Thread Request Response Reply (List SendExchange)} {reply : Reply}

/-- A message to a group whose commands all succeed, beside any other calls. -/
theorem fan_out_exact (h : Reach system.serve anyStep (idle w) s) (hreq : s.requests[i]? = some req)
    (hgroup : 0 < req.groupId) (hth : s.pool.threads[i]? = some th) (hdone : th.prog = .done reply)
    (hok : ∀ x ∈ journalOf i s.pool.world, Succeeded x.1 x.2)
    (hdistinct : ∀ ms, ⟨.command (.selectMembers req.groupId), some ms⟩ ∈ journalOf i s.pool.world → ms.Nodup) :
    ∃ ms msgId targets, FansOut w s.pool.world i req ms msgId targets := by
  have hrecords := records_of_reach (f := fun w : World ↦ w.index.rows) exec_appends outside_index h
  obtain ⟨msgId, ms, targets, hmembers, pushes, hjournal, hpushes⟩ :=
    runs_group hgroup (runs_of_keeps hrecords hreq hth hdone) hok
  have heffects : ∀ e ∈ entriesOf i s.pool.world,
      ∃ env, exec env e.before e.exchange.1 = (e.after, e.exchange.2) :=
    fun e he ↦ hrecords.2.effects e (List.mem_of_mem_filter he)
  have hadded : (entriesOf i s.pool.world).flatMap addedRows = indexRows req.groupId msgId targets := by
    rw [← gain_journal hmembers hpushes, ← hjournal, journalOf, List.flatMap_map]
    exact List.flatMap_congr fun e he ↦ (addedRows_eq (heffects e he)).1
  have howners : (indexRows req.groupId msgId targets).map IndexRow.ownerId = ms :=
    (ownerId_indexRows _ _ _).trans hmembers
  have hnodup : ms.Nodup := by
    refine hdistinct ms (hjournal ▸ List.mem_append_left _ ?_)
    exact List.mem_of_getElem? (i := 3) rfl
  refine ⟨ms, msgId, targets, hmembers, ⟨pushes, hjournal, hpushes⟩, ?_, hadded, ?_, ?_, hrecords.2.gained, ?_⟩
  · intro hne
    rw [batchText_eq, readInsert_insertSql]
    rintro hrows
    rw [hrows] at howners
    exact hne howners.symm
  · intro m hm
    rw [hadded]
    exact one_row_each (howners.symm ▸ hnodup) (howners.symm ▸ hm)
  · exact fun e he ↦ (addedRows_eq (heffects e he)).2
  · intro e he u hu
    constructor
    · refine inbox_of_others (addedRows_eq (heffects e he)).2 ?_
      intro r hr howner
      have hmem : r ∈ indexRows req.groupId msgId targets :=
        hadded ▸ List.mem_flatMap.mpr ⟨e, he, hr⟩
      exact hu (howner ▸ howners ▸ List.mem_map_of_mem hmem)
    · obtain ⟨env, henv⟩ := heffects e he
      have hother : e.exchange.1 ≠ .command (.incr (seqKey u)) := by
        intro heq
        have hx : e.exchange ∈ journalOf i s.pool.world := List.mem_map_of_mem he
        rw [hjournal] at hx
        obtain ⟨m, hm, hkey⟩ := incr_of_journal hmembers hpushes hx heq
        exact hu (seqKey_injective hkey ▸ hm)
      have hcounters := exec_counters env e.before hother
      rw [henv] at hcounters
      exact hcounters

def quietWorld : World := ⟨[], 1, .empty, .empty, .empty, .empty, []⟩

def toGroup : SendMessageReq := { senderId := 1, groupId := 7 }

/-- A system message to user 2 takes its number while the message to the group
is under way. -/
def overtaken : List (Library.Interleaving.Action SendMessageReq Env Event) :=
  [.spawn toGroup, .spawn { senderId := 3, receiverId := 2, type := 3 }] ++
    List.replicate 4 (.step 0 ⟨true, some [2, 3]⟩) ++ List.replicate 5 (.step 1 ⟨true, none⟩) ++
    List.replicate 5 (.step 0 ⟨true, none⟩)

def overtakenJournal : List SendExchange :=
  opening toGroup 1 [2, 3] ++ draws [(2, 2), (3, 1)] ++
    [⟨.query (batchText toGroup 1 [(2, 2), (3, 1)]), true⟩,
      ⟨.command (.exists? (Gateway.sessionKey 2)), false⟩, ⟨.command (.exists? (Gateway.sessionKey 3)), false⟩]

set_option maxRecDepth 10000 in
theorem fan_out_exact_overtaken :
    ∃ (s : SendCalls) (ms : List ℤ) (msgId : ℕ) (targets : List (ℤ × ℕ)),
      FansOut quietWorld s.pool.world 0 toGroup ms msgId targets := by
  have hrun : Reach system.serve anyStep (idle quietWorld) _ := reach_of_exec overtaken rfl
  refine ⟨_, fan_out_exact (i := 0) hrun rfl (by decide) rfl rfl ?_ ?_⟩
  · change ∀ x ∈ overtakenJournal, Succeeded x.1 x.2
    simp [overtakenJournal, opening, draws, Succeeded]
  · change ∀ ms : List ℤ, _ ∈ overtakenJournal → ms.Nodup
    simp [overtakenJournal, opening, draws]

end TinyIM.Chat.ExactFanOut
